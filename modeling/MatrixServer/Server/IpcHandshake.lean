import MatrixServer.Common.Message
import MatrixServer.Foundation.NamedQueues
import MatrixServer.Foundation.TransitionRuns

/-!
How an IPC client gets its connection, common/IpcServer.cpp and common/IpcConnection.cpp.
A client puts the name of a queue of its own into the server's queue, the accept loop
creates a queue for what the client will send and puts that queue's name into the client's.
Names are of twenty random letters. Every use of the system's queues is a step of its own;
the clients, the accept loop and the connections take their steps in any order.
-/

namespace MatrixServer
open TransitionRuns NamedQueues

namespace Ipc

/-- The length all queues are created with. -/
def maxNumMsg : Nat := 10

def maxIpcMessageSize : Nat := 1000000

/-- `(char)(rand()%26+'a')`, twenty times -/
def randomName (rand : Nat → Nat) : Bytes :=
  (List.range 20).map fun i => (rand i % 26 + 97).toUInt8

/-- Where a client is in `connectToServer`. -/
inductive ConnectPosition where
  | idle | opening
  | creating (tempServer : Nat)
  | requesting (tempServer : Nat)
  | waiting
  | attaching (reply : Bytes)
  | returned (ok : Bool)
  | destroyed
  deriving DecidableEq

end Ipc

/-- An `IpcConnection` of a client. -/
structure IpcClient where
  position : Ipc.ConnectPosition := .idle
  mqName : Bytes := []
  receiveMQ : Option Nat := none
  sendMQ : Option Nat := none
  dead : Bool := false
  /-- the messages `sendMessage` has put into the queue -/
  told : List MatrixServerMessage := []
  /-- the messages `readLoop` has given to the callback -/
  heard : List MatrixServerMessage := []

/-- The queues of an `IpcConnection` that the accept loop has made. -/
structure IpcEnds where
  /-- the name in the request -/
  clientMQName : Bytes
  mqName : Bytes
  sendMQ : Nat
  receiveMQ : Nat

structure IpcAccepted extends IpcEnds where
  destroyed : Bool := false
  told : List MatrixServerMessage := []
  heard : List MatrixServerMessage := []

/-- Where `acceptLoop` is. -/
inductive AcceptPosition where
  | receiving
  | creating (clientMQName : Bytes)
  | opening (clientMQName : Bytes) (sendMQname : Bytes) (receiveMQ : Nat)
  | sending (clientMQName : Bytes) (sendMQname : Bytes) (receiveMQ sendMQ : Nat)

/-- The loop is about to draw a name. -/
def AcceptPosition.draws : AcceptPosition → Bool
  | .creating _ => true
  | _ => false

structure IpcSystem where
  queues : Queues Bytes Bytes
  serverMQ : Nat
  clients : Nat → IpcClient := fun _ => {}
  acceptLoop : AcceptPosition := .receiving
  connections : List IpcAccepted := []
  /-- the names that clients have drawn -/
  clientNames : List Bytes := []
  /-- the names that the accept loop has drawn -/
  serverNames : List Bytes := []
  /-- the names of queues made for clients that were gone -/
  orphans : List Bytes := []

inductive IpcEvent where
  /-- A call of `connectToServer`. -/
  | connect (client : Nat) (rand : Nat → Nat)
  /-- The next thing in `connectToServer`. -/
  | proceed (client : Nat)
  | clientSend (client : Nat) (message : MatrixServerMessage)
  | clientRead (client : Nat)
  | destroyClient (client : Nat)
  /-- The next thing in `acceptLoop`. -/
  | accept (rand : Nat → Nat)
  | serverSend (index : Nat) (message : MatrixServerMessage)
  | serverRead (index : Nat)
  | destroyConnection (index : Nat)

namespace IpcSystem
open Ipc

/-- `IpcServer::IpcServer` -/
def start (serverName : Bytes) : IpcSystem :=
  let opened := (({} : Queues Bytes Bytes).remove serverName).openOrCreate serverName
  { queues := opened.1, serverMQ := opened.2 }

def setClient (s : IpcSystem) (client : Nat) (c : IpcClient) : IpcSystem :=
  { s with clients := Function.update s.clients client c }

def setQueues (s : IpcSystem) (queues : Queues Bytes Bytes) : IpcSystem := { s with queues }

/-- `connectToServer` as far as the name is drawn. An object that has a connection is not
connected again: the callers make a new one for every attempt. -/
def connect (s : IpcSystem) (client : Nat) (rand : Nat → Nat) : Option IpcSystem :=
  let c := s.clients client
  if (c.position = .idle ∨ ∃ ok, c.position = .returned ok) ∧ c.sendMQ = none then
    let queues := if c.mqName = [] then s.queues else s.queues.remove c.mqName
    let drawn := { s with clientNames := s.clientNames ++ [randomName rand] }
    let named := { c with mqName := randomName rand, position := .opening }
    some ((drawn.setClient client named).setQueues queues)
  else none

/-- The handler of `interprocess_exception`. -/
def fail (s : IpcSystem) (client : Nat) : IpcSystem :=
  s.setClient client { s.clients client with dead := true, position := .returned false }

/-- The rest of `connectToServer`; none while a queue blocks it. -/
def proceed (serverName : Bytes) (s : IpcSystem) (client : Nat) : Option IpcSystem :=
  let c := s.clients client
  match c.position with
  | .opening =>
      match s.queues.named serverName with
      | some tempServer => some (s.setClient client { c with position := .creating tempServer })
      | none => some (s.fail client)
  | .creating tempServer =>
      let opened := s.queues.openOrCreate c.mqName
      let made := { c with receiveMQ := some opened.2, position := .requesting tempServer }
      some ((s.setClient client made).setQueues opened.1)
  | .requesting tempServer =>
      (s.queues.send maxNumMsg tempServer c.mqName).map
        (s.setClient client { c with position := .waiting }).setQueues
  | .waiting =>
      (c.receiveMQ.bind s.queues.receive).map fun received =>
        let answered :=
          if received.1.length = 20 then { c with position := .attaching received.1 }
          else { c with dead := true, position := .returned true }
        (s.setClient client answered).setQueues received.2
  | .attaching reply =>
      match s.queues.named reply with
      | some queue =>
          some (s.setClient client
            { c with sendMQ := some queue, dead := false, position := .returned true })
      | none => some (s.fail client)
  | _ => none

/-- `~IpcConnection` -/
def destroyClient (s : IpcSystem) (client : Nat) : Option IpcSystem :=
  let c := s.clients client
  if c.position = .idle ∨ ∃ ok, c.position = .returned ok then
    let queues := if c.mqName = [] then s.queues else s.queues.remove c.mqName
    let destroyed := { c with dead := true, sendMQ := none, position := .destroyed }
    some ((s.setClient client destroyed).setQueues queues)
  else none

/-- `acceptLoop`; none while it waits for a request or for room in the client's queue. -/
def accept (s : IpcSystem) (rand : Nat → Nat) : Option IpcSystem :=
  match s.acceptLoop with
  | .receiving =>
      (s.queues.receive s.serverMQ).map fun received =>
        { s with queues := received.2, acceptLoop := .creating received.1 }
  | .creating clientMQName =>
      let opened := s.queues.openOrCreate (randomName rand)
      some { s with
        queues := opened.1
        serverNames := s.serverNames ++ [randomName rand]
        acceptLoop := .opening clientMQName (randomName rand) opened.2 }
  | .opening clientMQName sendMQname receiveMQ =>
      match s.queues.named clientMQName with
      | some sendMQ =>
          some { s with acceptLoop := .sending clientMQName sendMQname receiveMQ sendMQ }
      | none =>
          some { s with acceptLoop := .receiving, orphans := s.orphans ++ [sendMQname] }
  | .sending clientMQName sendMQname receiveMQ sendMQ =>
      (s.queues.send maxNumMsg sendMQ sendMQname).map fun queues =>
        { s with
          queues
          acceptLoop := .receiving
          connections :=
            s.connections ++ [{ clientMQName, mqName := sendMQname, sendMQ, receiveMQ }] }

/-- All names there were, the server's among them. -/
def drawn (serverName : Bytes) (s : IpcSystem) : List Bytes :=
  serverName :: (s.clientNames ++ s.serverNames)

def setConnection (s : IpcSystem) (index : Nat) (c : IpcAccepted) : IpcSystem :=
  { s with connections := s.connections.set index c }

section
variable (serializeAsString : MatrixServerMessage → Bytes)
  (parseFromString : Bytes → Option MatrixServerMessage)

/-- `sendMessage` on a queue: what becomes of the queues and of the messages told. -/
def sendMessage (s : IpcSystem) (sendMQ : Nat) (told : List MatrixServerMessage)
    (message : MatrixServerMessage) : Option (Queues Bytes Bytes × List MatrixServerMessage) :=
  let sendBuffer := serializeAsString message
  if sendBuffer.length > maxIpcMessageSize then some (s.queues, told)
  else (s.queues.send maxNumMsg sendMQ sendBuffer).map fun queues => (queues, told ++ [message])

/-- One turn of `readLoop`. -/
def readMessage (s : IpcSystem) (receiveMQ : Nat) (heard : List MatrixServerMessage) :
    Option (Queues Bytes Bytes × List MatrixServerMessage) :=
  (s.queues.receive receiveMQ).map fun received =>
    (received.2, heard ++ (parseFromString received.1).toList)

def clientSend (s : IpcSystem) (client : Nat) (message : MatrixServerMessage) :
    Option IpcSystem :=
  let c := s.clients client
  c.sendMQ.bind fun sendMQ =>
    (s.sendMessage serializeAsString sendMQ c.told message).map fun done =>
      (s.setClient client { c with told := done.2 }).setQueues done.1

/-- The callback that starts `readLoop` is set on a connected client only. -/
def clientRead (s : IpcSystem) (client : Nat) : Option IpcSystem :=
  let c := s.clients client
  if c.sendMQ.isSome then
    c.receiveMQ.bind fun receiveMQ =>
      (s.readMessage parseFromString receiveMQ c.heard).map fun done =>
        (s.setClient client { c with heard := done.2 }).setQueues done.1
  else none

def serverSend (s : IpcSystem) (index : Nat) (message : MatrixServerMessage) :
    Option IpcSystem :=
  s.connections[index]?.bind fun c =>
    if c.destroyed then none
    else (s.sendMessage serializeAsString c.sendMQ c.told message).map fun done =>
      (s.setConnection index { c with told := done.2 }).setQueues done.1

def serverRead (s : IpcSystem) (index : Nat) : Option IpcSystem :=
  s.connections[index]?.bind fun c =>
    if c.destroyed then none
    else (s.readMessage parseFromString c.receiveMQ c.heard).map fun done =>
      (s.setConnection index { c with heard := done.2 }).setQueues done.1

end

/-- `~IpcConnection` of the server's side -/
def destroyConnection (s : IpcSystem) (index : Nat) : Option IpcSystem :=
  s.connections[index]?.bind fun c =>
    if c.destroyed then none
    else some ((s.setConnection index { c with destroyed := true }).setQueues
      (s.queues.remove c.mqName))

end IpcSystem

def ipcSystems (serverName : Bytes) (serializeAsString : MatrixServerMessage → Bytes)
    (parseFromString : Bytes → Option MatrixServerMessage) :
    TransitionSystem IpcSystem IpcEvent where
  initial := .start serverName
  step
    | s, .connect client rand => s.connect client rand
    | s, .proceed client => s.proceed serverName client
    | s, .clientSend client message => s.clientSend serializeAsString client message
    | s, .clientRead client => s.clientRead parseFromString client
    | s, .destroyClient client => s.destroyClient client
    | s, .accept rand => s.accept rand
    | s, .serverSend index message => s.serverSend serializeAsString index message
    | s, .serverRead index => s.serverRead parseFromString index
    | s, .destroyConnection index => s.destroyConnection index

/-- No name is drawn twice, and the messages survive serialisation. -/
def FreshNames (serverName : Bytes) (serializeAsString : MatrixServerMessage → Bytes)
    (parseFromString : Bytes → Option MatrixServerMessage) (s : IpcSystem) : IpcEvent → Prop
  | .connect _ rand => Ipc.randomName rand ∉ s.drawn serverName
  | .accept rand => s.acceptLoop.draws = true → Ipc.randomName rand ∉ s.drawn serverName
  | .clientSend _ message | .serverSend _ message =>
      parseFromString (serializeAsString message) = some message
  | _ => True

instance (serverName : Bytes) (serializeAsString : MatrixServerMessage → Bytes)
    (parseFromString : Bytes → Option MatrixServerMessage) (s : IpcSystem) (e : IpcEvent) :
    Decidable (FreshNames serverName serializeAsString parseFromString s e) :=
  match e with
  | .connect _ rand => inferInstanceAs (Decidable (Ipc.randomName rand ∉ s.drawn serverName))
  | .accept rand =>
      inferInstanceAs (Decidable
        (s.acceptLoop.draws = true → Ipc.randomName rand ∉ s.drawn serverName))
  | .clientSend _ message | .serverSend _ message =>
      inferInstanceAs (Decidable (parseFromString (serializeAsString message) = some message))
  | .proceed _ | .clientRead _ | .destroyClient _ | .serverRead _ | .destroyConnection _ =>
      inferInstanceAs (Decidable True)

end MatrixServer
