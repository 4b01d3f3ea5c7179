import MatrixServer.Foundation.BlockingSends
import MatrixServer.Server.Sections

/-!
The server's threads with the message queues to and from IPC clients.
`IpcConnection::sendMessage` drops a message that is too large and otherwise
waits while the queue to the client is full; a section sends its messages one by
one and keeps `appsMutex` meanwhile. Sending to a TCP connection or a renderer
only posts the message. A client may stop reading at any time.
-/

namespace MatrixServer
open TransitionRuns ThreadPrograms BlockingSends

/-- How many messages every queue holds. -/
def maxNumMsg : Nat := 10

structure IpcSetting where
  isIpc : ConnectionId → Bool
  /-- `SerializeAsString` gives more than `MAXIPCMESSAGESIZE` bytes. -/
  tooLarge : MatrixServerMessage → Bool

structure IpcQueues where
  server : Server
  /-- how many messages wait in the queue to each IPC client -/
  queued : ConnectionId → Nat := fun _ => 0
  requests : ConnectionId → List MatrixServerMessage := fun _ => []
  stalled : List ConnectionId := []
  /-- the thread that holds `appsMutex`, and what its section has still to do -/
  holder : Option (ServerThread × List Effect) := none

inductive QueueEvent where
  | call (c : ServerCall)
  | run (thread : ServerThread)
  /-- The thread that holds the mutex does the next thing, or leaves the section. -/
  | proceed
  | request (connection : ConnectionId) (message : MatrixServerMessage)
  | read (connection : ConnectionId)
  | stall (connection : ConnectionId)

/-- The client whose queue an effect needs. -/
def IpcSetting.queueOf (w : IpcSetting) : Effect → Option ConnectionId
  | .send connection message =>
      if w.isIpc connection && !w.tooLarge message then some connection else none
  | _ => none

namespace IpcQueues

/-- `sendMQ->send`; none while the queue is full. -/
def send (q : IpcQueues) (item : Option ConnectionId) : Option IpcQueues :=
  (put maxNumMsg q.queued item).map fun queued => { q with queued }

def sendAll (q : IpcQueues) : List (Option ConnectionId) → Option IpcQueues
  | [] => some q
  | item :: items => (q.send item).bind fun q => q.sendAll items

/-- What happens before a call begins: `acceptLoop` sends the name of the new queue, and
`readLoop` takes the request. -/
def beginCall (w : IpcSetting) (q : IpcQueues) : ServerCall → Option IpcQueues
  | .newConnection connection =>
      q.send (if w.isIpc connection then some connection else none)
  | .handleRequest connection message _ _ =>
      if w.isIpc connection then
        match q.requests connection with
        | [] => none
        | first :: rest =>
            if first = message then
              some { q with requests := Function.update q.requests connection rest }
            else none
      else some q
  | _ => some q

def proceed (w : IpcSetting) (q : IpcQueues) : Option IpcQueues :=
  match q.holder with
  | none => none
  | some (_, []) => some { q with holder := none }
  | some (thread, e :: effects) =>
      (q.send (w.queueOf e)).map fun q => { q with holder := some (thread, effects) }

def request (q : IpcQueues) (connection : ConnectionId) (message : MatrixServerMessage) :
    Option IpcQueues :=
  if connection ∉ q.stalled ∧ (q.requests connection).length < maxNumMsg then
    some { q with
      requests :=
        Function.update q.requests connection (q.requests connection ++ [message]) }
  else none

def read (q : IpcQueues) (connection : ConnectionId) : Option IpcQueues :=
  if connection ∉ q.stalled ∧ 0 < q.queued connection then
    some { q with queued := Function.update q.queued connection (q.queued connection - 1) }
  else none

end IpcQueues

/-- A stage of a thread that does not hold the mutex. -/
def runQueued (w : IpcSetting) : StageRun IpcQueues ServerThread Stage
  | q, thread, .locked part =>
      match q.holder with
      | some _ => none
      | none =>
          let done := q.server.runSection part
          some ({ q with server := done.1.1, holder := some (thread, done.1.2) },
            done.2.map .job)
  | q, _, .job job =>
      let done := q.server.runJob job
      ({ q with server := done.1 }.sendAll (done.2.map w.queueOf)).map fun q => (q, [])

abbrev QueuedServer := Threads IpcQueues ServerThread Stage

namespace QueuedServer

def set (st : QueuedServer) (q : IpcQueues) : QueuedServer := { st with shared := q }

def step (w : IpcSetting) (st : QueuedServer) : QueueEvent → Option QueuedServer
  | .call c =>
      (st.shared.beginCall w c).bind fun q =>
        (st.set q).start (c.thread w.isIpc) (q.server.program c)
  | .run thread =>
      if st.shared.holder.any fun held => held.1 = thread then none
      else st.advance (runQueued w) thread
  | .proceed => (st.shared.proceed w).map st.set
  | .request connection message => (st.shared.request connection message).map st.set
  | .read connection => (st.shared.read connection).map st.set
  | .stall connection =>
      some (st.set { st.shared with stalled := connection :: st.shared.stalled })

end QueuedServer

def queueRuns (w : IpcSetting) (s : Server) : TransitionSystem QueuedServer QueueEvent where
  initial := { shared := { server := s } }
  step := QueuedServer.step w

end MatrixServer
