import Mathlib.Data.List.Basic
import MatrixServer.Foundation.RunRefinement

/-!
A service behind two FIFO channels.
Requests wait in one channel; the service handles the first of them against its store and may
put a reply in the other, from which replies are delivered. So what is delivered begins what the
store replies to the requests in the order in which they were asked, each reply with the store
that the requests before it have left.
-/

namespace RemoteService
open TransitionRuns

universe u v w

variable {Store : Type u} {Request : Type v} {Reply : Type w}

inductive Action (Request : Type v) (Reply : Type w) where
  | ask (request : Request)
  | handle
  | deliver (reply : Reply)

structure Service (Store : Type u) (Request : Type v) (Reply : Type w) where
  store : Store
  requests : List Request
  replies : List Reply

/-- The requests that are asked in some actions. -/
def asked (actions : List (Action Request Reply)) : List Request :=
  actions.filterMap fun
    | .ask request => some request
    | _ => none

/-- How many requests are handled in some actions. -/
def handledCount (actions : List (Action Request Reply)) : Nat :=
  actions.countP fun
    | .handle => true
    | _ => false

/-- The replies that are delivered in some actions. -/
def delivered (actions : List (Action Request Reply)) : List Reply :=
  actions.filterMap fun
    | .deliver reply => some reply
    | _ => none

section
variable (respond : Store → Request → Store × Option Reply)

def storeAfter (store : Store) (requests : List Request) : Store :=
  requests.foldl (fun store request => (respond store request).1) store

/-- What a store replies to requests, one after the other. -/
def replies : Store → List Request → List Reply
  | _, [] => []
  | store, request :: requests =>
      (respond store request).2.toList ++ replies (respond store request).1 requests

variable [DecidableEq Reply]

def Service.step (s : Service Store Request Reply) :
    Action Request Reply → Option (Service Store Request Reply)
  | .ask request => some { s with requests := s.requests ++ [request] }
  | .handle =>
      match s.requests with
      | [] => none
      | request :: rest =>
          some
            { store := (respond s.store request).1
              requests := rest
              replies := s.replies ++ (respond s.store request).2.toList }
  | .deliver reply =>
      match s.replies with
      | [] => none
      | next :: rest => if next = reply then some { s with replies := rest } else none

def serviceRuns (store : Store) :
    TransitionSystem (Service Store Request Reply) (Action Request Reply) where
  initial := ⟨store, [], []⟩
  step := Service.step respond

end

theorem replies_append (respond : Store → Request → Store × Option Reply) (store : Store)
    (front back : List Request) : replies respond store (front ++ back) =
      replies respond store front ++ replies respond (storeAfter respond store front) back := by
  induction front generalizing store with
  | nil => rfl
  | cons request front ih =>
      rw [List.cons_append, replies, ih, replies, List.append_assoc]
      rfl

variable [DecidableEq Reply] {respond : Store → Request → Store × Option Reply} {store : Store}

/-- What some actions do to a service. -/
structure Worked (respond : Store → Request → Store × Option Reply)
    (s s' : Service Store Request Reply) (actions : List (Action Request Reply))
    (handled : List Request) : Prop where
  requests : s.requests ++ asked actions = handled ++ s'.requests
  count : handled.length = handledCount actions
  store : s'.store = storeAfter respond s.store handled
  replies : s.replies ++ replies respond s.store handled = delivered actions ++ s'.replies

theorem replay_worked (actions : List (Action Request Reply)) {s s' : Service Store Request Reply}
    (h : (serviceRuns respond store).replay s actions = some s') :
    ∃ handled, Worked respond s s' actions handled := by
  induction actions generalizing s with
  | nil =>
      cases h
      exact ⟨[], List.append_nil _, rfl, rfl, List.append_nil _⟩
  | cons action actions ih =>
      obtain ⟨middle, hstep, hrest⟩ := TransitionSystem.replay_cons.mp h
      obtain ⟨handled, hworked⟩ := ih hrest
      have hrequests := hworked.requests
      have hreplies := hworked.replies
      have hstore := hworked.store
      cases action with
      | ask request =>
          cases hstep
          exact ⟨handled, by simpa [asked] using hrequests, hworked.count, hstore, hreplies⟩
      | handle =>
          simp only [serviceRuns, Service.step] at hstep
          split at hstep
          · cases hstep
          · rename_i request rest hqueue
            cases hstep
            refine ⟨request :: handled, ?_, ?_, hstore, ?_⟩
            · rw [hqueue, List.cons_append, List.cons_append]
              exact congrArg (request :: ·) hrequests
            · rw [List.length_cons, hworked.count]
              simp [handledCount]
            · rw [RemoteService.replies, ← List.append_assoc]
              exact hreplies
      | deliver reply =>
          simp only [serviceRuns, Service.step] at hstep
          split at hstep
          · cases hstep
          · rename_i next rest hqueue
            split at hstep
            · rename_i hnext
              subst hnext
              cases hstep
              refine ⟨handled, hrequests, hworked.count, hstore, ?_⟩
              rw [hqueue, List.cons_append]
              exact congrArg (next :: ·) hreplies
            · cases hstep

section
variable {actions : List (Action Request Reply)} {s : Service Store Request Reply}
  (h : (serviceRuns respond store).replay (serviceRuns respond store).initial actions = some s)
include h

/-- The first requests are handled, the others wait; what was delivered and what waits to be is
what the store replies to those handled. -/
theorem accounts :
    asked actions = (asked actions).take (handledCount actions) ++ s.requests ∧
      s.store = storeAfter respond store ((asked actions).take (handledCount actions)) ∧
      delivered actions ++ s.replies =
        replies respond store ((asked actions).take (handledCount actions)) := by
  obtain ⟨handled, hworked⟩ := replay_worked actions h
  have hrequests : asked actions = handled ++ s.requests := hworked.requests
  have htake : (asked actions).take (handledCount actions) = handled := by
    rw [hrequests, ← hworked.count, List.take_left]
  rw [htake]
  exact ⟨hrequests, hworked.store, hworked.replies.symm⟩

/-- The delivered replies begin those to all requests. -/
theorem delivered_isPrefix : delivered actions <+: replies respond store (asked actions) := by
  obtain ⟨hrequests, -, hreplies⟩ := accounts h
  rw [hrequests, replies_append, ← hreplies, List.append_assoc]
  exact List.prefix_append _ _

end

theorem replay_asks (s : Service Store Request Reply) (requests : List Request) :
    (serviceRuns respond store).replay s (requests.map .ask) =
      some { s with requests := s.requests ++ requests } := by
  induction requests generalizing s with
  | nil => simp
  | cons request requests ih =>
      refine TransitionSystem.replay_cons.mpr ⟨_, rfl, (ih _).trans ?_⟩
      simp

end RemoteService
