import Mathlib.Data.List.Sublists
import Mathlib.Logic.Function.Basic
import MatrixServer.Foundation.RunRefinement

/-!
A board for pictures from several sources.
Each source posts pictures into a queue of its own. The board takes the first picture of
a queue and puts it up or throws it away; what was put up last is on view. So what the board
has put up of a source is a selection, in order, of what the source has posted.
-/

namespace PictureBoard
open TransitionRuns

universe u v

inductive Action (Source : Type u) (Picture : Type v) where
  | post (source : Source) (picture : Picture)
  | take (source : Source) (putUp : Bool)

structure Board (Source : Type u) (Picture : Type v) where
  queued : Source → List Picture
  /-- What was put up, in order. -/
  shown : List (Source × Picture)

variable {Source : Type u} {Picture : Type v} [DecidableEq Source]

namespace Board

def empty : Board Source Picture := ⟨fun _ => [], []⟩

/-- The picture on view. -/
def onView (b : Board Source Picture) : Option Picture := b.shown.getLast?.map Prod.snd

def step (b : Board Source Picture) : Action Source Picture → Option (Board Source Picture)
  | .post source picture =>
      some { b with queued := Function.update b.queued source (b.queued source ++ [picture]) }
  | .take source putUp =>
      match b.queued source with
      | [] => none
      | picture :: rest =>
          some
            { queued := Function.update b.queued source rest
              shown := if putUp then b.shown ++ [(source, picture)] else b.shown }

/-- What was put up of one source. -/
def shownOf (b : Board Source Picture) (source : Source) : List Picture :=
  (b.shown.filter fun entry => entry.1 = source).map Prod.snd

end Board

def boardRuns (Source : Type u) (Picture : Type v) [DecidableEq Source] :
    TransitionSystem (Board Source Picture) (Action Source Picture) where
  initial := .empty
  step := Board.step

/-- The pictures a source has posted. -/
def postedBy (source : Source) (actions : List (Action Source Picture)) : List Picture :=
  actions.filterMap fun
    | .post poster picture => if poster = source then some picture else none
    | .take _ _ => none

/-- How often the board has taken a picture of a source. -/
def takenOf (source : Source) (actions : List (Action Source Picture)) : Nat :=
  actions.countP fun
    | .post _ _ => false
    | .take taken _ => taken = source

/-- The posts of a list of pictures, one after the other. -/
def posts (entries : List (Source × Picture)) : List (Action Source Picture) :=
  entries.map fun entry => .post entry.1 entry.2

theorem replay_posts (b : Board Source Picture) (entries : List (Source × Picture)) :
    (boardRuns Source Picture).replay b (posts entries) =
      some
        { b with
          queued := fun source =>
            b.queued source ++ (entries.filter fun entry => entry.1 = source).map Prod.snd } := by
  induction entries generalizing b with
  | nil =>
      simp only [List.filter_nil, List.map_nil, List.append_nil]
      rfl
  | cons entry entries ih =>
      refine TransitionSystem.replay_cons.mpr ⟨_, rfl, (ih _).trans ?_⟩
      congr 2
      funext source
      by_cases hsource : entry.1 = source
      · subst hsource
        simp
      · simp [hsource, Ne.symm hsource]

@[simp] theorem postedBy_append (source : Source) (front back : List (Action Source Picture)) :
    postedBy source (front ++ back) = postedBy source front ++ postedBy source back :=
  List.filterMap_append

@[simp] theorem takenOf_append (source : Source) (front back : List (Action Source Picture)) :
    takenOf source (front ++ back) = takenOf source front + takenOf source back :=
  List.countP_append

/-- What becomes of a source's pictures between two boards: some have left the queue, of these
a selection was put up, and others have come. -/
structure Passed (source : Source) (b b' : Board Source Picture)
    (actions : List (Action Source Picture)) (left selected : List Picture) : Prop where
  queue : b.queued source ++ postedBy source actions = left ++ b'.queued source
  taken : left.length = takenOf source actions
  shown : b'.shownOf source = b.shownOf source ++ selected
  selection : selected.Sublist left
  complete : .take source false ∉ actions → selected = left

theorem Passed.refl (source : Source) (b : Board Source Picture) : Passed source b b [] [] [] where
  queue := List.append_nil _
  taken := rfl
  shown := (List.append_nil _).symm
  selection := .slnil
  complete _ := rfl

theorem Passed.trans {source : Source} {b b' b'' : Board Source Picture}
    {front back : List (Action Source Picture)} {left left' selected selected' : List Picture}
    (h : Passed source b b' front left selected) (h' : Passed source b' b'' back left' selected') :
    Passed source b b'' (front ++ back) (left ++ left') (selected ++ selected') where
  queue := by
    rw [postedBy_append, ← List.append_assoc, h.queue, List.append_assoc, h'.queue,
      List.append_assoc]
  taken := by rw [List.length_append, h.taken, h'.taken, takenOf_append]
  shown := by rw [h'.shown, h.shown, List.append_assoc]
  selection := h.selection.append h'.selection
  complete hall := by
    rw [h.complete fun hmem => hall (List.mem_append_left _ hmem),
      h'.complete fun hmem => hall (List.mem_append_right _ hmem)]

theorem step_passed (source : Source) {b b' : Board Source Picture}
    {action : Action Source Picture} (h : b.step action = some b') :
    ∃ left selected, Passed source b b' [action] left selected := by
  cases action with
  | post poster picture =>
      cases h
      refine ⟨[], [], ?_, rfl, (List.append_nil _).symm, .slnil, fun _ => rfl⟩
      by_cases hposter : poster = source
      · subst hposter
        simp [postedBy]
      · simp [postedBy, hposter, Ne.symm hposter]
  | take taker putUp =>
      simp only [Board.step] at h
      split at h
      · cases h
      · rename_i picture rest hqueue
        cases h
        by_cases htaker : taker = source
        · subst htaker
          refine ⟨[picture], if putUp then [picture] else [], ?_, by simp [takenOf], ?_, ?_, ?_⟩
          · simp [postedBy, hqueue]
          · cases putUp <;> simp [Board.shownOf]
          · cases putUp
            · exact List.nil_sublist _
            · exact List.Sublist.refl _
          · intro hall
            cases putUp
            · exact absurd (List.mem_singleton_self _) hall
            · rfl
        · refine ⟨[], [], ?_, by simp [takenOf, htaker], ?_, .slnil, fun _ => rfl⟩
          · simp [postedBy, Ne.symm htaker]
          · cases putUp <;> simp [Board.shownOf, htaker]

theorem replay_passed (source : Source) (actions : List (Action Source Picture))
    {b b' : Board Source Picture} (h : (boardRuns Source Picture).replay b actions = some b') :
    ∃ left selected, Passed source b b' actions left selected := by
  induction actions generalizing b with
  | nil =>
      cases h
      exact ⟨[], [], .refl source _⟩
  | cons action actions ih =>
      obtain ⟨middle, hstep, hrest⟩ := TransitionSystem.replay_cons.mp h
      obtain ⟨left, selected, hpassed⟩ := step_passed source hstep
      obtain ⟨left', selected', hpassed'⟩ := ih hrest
      exact ⟨_, _, hpassed.trans hpassed'⟩

section
variable (source : Source) {actions : List (Action Source Picture)} {b : Board Source Picture}

/-- Of the pictures a source has posted, the first ones have been taken, the others wait in its
queue, and those put up are a selection, in order, of those taken. -/
theorem accounts (h : (boardRuns Source Picture).replay .empty actions = some b) :
    postedBy source actions =
        (postedBy source actions).take (takenOf source actions) ++ b.queued source ∧
      (b.shownOf source).Sublist ((postedBy source actions).take (takenOf source actions)) := by
  obtain ⟨left, selected, hpassed⟩ := replay_passed source actions h
  have hqueue : postedBy source actions = left ++ b.queued source := hpassed.queue
  have htake : (postedBy source actions).take (takenOf source actions) = left := by
    rw [hqueue, ← hpassed.taken, List.take_left]
  have hshown : b.shownOf source = selected := hpassed.shown
  rw [htake, hshown]
  exact ⟨hqueue, hpassed.selection⟩

/-- Where nothing is thrown away, what was put up and what waits is what was posted. -/
theorem accounts_complete (h : (boardRuns Source Picture).replay .empty actions = some b)
    (hall : .take source false ∉ actions) :
    b.shownOf source ++ b.queued source = postedBy source actions := by
  obtain ⟨left, selected, hpassed⟩ := replay_passed source actions h
  have hqueue : postedBy source actions = left ++ b.queued source := hpassed.queue
  have hshown : b.shownOf source = selected := hpassed.shown
  rw [hshown, hpassed.complete hall, hqueue]

end
end PictureBoard
