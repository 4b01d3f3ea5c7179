import MatrixServer.Protocol.FrameTokens

/-!
Frames in lock step.
With one renderer the permits of an application never exceed one, so it never has
two frames on their way to the server. The replies to a frame are as many as the
renderers; with a second one, a spare reply lets the application run ahead.
-/

namespace MatrixServer
open TransitionRuns

/-- No application has two frames on their way, and a frame of the top app that the server
is about to handle is answered exactly once. -/
structure System.LockStep (st : System) : Prop where
  outstanding : ∀ i, (st.toServer i).countP MatrixServerMessage.isFrame ≤ 1
  answered : ∀ i, ∀ message ∈ (st.toServer i).head?, message.isFrame = true →
    st.server.isTopApp message.appID = true → ∀ rand beyond,
      ((st.server.call (.handleRequest i message rand beyond)).2.filterMap (sentTo i)).countP
        MatrixServerMessage.isFrame = 1

theorem Server.call_frame_replies {s : Server} {message : MatrixServerMessage}
    (hframe : message.isFrame = true) (htop : s.isTopApp message.appID = true)
    (i : ConnectionId) (rand : Nat) (beyond : Nat → UInt8) :
    ((s.call (.handleRequest i message rand beyond)).2.filterMap (sentTo i)).countP
      MatrixServerMessage.isFrame = s.renderers.length := by
  rw [call_replies, if_pos]
  exact ⟨rfl, by simp [ServerCall.showsFrame, hframe, htop]⟩

theorem renderers_length_reachable {serverConfig : ServerConfig} {renderers : List Renderer}
    {params : ConnectionId → AnimationParams} {appNames : ConnectionId → String} {st : System}
    (h : (systemRuns serverConfig renderers params appNames).Reachable st) :
    st.server.renderers.length = renderers.length := by
  refine h.invariant (fun st => st.server.renderers.length = renderers.length) rfl ?_
  intro st e st' hlength _ hstep
  exact (System.step_renderers_length hstep).trans hlength

/-- With one renderer every run is in lock step; and wherever a frame of the top app is
about to be handled, lock step means that there is one renderer. -/
theorem lock_step_iff_one_renderer (serverConfig : ServerConfig) (renderers : List Renderer)
    (params : ConnectionId → AnimationParams) (appNames : ConnectionId → String) (st : System)
    (h : (systemRuns serverConfig renderers params appNames).Reachable st) :
    (renderers.length = 1 → st.LockStep) ∧
    ∀ i, ∀ message ∈ (st.toServer i).head?, message.isFrame = true →
      st.server.isTopApp message.appID = true → (st.LockStep ↔ renderers.length = 1) := by
  have hlength := renderers_length_reachable h
  have hlock : renderers.length = 1 → st.LockStep := by
    intro hsole
    have hinv : st.PermitInv :=
      h.invariant System.PermitInv (System.permitInv_initial serverConfig hsole params appNames)
        fun _ _ _ hst _ hstep => System.permitInv_step hst hstep
    refine ⟨fun i => ?_, fun i message _ hframe htop rand beyond => ?_⟩
    · have hle := hinv.permits i
      rw [System.permits] at hle
      omega
    · rw [Server.call_frame_replies hframe htop, hinv.sole]
  refine ⟨hlock, fun i message hhead hframe htop => ⟨fun hstep => ?_, hlock⟩⟩
  have honce := hstep.answered i message hhead hframe htop 0 fun _ => 0
  rwa [Server.call_frame_replies hframe htop, hlength] at honce

/-- The hardware renderer and the one for the parameters, as `main` sets them up. -/
def hardwareRenderers : List Renderer :=
  [{ kind := .rgbMatrix, screens := [] }, { kind := .webSocketSimulator false, screens := [] }]

theorem lock_step_simulator :
    ∃ st, (systemRuns {} (hardwareRenderers.drop 1) (fun _ => {}) fun _ => "app").Reachable st ∧
      (st.toServer 0).length = 1 ∧ st.LockStep := by
  have hrun := TransitionSystem.Reachable.of_replay
    (M := systemRuns {} (hardwareRenderers.drop 1) (fun _ => {}) fun _ => "app")
    (registerSchedule 0 7 ++ mainSchedule 0 3) rfl
  exact ⟨_, hrun, rfl, (lock_step_iff_one_renderer _ _ _ _ _ hrun).1 rfl⟩

/-- The second reply to the first frame lets the app send its third before the server has
handled the second. -/
theorem lock_step_broken_by_second_renderer :
    ¬∀ st, (systemRuns {} hardwareRenderers (fun _ => {}) fun _ => "app").Reachable st →
      st.LockStep := by
  intro hall
  have hrun := TransitionSystem.Reachable.of_replay
    (M := systemRuns {} hardwareRenderers (fun _ => {}) fun _ => "app")
    (registerSchedule 0 7 ++ mainSchedule 0 3 ++ [.serve 0 0 fun _ => 0, .receive 0] ++
      mainSchedule 0 5 ++ [.receive 0] ++ mainSchedule 0 5) rfl
  exact absurd ((hall _ hrun).outstanding 0) (by decide)

end MatrixServer
