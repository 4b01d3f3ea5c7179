import MatrixServer.Renderer.SpiLines
import MatrixServer.Foundation.Spans

/-!
The queue of SPI transfers in FPGARendererRPISPI.cpp.
Two pairs of arrays take turns, one of 65535 bytes for what is sent and one of 1024 transfers.
What is announced for a frame is compared with neither; only the number of transfers is
compared, with the announced number, and as many transfers as announced are cleared before.
Positions are from the start of the array.
-/

namespace MatrixServer
open Spans

namespace FPGARendererRPISPI

inductive BackBuffer where
  | backBuffer0 | backBuffer1
  deriving DecidableEq

def backBufferBytes : Nat := 65535

def backBufferTransfers : Nat := 1024

/-- The global variables of the queue. A transfer sends and receives at one place, so it is a
span of the buffer; `spiIocTransfersPos` is the number of transfers. `cleared` is how many
transfers the `memset` has set to 0, from the start of the array. -/
structure SpiWriteQueue where
  buffPos : Nat
  buffer : BackBuffer
  currentPos : Nat
  transfersSize : Nat
  cleared : Nat
  transfers : List Span
  deriving DecidableEq

/-- An `int` taken as an `unsigned int`. -/
def asUnsigned (value : Int) : Nat := (value % 0x100000000).toNat

/-- `bufferSize` is for an allocation that is commented out. -/
def SpiWriteQueueInit (queue : SpiWriteQueue) (count _bufferSize : Nat) : SpiWriteQueue :=
  { buffPos := queue.buffPos + 1
    buffer := if queue.buffPos % 2 ≠ 0 then .backBuffer0 else .backBuffer1
    currentPos := 0
    transfersSize := count
    cleared := count
    transfers := [] }

def SpiWriteQueueAdd (queue : SpiWriteQueue) (length : Nat) : Bool × SpiWriteQueue :=
  if queue.transfers.length < queue.transfersSize then
    (true, { queue with
      transfers := queue.transfers ++ [⟨queue.currentPos, length⟩]
      currentPos := queue.currentPos + length })
  else (false, queue)

/-- Calls of `SpiWriteQueueAdd` and what they return. -/
def addAll : List Nat → SpiWriteQueue → List Bool × SpiWriteQueue
  | [], queue => ([], queue)
  | length :: lengths, queue =>
      let added := SpiWriteQueueAdd queue length
      let rest := addAll lengths added.2
      (added.1 :: rest.1, rest.2)

/-- The lengths that `render` queues: for each line the start byte with the payload and the
line flush, and the frame swap at the end. -/
def frameLengths (layout : Layout) : List Nat :=
  (List.range layout.lineCount.toNat).flatMap (fun _ => [(1 + layout.bytesPerLine).toNat, 2]) ++
    [2]

/-- The queue after `render` and what the calls of `SpiWriteQueueAdd` returned. -/
def queueFrame (layout : Layout) (queue : SpiWriteQueue) : List Bool × SpiWriteQueue :=
  addAll (frameLengths layout) (SpiWriteQueueInit queue (asUnsigned (layout.lineCount * 2 + 1))
    (asUnsigned ((layout.bytesPerLine + 3) * layout.lineCount + 2)))

end FPGARendererRPISPI

/-- A whole frame is queued, in spans of the selected buffer that lie behind one another, and only
what the arrays hold is cleared for it. -/
structure FrameFits (layout : FPGARendererRPISPI.Layout)
    (queue : FPGARendererRPISPI.SpiWriteQueue) : Prop where
  cleared : (FPGARendererRPISPI.queueFrame layout queue).2.cleared ≤
    FPGARendererRPISPI.backBufferTransfers
  succeeds : ∀ added ∈ (FPGARendererRPISPI.queueFrame layout queue).1, added = true
  transfers : (FPGARendererRPISPI.queueFrame layout queue).2.transfers.length ≤
    FPGARendererRPISPI.backBufferTransfers
  bytes : ((FPGARendererRPISPI.queueFrame layout queue).2.transfers.map Span.length).sum ≤
    FPGARendererRPISPI.backBufferBytes
  whole : (FPGARendererRPISPI.queueFrame layout queue).2.transfers.map Span.length =
    FPGARendererRPISPI.frameLengths layout
  buffer : (FPGARendererRPISPI.queueFrame layout queue).2.buffer =
    (FPGARendererRPISPI.SpiWriteQueueInit queue 0 0).buffer
  first : ∀ span ∈ (FPGARendererRPISPI.queueFrame layout queue).2.transfers.head?, span.start = 0
  consecutive : (FPGARendererRPISPI.queueFrame layout queue).2.transfers.IsChain
    fun a b => a.stop = b.start
  disjoint : (FPGARendererRPISPI.queueFrame layout queue).2.transfers.Pairwise
    fun a b => a.stop ≤ b.start
  inside : ∀ span ∈ (FPGARendererRPISPI.queueFrame layout queue).2.transfers,
    span.stop ≤ FPGARendererRPISPI.backBufferBytes

namespace FPGARendererRPISPI

/-- Adding neither selects nor clears. -/
theorem addAll_selected (lengths : List Nat) (queue : SpiWriteQueue) :
    (addAll lengths queue).2.buffer = queue.buffer ∧
      (addAll lengths queue).2.cleared = queue.cleared := by
  induction lengths generalizing queue with
  | nil => exact ⟨rfl, rfl⟩
  | cons length lengths ih =>
      simp only [addAll, ih, SpiWriteQueueAdd]
      split <;> exact ⟨rfl, rfl⟩

/-- Calls that all succeed queue one span behind the other. -/
theorem addAll_of_succeeds (lengths : List Nat) (queue : SpiWriteQueue)
    (h : ∀ added ∈ (addAll lengths queue).1, added = true) :
    (addAll lengths queue).2.transfers = queue.transfers ++ layOut queue.currentPos lengths := by
  induction lengths generalizing queue with
  | nil => simp [addAll, layOut]
  | cons length lengths ih =>
      simp only [addAll, List.forall_mem_cons] at h
      have hrest := ih _ h.2
      rw [addAll, hrest]
      simp only [SpiWriteQueueAdd] at h ⊢
      split
      · simp [layOut]
      · rename_i hfull
        simp [hfull] at h

/-- Calls succeed as long as no more transfers are queued than were announced. -/
theorem addAll_succeeds (lengths : List Nat) (queue : SpiWriteQueue)
    (h : queue.transfers.length + lengths.length ≤ queue.transfersSize) :
    ∀ added ∈ (addAll lengths queue).1, added = true := by
  induction lengths generalizing queue with
  | nil => exact fun _ hadded => absurd hadded List.not_mem_nil
  | cons length lengths ih =>
      rw [List.length_cons] at h
      have hroom : queue.transfers.length < queue.transfersSize := by omega
      simp only [addAll, SpiWriteQueueAdd, if_pos hroom, List.forall_mem_cons, true_and]
      apply ih
      simp only [List.length_append, List.length_singleton]
      omega

theorem frameLengths_length (layout : Layout) :
    (frameLengths layout).length = 2 * layout.lineCount.toNat + 1 := by
  simp [frameLengths, List.length_flatMap]
  omega

theorem frameLengths_sum (layout : Layout) :
    (frameLengths layout).sum =
      layout.lineCount.toNat * ((1 + layout.bytesPerLine).toNat + 2) + 2 := by
  simp [frameLengths, List.flatMap_def, List.sum_flatten]

/-- When the announced number is that of the calls, only the sizes of the arrays are left, and
the announced number itself, which is cleared. -/
theorem frameFits_iff {layout : Layout} (queue : SpiWriteQueue)
    (hcount : (frameLengths layout).length ≤ backBufferTransfers →
      (frameLengths layout).length ≤ asUnsigned (layout.lineCount * 2 + 1)) :
    FrameFits layout queue ↔ asUnsigned (layout.lineCount * 2 + 1) ≤ backBufferTransfers ∧
      (frameLengths layout).length ≤ backBufferTransfers ∧
      (frameLengths layout).sum ≤ backBufferBytes := by
  have hselected := addAll_selected (frameLengths layout)
    (SpiWriteQueueInit queue (asUnsigned (layout.lineCount * 2 + 1))
      (asUnsigned ((layout.bytesPerLine + 3) * layout.lineCount + 2)))
  constructor
  · intro h
    have hcleared := h.cleared
    rw [queueFrame, hselected.2] at hcleared
    have htransfers := h.transfers
    have hbytes := h.bytes
    rw [h.whole] at hbytes
    rw [← List.length_map (f := Span.length), h.whole] at htransfers
    exact ⟨hcleared, htransfers, hbytes⟩
  · rintro ⟨hcleared, htransfers, hbytes⟩
    have hsucceeds := addAll_succeeds (frameLengths layout)
      (SpiWriteQueueInit queue (asUnsigned (layout.lineCount * 2 + 1))
        (asUnsigned ((layout.bytesPerLine + 3) * layout.lineCount + 2)))
      (by simpa [SpiWriteQueueInit] using hcount htransfers)
    have hspans : (queueFrame layout queue).2.transfers = layOut 0 (frameLengths layout) :=
      addAll_of_succeeds _ _ hsucceeds
    refine ⟨?_, hsucceeds, ?_, ?_, ?_, hselected.1, ?_, ?_, ?_, ?_⟩
    · rw [queueFrame, hselected.2]
      exact hcleared
    all_goals rw [hspans]
    · rw [length_layOut]
      exact htransfers
    · rw [map_length_layOut]
      exact hbytes
    · exact map_length_layOut _ _
    · exact head_layOut
    · exact consecutive_layOut _ _
    · exact disjoint_layOut _ _
    · intro span hspan
      have hstop := (mem_layOut span hspan).2
      omega

end FPGARendererRPISPI

/-- A frame fits the queue just when the number of transfers announced, taken as unsigned, is no
more than the array holds, and it has no lines or its lines, with three bytes more each, and the
frame swap are no more than the arrays hold. A negative height is announced as a large number. -/
theorem frame_fits_iff (screens : List Screen) (first : Screen)
    (hfirst : screens.head? = some first) (hnonneg : 0 ≤ first.width * first.height)
    (layout : FPGARendererRPISPI.Layout)
    (hinit : FPGARendererRPISPI.init screens = some layout)
    (queue : FPGARendererRPISPI.SpiWriteQueue) :
    (FrameFits layout queue ↔ FPGARendererRPISPI.asUnsigned (4 * first.height + 1) ≤ 1024 ∧
      (1 ≤ first.height → 4 * first.height + 1 ≤ 1024 ∧
        2 * first.height * (screens.length * first.width + 3) + 2 ≤ 65535)) ∧
    (-0x80000000 ≤ 4 * first.height + 1 → (FrameFits layout queue ↔ 0 ≤ first.height ∧
      4 * first.height + 1 ≤ 1024 ∧
        2 * first.height * (screens.length * first.width + 3) + 2 ≤ 65535)) := by
  obtain ⟨first', hfirst', -, -, -, hline, hlines⟩ := FPGARendererRPISPI.init_eq hinit
  obtain rfl : first = first' := Option.some.inj (hfirst.symm.trans hfirst')
  have hannounced : layout.lineCount * 2 + 1 = 4 * first.height + 1 := by omega
  have hfits : FrameFits layout queue ↔
      FPGARendererRPISPI.asUnsigned (4 * first.height + 1) ≤ 1024 ∧
      (1 ≤ first.height → 4 * first.height + 1 ≤ 1024 ∧
        2 * first.height * (screens.length * first.width + 3) + 2 ≤ 65535) := by
    rw [FPGARendererRPISPI.frameFits_iff, FPGARendererRPISPI.frameLengths_length,
      FPGARendererRPISPI.frameLengths_sum, hline, hannounced, hlines]
    · refine and_congr_right fun _ => ?_
      cases Int.lt_or_le first.height 1 with
      | inl hnone =>
          have hzero : (2 * first.height).toNat = 0 := by omega
          simp [hzero, FPGARendererRPISPI.backBufferTransfers, FPGARendererRPISPI.backBufferBytes]
          omega
      | inr hsome =>
          have hwidth : 0 ≤ first.width := Int.nonneg_of_mul_nonneg_left hnonneg hsome
          have hpayload := Int.mul_nonneg (Int.natCast_nonneg screens.length) hwidth
          have hbytes : (((2 * first.height).toNat *
              ((1 + screens.length * first.width).toNat + 2) : Nat) : Int) =
              2 * first.height * (screens.length * first.width + 3) := by
            rw [Int.natCast_mul, Int.natCast_add, Int.toNat_of_nonneg (by omega),
              Int.toNat_of_nonneg (by omega), Int.add_right_comm, Int.add_comm]
            rfl
          simp only [hsome, true_imp_iff, FPGARendererRPISPI.backBufferTransfers,
            FPGARendererRPISPI.backBufferBytes]
          omega
    · rw [FPGARendererRPISPI.frameLengths_length]
      simp only [FPGARendererRPISPI.asUnsigned, FPGARendererRPISPI.backBufferTransfers]
      omega
  refine ⟨hfits, ?_⟩
  intro hint
  rw [hfits, FPGARendererRPISPI.asUnsigned]
  constructor
  · rintro ⟨hcleared, hsizes⟩
    have hheight : 0 ≤ first.height := by omega
    cases Int.lt_or_le first.height 1 with
    | inl hnone =>
        have hzero : first.height = 0 := by omega
        simp [hzero]
    | inr hsome => exact ⟨hheight, hsizes hsome⟩
  · rintro ⟨hheight, htransfers, hbytes⟩
    exact ⟨by omega, fun _ => ⟨htransfers, hbytes⟩⟩

/-- A queue that the first frame is put in. -/
def emptyQueue : FPGARendererRPISPI.SpiWriteQueue :=
  { buffPos := 0, buffer := .backBuffer0, currentPos := 0, transfersSize := 0, cleared := 0,
    transfers := [] }

theorem two_rows_fit : ∃ layout, FPGARendererRPISPI.init (blackRows 64) = some layout ∧
    FrameFits layout emptyQueue :=
  ⟨_, rfl, (frame_fits_iff (blackRows 64) _ rfl (by decide) _ rfl emptyQueue).1.mpr (by decide)⟩

/-- Twelve panels of 64 by 64 pixels: 98690 bytes are put into 65535. -/
theorem twelve_panels_overrun :
    ∃ layout, FPGARendererRPISPI.init (blackRows 64 ++ blackRows 64) = some layout ∧
      (FPGARendererRPISPI.frameLengths layout).sum = 98690 ∧ ¬ FrameFits layout emptyQueue := by
  obtain ⟨layout, hinit⟩ :
      ∃ layout, FPGARendererRPISPI.init (blackRows 64 ++ blackRows 64) = some layout := ⟨_, rfl⟩
  have hsum : (FPGARendererRPISPI.frameLengths layout).sum = 98690 := by
    cases hinit
    rw [FPGARendererRPISPI.frameLengths_sum]
    rfl
  refine ⟨layout, hinit, hsum, fun hfits => ?_⟩
  have hbytes := hfits.bytes
  rw [hfits.whole, hsum] at hbytes
  exact absurd hbytes (by decide)

end MatrixServer
