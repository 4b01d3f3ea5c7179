import MatrixServer.Foundation.ByteBuffer
import MatrixServer.Foundation.LineDisplay
import MatrixServer.Renderer.LinePayload
import MatrixServer.Renderer.PanelWires
import MatrixServer.Renderer.SpiQueue

/-!
The bytes that `render` of FPGARendererRPISPI.cpp queues for the bus.
A line is put together in one command buffer, which is counted here from the payload on and
keeps what earlier lines and the line flush left. Queueing copies it behind what is queued, and
the bus sends each queued span as a packet of its own.
-/

namespace MatrixServer
open ByteBuffer PixelGrid Spans

namespace FPGARendererRPISPI

/-- `cmd_buf` with the start byte and line `y` in it. -/
def lineBuffer (globalBrightness : Int) (dimmed : Color → Color) (layout : Layout)
    (screens : List Screen) (cmdBuf : Buffer) (y : Nat) : Buffer :=
  storeAll WordStore.offset WordStore.word (write cmdBuf (-1) [0x80])
    (lineStores globalBrightness dimmed layout screens y)

/-- `cmd_buf` before line `y`, with the line flush of the line before it. -/
def bufferBefore (globalBrightness : Int) (dimmed : Color → Color) (layout : Layout)
    (screens : List Screen) (cmdBuf : Buffer) : Nat → Buffer
  | 0 => cmdBuf
  | y + 1 => write (lineBuffer globalBrightness dimmed layout screens
      (bufferBefore globalBrightness dimmed layout screens cmdBuf y) y) (-1) [0x03, UInt8.ofNat y]

/-- What line `y` is given to `SpiWriteQueueAdd`: the payload behind the start byte, and the line
flush. -/
def lineData (globalBrightness : Int) (dimmed : Color → Color) (layout : Layout)
    (screens : List Screen) (cmdBuf : Buffer) (y : Nat) : List (List UInt8) :=
  [read (lineBuffer globalBrightness dimmed layout screens
      (bufferBefore globalBrightness dimmed layout screens cmdBuf y) y) (-1)
      (1 + layout.bytesPerLine.toNat),
    read (bufferBefore globalBrightness dimmed layout screens cmdBuf (y + 1)) (-1) 2]

/-- All that `render` gives to `SpiWriteQueueAdd`. -/
def frameData (globalBrightness : Int) (dimmed : Color → Color) (layout : Layout)
    (screens : List Screen) (cmdBuf : Buffer) : List (List UInt8) :=
  (List.range layout.lineCount.toNat).flatMap
    (lineData globalBrightness dimmed layout screens cmdBuf) ++ [[0x04, 0x00]]

/-- `SpiWriteQueueAdd`, with the bytes that it copies to the selected buffer. -/
def addData (queued : SpiWriteQueue × Buffer) (data : List UInt8) : SpiWriteQueue × Buffer :=
  if (SpiWriteQueueAdd queued.1 data.length).1 then
    ((SpiWriteQueueAdd queued.1 data.length).2, write queued.2 queued.1.currentPos data)
  else queued

/-- What the bus sends of a queue: the bytes of each span. -/
def sentSpans (queued : SpiWriteQueue × Buffer) : List (List UInt8) :=
  queued.1.transfers.map fun span => read queued.2 span.start span.length

/-- What the bus sends of a frame that is put in a queue. -/
def frameSent (globalBrightness : Int) (dimmed : Color → Color) (layout : Layout)
    (screens : List Screen) (cmdBuf : Buffer) (queue : SpiWriteQueue) (backBuffer : Buffer) :
    List (List UInt8) :=
  sentSpans ((frameData globalBrightness dimmed layout screens cmdBuf).foldl addData
    (SpiWriteQueueInit queue (asUnsigned (layout.lineCount * 2 + 1))
      (asUnsigned ((layout.bytesPerLine + 3) * layout.lineCount + 2)), backBuffer))

/-- The payload of line `y`. -/
def payload (globalBrightness : Int) (dimmed : Color → Color) (layout : Layout)
    (screens : List Screen) (cmdBuf : Buffer) (y : Nat) : List UInt8 :=
  read (lineBuffer globalBrightness dimmed layout screens
    (bufferBefore globalBrightness dimmed layout screens cmdBuf y) y) 0 layout.bytesPerLine.toNat

/-- A queue with room sends what was put in it, behind what was in it before. -/
theorem sentSpans_foldl (datas : List (List UInt8)) (queue : SpiWriteQueue) (bytes : Buffer)
    (hroom : queue.transfers.length + datas.length ≤ queue.transfersSize)
    (hbehind : ∀ span ∈ queue.transfers, span.stop ≤ queue.currentPos) :
    sentSpans (datas.foldl addData (queue, bytes)) = sentSpans (queue, bytes) ++ datas := by
  induction datas generalizing queue bytes with
  | nil => simp
  | cons data datas ih =>
      rw [List.length_cons] at hroom
      have hfree : queue.transfers.length < queue.transfersSize := by omega
      rw [List.foldl_cons, addData, SpiWriteQueueAdd, if_pos hfree, if_pos rfl, ih]
      · have hold : queue.transfers.map (fun span => read (write bytes queue.currentPos data)
            span.start span.length) = sentSpans (queue, bytes) := by
          refine List.map_congr_left fun span hspan => read_write_outside bytes (.inl ?_)
          have hstop := hbehind span hspan
          rw [Span.stop] at hstop
          omega
        simp only [sentSpans, List.map_append, List.map_cons, List.map_nil, read_write]
        rw [hold]
        simp [sentSpans]
      · simp only [List.length_append, List.length_singleton]
        omega
      · intro span hspan
        cases List.mem_append.mp hspan with
        | inl hin =>
            have hstop := hbehind span hin
            simp only []
            omega
        | inr hnew =>
            rw [List.mem_singleton.mp hnew]
            exact Nat.le_refl _

variable {globalBrightness : Int} {dimmed : Color → Color} {layout : Layout}
  {screens : List Screen}

theorem lineData_eq {y : Nat}
    (hinside : ∀ store ∈ lineStores globalBrightness dimmed layout screens y, 0 ≤ store.offset)
    (cmdBuf : Buffer) : lineData globalBrightness dimmed layout screens cmdBuf y =
      LineDisplay.rowPackets (payload globalBrightness dimmed layout screens cmdBuf) y := by
  have hstart : read (lineBuffer globalBrightness dimmed layout screens
      (bufferBefore globalBrightness dimmed layout screens cmdBuf y) y) (-1) 1 = [0x80] := by
    refine Eq.trans (read_congr fun place hlow hhigh => ?_)
      (read_write (bufferBefore globalBrightness dimmed layout screens cmdBuf y) (-1) [0x80])
    refine storeAll_outside WordStore.offset WordStore.word _ fun store hstore => .inl ?_
    have hoffset := hinside store hstore
    omega
  have hflush : read (bufferBefore globalBrightness dimmed layout screens cmdBuf (y + 1)) (-1) 2 =
      [0x03, UInt8.ofNat y] := read_write _ (-1) [0x03, UInt8.ofNat y]
  rw [lineData, hflush, read_add, hstart]
  rfl

/-- The bus sends the lines and the swap, each a packet of its own. -/
theorem frameSent_eq
    (hinside : ∀ y : Nat, y < layout.lineCount.toNat →
      ∀ store ∈ lineStores globalBrightness dimmed layout screens y, 0 ≤ store.offset)
    (hcount : layout.lineCount.toNat * 2 + 1 = asUnsigned (layout.lineCount * 2 + 1))
    (cmdBuf : Buffer) (queue : SpiWriteQueue) (backBuffer : Buffer) :
    frameSent globalBrightness dimmed layout screens cmdBuf queue backBuffer =
      LineDisplay.framePackets (payload globalBrightness dimmed layout screens cmdBuf)
        layout.lineCount.toNat := by
  have hlines : frameData globalBrightness dimmed layout screens cmdBuf =
      LineDisplay.framePackets (payload globalBrightness dimmed layout screens cmdBuf)
        layout.lineCount.toNat := by
    rw [frameData, LineDisplay.framePackets, LineDisplay.linePackets]
    congr 1
    exact List.flatMap_congr fun y hy => lineData_eq (hinside y (List.mem_range.mp hy)) cmdBuf
  rw [frameSent, sentSpans_foldl, hlines]
  · rfl
  · rw [hlines, SpiWriteQueueInit, ← hcount]
    simp [LineDisplay.framePackets, LineDisplay.linePackets, LineDisplay.rowPackets,
      List.length_flatMap]
  · exact fun span hspan => absurd hspan List.not_mem_nil

/-- Each word of the payload is the last one that the line's stores leave at its place. -/
theorem wordAt_payload (heven : ∃ half : Int, layout.bytesPerScreen = 2 * half) {y k : Nat}
    (hk : k % 2 = 0) (hcount : k + 2 ≤ layout.bytesPerLine.toNat) {w : UInt16}
    (h : lineWord (lineStores globalBrightness dimmed layout screens y) k = some w)
    (cmdBuf : Buffer) :
    wordAt (payload globalBrightness dimmed layout screens cmdBuf y) k = some w := by
  obtain ⟨half, hhalf⟩ := heven
  refine wordAt_storeAll WordStore.offset WordStore.word _ (fun store hstore => ?_) hk hcount h
  obtain ⟨s, hs, hline, x, hx, rfl⟩ := mem_lineStores.mp hstore
  simp only [pixelOffset, bitDepthInBytes, hhalf, Int.mul_left_comm s.offsetX]
  omega

end FPGARendererRPISPI
end MatrixServer
