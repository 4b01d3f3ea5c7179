import MatrixServer.Renderer.FtdiStream
import MatrixServer.Renderer.SpiStream

/-!
What the panels' controller gets of a frame, and what the panels show of it.
Behind the serial engine of FPGARendererFTDI.cpp and on the bus of FPGARendererRPISPI.cpp arrive
the same kinds of packets: the polls, for each line its payload and its number, and the frame
swap. The payload is counted in words, as the renderers store it.
-/

namespace MatrixServer
open ByteBuffer PixelGrid LineDisplay

/-- The lines and the bytes in a line that an FPGA renderer sends for six panels of side 64. -/
def RendererKind.lineCount : RendererKind → Nat
  | .fpgaFTDI => 64
  | .fpgaRPISPI => 128
  | _ => 0

def RendererKind.lineLength : RendererKind → Nat
  | .fpgaFTDI => 768
  | .fpgaRPISPI => 384
  | _ => 0

/-- The wires of a panel in a slot are in the lines that are sent. -/
theorem panelWire_inside {kind : RendererKind} {slot : Int × Int} (hslot : slot ∈ kind.slots)
    (rotation : Rotation) {p : Int × Int} (hp : p ∈ rect 64 64) :
    ∃ line k : Nat, panelWire rotation slot p = ((line : Int), (k : Int)) ∧
      line < kind.lineCount ∧ k % 2 = 0 ∧ k + 2 ≤ kind.lineLength := by
  obtain ⟨hx, hwidth, hy, hheight⟩ := rotation.placeOf_mem hp
  have hbounds : 0 ≤ slot.1 ∧ 0 ≤ slot.2 ∧ 64 * (slot.2 + 1) ≤ kind.lineCount ∧
      128 * (slot.1 + 1) ≤ kind.lineLength := by
    cases kind with
    | fpgaFTDI | fpgaRPISPI =>
        simp only [RendererKind.slots, List.mem_cons, List.not_mem_nil, or_false] at hslot
        rcases hslot with rfl | rfl | rfl | rfl | rfl | rfl <;> decide
    | rgbMatrix | webSocketSimulator _ => exact absurd hslot List.not_mem_nil
  refine ⟨(panelWire rotation slot p).1.toNat, (panelWire rotation slot p).2.toNat,
    Prod.ext ?_ ?_, ?_, ?_, ?_⟩
  all_goals
    simp only [panelWire]
    omega

namespace Renderer

/-- The packets of a frame. The buffers may hold anything before it, and the queue what the frame
before left. -/
def framePackets (dimmed : Color → Color) (r : Renderer) (polls : Nat) (cmdBuf backBuffer : Buffer)
    (queue : FPGARendererRPISPI.SpiWriteQueue) : Option (List (List UInt8)) :=
  match r.kind with
  | .fpgaFTDI => (FPGARendererFTDI.layout r.screens).bind fun layout =>
      (SerialCommands.read (FPGARendererFTDI.frameBytes layout r.screens polls cmdBuf)).map
        (SerialCommands.Bus.packetsOf 0x28)
  | .fpgaRPISPI => (FPGARendererRPISPI.init r.screens).map fun layout =>
      List.replicate polls [0x00, 0x00] ++ FPGARendererRPISPI.frameSent r.globalBrightness dimmed
        layout r.screens cmdBuf queue backBuffer
  | _ => none

/-- Packets of a frame whose lines have the words that a renderer sends. -/
structure Carries (dimmed : Color → Color) (r : Renderer) (polls : Nat) (rows : Nat → List UInt8)
    (packets : List (List UInt8)) : Prop where
  packets : packets = List.replicate polls [0x00, 0x00] ++
    LineDisplay.framePackets rows r.kind.lineCount
  lengths : ∀ line, (rows line).length = r.kind.lineLength
  words : ∀ line k : Nat, k % 2 = 0 → k + 2 ≤ r.kind.lineLength → ∀ w,
    r.sentWord dimmed line k = some w → wordAt (rows line) k = some w

variable {r : Renderer}

theorem Panels.ftdi_carries (h : r.Panels) (hkind : r.kind = .fpgaFTDI)
    (dimmed : Color → Color) (polls : Nat) (cmdBuf backBuffer : Buffer)
    (queue : FPGARendererRPISPI.SpiWriteQueue) :
    ∃ packets rows, r.framePackets dimmed polls cmdBuf backBuffer queue = some packets ∧
      r.Carries dimmed polls rows packets := by
  have hlength := h.length
  rw [hkind] at hlength
  obtain ⟨layout, hlayout⟩ : ∃ layout, FPGARendererFTDI.layout r.screens = some layout := by
    cases hscreens : r.screens with
    | nil => rw [hscreens] at hlength; cases hlength
    | cons first screens => exact ⟨_, rfl⟩
  obtain ⟨hwidth, hheight, hllen⟩ := FPGARendererFTDI.layout_eq h.size hlayout
  rw [hlength] at hllen
  have hbytes : layout.llen.toNat = 768 := by rw [hllen]; rfl
  have hlines : layout.screenHeight.toNat = 64 := by rw [hheight]; rfl
  have hinside := (FPGARendererFTDI.insidePayload_iff h.size).mpr
    fun _ _ s hs => (h.ftdi_slots hkind).valid s hs
  refine ⟨_, FPGARendererFTDI.payload layout r.screens cmdBuf, ?_, rfl, ?_, ?_⟩
  · simp only [framePackets, hkind, hlayout, Option.bind_some]
    rw [FPGARendererFTDI.packets_frameBytes (by omega) (fun y hy => hinside layout hlayout y
      ⟨Int.natCast_nonneg y, by omega⟩), hlines]
    rfl
  · intro line
    rw [FPGARendererFTDI.payload, read_length, hbytes, hkind]
    rfl
  · intro line k hk hcount w hw
    simp only [sentWord, hkind, hlayout, Option.bind_some] at hw
    simp only [hkind, RendererKind.lineLength] at hcount
    exact FPGARendererFTDI.wordAt_payload hlayout hk (by omega) hw cmdBuf

theorem Panels.rpispi_carries (h : r.Panels) (hkind : r.kind = .fpgaRPISPI)
    (dimmed : Color → Color) (polls : Nat) (cmdBuf backBuffer : Buffer)
    (queue : FPGARendererRPISPI.SpiWriteQueue) :
    ∃ packets rows, r.framePackets dimmed polls cmdBuf backBuffer queue = some packets ∧
      r.Carries dimmed polls rows packets := by
  have hlength := h.length
  rw [hkind] at hlength
  obtain ⟨layout, hinit⟩ : ∃ layout, FPGARendererRPISPI.init r.screens = some layout := by
    cases hscreens : r.screens with
    | nil => rw [hscreens] at hlength; cases hlength
    | cons first screens => exact ⟨_, rfl⟩
  obtain ⟨hscreen, hline, hlines⟩ := FPGARendererRPISPI.init_sizes h.size hinit
  rw [hlength] at hline
  have hbytes : layout.bytesPerLine.toNat = 384 := by rw [hline]; rfl
  have hcount : layout.lineCount.toNat = 128 := by rw [hlines]; rfl
  have hinside := (FPGARendererRPISPI.insidePayload_iff h.size).mpr fun _ _ s hs _ => by
    have hvalid := ((h.rpispi_slots hkind).valid s hs).1
    obtain ⟨hlow, hhigh⟩ := hvalid
    rw [hlength] at hhigh ⊢
    exact ⟨hlow, by omega⟩
  refine ⟨_, FPGARendererRPISPI.payload r.globalBrightness dimmed layout r.screens cmdBuf, ?_,
    rfl, ?_, ?_⟩
  · simp only [framePackets, hkind, hinit, Option.map_some]
    rw [FPGARendererRPISPI.frameSent_eq, hcount]
    · rfl
    · intro y hy store hstore
      obtain ⟨s, hs, hin, x, hx, rfl⟩ := FPGARendererRPISPI.mem_lineStores.mp hstore
      obtain ⟨place, hplace⟩ := List.getElem?_of_mem hs
      refine (hinside layout hinit y ⟨Int.natCast_nonneg y, by omega⟩ ⟨place, _, _⟩
        (FPGARendererRPISPI.mem_lineWrites.mpr ⟨s, hplace, hin, x, hx, rfl, rfl⟩)).1
    · rw [hlines]
      rfl
  · intro line
    rw [FPGARendererRPISPI.payload, read_length, hbytes, hkind]
    rfl
  · intro line k hk hroom w hw
    simp only [sentWord, hkind, hinit, Option.bind_some] at hw
    simp only [hkind, RendererKind.lineLength] at hroom
    exact FPGARendererRPISPI.wordAt_payload ⟨64, hscreen⟩ hk (by omega) hw cmdBuf

theorem Panels.carries (h : r.Panels) (hkind : r.kind = .fpgaFTDI ∨ r.kind = .fpgaRPISPI)
    (dimmed : Color → Color) (polls : Nat) (cmdBuf backBuffer : Buffer)
    (queue : FPGARendererRPISPI.SpiWriteQueue) :
    ∃ packets rows, r.framePackets dimmed polls cmdBuf backBuffer queue = some packets ∧
      r.Carries dimmed polls rows packets := by
  cases hkind with
  | inl hftdi => exact h.ftdi_carries hftdi dimmed polls cmdBuf backBuffer queue
  | inr hrpispi => exact h.rpispi_carries hrpispi dimmed polls cmdBuf backBuffer queue

/-- A frame arrives as the polls, for each line its payload and the flush with its number, and the
swap. Until the last packet a controller that stores lines behind the frame it shows keeps showing
the one before; then each pixel of the screens is at its wire, whatever was in the buffers. -/
theorem frame_reaches_panels (h : r.Panels)
    (hkind : r.kind = .fpgaFTDI ∨ r.kind = .fpgaRPISPI) (dimmed : Color → Color) (polls : Nat)
    (cmdBuf backBuffer : Buffer) (queue : FPGARendererRPISPI.SpiWriteQueue) (d : Display) :
    ∃ packets, r.framePackets dimmed polls cmdBuf backBuffer queue = some packets ∧
      (∃ rows : Nat → List UInt8, (∀ line, (rows line).length = r.kind.lineLength) ∧
        packets = List.replicate polls [0x00, 0x00] ++ ((List.range r.kind.lineCount).flatMap
          (fun line => [0x80 :: rows line, [0x03, UInt8.ofNat line]]) ++ [[0x04, 0x00]])) ∧
      (∀ sent rest, packets = sent ++ rest → rest ≠ [] → (d.acceptAll sent).front = d.front) ∧
      ∀ s ∈ r.screens, ∀ p ∈ rect 64 64, ∃ line k : Nat,
        panelWire s.rotation (r.slotOf s) p = ((line : Int), (k : Int)) ∧
        ∃ c, s.getPixel p.1 p.2 = some c ∧
          wordAt ((d.acceptAll packets).front line) k = some (r.wordOf dimmed c) := by
  obtain ⟨packets, rows, hpackets, hcarries⟩ := h.carries hkind dimmed polls cmdBuf backBuffer queue
  refine ⟨packets, hpackets, ⟨rows, hcarries.lengths, hcarries.packets⟩, ?_, ?_⟩
  · intro sent rest hsplit hrest
    rw [hcarries.packets] at hsplit
    refine front_before_swap d rows _ (fun packet hpacket => ?_) hrest hsplit
    rw [List.eq_of_mem_replicate hpacket]
    decide
  · intro s hs p hp
    obtain ⟨line, k, hwire, hline, hk, hcount⟩ :=
      panelWire_inside (h.slot_mem hs) s.rotation hp
    obtain ⟨c, hc⟩ := (h.square s hs).exists_pixel hp
    have hword := h.sentWord_eq hkind dimmed hs hp
    rw [hwire, hc, Option.map_some] at hword
    have hlines : r.kind.lineCount ≤ 256 := by
      cases hkind with
      | inl hftdi => rw [hftdi]; decide
      | inr hrpispi => rw [hrpispi]; decide
    refine ⟨line, k, hwire, c, hc, ?_⟩
    rw [hcarries.packets, front_after_frame d rows hlines _ hline]
    exact hcarries.words line k hk hcount _ hword

/-- The frame of a black cube, sent on the bus to panels that show nothing yet. -/
theorem frame_reaches_panels_black : ∃ packets,
    framePackets id { kind := .fpgaRPISPI, screens := blackRows 64 } 1 (fun _ => 0) (fun _ => 0)
      emptyQueue = some packets ∧
    wordAt ((Display.acceptAll ⟨[], fun _ => [], fun _ => []⟩ packets).front 0) 0 = some 0 := by
  have hpanels : Panels { kind := .fpgaRPISPI, screens := blackRows 64 } :=
    ⟨(twoRows_blackRows 64).square, (twoRows_blackRows 64).cells⟩
  obtain ⟨packets, hpackets, -, -, hpixels⟩ := frame_reaches_panels hpanels (.inr rfl) id 1
    (fun _ => 0) (fun _ => 0) emptyQueue ⟨[], fun _ => [], fun _ => []⟩
  obtain ⟨line, k, hwire, c, hc, hword⟩ :=
    hpixels _ List.mem_cons_self (0, 0) ⟨by decide, by decide, by decide, by decide⟩
  obtain ⟨hline, hk⟩ := Prod.mk.inj hwire
  obtain rfl : line = 0 := Int.ofNat.inj hline.symm
  obtain rfl : k = 0 := Int.ofNat.inj hk.symm
  have hblack : c = .black := by
    cases hc
    rfl
  subst hblack
  exact ⟨packets, hpackets, hword⟩

end Renderer
end MatrixServer
