import MatrixServer.Foundation.ByteBuffer
import MatrixServer.Foundation.LineDisplay
import MatrixServer.Foundation.SerialCommands
import MatrixServer.Renderer.LinePayload
import MatrixServer.Renderer.PanelWires

/-!
The bytes that `render` of FPGARendererFTDI.cpp sends to the serial engine.
Each line is put together in one command buffer, which is counted here from the payload on and
keeps what earlier lines left. The answers to the polls for the vertical sync come from outside,
so how many polls there are is not determined here.
-/

namespace MatrixServer
open ByteBuffer PixelGrid

namespace FPGARendererFTDI

/-- `mpsse_set_gpio` -/
def mpsseSetGpio (gpio direction : UInt8) : List UInt8 := [0x80, gpio, direction]

/-- `mpsse_send_spi` -/
def mpsseSendSpi (data : List UInt8) : List UInt8 :=
  if data.length < 1 then []
  else [0x11, UInt8.ofNat (data.length - 1), UInt8.ofNat ((data.length - 1) >>> 8)] ++ data

/-- `mpsse_xfer_spi`, as far as bytes are sent. -/
def mpsseXferSpi (data : List UInt8) : List UInt8 :=
  if data.length < 1 then []
  else [0x31, UInt8.ofNat (data.length - 1), UInt8.ofNat ((data.length - 1) >>> 8)] ++ data

/-- `set_cs` -/
def setCs (csB : Bool) : List UInt8 := mpsseSetGpio (if csB then 0x28 else 0x00) 0x2b

/-- One turn of the loop that waits for the vertical sync. -/
def vsyncPoll : List UInt8 := setCs false ++ mpsseXferSpi [0x00, 0x00] ++ setCs true

/-- CS low, the packet header and the first byte of the payload. -/
def lineHead (llen : Nat) : List UInt8 :=
  [0x80, 0x00, 0x2b, 0x11, UInt8.ofNat ((llen + 1 - 1) &&& 0xff),
    UInt8.ofNat ((llen + 1 - 1) >>> 8), 0x80]

/-- CS high, and the packet of the line flush. -/
def lineTail (y : Nat) : List UInt8 :=
  [0x80, 0x28, 0x2b, 0x80, 0x00, 0x2b, 0x11, 2 - 1, 0, 0x03, UInt8.ofNat y, 0x80, 0x28, 0x2b]

/-- `cmd_buf` with line `y` in it. -/
def lineBuffer (layout : Layout) (screens : List Screen) (cmdBuf : Buffer) (y : Nat) : Buffer :=
  write (storeAll WordStore.offset WordStore.word (write cmdBuf (-7) (lineHead layout.llen.toNat))
    (lineStores layout screens y)) layout.llen.toNat (lineTail y)

/-- `cmd_buf` before line `y`. -/
def bufferBefore (layout : Layout) (screens : List Screen) (cmdBuf : Buffer) : Nat → Buffer
  | 0 => cmdBuf
  | y + 1 => lineBuffer layout screens (bufferBefore layout screens cmdBuf y) y

/-- `mpsse_send_raw(cmd_buf, i)` after line `y`. -/
def sentLine (layout : Layout) (screens : List Screen) (cmdBuf : Buffer) (y : Nat) : List UInt8 :=
  read (lineBuffer layout screens (bufferBefore layout screens cmdBuf y) y) (-7)
    (7 + (layout.llen.toNat + 14))

/-- All bytes of a frame. -/
def frameBytes (layout : Layout) (screens : List Screen) (polls : Nat) (cmdBuf : Buffer) :
    List UInt8 :=
  (List.replicate polls vsyncPoll).flatten ++
    (List.range layout.screenHeight.toNat).flatMap (sentLine layout screens cmdBuf) ++
    (setCs false ++ mpsseSendSpi [0x04, 0x00] ++ setCs true)

/-- The payload of line `y`. -/
def payload (layout : Layout) (screens : List Screen) (cmdBuf : Buffer) (y : Nat) : List UInt8 :=
  read (storeAll WordStore.offset WordStore.word
    (write (bufferBefore layout screens cmdBuf y) (-7) (lineHead layout.llen.toNat))
    (lineStores layout screens y)) 0 layout.llen.toNat

/-- Around the stores of its pixels a line keeps its head and gets its tail. -/
theorem sentLine_eq {layout : Layout} {screens : List Screen} {y : Nat}
    (hinside : ∀ store ∈ lineStores layout screens y,
      0 ≤ store.offset ∧ store.offset + 2 ≤ layout.llen) (cmdBuf : Buffer) :
    sentLine layout screens cmdBuf y =
      lineHead layout.llen.toNat ++ (payload layout screens cmdBuf y ++ lineTail y) := by
  have hhead : read (lineBuffer layout screens (bufferBefore layout screens cmdBuf y) y) (-7) 7 =
      lineHead layout.llen.toNat := by
    rw [lineBuffer, read_write_outside _ (.inl (by omega))]
    refine Eq.trans (read_congr fun place hlow hhigh => ?_)
      (read_write (bufferBefore layout screens cmdBuf y) (-7) (lineHead layout.llen.toNat))
    refine storeAll_outside WordStore.offset WordStore.word _ fun store hstore => .inl ?_
    have hstore := (hinside store hstore).1
    omega
  have hpayload : read (lineBuffer layout screens (bufferBefore layout screens cmdBuf y) y) 0
      layout.llen.toNat = payload layout screens cmdBuf y :=
    read_write_outside _ (.inl (by omega))
  have htail : read (lineBuffer layout screens (bufferBefore layout screens cmdBuf y) y)
      layout.llen.toNat 14 = lineTail y := read_write _ _ _
  rw [sentLine, read_add, hhead, read_add]
  have hzero : (-7 : Int) + ((7 : Nat) : Int) = 0 := rfl
  rw [hzero, hpayload, Int.zero_add, htail]

/-- Each word of the payload is the last one that the line's stores leave at its place. -/
theorem wordAt_payload {screens : List Screen} {layout : Layout}
    (hlayout : FPGARendererFTDI.layout screens = some layout) {y : Nat} {k : Nat}
    (hk : k % 2 = 0) (hcount : k + 2 ≤ layout.llen.toNat) {w : UInt16}
    (h : lineWord (lineStores layout screens y) k = some w) (cmdBuf : Buffer) :
    wordAt (payload layout screens cmdBuf y) k = some w := by
  refine wordAt_storeAll WordStore.offset WordStore.word _ (fun store hstore => ?_) hk hcount h
  obtain ⟨s, hs, x, hx, rfl⟩ := mem_lineStores.mp hstore
  simp only [pixelOffset_eq hlayout]
  omega

end FPGARendererFTDI

namespace FPGARendererFTDI
open SerialCommands

theorem pair_length (a b : UInt8) : 0 < [a, b].length ∧ [a, b].length ≤ 65536 := by
  simp only [List.length_cons, List.length_nil]
  omega

def pair (a b : UInt8) : Chunk := ⟨[a, b], (pair_length a b).1, (pair_length a b).2⟩

def lineTransfers (rows : Nat → List UInt8) (hrows : ∀ y, (rows y).length < 65536) (y : Nat) :
    List (Bool × Chunk) :=
  [(false, ⟨0x80 :: rows y, Nat.succ_pos _, hrows y⟩), (false, pair 0x03 (UInt8.ofNat y))]

def transferCommands (transfer : Bool × Chunk) : List Command :=
  packetCommands 0x28 0x2b transfer.1 transfer.2

theorem lineBytes_eq (rows : Nat → List UInt8) (hrows : ∀ y, (rows y).length < 65536) (y : Nat) :
    lineHead (rows y).length ++ (rows y ++ lineTail y) =
      ((lineTransfers rows hrows y).flatMap transferCommands).flatMap Command.encode := by
  have hmask : UInt8.ofNat ((rows y).length &&& 0xff) = UInt8.ofNat (rows y).length := by
    apply UInt8.toNat_inj.mp
    have hand : (rows y).length &&& 0xff = (rows y).length % 256 :=
      Nat.and_two_pow_sub_one_eq_mod _ 8
    simp only [UInt8.toNat_ofNat', hand]
    omega
  simp [lineHead, lineTail, lineTransfers, pair, transferCommands, packetCommands, Command.encode,
    lengthBytes, opcode, hmask]

theorem payload_length (layout : Layout) (screens : List Screen) (cmdBuf : Buffer) (y : Nat) :
    (payload layout screens cmdBuf y).length = layout.llen.toNat := read_length _ _ _

/-- The serial engine sends on the polls, the lines and the swap, each a packet of its own. -/
theorem packets_frameBytes {layout : Layout} {screens : List Screen}
    (hllen : layout.llen.toNat < 65536)
    (hinside : ∀ y : Nat, y < layout.screenHeight.toNat →
      ∀ store ∈ lineStores layout screens y,
        0 ≤ store.offset ∧ store.offset + 2 ≤ layout.llen) (polls : Nat) (cmdBuf : Buffer) :
    (SerialCommands.read (frameBytes layout screens polls cmdBuf)).map (Bus.packetsOf 0x28) =
      some (List.replicate polls [0x00, 0x00] ++
        LineDisplay.framePackets (payload layout screens cmdBuf) layout.screenHeight.toNat) := by
  have hrows : ∀ y, (payload layout screens cmdBuf y).length < 65536 := fun y => by
    rw [payload_length]
    exact hllen
  let transfers := List.replicate polls (true, pair 0x00 0x00) ++
    (List.range layout.screenHeight.toNat).flatMap (lineTransfers _ hrows) ++
    [(false, pair 0x04 0x00)]
  have hlines : (List.range layout.screenHeight.toNat).flatMap (sentLine layout screens cmdBuf) =
      (((List.range layout.screenHeight.toNat).flatMap (lineTransfers _ hrows)).flatMap
        transferCommands).flatMap Command.encode := by
    rw [List.flatMap_assoc, List.flatMap_assoc]
    refine List.flatMap_congr fun y hy => ?_
    rw [sentLine_eq (hinside y (List.mem_range.mp hy)), ← List.flatMap_assoc, ← lineBytes_eq,
      payload_length]
  have hpolls : (List.replicate polls vsyncPoll).flatten =
      ((List.replicate polls (true, pair 0x00 0x00)).flatMap transferCommands).flatMap
        Command.encode := by
    rw [List.flatMap_assoc, List.flatMap_def, List.map_replicate]
    rfl
  have hbytes : frameBytes layout screens polls cmdBuf =
      (transfers.flatMap transferCommands).flatMap Command.encode := by
    rw [frameBytes, hlines, hpolls]
    simp only [transfers, List.flatMap_append]
    rfl
  have hpackets : transfers.map (fun transfer => transfer.2.bytes) =
      List.replicate polls [0x00, 0x00] ++
        LineDisplay.framePackets (payload layout screens cmdBuf) layout.screenHeight.toNat := by
    simp only [transfers, List.map_append, List.map_replicate, List.map_flatMap,
      LineDisplay.framePackets, LineDisplay.linePackets, List.append_assoc]
    rfl
  rw [hbytes, read_encode, Option.map_some, ← hpackets]
  exact congrArg some (packetsOf_packetCommands (by decide) 0x2b transfers)

end FPGARendererFTDI
end MatrixServer
