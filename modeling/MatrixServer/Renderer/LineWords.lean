import MatrixServer.Renderer.SpiLines
import MatrixServer.Foundation.KeyedWrites

/-!
The words that FPGARendererFTDI.cpp and FPGARendererRPISPI.cpp put in a line.
A pixel is stored as 16 bits, the colour channels side by side. All stores of a line are at even
offsets of its payload, so a word of the line is what the last store at its offset left.
-/

namespace MatrixServer
open PixelGrid

/-- A store `*pixelP = ...`: the offset in the payload and the word; the pixel that an undefined
read takes has none. -/
structure WordStore where
  offset : Int
  word : Option UInt16
  deriving DecidableEq

/-- What a line has at an offset of its payload after the stores. -/
def lineWord (stores : List WordStore) (offset : Int) : Option UInt16 :=
  (KeyedWrites.lastFor WordStore.offset offset stores).bind WordStore.word

namespace FPGARendererFTDI

def bitDepthInBytes : Int := 2

/-- What `render` computes from the screens; `screens[0]` of none is undefined. -/
structure Layout where
  screenWidth : Int
  screenHeight : Int
  screenCount : Int
  llen : Int
  deriving DecidableEq

def layout (screens : List Screen) : Option Layout :=
  screens.head?.map fun first =>
    { screenWidth := first.width
      screenHeight := first.height
      screenCount := screens.length
      llen := first.width * bitDepthInBytes * screens.length }

/-- `tmpColor.r() >> 3 << 11 | tmpColor.g() >> 2 << 6 | tmpColor.b() >> 3` -/
def word (c : Color) : UInt16 :=
  c.r.toUInt16 >>> 3 <<< 11 ||| c.g.toUInt16 >>> 2 <<< 6 ||| c.b.toUInt16 >>> 3

/-- Where the pixel of column `x` goes, from the start of the payload. -/
def pixelOffset (layout : Layout) (screen : Screen) (x : Int) : Int :=
  screen.offsetX * (layout.llen / layout.screenCount) + x * bitDepthInBytes

/-- The stores of the loop over the screens in line `y`. -/
def lineStores (layout : Layout) (screens : List Screen) (y : Int) : List WordStore :=
  screens.flatMap fun screen =>
    (List.range screen.width.toNat).map fun x : Nat =>
      { offset := pixelOffset layout screen x
        word := (pixel layout.screenWidth layout.screenHeight screen x y).map word }

end FPGARendererFTDI

namespace FPGARendererRPISPI

/-- `tmpColor.r() >> 3 << 11 | tmpColor.g() >> 3 << 6 | tmpColor.b() >> 3` -/
def word (c : Color) : UInt16 :=
  c.r.toUInt16 >>> 3 <<< 11 ||| c.g.toUInt16 >>> 3 <<< 6 ||| c.b.toUInt16 >>> 3

/-- Where the pixel of column `x` goes, from the start of the payload. -/
def pixelOffset (layout : Layout) (screen : Screen) (x : Int) : Int :=
  screen.offsetX * layout.bytesPerScreen + x * bitDepthInBytes

/-- The stores of the loop over the screens in line `y`; `dimmed` is what
`*= globalBrightness / 100.0f` makes of a colour. -/
def lineStores (globalBrightness : Int) (dimmed : Color → Color) (layout : Layout)
    (screens : List Screen) (y : Int) : List WordStore :=
  (lineWrites layout screens y).map fun write =>
    { offset := write.offset
      word := (screens[write.screen]?.bind fun screen => screen.dataAt write.source).map
        fun tmpColor => word (if globalBrightness < 100 then dimmed tmpColor else tmpColor) }

end FPGARendererRPISPI

/-- Panels of one size, each in a place of its own of the line. -/
structure FPGARendererFTDI.Slots (screens : List Screen) (w h : Int) : Prop where
  size : ∀ s ∈ screens, s.width = w ∧ s.height = h
  valid : ∀ s ∈ screens, s.offsetX ∈ cells screens.length
  distinct : (screens.map Screen.offsetX).Nodup

/-- Panels of one size, each in a place of its own of the two rows. -/
structure FPGARendererRPISPI.Slots (screens : List Screen) (w h : Int) : Prop where
  size : ∀ s ∈ screens, s.width = w ∧ s.height = h
  valid : ∀ s ∈ screens, s.offsetX ∈ cells (screens.length / 2) ∧
    (s.offsetY = 0 ∨ s.offsetY = 1)
  distinct : (screens.map fun s => (s.offsetX, s.offsetY)).Nodup

/-- The red and the blue of a colour are in their fields of a word. -/
def ChannelsApart (word : UInt16) (c : Color) : Prop :=
  word >>> 11 = c.r.toUInt16 >>> 3 ∧ word &&& (31 : UInt16) = c.b.toUInt16 >>> 3

/-! Each channel keeps its own bits of a word; only the six bits of `g() >> 2` reach bit 11. -/

theorem red_shiftRight (r : UInt8) : r.toUInt16 >>> 3 <<< 11 >>> 11 = r.toUInt16 >>> 3 := by
  have h := r.toNat_lt
  apply UInt16.toNat_inj.mp
  simp [Nat.shiftLeft_eq, Nat.shiftRight_eq_div_pow]
  omega

theorem wideGreen_shiftRight (g : UInt8) : g.toUInt16 >>> 2 <<< 6 >>> 11 = g.toUInt16 >>> 7 := by
  have h := g.toNat_lt
  apply UInt16.toNat_inj.mp
  simp [Nat.shiftLeft_eq, Nat.shiftRight_eq_div_pow]
  omega

theorem green_shiftRight (g : UInt8) : g.toUInt16 >>> 3 <<< 6 >>> 11 = 0 := by
  have h := g.toNat_lt
  apply UInt16.toNat_inj.mp
  simp [Nat.shiftLeft_eq, Nat.shiftRight_eq_div_pow]
  omega

theorem blue_shiftRight (b : UInt8) : b.toUInt16 >>> 3 >>> 11 = 0 := by
  have h := b.toNat_lt
  apply UInt16.toNat_inj.mp
  simp [Nat.shiftRight_eq_div_pow]
  omega

theorem toNat_and_low (v : UInt16) : (v &&& 31).toNat = v.toNat % 32 := by
  rw [UInt16.toNat_and]
  exact Nat.and_two_pow_sub_one_eq_mod _ 5

theorem shifted_and_low (v : UInt16) :
    v <<< 11 &&& (31 : UInt16) = 0 ∧ v <<< 6 &&& (31 : UInt16) = 0 := by
  constructor
  all_goals
    apply UInt16.toNat_inj.mp
    rw [toNat_and_low]
    simp [Nat.shiftLeft_eq]
    omega

theorem blue_and_low (b : UInt8) : b.toUInt16 >>> 3 &&& (31 : UInt16) = b.toUInt16 >>> 3 := by
  have h := b.toNat_lt
  apply UInt16.toNat_inj.mp
  rw [toNat_and_low]
  simp [Nat.shiftRight_eq_div_pow]
  omega

theorem or_and (u v w : UInt16) : (u ||| v) &&& w = u &&& w ||| v &&& w :=
  UInt16.toBitVec_inj.mp BitVec.and_or_distrib_right

theorem or_bit_iff (r : UInt8) :
    r.toUInt16 >>> 3 ||| (1 : UInt16) = r.toUInt16 >>> 3 ↔ r &&& 8 ≠ 0 := by
  have hall : ∀ n : Fin 256, (UInt8.ofFin n).toUInt16 >>> 3 ||| (1 : UInt16) =
      (UInt8.ofFin n).toUInt16 >>> 3 ↔ UInt8.ofFin n &&& 8 ≠ 0 := by decide +kernel
  exact hall r.toFin

namespace FPGARendererFTDI

theorem word_red (c : Color) : word c >>> 11 = c.r.toUInt16 >>> 3 ||| c.g.toUInt16 >>> 7 := by
  rw [word, UInt16.shiftRight_or, UInt16.shiftRight_or, red_shiftRight, wideGreen_shiftRight,
    blue_shiftRight, UInt16.or_zero]

theorem word_blue (c : Color) : word c &&& (31 : UInt16) = c.b.toUInt16 >>> 3 := by
  rw [word, or_and, or_and, (shifted_and_low _).1, (shifted_and_low _).2, blue_and_low,
    UInt16.or_zero, UInt16.zero_or]

/-- The top bit of the green is or-ed to the lowest bit of the red. -/
theorem channelsApart_word (c : Color) :
    ChannelsApart (word c) c ↔ c.g < 128 ∨ c.r &&& 8 ≠ 0 := by
  have hgreen := c.g.toNat_lt
  rw [ChannelsApart, word_red, word_blue, and_iff_left rfl]
  cases Nat.lt_or_ge c.g.toNat 128 with
  | inl hlow =>
      have hzero : c.g.toUInt16 >>> 7 = 0 := by
        apply UInt16.toNat_inj.mp
        simp [Nat.shiftRight_eq_div_pow]
        omega
      rw [hzero, UInt16.or_zero]
      exact iff_of_true rfl (.inl (UInt8.lt_iff_toNat_lt.mpr hlow))
  | inr hhigh =>
      have hone : c.g.toUInt16 >>> 7 = 1 := by
        apply UInt16.toNat_inj.mp
        simp [Nat.shiftRight_eq_div_pow]
        omega
      rw [hone, or_bit_iff, or_iff_right]
      exact fun hlow => absurd (UInt8.lt_iff_toNat_lt.mp hlow) (Nat.not_lt.mpr hhigh)

theorem mem_lineStores {layout : Layout} {screens : List Screen} {y : Int} {store : WordStore} :
    store ∈ lineStores layout screens y ↔ ∃ s ∈ screens, ∃ x ∈ cells s.width,
      store = { offset := pixelOffset layout s x,
                word := (pixel layout.screenWidth layout.screenHeight s x y).map word } := by
  simp only [lineStores, List.mem_flatMap, List.mem_map, List.mem_range]
  refine exists_congr fun s => and_congr_right fun _ => ⟨?_, ?_⟩
  · rintro ⟨x, hx, rfl⟩
    exact ⟨x, ⟨Int.natCast_nonneg _, by omega⟩, rfl⟩
  · rintro ⟨x, ⟨hlow, hhigh⟩, rfl⟩
    refine ⟨x.toNat, by omega, ?_⟩
    rw [Int.toNat_of_nonneg hlow]

theorem layout_eq {screens : List Screen} {w h : Int}
    (hsize : ∀ s ∈ screens, s.width = w ∧ s.height = h) {layout : Layout}
    (hlayout : FPGARendererFTDI.layout screens = some layout) :
    layout.screenWidth = w ∧ layout.screenHeight = h ∧
      layout.llen = 2 * (screens.length * w) := by
  obtain ⟨first, hfirst, rfl⟩ := Option.map_eq_some_iff.mp hlayout
  obtain ⟨rfl, rfl⟩ := hsize first (List.mem_of_head? hfirst)
  refine ⟨rfl, rfl, ?_⟩
  simp only [bitDepthInBytes]
  rw [Int.mul_comm first.width 2, Int.mul_assoc, Int.mul_comm first.width]

/-- A panel takes as many bytes of a line as its columns need. -/
theorem pixelOffset_eq {screens : List Screen} {layout : Layout}
    (hlayout : FPGARendererFTDI.layout screens = some layout) (s : Screen) (x : Int) :
    pixelOffset layout s x = 2 * number layout.screenWidth (s.offsetX, x) := by
  cases screens with
  | nil => cases hlayout
  | cons first screens =>
      cases hlayout
      simp only [pixelOffset, bitDepthInBytes, number]
      rw [Int.mul_ediv_cancel _ (by simp only [List.length_cons]; omega)]
      rw [Int.mul_add, Int.mul_left_comm 2, Int.mul_comm first.width 2, Int.add_comm,
        Int.mul_comm x]

/-- No panel overwrites the word of another. -/
theorem lineWord_eq {screens : List Screen} {w h : Int} (hslots : Slots screens w h)
    {layout : Layout} (hlayout : FPGARendererFTDI.layout screens = some layout) {s : Screen}
    (hs : s ∈ screens) {x : Int} (hx : x ∈ cells w) (y : Int) :
    lineWord (lineStores layout screens y) (pixelOffset layout s x) =
      (pixel layout.screenWidth layout.screenHeight s x y).map word := by
  obtain ⟨hwidth, -⟩ := layout_eq hslots.size hlayout
  have hstore : ({ offset := pixelOffset layout s x, word := _ } : WordStore) ∈
      lineStores layout screens y :=
    mem_lineStores.mpr ⟨s, hs, x, (hslots.size s hs).1.symm ▸ hx, rfl⟩
  have hlast := KeyedWrites.lastFor_of_unique WordStore.offset hstore ?_
  · rw [lineWord, hlast]
    rfl
  · intro other hother hoffset
    obtain ⟨s', hs', x', hx', rfl⟩ := mem_lineStores.mp hother
    change pixelOffset layout s' x' = pixelOffset layout s x at hoffset
    rw [pixelOffset_eq hlayout, pixelOffset_eq hlayout, hwidth] at hoffset
    have hcell := number_inj (p := (s'.offsetX, x')) (q := (s.offsetX, x))
      ((hslots.size s' hs').1 ▸ hx') hx (by omega)
    obtain rfl := List.inj_on_of_nodup_map hslots.distinct hs' hs (congrArg Prod.fst hcell)
    rw [show x' = x from congrArg Prod.snd hcell]

end FPGARendererFTDI

namespace FPGARendererRPISPI

theorem channelsApart_word (c : Color) : ChannelsApart (word c) c := by
  constructor
  · rw [word, UInt16.shiftRight_or, UInt16.shiftRight_or, red_shiftRight, green_shiftRight,
      blue_shiftRight, UInt16.or_zero, UInt16.or_zero]
  · rw [word, or_and, or_and, (shifted_and_low _).1, (shifted_and_low _).2, blue_and_low,
      UInt16.or_zero, UInt16.zero_or]

theorem mem_lineStores {globalBrightness : Int} {dimmed : Color → Color} {layout : Layout}
    {screens : List Screen} {y : Int} {store : WordStore} :
    store ∈ lineStores globalBrightness dimmed layout screens y ↔
      ∃ s ∈ screens, inLine y s = true ∧ ∃ x ∈ cells s.width,
        store = { offset := pixelOffset layout s x,
                  word := (pixel layout.screenWidth layout.screenHeight s x
                      (y % layout.screenHeight)).map fun tmpColor =>
                    word (if globalBrightness < 100 then dimmed tmpColor else tmpColor) } := by
  simp only [lineStores, List.mem_map, mem_lineWrites]
  constructor
  · rintro ⟨write, ⟨s, hs, hline, x, hx, hsource, hoffset⟩, rfl⟩
    refine ⟨s, List.mem_of_getElem? hs, hline, x, hx, ?_⟩
    rw [hs, hsource, hoffset]
    rfl
  · rintro ⟨s, hs, hline, x, hx, rfl⟩
    obtain ⟨index, hindex⟩ := List.getElem?_of_mem hs
    refine ⟨⟨index, _, _⟩, ⟨s, hindex, hline, x, hx, rfl, rfl⟩, ?_⟩
    simp only [hindex, Option.bind_some]
    rfl

/-- No panel overwrites the word of another panel of its row. -/
theorem lineWord_eq {screens : List Screen} {w h : Int} (hslots : Slots screens w h)
    {layout : Layout} (hinit : init screens = some layout) (globalBrightness : Int)
    (dimmed : Color → Color) {y : Int} {s : Screen} (hs : s ∈ screens)
    (hline : inLine y s = true) {x : Int} (hx : x ∈ cells w) :
    lineWord (lineStores globalBrightness dimmed layout screens y) (pixelOffset layout s x) =
      (pixel layout.screenWidth layout.screenHeight s x (y % layout.screenHeight)).map
        fun tmpColor =>
          word (if globalBrightness < 100 then dimmed tmpColor else tmpColor) := by
  have hplace : ∀ (s : Screen) (x : Int), pixelOffset layout s x = 2 * number w (s.offsetX, x) := by
    obtain ⟨first, hfirst, rfl⟩ := Option.map_eq_some_iff.mp hinit
    intro s x
    simp only [pixelOffset, bitDepthInBytes, number,
      (hslots.size first (List.mem_of_head? hfirst)).1]
    rw [Int.mul_add, Int.mul_left_comm 2, Int.mul_comm w 2, Int.add_comm, Int.mul_comm x]
  have hstore : ({ offset := pixelOffset layout s x, word := _ } : WordStore) ∈
      lineStores globalBrightness dimmed layout screens y :=
    mem_lineStores.mpr ⟨s, hs, hline, x, (hslots.size s hs).1.symm ▸ hx, rfl⟩
  have hlast := KeyedWrites.lastFor_of_unique WordStore.offset hstore ?_
  · rw [lineWord, hlast]
    rfl
  · intro other hother hoffset
    obtain ⟨s', hs', hline', x', hx', rfl⟩ := mem_lineStores.mp hother
    change pixelOffset layout s' x' = pixelOffset layout s x at hoffset
    rw [hplace, hplace] at hoffset
    have hcell := number_inj (p := (s'.offsetX, x')) (q := (s.offsetX, x))
      ((hslots.size s' hs').1 ▸ hx') hx (by omega)
    have hrow : s'.offsetY = s.offsetY := by
      have hy := (inLine_iff (hslots.valid s hs).2).mp hline
      have hy' := (inLine_iff (hslots.valid s' hs').2).mp hline'
      have hvalid := (hslots.valid s hs).2
      have hvalid' := (hslots.valid s' hs').2
      omega
    have hcolumn : s'.offsetX = s.offsetX := congrArg Prod.fst hcell
    obtain rfl := List.inj_on_of_nodup_map hslots.distinct hs' hs (Prod.ext hcolumn hrow)
    rw [show x' = x from congrArg Prod.snd hcell]

end FPGARendererRPISPI

/-- In every line each pixel's red and blue are in their fields of its word. -/
def FPGARendererFTDI.ColorsApart (layout : FPGARendererFTDI.Layout) (screens : List Screen) :
    Prop :=
  ∀ y ∈ cells layout.screenHeight, ∀ s ∈ screens, ∀ x ∈ cells s.width, ∀ c,
    FPGARendererFTDI.pixel layout.screenWidth layout.screenHeight s x y = some c →
    ∃ word, lineWord (FPGARendererFTDI.lineStores layout screens y)
        (FPGARendererFTDI.pixelOffset layout s x) = some word ∧ ChannelsApart word c

/-- The same at full brightness in the lines of two rows. -/
def FPGARendererRPISPI.ColorsApart (dimmed : Color → Color) (layout : FPGARendererRPISPI.Layout)
    (screens : List Screen) : Prop :=
  ∀ y ∈ cells layout.lineCount, ∀ s ∈ screens, FPGARendererRPISPI.inLine y s = true →
    ∀ x ∈ cells s.width, ∀ c, FPGARendererRPISPI.pixel layout.screenWidth layout.screenHeight s x
      (y % layout.screenHeight) = some c →
    ∃ word, lineWord (FPGARendererRPISPI.lineStores 100 dimmed layout screens y)
        (FPGARendererRPISPI.pixelOffset layout s x) = some word ∧ ChannelsApart word c

/-- The lines of one renderer keep the channels apart just when no pixel they show has the top
bit of the green set and the lowest transmitted bit of the red clear; those of the other always
do. -/
theorem colors_apart_iff (screens : List Screen) (w h : Int) :
    (∀ layout, FPGARendererFTDI.Slots screens w h →
      FPGARendererFTDI.layout screens = some layout →
      (FPGARendererFTDI.ColorsApart layout screens ↔
        ∀ y ∈ cells layout.screenHeight, ∀ s ∈ screens, ∀ x ∈ cells s.width, ∀ c,
          FPGARendererFTDI.pixel layout.screenWidth layout.screenHeight s x y = some c →
          c.g < 128 ∨ c.r &&& 8 ≠ 0)) ∧
    ∀ layout dimmed, FPGARendererRPISPI.Slots screens w h →
      FPGARendererRPISPI.init screens = some layout →
      FPGARendererRPISPI.ColorsApart dimmed layout screens := by
  constructor
  · intro layout hslots hlayout
    refine forall₂_congr fun y hy => forall₂_congr fun s hs => forall₂_congr fun x hx =>
      forall₂_congr fun c hc => ?_
    rw [FPGARendererFTDI.lineWord_eq hslots hlayout hs ((hslots.size s hs).1 ▸ hx), hc,
      Option.map_some]
    simp only [Option.some.injEq, exists_eq_left', FPGARendererFTDI.channelsApart_word]
  · intro layout dimmed hslots hinit y hy s hs hline x hx c hc
    rw [FPGARendererRPISPI.lineWord_eq hslots hinit 100 dimmed hs hline
      ((hslots.size s hs).1 ▸ hx), hc]
    exact ⟨_, rfl, FPGARendererRPISPI.channelsApart_word c⟩

/-- A panel of one pixel. -/
def onePixel (c : Color) : Screen :=
  { screenId := 0, width := 1, height := 1, screenDataSize := 1, screenData := [c] }

theorem slots_onePixel (c : Color) : FPGARendererFTDI.Slots [onePixel c] 1 1 := by
  refine ⟨?_, ?_, List.nodup_singleton _⟩
  · intro s hs
    cases List.mem_singleton.mp hs
    exact ⟨rfl, rfl⟩
  · intro s hs
    cases List.mem_singleton.mp hs
    exact ⟨Int.le_refl _, Int.zero_lt_one⟩

theorem red_pixel_apart : ∃ layout,
    FPGARendererFTDI.layout [onePixel ⟨255, 255, 0⟩] = some layout ∧
      FPGARendererFTDI.ColorsApart layout [onePixel ⟨255, 255, 0⟩] := by
  refine ⟨_, rfl, ((colors_apart_iff _ 1 1).1 _ (slots_onePixel _) rfl).mpr ?_⟩
  rintro y ⟨hlow, hhigh⟩ s hs x ⟨hleft, hright⟩ c hc
  obtain rfl : y = 0 := by
    change y < 1 at hhigh
    omega
  cases List.mem_singleton.mp hs
  obtain rfl : x = 0 := by
    change x < 1 at hright
    omega
  cases hc
  exact .inr (by decide)

/-- A green pixel and a black one: the words differ in the lowest bit of the red. -/
theorem green_leaks_into_red : ∃ layout,
    FPGARendererFTDI.layout [onePixel ⟨0, 128, 0⟩] = some layout ∧
      FPGARendererFTDI.layout [onePixel .black] = some layout ∧
      (lineWord (FPGARendererFTDI.lineStores layout [onePixel ⟨0, 128, 0⟩] 0) 0).map
        (fun word : UInt16 => word >>> 11) = some 1 ∧
      (lineWord (FPGARendererFTDI.lineStores layout [onePixel .black] 0) 0).map
        (fun word : UInt16 => word >>> 11) = some 0 ∧
      ¬ FPGARendererFTDI.ColorsApart layout [onePixel ⟨0, 128, 0⟩] := by
  refine ⟨_, rfl, rfl, by decide, by decide, fun hapart => ?_⟩
  obtain ⟨word, hword, hred, -⟩ := hapart 0 ⟨by decide, by decide⟩ _ (List.mem_singleton.mpr rfl) 0
    ⟨by decide, by decide⟩ ⟨0, 128, 0⟩ rfl
  cases hword
  exact absurd hred (by decide)

end MatrixServer
