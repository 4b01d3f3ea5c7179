import MatrixServer.Common.Screen
import MatrixServer.Foundation.PixelGrid

/-!
Single pixels of a screen, `setPixel` and `getPixel` of common/Screen.cpp.
The columns lie behind one another in `screenData`. An index outside the vector makes
`at` throw in `setPixel` and is undefined for `operator[]` in `getPixel`; both are `none`.
-/

namespace MatrixServer

namespace Color

/-- `operator+` of one channel, which stops at `UINT8_MAX`. -/
def addChannel (lhs rhs : UInt8) : UInt8 :=
  if lhs.toNat + rhs.toNat < 255 then lhs + rhs else 255

def add (lhs rhs : Color) : Color :=
  ⟨addChannel lhs.r rhs.r, addChannel lhs.g rhs.g, addChannel lhs.b rhs.b⟩

instance : Add Color := ⟨add⟩

end Color

namespace Screen

def getArrayIndex (s : Screen) (x y : Int) : Int := y + x * s.height

/-- `x >= 0 && y >= 0 && x < width && y < height` -/
def Contains (s : Screen) (x y : Int) : Prop := 0 ≤ x ∧ 0 ≤ y ∧ x < s.width ∧ y < s.height

instance (s : Screen) (x y : Int) : Decidable (s.Contains x y) :=
  inferInstanceAs (Decidable (_ ∧ _ ∧ _ ∧ _))

def setPixel (s : Screen) (x y : Int) (col : Color) (add : Bool) : Option Screen :=
  if s.Contains x y then
    let index := (s.getArrayIndex x y).toNat
    s.screenData[index]?.map fun old =>
      { s with screenData := s.screenData.set index (if add then old + col else col) }
  else some s

def getPixel (s : Screen) (x y : Int) : Option Color :=
  if s.Contains x y then s.screenData[(s.getArrayIndex x y).toNat]? else some .black

/-- The screen with one pixel of it set. -/
def paint (s : Screen) (x y : Int) (col : Color) : Screen :=
  { s with screenData := s.screenData.set (s.getArrayIndex x y).toNat col }

@[simp] theorem paint_width (s : Screen) (x y : Int) (col : Color) :
    (s.paint x y col).width = s.width := rfl

@[simp] theorem paint_height (s : Screen) (x y : Int) (col : Color) :
    (s.paint x y col).height = s.height := rfl

@[simp] theorem paint_getArrayIndex (s : Screen) (x y : Int) (col : Color) (x' y' : Int) :
    (s.paint x y col).getArrayIndex x' y' = s.getArrayIndex x' y' := rfl

theorem paint_screenData (s : Screen) (x y : Int) (col : Color) : (s.paint x y col).screenData =
    s.screenData.set (s.getArrayIndex x y).toNat col := rfl

theorem paint_contains (s : Screen) (x y : Int) (col : Color) {x' y' : Int} :
    (s.paint x y col).Contains x' y' ↔ s.Contains x' y' := Iff.rfl

theorem Full.paint {s : Screen} (h : s.Full) (x y : Int) (col : Color) :
    (s.paint x y col).Full :=
  ⟨h.nonneg, h.size, by simp [Screen.paint, h.length]⟩

theorem contains_iff (s : Screen) (x y : Int) :
    s.Contains x y ↔ (x, y) ∈ PixelGrid.rect s.width s.height :=
  ⟨fun ⟨hx, hy, hwidth, hheight⟩ => ⟨hx, hwidth, hy, hheight⟩,
    fun ⟨hx, hwidth, hy, hheight⟩ => ⟨hx, hy, hwidth, hheight⟩⟩

theorem getArrayIndex_eq (s : Screen) (x y : Int) :
    s.getArrayIndex x y = PixelGrid.number s.height (x, y) := rfl

theorem Contains.index_nonneg {s : Screen} {x y : Int} (h : s.Contains x y) :
    0 ≤ s.getArrayIndex x y := PixelGrid.number_nonneg ((s.contains_iff x y).mp h)

theorem Contains.index_lt {s : Screen} {x y : Int} (h : s.Contains x y) :
    s.getArrayIndex x y < s.width * s.height := PixelGrid.number_lt ((s.contains_iff x y).mp h)

/-- Two pixels of a screen lie at different places. -/
theorem Contains.index_inj {s : Screen} {x y x' y' : Int} (h : s.Contains x y)
    (h' : s.Contains x' y') (heq : s.getArrayIndex x y = s.getArrayIndex x' y') :
    x = x' ∧ y = y' := by
  have hfound := PixelGrid.number_ediv_emod ((s.contains_iff x y).mp h)
  rw [← getArrayIndex_eq, heq, getArrayIndex_eq,
    PixelGrid.number_ediv_emod ((s.contains_iff x' y').mp h')] at hfound
  exact ⟨(congrArg Prod.fst hfound).symm, (congrArg Prod.snd hfound).symm⟩

theorem Full.index_lt_length {s : Screen} (h : s.Full) {x y : Int} (hin : s.Contains x y) :
    (s.getArrayIndex x y).toNat < s.screenData.length := by
  have hlt := hin.index_lt
  have hnonneg := hin.index_nonneg
  rw [h.length, h.size]
  omega

theorem setPixel_inside {s : Screen} (h : s.Full) {x y : Int} (hin : s.Contains x y)
    (col : Color) : s.setPixel x y col false = some (s.paint x y col) := by
  simp [setPixel, hin, h.index_lt_length hin, paint]

theorem setPixel_outside {s : Screen} {x y : Int} (hout : ¬ s.Contains x y) (col : Color)
    (add : Bool) : s.setPixel x y col add = some s := if_neg hout

/-- Of the pixels of a painted screen one has the colour and the others are as before. -/
theorem getPixel_paint {s : Screen} (h : s.Full) {x y : Int} (hin : s.Contains x y)
    (col : Color) {x' y' : Int} (hin' : s.Contains x' y') :
    (s.paint x y col).getPixel x' y' =
      if x' = x ∧ y' = y then some col else s.getPixel x' y' := by
  have hindex : (s.getArrayIndex x y).toNat = (s.getArrayIndex x' y').toNat ↔
      x' = x ∧ y' = y := by
    constructor
    · intro heq
      have hnonneg := hin.index_nonneg
      have hnonneg' := hin'.index_nonneg
      exact hin'.index_inj hin (by omega)
    · rintro ⟨rfl, rfl⟩
      rfl
  simp only [getPixel, paint_contains, if_pos hin', paint_getArrayIndex, paint_screenData,
    List.getElem?_set, hindex, if_pos (h.index_lt_length hin)]

end Screen
end MatrixServer
