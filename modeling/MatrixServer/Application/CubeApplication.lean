import MatrixServer.Application.CharacterBitmaps
import MatrixServer.Common.ScreenOperations
import MatrixServer.Common.ScreenPixels
import MatrixServer.Foundation.PlotLoops
import Mathlib.Data.Fin.VecNotation

/-!
Drawing on the cube, application/CubeApplication.cpp.
The panels are the six faces of a cube of side 66 whose edges no panel has. A drawing
function is given by the points it calls `setPixel3D` with, in order; `plot` makes these
calls. A C++ `int` is an `Int`: the line algorithms stay inside its range, which their
modules prove, and a pixel's coordinates are the caller's.
-/

namespace MatrixServer

abbrev Vector2i := Fin 2 → Int

abbrev Vector3i := Fin 3 → Int

inductive ScreenNumber where
  | front | right | back | left | top | bottom | anyScreen
  deriving DecidableEq, Repr

/-- `ScreenNumber(number)`, the screens in the order of their declaration. -/
def ScreenNumber.ofNumber : Nat → ScreenNumber
  | 0 => .front
  | 1 => .right
  | 2 => .back
  | 3 => .left
  | 4 => .top
  | 5 => .bottom
  | _ => .anyScreen

inductive EdgeNumber where
  | frontRight | rightBack | backLeft | leftFront | topFront | topRight | topBack | topLeft
  | bottomFront | bottomRight | bottomBack | bottomLeft | anyEdge
  deriving DecidableEq, Repr

inductive CornerNumber where
  | frontRightTop | rightBackTop | backLeftTop | leftFrontTop | frontRightBottom
  | rightBackBottom | backLeftBottom | leftFrontBottom | anyCorner
  deriving DecidableEq, Repr

namespace CubeApplication

def CUBESIZE : Int := 64

def VIRTUALCUBEMAXINDEX : Int := 65

def constrain (value min max : Int) : Int :=
  if value < min then min else if value > max then max else value

/-- `screens[index]->setPixel(x, y, col, add)` -/
def setScreenPixel (screens : List Screen) (index : Nat) (x y : Int) (col : Color)
    (add : Bool) : Option (List Screen) :=
  screens[index]?.bind fun screen =>
    (screen.setPixel x y col add).map fun drawn => screens.set index drawn

/-- `dimmed` is what `col *= intensity` makes of a colour, none when the intensity is `1.0f`. -/
def setPixel3D (screens : List Screen) (pos : Vector3i) (col : Color)
    (dimmed : Option (Color → Color)) (add : Bool) : Option (List Screen) :=
  let x := constrain (pos 0) 0 VIRTUALCUBEMAXINDEX
  let y := constrain (pos 1) 0 VIRTUALCUBEMAXINDEX
  let z := constrain (pos 2) 0 VIRTUALCUBEMAXINDEX
  let col := (dimmed.map fun f => f col).getD col
  if y = 0 then setScreenPixel screens 0 (x - 1) (z - 1) col add
  else if x = VIRTUALCUBEMAXINDEX then setScreenPixel screens 1 (y - 1) (z - 1) col add
  else if y = VIRTUALCUBEMAXINDEX then
    setScreenPixel screens 2 (VIRTUALCUBEMAXINDEX - x - 1) (z - 1) col add
  else if x = 0 then setScreenPixel screens 3 (VIRTUALCUBEMAXINDEX - y - 1) (z - 1) col add
  else if z = 0 then setScreenPixel screens 4 (x - 1) (VIRTUALCUBEMAXINDEX - y - 1) col add
  else if z = VIRTUALCUBEMAXINDEX then setScreenPixel screens 5 (x - 1) (y - 1) col add
  else some screens

/-- `screens[index]->getPixel(x, y)` -/
def getScreenPixel (screens : List Screen) (index : Nat) (x y : Int) : Option Color :=
  screens[index]?.bind fun screen => screen.getPixel x y

/-- The coordinates are taken as they are; a point on no screen is black, with a warning in the
log. -/
def getPixel3D (screens : List Screen) (pos : Vector3i) : Option Color :=
  let x := pos 0
  let y := pos 1
  let z := pos 2
  if y = 0 then getScreenPixel screens 0 (x - 1) (z - 1)
  else if x = VIRTUALCUBEMAXINDEX then getScreenPixel screens 1 (y - 1) (z - 1)
  else if y = VIRTUALCUBEMAXINDEX then
    getScreenPixel screens 2 (VIRTUALCUBEMAXINDEX - x - 1) (z - 1)
  else if x = 0 then getScreenPixel screens 3 (VIRTUALCUBEMAXINDEX - y - 1) (z - 1)
  else if z = 0 then getScreenPixel screens 4 (x - 1) (VIRTUALCUBEMAXINDEX - y - 1)
  else if z = VIRTUALCUBEMAXINDEX then getScreenPixel screens 5 (x - 1) (y - 1)
  else some .black

def isActivePixel3D (screens : List Screen) (pos : Vector3i) : Option Bool :=
  (getPixel3D screens pos).map fun col => decide (col ≠ .black)

def getScreenNumber (point : Vector3i) : ScreenNumber :=
  if point 0 = 0 then .left
  else if point 0 = VIRTUALCUBEMAXINDEX then .right
  else if point 1 = 0 then .front
  else if point 1 = VIRTUALCUBEMAXINDEX then .back
  else if point 2 = 0 then .top
  else if point 2 = VIRTUALCUBEMAXINDEX then .bottom
  else .anyScreen

/-- `rand` is what the calls of `rand()` return, one after the other. The two coordinates of a
point are arguments of one call, so that `lastFirst` is for the compiler to choose. -/
def getRandomPointOnScreen (lastFirst : Bool) (rand : Nat → Nat) (screenNr : ScreenNumber) :
    Vector3i :=
  let drawn := if screenNr = .anyScreen then 1 else 0
  let screenNr := if screenNr = .anyScreen then ScreenNumber.ofNumber (rand 0 % 6) else screenNr
  let first : Int := (rand (if lastFirst then drawn + 1 else drawn) : Int) % VIRTUALCUBEMAXINDEX
  let second : Int := (rand (if lastFirst then drawn else drawn + 1) : Int) % VIRTUALCUBEMAXINDEX
  match screenNr with
  | .anyScreen => ![first, 0, second]
  | .front => ![first, 0, second]
  | .right => ![VIRTUALCUBEMAXINDEX, first, second]
  | .back => ![first, VIRTUALCUBEMAXINDEX, second]
  | .left => ![0, first, second]
  | .top => ![first, second, 0]
  | .bottom => ![first, second, VIRTUALCUBEMAXINDEX]

/-- `unset` is the vector that nothing is assigned to when no screen is named. -/
def getPointOnScreen (unset : Vector3i) (screenNr : ScreenNumber) (point : Vector2i) : Vector3i :=
  let u := point 0 + 1
  let v := point 1 + 1
  match screenNr with
  | .front => ![u, 0, v]
  | .right => ![VIRTUALCUBEMAXINDEX, u, v]
  | .back => ![VIRTUALCUBEMAXINDEX - u, VIRTUALCUBEMAXINDEX, v]
  | .left => ![0, VIRTUALCUBEMAXINDEX - u, v]
  | .top => ![u, VIRTUALCUBEMAXINDEX - v, 0]
  | .bottom => ![u, v, VIRTUALCUBEMAXINDEX]
  | .anyScreen => unset

/-- `setPixel3D(point, col)` for one point after the other. -/
def plot (screens : List Screen) (points : List Vector3i) (col : Color) : Option (List Screen) :=
  points.foldlM (fun screens point => setPixel3D screens point col none false) screens

structure Line2D where
  x0 : Int
  y0 : Int
  err : Int
  deriving DecidableEq

/-- The body of the loop in `drawLine2D`, after the pixel is set and the end was not reached. -/
def Line2D.next (dx dy sx sy : Int) (st : Line2D) : Line2D :=
  let e2 := 2 * st.err
  let st := if e2 > dy then { st with err := st.err + dy, x0 := st.x0 + sx } else st
  if e2 < dx then { st with err := st.err + dx, y0 := st.y0 + sy } else st

/-- The points of the `while (1)` in `drawLine2D`, none while `fuel` turns do not end it. -/
def line2DLoop (dx dy sx sy x1 y1 : Int) : Nat → Line2D → Option (List Vector2i) :=
  PlotLoops.untilLoop (fun st => decide (st.x0 = x1 ∧ st.y0 = y1)) (Line2D.next dx dy sx sy)
    fun st => ![st.x0, st.y0]

def line2DPoints (fuel : Nat) (x0 y0 x1 y1 : Int) : Option (List Vector2i) :=
  let dx : Int := (x1 - x0).natAbs
  let sx := if x0 < x1 then 1 else -1
  let dy : Int := -(y1 - y0).natAbs
  let sy := if y0 < y1 then 1 else -1
  line2DLoop dx dy sx sy x1 y1 fuel { x0, y0, err := dx + dy }

def drawLine2D (fuel : Nat) (unset : Vector3i) (screens : List Screen) (screenNr : ScreenNumber)
    (x0 y0 x1 y1 : Int) (col : Color) : Option (List Screen) :=
  (line2DPoints fuel x0 y0 x1 y1).bind fun points =>
    plot screens (points.map (getPointOnScreen unset screenNr)) col

structure Line3D where
  point : Vector3i
  err_1 : Int
  err_2 : Int

/-- The body of a loop in `drawLine3D`, after the pixel is set. The three loops differ in the
axis they run along and in the two axes they correct. -/
def Line3D.next (inc d2 : Vector3i) (driving first second : Fin 3) (st : Line3D) : Line3D :=
  let st := if st.err_1 > 0 then
    { st with
      point := Function.update st.point first (st.point first + inc first)
      err_1 := st.err_1 - d2 driving }
    else st
  let st := if st.err_2 > 0 then
    { st with
      point := Function.update st.point second (st.point second + inc second)
      err_2 := st.err_2 - d2 driving }
    else st
  { point := Function.update st.point driving (st.point driving + inc driving)
    err_1 := st.err_1 + d2 first
    err_2 := st.err_2 + d2 second }

/-- The points of a loop in `drawLine3D` and the one set after it. -/
def line3DLoop (inc d2 : Vector3i) (driving first second : Fin 3) : Nat → Line3D → List Vector3i :=
  PlotLoops.countLoop (Line3D.next inc d2 driving first second) Line3D.point

/-- The largest change of a coordinate: the turns that the loop along it takes. -/
def length3D (start stop : Vector3i) : Nat :=
  max (max (stop 0 - start 0).natAbs (stop 1 - start 1).natAbs) (stop 2 - start 2).natAbs

def line3DPoints (start stop : Vector3i) : List Vector3i :=
  let d1 := stop - start
  let inc : Vector3i := fun axis => if d1 axis < 0 then -1 else 1
  let l : Int := (d1 0).natAbs
  let m : Int := (d1 1).natAbs
  let n : Int := (d1 2).natAbs
  let d2 : Vector3i := ![2 * l, 2 * m, 2 * n]
  if l ≥ m ∧ l ≥ n then
    line3DLoop inc d2 0 1 2 l.toNat { point := start, err_1 := d2 1 - l, err_2 := d2 2 - l }
  else if m ≥ l ∧ m ≥ n then
    line3DLoop inc d2 1 0 2 m.toNat { point := start, err_1 := d2 0 - m, err_2 := d2 2 - m }
  else
    line3DLoop inc d2 2 1 0 n.toNat { point := start, err_1 := d2 1 - n, err_2 := d2 0 - n }

def drawLine3D (screens : List Screen) (start stop : Vector3i) (col : Color) :
    Option (List Screen) :=
  plot screens (line3DPoints start stop) col

structure Circle2D where
  x : Int
  y : Int
  radiusError : Int
  deriving DecidableEq

/-- The body of the loop in `drawCircle2D`, after the pixels are set. -/
def Circle2D.next (st : Circle2D) : Circle2D :=
  let st := { st with y := st.y + 1 }
  if st.radiusError < 0 then { st with radiusError := st.radiusError + (2 * st.y + 1) }
  else
    let st := { st with x := st.x - 1 }
    { st with radiusError := st.radiusError + 2 * (st.y - st.x + 1) }

/-- The points set in a turn, in the plane with the centre at (0, 0). -/
def Circle2D.offsets (st : Circle2D) : List (Int × Int) :=
  [(st.x, st.y), (st.y, st.x), (-st.x, st.y), (-st.y, st.x), (-st.x, -st.y), (-st.y, -st.x),
    (st.x, -st.y), (st.y, -st.x)]

/-- The offsets of the points of the `while (y <= x)` in `drawCircle2D`, none while `fuel` tests
do not end it. -/
def circle2DOffsets (fuel : Nat) (radius : Int) : Option (List (Int × Int)) :=
  (PlotLoops.whileLoop (fun st => decide (st.y ≤ st.x)) Circle2D.next Circle2D.offsets fuel
    { x := radius, y := 0, radiusError := 1 - radius }).map List.flatten

def drawCircle2D (fuel : Nat) (unset : Vector3i) (screens : List Screen) (screenNr : ScreenNumber)
    (x0 y0 radius : Int) (col : Color) : Option (List Screen) :=
  (circle2DOffsets fuel radius).bind fun offsets =>
    plot screens
      (offsets.map fun p => getPointOnScreen unset screenNr ![p.1 + x0, p.2 + y0]) col

/-- The loop in `drawRect2D` over the columns from `x0` on, of which there are `count`. -/
def fillColumns (fuel : Nat) (unset : Vector3i) (screens : List Screen) (screenNr : ScreenNumber)
    (x0 y0 y1 : Int) (count : Nat) (fillColor : Color) : Option (List Screen) :=
  (List.range count).foldlM
    (fun screens (i : Nat) =>
      drawLine2D fuel unset screens screenNr (x0 + i) y0 (x0 + i) y1 fillColor)
    screens

def drawRect2D (fuel : Nat) (unset : Vector3i) (screens : List Screen) (screenNr : ScreenNumber)
    (x0 y0 x1 y1 : Int) (col : Color) (filled : Bool) (fillColor : Color) :
    Option (List Screen) := do
  let screens ← if filled then
      fillColumns fuel unset screens screenNr x0 y0 y1 (x1 - x0).toNat fillColor
    else some screens
  let screens ← drawLine2D fuel unset screens screenNr x0 y0 x0 y1 col
  let screens ← drawLine2D fuel unset screens screenNr x0 y0 x1 y0 col
  let screens ← drawLine2D fuel unset screens screenNr x1 y1 x0 y1 col
  drawLine2D fuel unset screens screenNr x1 y1 x1 y0 col

/-- The bottom edge is `w / 2` below the centre, as the right edge is beside it. -/
def drawRectCentered2D (fuel : Nat) (unset : Vector3i) (screens : List Screen)
    (screenNr : ScreenNumber) (x0 y0 w h : Int) (col : Color) (filled : Bool) (fillColor : Color) :
    Option (List Screen) :=
  drawRect2D fuel unset screens screenNr (x0 - w.tdiv 2) (y0 - h.tdiv 2) (x0 + w.tdiv 2)
    (y0 + w.tdiv 2) col filled fillColor

def drawBitmap1bpp (unset : Vector3i) (screens : List Screen) (screenNr : ScreenNumber)
    (topLeftPoint : Vector2i) (col : Color) (bitmap : Bitmap1bpp) : Option (List Screen) :=
  plot screens
    (bitmap.map fun pos => getPointOnScreen unset screenNr fun axis => topLeftPoint axis + pos axis)
    col

/-- The loop over the characters of a text, `x` and `y` being `posIterator`. -/
def drawCharacters (unset : Vector3i) (screenNr : ScreenNumber) (left : Int) (col : Color) :
    List Screen → Int → Int → List Char → Option (List Screen)
  | screens, _, _, [] => some screens
  | screens, x, y, character :: text =>
      (drawBitmap1bpp unset screens screenNr ![x, y] col
        (CharacterBitmaps.getBitmapFromChar character)).bind fun screens =>
        let x := x + CharacterBitmaps.fontWidth
        let wraps := x > CUBESIZE - CharacterBitmaps.fontWidth
        let y := if wraps then y + CharacterBitmaps.fontHeight else y
        let x := if wraps then left else x
        if y > CUBESIZE - CharacterBitmaps.fontHeight then some screens
        else drawCharacters unset screenNr left col screens x y text

/-- Where `drawText` begins; the lines after the first one begin at `topLeftPoint[0]`. -/
def textStart (topLeftPoint : Vector2i) (text : List Char) : Int × Int :=
  let x := if topLeftPoint 0 = CharacterBitmaps.centered then
    (CUBESIZE - CharacterBitmaps.getStringWidth text).tdiv 2 else topLeftPoint 0
  let y := if topLeftPoint 1 = CharacterBitmaps.centered then
    (CUBESIZE - CharacterBitmaps.fontHeight).tdiv 2 else topLeftPoint 1
  let x := if topLeftPoint 0 = CharacterBitmaps.right then
    CUBESIZE - CharacterBitmaps.getStringWidth text else x
  (x, y)

def drawText (unset : Vector3i) (screens : List Screen) (screenNr : ScreenNumber)
    (topLeftPoint : Vector2i) (col : Color) (text : List Char) : Option (List Screen) :=
  let posIterator := textStart topLeftPoint text
  drawCharacters unset screenNr (topLeftPoint 0) col screens posIterator.1 posIterator.2 text

def isOnSurface (point : Vector3i) : Bool := getScreenNumber point ≠ .anyScreen

def getEdgeNumber (point : Vector3i) : EdgeNumber :=
  if point 0 = VIRTUALCUBEMAXINDEX ∧ point 1 = 0 then .frontRight
  else if point 0 = VIRTUALCUBEMAXINDEX ∧ point 1 = VIRTUALCUBEMAXINDEX then .rightBack
  else if point 0 = 0 ∧ point 1 = VIRTUALCUBEMAXINDEX then .backLeft
  else if point 0 = 0 ∧ point 1 = 0 then .leftFront
  else if point 1 = 0 ∧ point 2 = 0 then .topFront
  else if point 0 = VIRTUALCUBEMAXINDEX ∧ point 2 = 0 then .topRight
  else if point 1 = VIRTUALCUBEMAXINDEX ∧ point 2 = 0 then .topBack
  else if point 0 = 0 ∧ point 2 = 0 then .topLeft
  else if point 1 = 0 ∧ point 2 = VIRTUALCUBEMAXINDEX then .bottomFront
  else if point 0 = VIRTUALCUBEMAXINDEX ∧ point 2 = VIRTUALCUBEMAXINDEX then .bottomRight
  else if point 1 = VIRTUALCUBEMAXINDEX ∧ point 2 = VIRTUALCUBEMAXINDEX then .bottomBack
  else if point 0 = 0 ∧ point 2 = VIRTUALCUBEMAXINDEX then .bottomLeft
  else .anyEdge

def isOnEdge (point : Vector3i) : Bool := getEdgeNumber point ≠ .anyEdge

def getCornerNumber (point : Vector3i) : CornerNumber :=
  let x := point 0
  let y := point 1
  let z := point 2
  if x = VIRTUALCUBEMAXINDEX ∧ y = 0 ∧ z = 0 then .frontRightTop
  else if x = VIRTUALCUBEMAXINDEX ∧ y = VIRTUALCUBEMAXINDEX ∧ z = 0 then .rightBackTop
  else if x = 0 ∧ y = VIRTUALCUBEMAXINDEX ∧ z = 0 then .backLeftTop
  else if x = 0 ∧ y = 0 ∧ z = 0 then .leftFrontTop
  else if x = VIRTUALCUBEMAXINDEX ∧ y = 0 ∧ z = VIRTUALCUBEMAXINDEX then .frontRightBottom
  else if x = VIRTUALCUBEMAXINDEX ∧ y = VIRTUALCUBEMAXINDEX ∧ z = VIRTUALCUBEMAXINDEX then
    .rightBackBottom
  else if x = 0 ∧ y = VIRTUALCUBEMAXINDEX ∧ z = VIRTUALCUBEMAXINDEX then .backLeftBottom
  else if x = 0 ∧ y = 0 ∧ z = VIRTUALCUBEMAXINDEX then .leftFrontBottom
  else .anyCorner

def isOnCorner (point : Vector3i) : Bool := getCornerNumber point ≠ .anyCorner

def fillAll (screens : List Screen) (col : Color) : List Screen :=
  screens.map fun screen => screen.fill col

def clear (screens : List Screen) : List Screen := screens.map Screen.clear

end CubeApplication
end MatrixServer
