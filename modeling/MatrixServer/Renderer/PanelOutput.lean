import MatrixServer.Common.ScreenPixels

/-!
What the hardware renderers show of a screen, in FPGARendererFTDI.cpp,
FPGARendererRPISPI.cpp and RGBMatrixRenderer.cpp under renderer/.
The FPGA renderers send a panel line by line and fetch the pixel for each column of it, one
with `getPixel` and one from `screenData`; the third sets the pixels of a canvas.
-/

namespace MatrixServer

/-- `screenData[index]`; reading outside the vector is undefined. -/
def Screen.dataAt (s : Screen) (index : Int) : Option Color :=
  if 0 ≤ index then s.screenData[index.toNat]? else none

namespace FPGARendererFTDI

/-- The arguments of `getPixel` for column `x` of line `y`. -/
def source (screenWidth screenHeight : Int) (rotation : Rotation) (x y : Int) : Int × Int :=
  match rotation with
  | .rot0 => (x, y)
  | .rot90 => (screenHeight - 1 - y, x)
  | .rot180 => (screenWidth - 1 - x, screenHeight - 1 - y)
  | .rot270 => (y, screenWidth - 1 - x)

def pixel (screenWidth screenHeight : Int) (screen : Screen) (x y : Int) : Option Color :=
  let p := source screenWidth screenHeight screen.rotation x y
  screen.getPixel p.1 p.2

end FPGARendererFTDI

namespace FPGARendererRPISPI

/-- The index into `screenData` for column `x` of the panel's line `yPos`. -/
def dataIndex (screenWidth screenHeight : Int) (rotation : Rotation) (x yPos : Int) : Int :=
  match rotation with
  | .rot0 => yPos + x * screenHeight
  | .rot90 => x + (screenHeight - 1 - yPos) * screenHeight
  | .rot180 => screenWidth - 1 - yPos + (screenHeight - 1 - x) * screenHeight
  | .rot270 => screenWidth - 1 - x + yPos * screenHeight

def pixel (screenWidth screenHeight : Int) (screen : Screen) (x yPos : Int) : Option Color :=
  screen.dataAt (dataIndex screenWidth screenHeight screen.rotation x yPos)

end FPGARendererRPISPI

namespace RGBMatrixRenderer

/-- Where the canvas is set in the turn (i, j) of the loops over a screen. -/
def position (screen : Screen) (p : Int × Int) : Int × Int :=
  let left := screen.width * screen.offsetX
  let top := screen.height * screen.offsetY
  match screen.rotation with
  | .rot0 => (left + p.1, top + p.2)
  | .rot90 => (left + screen.width - 1 - p.1, top + p.2)
  | .rot180 => (left + screen.width - 1 - p.1, top + screen.height - 1 - p.2)
  | .rot270 => (left + p.1, top + screen.height - 1 - p.2)

/-- The index into `screenData` in the turn (i, j). -/
def dataIndex (screen : Screen) (p : Int × Int) : Int :=
  match screen.rotation with
  | .rot0 | .rot180 => p.2 + p.1 * screen.width
  | .rot90 | .rot270 => p.1 + p.2 * screen.width

/-- The calls of `SetPixel` for a screen: where, and the pixel of `screenData` shown there. -/
def setPixelCalls (screen : Screen) : List ((Int × Int) × Int) :=
  (PixelGrid.scan screen.width screen.height).map fun p =>
    (position screen p, dataIndex screen p)

end RGBMatrixRenderer
end MatrixServer
