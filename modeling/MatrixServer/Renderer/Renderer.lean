import MatrixServer.Common.Screen

/-!
The renderers behind `IRenderer`, as far as the server drives them.
`setScreenData` also returns how many colours it reads from the pointer it is
given. A renderer's lock is free between calls that run to completion, so
`try_lock` succeeds; the output to the panels or the browser is not modelled.
-/

namespace MatrixServer

inductive RendererKind where
  | fpgaFTDI | fpgaRPISPI | rgbMatrix
  | webSocketSimulator (streamPixels : Bool)
  deriving DecidableEq

structure Renderer where
  kind : RendererKind
  screens : List Screen
  globalBrightness : Int := 100
  deriving DecidableEq

/-- `screens.at(screenId)->setScreenData(data)` behind the bound check all renderers
share. Negative ids are left to the callers; the server turns them away. -/
def storeScreenData (screens : List Screen) (screenId : Nat) (data : Nat → Color) :
    List Screen × Nat :=
  match screens[screenId]? with
  | none => (screens, 0)
  | some screen =>
      (screens.set screenId (screen.setScreenData data), screen.screenDataSize.toNat)

def FPGARendererFTDI.setScreenData := storeScreenData

def FPGARendererRPISPI.setScreenData := storeScreenData

def RGBMatrixRenderer.setScreenData := storeScreenData

def WebSocketSimulatorRenderer.setScreenData (streamPixels : Bool) (screens : List Screen)
    (screenId : Nat) (data : Nat → Color) : List Screen × Nat :=
  if !streamPixels then (screens, 0) else storeScreenData screens screenId data

/-- The hardware renderers share this body. -/
def setPercentBrightness (current brightness : Int) : Int :=
  if brightness ≤ 100 ∧ brightness ≥ 0 then brightness else current

def FPGARendererFTDI.setGlobalBrightness := setPercentBrightness

def FPGARendererRPISPI.setGlobalBrightness := setPercentBrightness

def RGBMatrixRenderer.setGlobalBrightness := setPercentBrightness

def WebSocketSimulatorRenderer.setGlobalBrightness (_current brightness : Int) : Int :=
  brightness

namespace Renderer

def setScreenData (r : Renderer) (screenId : Nat) (data : Nat → Color) : Renderer × Nat :=
  let stored := match r.kind with
    | .fpgaFTDI => FPGARendererFTDI.setScreenData r.screens screenId data
    | .fpgaRPISPI => FPGARendererRPISPI.setScreenData r.screens screenId data
    | .rgbMatrix => RGBMatrixRenderer.setScreenData r.screens screenId data
    | .webSocketSimulator streamPixels =>
        WebSocketSimulatorRenderer.setScreenData streamPixels r.screens screenId data
  ({ r with screens := stored.1 }, stored.2)

def setGlobalBrightness (r : Renderer) (brightness : Int) : Renderer :=
  { r with globalBrightness := match r.kind with
      | .fpgaFTDI => FPGARendererFTDI.setGlobalBrightness r.globalBrightness brightness
      | .fpgaRPISPI => FPGARendererRPISPI.setGlobalBrightness r.globalBrightness brightness
      | .rgbMatrix => RGBMatrixRenderer.setGlobalBrightness r.globalBrightness brightness
      | .webSocketSimulator _ =>
          WebSocketSimulatorRenderer.setGlobalBrightness r.globalBrightness brightness }

end Renderer

/-- Whether a renderer of this kind stores the pixels it is sent. -/
def RendererKind.storesPixels : RendererKind → Bool
  | .webSocketSimulator streamPixels => streamPixels
  | _ => true

theorem storeScreenData_sizes (screens : List Screen) (screenId : Nat) (data : Nat → Color) :
    (storeScreenData screens screenId data).1.map Screen.screenDataSize =
      screens.map Screen.screenDataSize := by
  simp only [storeScreenData]
  split
  · rfl
  · rename_i screen hget
    rw [List.map_set, Screen.setScreenData_size]
    apply List.ext_getElem?
    intro i
    rw [List.getElem?_set]
    split
    · rename_i hi
      subst hi
      obtain ⟨hlt, hscreen⟩ := List.getElem?_eq_some_iff.mp hget
      simp [hlt, hscreen]
    · rfl

theorem storeScreenData_screen (screens : List Screen) (screenId : Nat) (data : Nat → Color)
    (index : Nat) :
    (storeScreenData screens screenId data).1[index]? =
      if screenId = index then screens[index]?.map (·.setScreenData data) else screens[index]? := by
  simp only [storeScreenData]
  split
  · rename_i hnone
    split
    · rename_i hindex
      rw [← hindex, hnone]
      rfl
    · rfl
  · rename_i screen hget
    obtain ⟨hlt, rfl⟩ := List.getElem?_eq_some_iff.mp hget
    rw [List.getElem?_set]
    split
    · rename_i hindex
      subst hindex
      simp [hlt]
    · rfl

theorem storeScreenData_reads (screens : List Screen) (screenId : Nat) (data : Nat → Color) :
    (storeScreenData screens screenId data).2 =
      ((screens.map Screen.screenDataSize)[screenId]?.getD 0).toNat := by
  simp only [storeScreenData]
  split <;> simp_all

namespace Renderer

/-- What every `setScreenData` comes to. -/
theorem setScreenData_eq (r : Renderer) (screenId : Nat) (data : Nat → Color) :
    r.setScreenData screenId data =
      if r.kind.storesPixels then
        ({ r with screens := (storeScreenData r.screens screenId data).1 },
          (storeScreenData r.screens screenId data).2)
      else (r, 0) := by
  obtain ⟨kind, screens, brightness⟩ := r
  cases kind with
  | fpgaFTDI | fpgaRPISPI | rgbMatrix => rfl
  | webSocketSimulator streamPixels => cases streamPixels <;> rfl

@[simp] theorem setScreenData_kind (r : Renderer) (screenId : Nat) (data : Nat → Color) :
    (r.setScreenData screenId data).1.kind = r.kind := rfl

theorem setScreenData_sizes (r : Renderer) (screenId : Nat) (data : Nat → Color) :
    (r.setScreenData screenId data).1.screens.map Screen.screenDataSize =
      r.screens.map Screen.screenDataSize := by
  rw [setScreenData_eq]
  split
  · exact storeScreenData_sizes _ _ _
  · rfl

theorem setScreenData_screen (r : Renderer) (screenId : Nat) (data : Nat → Color) (index : Nat) :
    (r.setScreenData screenId data).1.screens[index]? =
      if r.kind.storesPixels ∧ screenId = index then
        r.screens[index]?.map (·.setScreenData data)
      else r.screens[index]? := by
  rw [setScreenData_eq]
  cases r.kind.storesPixels with
  | false => simp
  | true => simpa using storeScreenData_screen r.screens screenId data index

end Renderer
end MatrixServer
