import Mathlib.Data.Fin.VecNotation

/-!
The font of application/Font6px.h.
A glyph is the list of its set pixels, counted from the upper left corner of its cell. A text is
the list of its bytes, read as characters; a byte without a glyph is drawn as a chequered cell.
-/

namespace MatrixServer

abbrev Bitmap1bpp := List (Fin 2 → Int)

namespace CharacterBitmaps

def fontWidth : Int := 4

def fontHeight : Int := 6

/-- The values of `FontAlignment`. -/
def left : Int := 0

def centered : Int := -1

def right : Int := -2

def char_0 : Bitmap1bpp :=
  [![0, 0], ![1, 0], ![2, 0], ![0, 1], ![2, 1], ![0, 2], ![2, 2], ![0, 3], ![2, 3], ![0, 4],
    ![1, 4], ![2, 4]]

def char_1 : Bitmap1bpp :=
  [![1, 0], ![1, 1], ![1, 2], ![1, 3], ![1, 4]]

def char_2 : Bitmap1bpp :=
  [![0, 0], ![1, 0], ![2, 0], ![2, 1], ![2, 2], ![1, 2], ![0, 2], ![0, 3], ![0, 4], ![1, 4],
    ![2, 4]]

def char_3 : Bitmap1bpp :=
  [![0, 0], ![1, 0], ![2, 0], ![2, 1], ![2, 2], ![1, 2], ![2, 3], ![0, 4], ![1, 4], ![2, 4]]

def char_4 : Bitmap1bpp :=
  [![0, 0], ![0, 1], ![0, 2], ![1, 2], ![2, 0], ![2, 1], ![2, 2], ![2, 3], ![2, 4]]

def char_5 : Bitmap1bpp :=
  [![0, 0], ![1, 0], ![2, 0], ![0, 1], ![2, 2], ![1, 2], ![0, 2], ![2, 3], ![0, 4], ![1, 4],
    ![2, 4]]

def char_6 : Bitmap1bpp :=
  [![0, 0], ![1, 0], ![2, 0], ![0, 1], ![1, 2], ![0, 2], ![2, 2], ![0, 3], ![2, 3], ![0, 4],
    ![1, 4], ![2, 4]]

def char_7 : Bitmap1bpp :=
  [![0, 0], ![1, 0], ![2, 0], ![2, 1], ![2, 2], ![2, 3], ![2, 4]]

def char_8 : Bitmap1bpp :=
  [![0, 0], ![1, 0], ![2, 0], ![0, 1], ![2, 1], ![0, 2], ![2, 2], ![0, 3], ![2, 3], ![0, 4],
    ![1, 4], ![2, 4], ![1, 2]]

def char_9 : Bitmap1bpp :=
  [![0, 0], ![1, 0], ![2, 0], ![0, 1], ![2, 1], ![0, 2], ![2, 2], ![2, 3], ![0, 4], ![1, 4],
    ![2, 4], ![1, 2]]

def char_A : Bitmap1bpp :=
  [![1, 0], ![0, 1], ![2, 1], ![0, 2], ![2, 2], ![0, 3], ![2, 3], ![0, 4], ![2, 4], ![1, 2]]

def char_B : Bitmap1bpp :=
  [![0, 0], ![1, 0], ![0, 1], ![2, 1], ![0, 2], ![2, 2], ![0, 3], ![2, 3], ![0, 4], ![1, 4],
    ![1, 2]]

def char_C : Bitmap1bpp :=
  [![1, 0], ![2, 0], ![0, 1], ![0, 2], ![0, 3], ![1, 4], ![2, 4]]

def char_D : Bitmap1bpp :=
  [![0, 0], ![1, 0], ![0, 1], ![2, 1], ![0, 2], ![2, 2], ![0, 3], ![2, 3], ![0, 4], ![1, 4]]

def char_E : Bitmap1bpp :=
  [![0, 0], ![1, 0], ![2, 0], ![0, 1], ![0, 2], ![2, 2], ![0, 3], ![0, 4], ![1, 4], ![2, 4],
    ![1, 2]]

def char_F : Bitmap1bpp :=
  [![0, 0], ![1, 0], ![2, 0], ![0, 1], ![0, 2], ![2, 2], ![0, 3], ![0, 4], ![1, 2]]

def char_G : Bitmap1bpp :=
  [![1, 0], ![2, 0], ![0, 1], ![1, 2], ![0, 2], ![2, 2], ![0, 3], ![2, 3], ![1, 4], ![2, 4]]

def char_H : Bitmap1bpp :=
  [![0, 0], ![2, 0], ![0, 1], ![2, 1], ![0, 2], ![2, 2], ![0, 3], ![2, 3], ![0, 4], ![2, 4],
    ![1, 2]]

def char_I : Bitmap1bpp :=
  [![0, 0], ![2, 0], ![1, 0], ![1, 1], ![1, 2], ![1, 3], ![1, 4], ![0, 4], ![2, 4]]

def char_J : Bitmap1bpp :=
  [![2, 0], ![2, 1], ![2, 2], ![2, 3], ![1, 4], ![0, 4]]

def char_K : Bitmap1bpp :=
  [![0, 0], ![2, 0], ![0, 1], ![2, 1], ![0, 2], ![0, 3], ![2, 3], ![0, 4], ![2, 4], ![1, 2]]

def char_L : Bitmap1bpp :=
  [![0, 0], ![0, 1], ![0, 2], ![0, 3], ![0, 4], ![1, 4], ![2, 4]]

def char_M : Bitmap1bpp :=
  [![1, 1], ![0, 0], ![2, 0], ![0, 1], ![2, 1], ![0, 2], ![2, 2], ![0, 3], ![2, 3], ![0, 4],
    ![2, 4], ![1, 2]]

def char_N : Bitmap1bpp :=
  [![1, 1], ![1, 3], ![0, 0], ![2, 0], ![0, 1], ![2, 1], ![0, 2], ![2, 2], ![0, 3], ![2, 3],
    ![0, 4], ![2, 4], ![1, 2]]

def char_O : Bitmap1bpp :=
  [![1, 0], ![0, 1], ![2, 1], ![0, 2], ![2, 2], ![0, 3], ![2, 3], ![1, 4]]

def char_P : Bitmap1bpp :=
  [![0, 0], ![1, 0], ![0, 1], ![2, 1], ![0, 2], ![0, 3], ![0, 4], ![1, 2]]

def char_Q : Bitmap1bpp :=
  [![1, 0], ![0, 1], ![2, 1], ![0, 2], ![2, 2], ![0, 3], ![2, 3], ![1, 4], ![2, 4], ![1, 3]]

def char_R : Bitmap1bpp :=
  [![0, 0], ![1, 0], ![0, 1], ![2, 1], ![0, 2], ![0, 3], ![0, 4], ![1, 2], ![1, 3], ![2, 4],
    ![2, 2]]

def char_S : Bitmap1bpp :=
  [![1, 0], ![2, 0], ![0, 1], ![1, 2], ![2, 3], ![0, 4], ![1, 4]]

def char_T : Bitmap1bpp :=
  [![0, 0], ![2, 0], ![1, 0], ![1, 1], ![1, 2], ![1, 3], ![1, 4]]

def char_U : Bitmap1bpp :=
  [![0, 0], ![2, 0], ![0, 1], ![2, 1], ![0, 2], ![2, 2], ![0, 3], ![2, 3], ![1, 4], ![2, 4]]

def char_V : Bitmap1bpp :=
  [![0, 0], ![2, 0], ![0, 1], ![2, 1], ![0, 2], ![2, 2], ![1, 3], ![1, 4]]

def char_W : Bitmap1bpp :=
  [![0, 0], ![2, 0], ![0, 1], ![2, 1], ![0, 2], ![2, 2], ![0, 3], ![2, 3], ![0, 4], ![2, 4],
    ![1, 2], ![1, 3]]

def char_X : Bitmap1bpp :=
  [![0, 0], ![2, 0], ![0, 1], ![2, 1], ![0, 3], ![2, 3], ![0, 4], ![2, 4], ![1, 2], ![1, 3]]

def char_Y : Bitmap1bpp :=
  [![0, 0], ![2, 0], ![0, 1], ![2, 1], ![1, 2], ![1, 3], ![1, 4]]

def char_Z : Bitmap1bpp :=
  [![0, 0], ![1, 0], ![2, 0], ![0, 4], ![1, 4], ![2, 4], ![2, 1], ![1, 2], ![0, 3]]

def char_colon : Bitmap1bpp :=
  [![1, 1], ![1, 3]]

def char_dot : Bitmap1bpp :=
  [![1, 4]]

def char_comma : Bitmap1bpp :=
  [![1, 3], ![0, 4]]

def char_minus : Bitmap1bpp :=
  [![0, 2], ![1, 2], ![2, 2]]

def char_plus : Bitmap1bpp :=
  [![1, 1], ![0, 2], ![1, 2], ![2, 2], ![1, 3]]

def char_underscore : Bitmap1bpp :=
  [![0, 5], ![1, 5], ![2, 5]]

def char_exclamation : Bitmap1bpp :=
  [![1, 0], ![1, 1], ![1, 2], ![1, 4]]

def char_question : Bitmap1bpp :=
  [![0, 0], ![1, 0], ![2, 0], ![2, 1], ![1, 2], ![1, 4]]

def char_matrix : Bitmap1bpp :=
  [![0, 0], ![2, 0], ![1, 1], ![3, 1], ![0, 2], ![2, 2], ![1, 3], ![3, 3], ![0, 4], ![2, 4],
    ![1, 5], ![3, 5]]

def getStringWidth (str : List Char) : Int := str.length * fontWidth

def getBitmapFromChar (character : Char) : Bitmap1bpp :=
  match character with
  | 'A' | 'a' => char_A
  | 'B' | 'b' => char_B
  | 'C' | 'c' => char_C
  | 'D' | 'd' => char_D
  | 'E' | 'e' => char_E
  | 'F' | 'f' => char_F
  | 'G' | 'g' => char_G
  | 'H' | 'h' => char_H
  | 'I' | 'i' => char_I
  | 'J' | 'j' => char_J
  | 'K' | 'k' => char_K
  | 'L' | 'l' => char_L
  | 'M' | 'm' => char_M
  | 'N' | 'n' => char_N
  | 'O' | 'o' => char_O
  | 'P' | 'p' => char_P
  | 'Q' | 'q' => char_Q
  | 'R' | 'r' => char_R
  | 'S' | 's' => char_S
  | 'T' | 't' => char_T
  | 'U' | 'u' => char_U
  | 'V' | 'v' => char_V
  | 'W' | 'w' => char_W
  | 'X' | 'x' => char_X
  | 'Y' | 'y' => char_Y
  | 'Z' | 'z' => char_Z
  | '0' => char_0
  | '1' => char_1
  | '2' => char_2
  | '3' => char_3
  | '4' => char_4
  | '5' => char_5
  | '6' => char_6
  | '7' => char_7
  | '8' => char_8
  | '9' => char_9
  | ':' => char_colon
  | '.' => char_dot
  | ',' => char_comma
  | '-' => char_minus
  | '+' => char_plus
  | '_' => char_underscore
  | '!' => char_exclamation
  | '?' => char_question
  | ' ' => []
  | _ => char_matrix

/-- A glyph stays inside its cell. -/
theorem glyph_fits (character : Char) : ∀ pos ∈ getBitmapFromChar character,
    (0 ≤ pos 0 ∧ pos 0 < fontWidth) ∧ 0 ≤ pos 1 ∧ pos 1 < fontHeight := by
  unfold getBitmapFromChar
  split <;> decide

end CharacterBitmaps
end MatrixServer
