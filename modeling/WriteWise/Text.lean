import WriteWise.Video

namespace WriteWise.Text

open Library.Loops Graphics Video

structure FontSize where
  width : Nat
  height : Nat
  pixel : Nat
  deriving DecidableEq, Repr

inductive FontType
  | small
  | medium
  | large
  | xlarge
  | xxlarge
  | xxxlarge
  deriving DecidableEq, Repr

def getFontSize (currentMode : MinixMode) (fontType : FontType) : FontSize :=
  match currentMode with
  | .vbe480pDc =>
    match fontType with
    | .small => ⟨5, 7, 1⟩
    | .medium => ⟨5, 7, 1⟩
    | .large => ⟨10, 14, 2⟩
    | .xlarge => ⟨10, 14, 2⟩
    | .xxlarge => ⟨15, 21, 3⟩
    | .xxxlarge => ⟨15, 21, 3⟩
  | .vbe600pDc =>
    match fontType with
    | .small => ⟨5, 7, 1⟩
    | .medium => ⟨10, 14, 2⟩
    | .large => ⟨10, 14, 2⟩
    | .xlarge => ⟨15, 21, 3⟩
    | .xxlarge => ⟨20, 28, 4⟩
    | .xxxlarge => ⟨20, 28, 4⟩
  | _ =>
    match fontType with
    | .small => ⟨5, 7, 1⟩
    | .medium => ⟨10, 14, 2⟩
    | .large => ⟨15, 21, 3⟩
    | .xlarge => ⟨20, 28, 4⟩
    | .xxlarge => ⟨25, 35, 5⟩
    | .xxxlarge => ⟨30, 42, 6⟩

/-- The seven rows of each character from the space on, and of the rectangle that
stands for all others. The highest of the five bits of a row is its left end. -/
def alphabet : List (List Nat) :=
  [[0b00000, 0b00000, 0b00000, 0b00000, 0b00000, 0b00000, 0b00000],
    [0b00100, 0b00100, 0b00100, 0b00100, 0b00100, 0b00000, 0b00100],
    [0b01010, 0b01010, 0b00000, 0b00000, 0b00000, 0b00000, 0b00000],
    [0b01010, 0b11111, 0b01010, 0b01010, 0b01010, 0b11111, 0b01010],
    [0b00100, 0b01110, 0b10100, 0b01110, 0b00101, 0b01110, 0b00100],
    [0b11010, 0b11010, 0b00100, 0b00100, 0b00100, 0b01011, 0b01011],
    [0b00100, 0b01010, 0b01010, 0b00100, 0b01011, 0b01010, 0b00101],
    [0b00100, 0b00100, 0b00000, 0b00000, 0b00000, 0b00000, 0b00000],
    [0b00010, 0b00100, 0b01000, 0b01000, 0b01000, 0b00100, 0b00010],
    [0b01000, 0b00100, 0b00010, 0b00010, 0b00010, 0b00100, 0b01000],
    [0b00000, 0b00000, 0b00100, 0b01110, 0b00100, 0b01110, 0b00100],
    [0b00000, 0b00000, 0b00100, 0b00100, 0b11111, 0b00100, 0b00100],
    [0b00000, 0b00000, 0b00000, 0b00000, 0b00000, 0b00100, 0b01000],
    [0b00000, 0b00000, 0b00000, 0b00000, 0b01110, 0b00000, 0b00000],
    [0b00000, 0b00000, 0b00000, 0b00000, 0b00000, 0b00000, 0b00100],
    [0b00010, 0b00010, 0b00100, 0b00100, 0b00100, 0b01000, 0b01000],
    [0b01110, 0b10001, 0b10011, 0b10101, 0b11001, 0b10001, 0b01110],
    [0b00100, 0b01100, 0b10100, 0b00100, 0b00100, 0b00100, 0b11111],
    [0b11110, 0b00001, 0b00001, 0b01110, 0b10000, 0b10000, 0b11111],
    [0b01110, 0b10001, 0b00001, 0b01110, 0b00001, 0b10001, 0b01110],
    [0b00010, 0b00110, 0b01010, 0b10010, 0b11111, 0b00010, 0b00010],
    [0b11111, 0b10000, 0b10000, 0b11110, 0b00001, 0b00001, 0b11110],
    [0b01110, 0b10001, 0b10000, 0b11110, 0b10001, 0b10001, 0b01110],
    [0b11111, 0b00001, 0b00010, 0b00010, 0b00100, 0b00100, 0b01000],
    [0b01110, 0b10001, 0b10001, 0b01110, 0b10001, 0b10001, 0b01110],
    [0b01110, 0b10001, 0b10001, 0b01111, 0b00001, 0b10001, 0b01110],
    [0b00000, 0b00000, 0b00000, 0b00100, 0b00000, 0b00000, 0b00100],
    [0b00000, 0b00000, 0b00000, 0b00100, 0b00000, 0b00100, 0b01000],
    [0b00000, 0b00000, 0b00010, 0b00100, 0b01000, 0b00100, 0b00010],
    [0b00000, 0b00000, 0b00000, 0b01110, 0b00000, 0b01110, 0b00000],
    [0b00000, 0b00000, 0b01000, 0b00100, 0b00010, 0b00100, 0b01000],
    [0b01110, 0b00001, 0b00001, 0b00110, 0b00100, 0b00000, 0b00100],
    [0b00000, 0b00000, 0b01110, 0b10001, 0b10111, 0b10101, 0b00110],
    [0b01110, 0b10001, 0b10001, 0b11111, 0b10001, 0b10001, 0b10001],
    [0b11110, 0b10001, 0b10001, 0b11110, 0b10001, 0b10001, 0b11110],
    [0b01110, 0b10001, 0b10000, 0b10000, 0b10000, 0b10001, 0b01110],
    [0b11110, 0b10001, 0b10001, 0b10001, 0b10001, 0b10001, 0b11110],
    [0b11111, 0b10000, 0b10000, 0b11110, 0b10000, 0b10000, 0b11111],
    [0b11111, 0b10000, 0b10000, 0b11110, 0b10000, 0b10000, 0b10000],
    [0b01110, 0b10001, 0b10000, 0b10111, 0b10001, 0b10001, 0b01110],
    [0b10001, 0b10001, 0b10001, 0b11111, 0b10001, 0b10001, 0b10001],
    [0b01110, 0b00100, 0b00100, 0b00100, 0b00100, 0b00100, 0b01110],
    [0b00001, 0b00001, 0b00001, 0b00001, 0b10001, 0b10001, 0b01110],
    [0b10001, 0b10010, 0b10100, 0b11000, 0b10100, 0b10010, 0b10001],
    [0b10000, 0b10000, 0b10000, 0b10000, 0b10000, 0b10000, 0b11111],
    [0b10001, 0b11011, 0b10101, 0b10001, 0b10001, 0b10001, 0b10001],
    [0b10001, 0b10001, 0b11001, 0b10101, 0b10011, 0b10001, 0b10001],
    [0b01110, 0b10001, 0b10001, 0b10001, 0b10001, 0b10001, 0b01110],
    [0b11110, 0b10001, 0b10001, 0b11110, 0b10000, 0b10000, 0b10000],
    [0b01110, 0b10001, 0b10001, 0b10001, 0b10101, 0b10010, 0b01101],
    [0b11110, 0b10001, 0b10001, 0b11110, 0b10100, 0b10010, 0b10001],
    [0b01110, 0b10001, 0b10000, 0b01110, 0b00001, 0b10001, 0b01110],
    [0b11111, 0b00100, 0b00100, 0b00100, 0b00100, 0b00100, 0b00100],
    [0b10001, 0b10001, 0b10001, 0b10001, 0b10001, 0b10001, 0b01110],
    [0b10001, 0b10001, 0b10001, 0b01010, 0b01010, 0b01010, 0b00100],
    [0b10001, 0b10001, 0b10001, 0b10101, 0b11011, 0b10001, 0b10001],
    [0b10001, 0b10001, 0b01010, 0b00100, 0b01010, 0b10001, 0b10001],
    [0b10001, 0b10001, 0b01010, 0b00100, 0b00100, 0b00100, 0b00100],
    [0b11111, 0b00001, 0b00010, 0b00100, 0b01000, 0b10000, 0b11111],
    [0b00110, 0b00100, 0b00100, 0b00100, 0b00100, 0b00100, 0b00110],
    [0b01000, 0b01000, 0b00100, 0b00100, 0b00100, 0b00010, 0b00010],
    [0b01100, 0b00100, 0b00100, 0b00100, 0b00100, 0b00100, 0b01100],
    [0b00100, 0b01010, 0b00000, 0b00000, 0b00000, 0b00000, 0b00000],
    [0b00000, 0b00000, 0b00000, 0b00000, 0b00000, 0b00000, 0b11111],
    [0b01000, 0b00100, 0b00000, 0b00000, 0b00000, 0b00000, 0b00000],
    [0b00000, 0b00000, 0b01110, 0b00001, 0b01111, 0b10001, 0b01110],
    [0b10000, 0b10000, 0b11110, 0b10001, 0b10001, 0b10001, 0b11110],
    [0b00000, 0b00000, 0b01110, 0b10001, 0b10000, 0b10001, 0b01110],
    [0b00001, 0b00001, 0b01111, 0b10001, 0b10001, 0b10001, 0b01111],
    [0b00000, 0b00000, 0b01110, 0b10001, 0b11111, 0b10000, 0b01110],
    [0b00110, 0b01000, 0b01000, 0b11110, 0b01000, 0b01000, 0b01000],
    [0b00000, 0b00000, 0b01110, 0b10000, 0b10111, 0b10001, 0b01110],
    [0b10000, 0b10000, 0b11110, 0b10001, 0b10001, 0b10001, 0b10001],
    [0b00100, 0b00000, 0b01100, 0b00100, 0b00100, 0b00100, 0b01110],
    [0b00000, 0b00010, 0b00000, 0b00110, 0b00010, 0b10010, 0b01100],
    [0b10000, 0b10010, 0b10100, 0b11000, 0b10100, 0b10010, 0b10010],
    [0b01100, 0b00100, 0b00100, 0b00100, 0b00100, 0b00100, 0b01110],
    [0b00000, 0b00000, 0b11010, 0b10101, 0b10101, 0b10101, 0b10101],
    [0b00000, 0b00000, 0b11110, 0b10001, 0b10001, 0b10001, 0b10001],
    [0b00000, 0b00000, 0b01110, 0b10001, 0b10001, 0b10001, 0b01110],
    [0b00000, 0b00000, 0b11110, 0b10001, 0b11110, 0b10000, 0b10000],
    [0b00000, 0b00000, 0b01111, 0b10001, 0b01111, 0b00001, 0b00001],
    [0b00000, 0b00000, 0b10110, 0b11001, 0b10000, 0b10000, 0b10000],
    [0b00000, 0b00000, 0b01111, 0b10000, 0b01110, 0b00001, 0b11110],
    [0b00100, 0b00100, 0b01110, 0b00100, 0b00100, 0b00100, 0b00010],
    [0b00000, 0b00000, 0b10001, 0b10001, 0b10001, 0b10001, 0b01110],
    [0b00000, 0b00000, 0b10001, 0b10001, 0b01010, 0b01010, 0b00100],
    [0b00000, 0b00000, 0b10001, 0b10001, 0b10101, 0b11011, 0b10001],
    [0b00000, 0b00000, 0b10001, 0b01010, 0b00100, 0b01010, 0b10001],
    [0b00000, 0b00000, 0b10001, 0b01010, 0b00100, 0b00100, 0b00100],
    [0b00000, 0b00000, 0b11111, 0b00010, 0b00100, 0b01000, 0b11111],
    [0b00010, 0b00100, 0b00100, 0b01100, 0b00100, 0b00100, 0b00010],
    [0b00100, 0b00100, 0b00100, 0b00100, 0b00100, 0b00100, 0b00100],
    [0b01000, 0b00100, 0b00100, 0b00110, 0b00100, 0b00100, 0b01000],
    [0b00000, 0b00000, 0b01000, 0b10101, 0b00010, 0b00000, 0b00000],
    [0b11111, 0b10001, 0b10001, 0b10001, 0b10001, 0b10001, 0b11111]]

/-- A `char` from the space to the tilde has a glyph of its own. -/
def getCharIndex (c : UInt8) : Nat := if 0x20 ≤ c ∧ c ≤ 0x7E then (c - 0x20).toNat else 95

def glyphBit (glyph : List Nat) (row col : Nat) : Option Bool :=
  if col < 5 then glyph[row]?.map fun bits => bits.testBit (4 - col) else none

/-- Undefined where the C code divides by zero or leaves the glyph. -/
def draw5x7 (x y : UInt16) (glyph : List Nat) (color : UInt32) (size : FontSize) :
    Screen → Result Screen :=
  each (fun dy => each (fun dx s =>
    if size.pixel = 0 then none
    else (glyphBit glyph (dy / size.pixel) (dx / size.pixel)).bind fun on =>
      if on then vgDrawPixel (x + UInt16.ofNat dx) (y + UInt16.ofNat dy) color s
      else some (s, false)) (List.range size.width)) (List.range size.height)

def drawChar (x y : UInt16) (c : UInt8) (color : UInt32) (size : FontSize) :
    Screen → Result Screen :=
  draw5x7 x y (alphabet.getD (getCharIndex c) []) color size

def getTextWidth (str : List UInt8) (size : FontSize) : UInt16 :=
  UInt16.ofNat (str.length * (size.width + size.pixel)) - UInt16.ofNat size.pixel

/-- The colour that the drawing functions pass on to the pixels. -/
def filteredColor (currentMode : MinixMode) (m : ModeInfo) (color : UInt32) : UInt32 :=
  if currentMode = .vbe768pInd then color
  else rgbToColor m (color >>> 16).toUInt8 (color >>> 8).toUInt8 color.toUInt8

theorem glyph_rows (c : UInt8) : ∃ glyph, alphabet.getD (getCharIndex c) [] = glyph ∧
    glyph.length = 7 := by
  have hall : ∀ glyph ∈ alphabet, glyph.length = 7 := by
    decide
  have hlt : getCharIndex c < alphabet.length := by
    have hlen : alphabet.length = 96 := rfl
    rw [hlen]
    unfold getCharIndex
    split
    · rename_i hc
      have h1 := UInt8.le_iff_toNat_le.mp hc.1
      have h2 := UInt8.le_iff_toNat_le.mp hc.2
      rw [UInt8.toNat_sub_of_le _ _ hc.1]
      have h3 : (0x7E : UInt8).toNat = 126 := rfl
      have h4 : (0x20 : UInt8).toNat = 32 := rfl
      omega
    · decide
  refine ⟨_, rfl, hall _ ?_⟩
  rw [List.getD_eq_getElem _ _ hlt]
  exact List.getElem_mem hlt

theorem glyphBit_some {glyph : List Nat} (h : glyph.length = 7) {row col : Nat} (hr : row < 7)
    (hc : col < 5) : ∃ on, glyphBit glyph row col = some on := by
  rw [glyphBit, if_pos hc, List.getElem?_eq_getElem (by rwa [h]), Option.map_some]
  exact ⟨_, rfl⟩

end WriteWise.Text
