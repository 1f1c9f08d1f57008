import Mathlib

namespace WriteWise.Scancode

abbrev breakCode : UInt8 := 0x80
abbrev breakEsc : UInt8 := 0x81
abbrev makeEsc : UInt8 := 0x01
abbrev leftShiftScancode : UInt8 := 0x2A
abbrev leftCtrlScancode : UInt8 := 0x1D
abbrev leftAltScancode : UInt8 := 0x38
abbrev spaceScancode : UInt8 := 0x39
abbrev rightShiftScancode : UInt8 := 0x36
abbrev capslockScancode : UInt8 := 0x3A
abbrev twoBytes : UInt8 := 0xE0
abbrev backspaceScancode : UInt8 := 0x0E
abbrev enterScancode : UInt8 := 0x1C

abbrev keyScancodeRow1First : UInt8 := 0x02
abbrev keyScancodeRow1Last : UInt8 := 0x0C
abbrev keyScancodeRow2First : UInt8 := 0x10
abbrev keyScancodeRow2Last : UInt8 := 0x19
abbrev keyScancodeRow3First : UInt8 := 0x1E
abbrev keyScancodeRow3Last : UInt8 := 0x26
abbrev keyScancodeRow4First : UInt8 := 0x2C
abbrev keyScancodeRow4Last : UInt8 := 0x35
abbrev keyScancodeM : UInt8 := 0x32

structure KeyboardTable where
  row1 : List UInt8
  row2 : List UInt8
  row3 : List UInt8
  row4 : List UInt8
  row1Shift : List UInt8
  row2Shift : List UInt8
  row3Shift : List UInt8
  row4Shift : List UInt8
  deriving DecidableEq

def chars (cs : List Char) : List UInt8 := cs.map fun c => UInt8.ofNat c.toNat

/-- The quotes of the first row stand as `Char.ofNat 39` and `Char.ofNat 34`. -/
def portugueseKeyboard : KeyboardTable where
  row1 := chars ['1', '2', '3', '4', '5', '6', '7', '8', '9', '0', Char.ofNat 39]
  row2 := chars ['q', 'w', 'e', 'r', 't', 'y', 'u', 'i', 'o', 'p']
  row3 := chars ['a', 's', 'd', 'f', 'g', 'h', 'j', 'k', 'l']
  row4 := chars ['z', 'x', 'c', 'v', 'b', 'n', 'm', ',', '.', '-']
  row1Shift := chars ['!', Char.ofNat 34, '#', '$', '%', '&', '/', '(', ')', '=', '?']
  row2Shift := chars ['Q', 'W', 'E', 'R', 'T', 'Y', 'U', 'I', 'O', 'P']
  row3Shift := chars ['A', 'S', 'D', 'F', 'G', 'H', 'J', 'K', 'L']
  row4Shift := chars ['Z', 'X', 'C', 'V', 'B', 'N', 'M', ';', ':', '_']

inductive KeyboardLayout
  | none
  | portuguese
  deriving DecidableEq, Repr

/-- The table `currentKeyboard` of a layout. Without one no table is read. -/
def KeyboardLayout.table : KeyboardLayout → Option KeyboardTable
  | .none => Option.none
  | .portuguese => some portugueseKeyboard

structure Keyboard where
  scancode : UInt8 := 0
  isTwoBytes : Bool := false
  isScancodeTwoBytes : Bool := false
  isShiftPressed : Bool := false
  isCtrlPressed : Bool := false
  isAltPressed : Bool := false
  isCapsLockActive : Bool := false
  currentKeyboardLayout : KeyboardLayout := .portuguese
  deriving DecidableEq

/-- The interrupt handler of the keyboard on the byte that `readKBCOutput` reads,
`none` when that call fails. The second component is the C return value. -/
def keyboardIh (byte : Option UInt8) (k : Keyboard) : Keyboard × Bool :=
  match byte with
  | none => ({ k with isTwoBytes := false, isScancodeTwoBytes := false }, false)
  | some b =>
    let k := { k with scancode := b }
    if b = twoBytes then ({ k with isTwoBytes := true }, false)
    else if b = leftShiftScancode ∨ b = rightShiftScancode then
      ({ k with isShiftPressed := true }, false)
    else if b = leftShiftScancode ||| breakCode ∨ b = rightShiftScancode ||| breakCode then
      ({ k with isShiftPressed := false }, false)
    else if b = leftCtrlScancode then ({ k with isCtrlPressed := true }, false)
    else if b = leftCtrlScancode ||| breakCode then ({ k with isCtrlPressed := false }, false)
    else if b = leftAltScancode then ({ k with isAltPressed := true }, false)
    else if b = leftAltScancode ||| breakCode then ({ k with isAltPressed := false }, false)
    else if b = capslockScancode then ({ k with isCapsLockActive := !k.isCapsLockActive }, false)
    else ({ k with isScancodeTwoBytes := k.isTwoBytes, isTwoBytes := false }, true)

/-- The character of a key, 0 for a key without one. The tables hold characters
of 7 bits, so that reading them as a signed `char` changes nothing. -/
def getCharFromMakecode (k : Keyboard) (makecode : UInt8) : UInt8 :=
  match k.currentKeyboardLayout.table with
  | none => 0
  | some t =>
    let caps (plain shifted : List UInt8) : List UInt8 :=
      if k.isShiftPressed = k.isCapsLockActive then plain else shifted
    let key (row : List UInt8) (first : UInt8) : UInt8 := row.getD (makecode - first).toNat 0
    if keyScancodeRow1First ≤ makecode ∧ makecode ≤ keyScancodeRow1Last then
      key (if k.isShiftPressed then t.row1Shift else t.row1) keyScancodeRow1First
    else if keyScancodeRow2First ≤ makecode ∧ makecode ≤ keyScancodeRow2Last then
      key (caps t.row2 t.row2Shift) keyScancodeRow2First
    else if keyScancodeRow3First ≤ makecode ∧ makecode ≤ keyScancodeRow3Last then
      key (caps t.row3 t.row3Shift) keyScancodeRow3First
    else if keyScancodeRow4First ≤ makecode ∧ makecode ≤ keyScancodeM then
      key (caps t.row4 t.row4Shift) keyScancodeRow4First
    else if keyScancodeM < makecode ∧ makecode ≤ keyScancodeRow4Last then
      key (if k.isShiftPressed then t.row4Shift else t.row4) keyScancodeRow4First
    else if makecode = spaceScancode then UInt8.ofNat ' '.toNat
    else if makecode = enterScancode then UInt8.ofNat '\n'.toNat
    else 0

example : getCharFromMakecode {} 0x1E = UInt8.ofNat 'a'.toNat := by decide

example : getCharFromMakecode { isShiftPressed := true } 0x33 = UInt8.ofNat ';'.toNat := by decide

end WriteWise.Scancode
