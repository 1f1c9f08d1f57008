import WriteWise.TestEnd
import WriteWise.Text
import WriteWise.TextGeneration

namespace WriteWise.DrawText

open Library.Loops Typing TestEnd TextGeneration Graphics Video Text

/-- A character of the text, or a rectangle below its cell. -/
inductive Shape
  | char (c : UInt8)
  | cursor
  | underline
  deriving DecidableEq, Repr

structure DrawCall where
  index : Nat
  dx : Nat
  dy : Nat
  shape : Shape
  color : UInt32
  deriving DecidableEq

def DrawCall.draw (x y : UInt16) (size : FontSize) (call : DrawCall) : Screen → Result Screen :=
  match call.shape with
  | .char c => drawChar (x + UInt16.ofNat call.dx) (y + UInt16.ofNat call.dy) c call.color size
  | .cursor | .underline =>
    vgDrawRectangle (x + UInt16.ofNat call.dx)
      (y + UInt16.ofNat (call.dy + size.height + size.pixel)) (UInt16.ofNat size.width)
      (UInt16.ofNat size.pixel) call.color

/-- A primitive that succeeds, and only notes the call. -/
def record {ι : Type} (call : ι) (calls : List ι) : Result (List ι) := some (calls ++ [call], false)

def u16 (n : Nat) : Nat := n % 2 ^ 16

/-- `strchr(str + i, ' ')` as an index into `str`. -/
def strchr (str : List UInt8) (i : Nat) : Option Nat := ((str.drop i).idxOf? space).map (i + ·)

structure Layout where
  dx : Nat
  dy : Nat
  nextWord : Option Nat
  deriving DecidableEq

/-- What the loops read: the text, its greatest width and the font. -/
structure TextBox where
  str : List UInt8
  maxWidth : Nat
  size : FontSize

namespace TextBox

variable (b : TextBox)

def xStep : Nat := u16 (b.size.width + b.size.pixel)

def yStep : Nat := u16 (b.size.height + 3 * b.size.pixel)

def start : Layout := ⟨0, 0, strchr b.str 0⟩

/-- The width from `str + i` to the next space, or to the end. The distance of two pointers is an
`int`, the product with which must not overflow. -/
def wordWidth (i : Nat) : Option Nat → Option Nat
  | none => some (u16 ((b.str.length - i) * b.xStep))
  | some next =>
    if intBound ≤ (next - i) * b.xStep then none else some (u16 ((next - i) * b.xStep))

/-- The head of each loop, and whether the line is broken at `str + i`. -/
def look (i : Nat) (l : Layout) : Option (Layout × Bool) :=
  if l.nextWord = some i then
    let nextWord := strchr b.str (i + 1)
    (b.wordWidth i nextWord).map fun wordWidth =>
      if b.maxWidth < l.dx + wordWidth then
        ({ dx := 0, dy := u16 (l.dy + b.yStep), nextWord := nextWord }, true)
      else ({ l with nextWord := nextWord }, false)
  else some (l, false)

def advance (l : Layout) : Layout := { l with dx := u16 (l.dx + b.xStep) }

end TextBox

section Functions

variable {σ : Type}

section Loops

variable (draw : DrawCall → σ → Result σ) (b : TextBox)

/-- The loop of `_drawText` over the rest of the string, from index `i` on. -/
def drawTextLoop (color : UInt32) : List UInt8 → Nat → Layout → σ → Result σ
  | [], _, _, s => some (s, false)
  | c :: rest, i, l, s =>
    (b.look i l).bind fun (l, broken) =>
    if broken then drawTextLoop color rest (i + 1) l s
    else
      proceed (draw ⟨i, l.dx, l.dy, .char c, color⟩ s)
        (drawTextLoop color rest (i + 1) (b.advance l))

variable (t : TypingInfo) (rightColor wrongColor unwrittenColor : UInt32)

def drawCursorMark (i : Nat) (l : Layout) (s : σ) : Result σ :=
  draw ⟨i, l.dx, l.dy, .cursor, rightColor⟩ s

/-- The first loop of `drawTypingTest`, and what follows it. The index is a `uint16_t`, so that
the loop may not end: there is no result either if `fuel` runs out. -/
def typedLoop (next : Nat → Layout → σ → Result σ) : Nat → Nat → Layout → Bool → σ → Result σ
  | 0, _, _, _, _ => none
  | fuel + 1, i, l, isWrongFromHere, s =>
    (peek t.typedText i).bind fun typed =>
    if typed = 0 then next i l s
    else
      proceed (if t.typingCursor = i then drawCursorMark draw rightColor i l s
        else some (s, false)) fun s =>
      (b.look i l).bind fun (l, broken) =>
      if broken then typedLoop next fuel (u16 (i + 1)) l isWrongFromHere s
      else
        (peek t.generatedText i).bind fun generated =>
        let isWrongFromHere := isWrongFromHere || typed != generated
        proceed (draw ⟨i, l.dx, l.dy, .char generated,
          if typed = generated then rightColor else wrongColor⟩ s) fun s =>
        proceed (if isWrongFromHere then draw ⟨i, l.dx, l.dy, .underline, wrongColor⟩ s
          else some (s, false)) fun s =>
        typedLoop next fuel (u16 (i + 1)) (b.advance l) isWrongFromHere s

def unwrittenLoop (next : Nat → Layout → σ → Result σ) : Nat → Nat → Layout → σ → Result σ
  | 0, _, _, _ => none
  | fuel + 1, i, l, s =>
    (peek t.generatedText i).bind fun generated =>
    if generated = 0 then next i l s
    else
      proceed (if t.typingCursor = i then drawCursorMark draw rightColor i l s
        else some (s, false)) fun s =>
      (b.look i l).bind fun (l, broken) =>
      if broken then unwrittenLoop next fuel (u16 (i + 1)) l s
      else
        proceed (draw ⟨i, l.dx, l.dy, .char generated, unwrittenColor⟩ s) fun s =>
        unwrittenLoop next fuel (u16 (i + 1)) (b.advance l) s

end Loops

variable (draw : UInt16 → UInt16 → FontSize → DrawCall → σ → Result σ)

def drawText (x y maxWidth : UInt16) (str : List UInt8) (color : UInt32) (size : FontSize)
    (s : σ) : Result σ :=
  let b : TextBox := ⟨str, maxWidth.toNat, size⟩
  drawTextLoop (draw x y size) b color str 0 b.start s

section Placed

variable (currentMode : MinixMode)

/-- The origin `x`, `y` and the width `maxW` that `drawTextColor` and `drawTypingTest` compute.
A negative width stands for none. -/
def placeText (cx cy maxWidth : ℚ) (str : List UInt8) (size : FontSize) :
    UInt16 × UInt16 × UInt16 :=
  (if maxWidth < 0 then getXFromPercent currentMode cx - (getTextWidth str size >>> 1)
    else getXFromPercent currentMode cx - (getXFromPercent currentMode maxWidth >>> 1),
    getYFromPercent currentMode cy - UInt16.ofNat (size.height >>> 1),
    if maxWidth < 0 then UInt16.ofNat (2 ^ 16 - 1) else getXFromPercent currentMode maxWidth)

variable (m : ModeInfo)

def drawTextColor (cx cy maxWidth : ℚ) (str : List UInt8) (color : UInt32) (size : FontSize)
    (s : σ) : Result σ :=
  let (x, y, maxW) := placeText currentMode cx cy maxWidth str size
  drawText draw x y maxW str (filteredColor currentMode m color) size s

def drawTypingTest (t : TypingInfo) (cx cy maxWidth : ℚ)
    (rightColor wrongColor unwrittenColor : UInt32) (size : FontSize) (fuel : Nat) (s : σ) :
    Result σ :=
  (t.generatedText.map cString).bind fun str =>
  let (x, y, maxW) := placeText currentMode cx cy maxWidth str size
  let filteredRightColor := filteredColor currentMode m rightColor
  let filteredWrongColor := filteredColor currentMode m wrongColor
  let filteredUnwrittenColor := filteredColor currentMode m unwrittenColor
  let draw := draw x y size
  let b : TextBox := ⟨str, maxW.toNat, size⟩
  typedLoop draw b t filteredRightColor filteredWrongColor
    (unwrittenLoop draw b t filteredRightColor filteredUnwrittenColor
      (fun i l s =>
        if t.typingCursor = str.length then drawCursorMark draw filteredRightColor i l s
        else some (s, false)) fuel)
    fuel 0 b.start false s

end Placed

end Functions

end WriteWise.DrawText
