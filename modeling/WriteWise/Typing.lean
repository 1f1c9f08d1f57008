import WriteWise.Library.Rounding
import WriteWise.Scancode

namespace WriteWise.Typing

open Library.Rounding

/-- A word of the dictionary, the bytes of a C string before its terminator. -/
abbrev Word := { w : List UInt8 // 0 ∉ w }

theorem letter_noZero : (0 : UInt8) ∉ [97] := by decide

inductive TypingStatus
  | unready
  | ready
  | typing
  | finished
  deriving DecidableEq, Repr

/-- The three buffers are heap blocks, `none` for a null pointer. Statistics that
the program keeps as `double` are exact rationals. -/
structure TypingInfo where
  generatedText : Option (List UInt8) := none
  typedText : Option (List UInt8) := none
  mistakes : Option (List Bool) := none
  generatedTextSize : Nat := 0
  typingCursor : Nat := 0
  timeStart : Nat := 0
  timeEnd : Nat := 0
  typedChars : Nat := 0
  wrongChars : Nat := 0
  totalWrongChars : Nat := 0
  wpm : ℚ := 0
  cpm : ℚ := 0
  acc : ℚ := 100
  status : TypingStatus := .unready
  deriving DecidableEq

abbrev frameRate : Nat := 60

abbrev randMax : Nat := 0x7fffffff

/-- `size_t` has 32 bits on the target machine. -/
abbrev sizeBound : Nat := 2 ^ 32

def sizeInc (n : Nat) : Nat := (n + 1) % sizeBound

def sizeSub (n m : Nat) : Nat := (n + sizeBound - m) % sizeBound

def sizeDec (n : Nat) : Nat := sizeSub n 1

def ulongSub (n m : Nat) : Nat := if m ≤ n then n - m else n + 2 ^ 64 - m

/-- Read a cell of a heap block. Undefined on a null pointer and out of range. -/
def peek {α : Type} (block : Option (List α)) (i : Nat) : Option α := block.bind (·[i]?)

def poke {α : Type} (block : Option (List α)) (i : Nat) (x : α) : Option (Option (List α)) :=
  block.bind fun l => if i < l.length then some (some (l.set i x)) else none

def calcTypingStatus (t : TypingInfo) : TypingInfo :=
  let timeDiff := ulongSub t.timeEnd t.timeStart
  let timeDiffSeconds : ℚ := timeDiff / frameRate
  let cpm : ℚ := if timeDiff = 0 then 0 else (t.typedChars * 60 % sizeBound : Nat) / timeDiffSeconds
  { t with
    cpm := cpm
    wpm := if timeDiff = 0 then 0 else cpm / 5
    acc :=
      if t.typedChars = 0 then 100
      else 100 * sizeSub t.typedChars t.totalWrongChars / t.typedChars }

/-- All fields, so that nothing of an earlier session is left. -/
def resetTypingInfo : TypingInfo := {}

def startTyping (now : Nat) (t : TypingInfo) : TypingInfo :=
  { t with status := .typing, timeStart := now, timeEnd := now }

def updateTypingInfo (now : Nat) (t : TypingInfo) : TypingInfo :=
  if t.status = .typing then calcTypingStatus { t with timeEnd := now } else t

def endTyping (now : Nat) (t : TypingInfo) : TypingInfo :=
  calcTypingStatus { t with timeEnd := now, status := .finished }

/-- The conversion to `float`, which has 24 significant binary digits. -/
def toFloat (n : Nat) : Nat := nearest 24 n

/-- The index of a word. The quotient is exact, since `RAND_MAX` becomes a power of two;
the product is rounded, here as a multiple of the reciprocal of this power. -/
def wordIndex (random dictionarySize : Nat) : Nat :=
  toFloat (toFloat random * toFloat dictionarySize) / toFloat randMax

/-- Append a C string to one in a block of the given size. Undefined when the
result and its terminator do not fit. -/
def strcat (size : Nat) (dst src : List UInt8) : Option (List UInt8) :=
  if dst.length + src.length < size then some (dst ++ src) else none

/-- The loop of `generateText` with `n` words to go from word `i` on, over the
size that was last passed to `realloc` and the text in that block. Undefined when
an index selects no word and when the block would exceed the address space. -/
def appendWords (dictionary : List Word) (random : Nat → Nat) :
    Nat → Nat → Nat × List UInt8 → Option (Nat × List UInt8)
  | 0, _, r => some r
  | n + 1, i, (size, text) =>
    dictionary[wordIndex (random i) dictionary.length]?.bind fun word =>
    let size := size + (word.1.length + 1)
    if sizeBound ≤ size then none
    else
      (if i = 0 then some text else strcat size text [UInt8.ofNat ' '.toNat]).bind fun text =>
      (strcat size text word.1).bind fun text =>
      appendWords dictionary random n (i + 1) (size, text)

/-- `random seed i` is what call number `i` of `random()` returns after `srandom(seed)`. -/
def generateText (dictionary : List Word) (random : UInt32 → Nat → Nat)
    (wordAmmount : Nat) (seed : UInt32) : Option TypingInfo :=
  (appendWords dictionary (random seed) wordAmmount 0
    (if wordAmmount = 0 then 1 else 0, [])).map fun r =>
    let size := r.1
    { resetTypingInfo with
      generatedText := some (r.2 ++ [0])
      typedText := some (List.replicate size 0)
      generatedTextSize := sizeDec size
      mistakes := some (List.replicate (sizeDec size) false)
      status := .ready }

def eraseChar (t : TypingInfo) : Option TypingInfo :=
  if t.typingCursor = 0 then some t
  else
    let cursor := sizeDec t.typingCursor
    let t := { t with typingCursor := cursor, typedChars := sizeDec t.typedChars }
    (peek t.mistakes cursor).bind fun mistake =>
    (if mistake then
      (peek t.typedText cursor).bind fun typed =>
      (peek t.generatedText cursor).bind fun wanted =>
      some { t with
        totalWrongChars := sizeDec t.totalWrongChars
        wrongChars := if typed ≠ wanted then sizeDec t.wrongChars else t.wrongChars }
    else some t).bind fun t =>
    (poke t.typedText cursor 0).map fun typedText => { t with typedText := typedText }

/-- The branch of `typingInputHandler` for a character, which is a signed `char`. -/
def typeChar (c : UInt8) (t : TypingInfo) : Option TypingInfo :=
  if 0 < c.toInt8 then
    let cursor := t.typingCursor
    (peek t.mistakes cursor).bind fun mistake =>
    (peek t.generatedText cursor).bind fun wanted =>
    let total := if mistake then sizeInc t.totalWrongChars else t.totalWrongChars
    (if c ≠ wanted ∧ mistake = false then
      (poke t.mistakes cursor true).map fun mistakes => (mistakes, sizeInc total)
    else some (t.mistakes, total)).bind fun (mistakes, total) =>
    (poke t.typedText cursor c).map fun typedText =>
      { t with
        mistakes := mistakes
        totalWrongChars := total
        wrongChars := if c ≠ wanted then sizeInc t.wrongChars else t.wrongChars
        typedText := typedText
        typingCursor := sizeInc cursor
        typedChars := sizeInc t.typedChars }
  else some t

end WriteWise.Typing
