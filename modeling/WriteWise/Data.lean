import WriteWise.Library.Lines
import WriteWise.Typing

namespace WriteWise.Data

open Library.Lines Typing

abbrev maxWordAmmount : Nat := 1000

abbrev lineFeed : UInt8 := 10

abbrev carriageReturn : UInt8 := 13

/-- The blocks to which the entries of the array point, `none` for a null pointer. -/
abbrev Slots := Vector (Option (List UInt8)) maxWordAmmount

structure Dictionary where
  dictionarySize : Nat := 0
  dictionary : Slots := Vector.replicate maxWordAmmount none

def sizeOfInt (n : Int) : Nat := if 0 ≤ n then n.toNat else (n + sizeBound).toNat

/-- The next line of the rest of a file, with its line feed if it has one. -/
def getline (file : List UInt8) : Option (List UInt8 × List UInt8) :=
  if file = [] then none else some (cut lineFeed file)

/-- The block that is made for a line. Undefined when `memcpy` leaves the block
or the line. -/
def copyLine (line : List UInt8) : Option (List UInt8) :=
  let lineLen : Int := line.length
  let size := sizeOfInt (lineLen - 1)
  let count := sizeOfInt (lineLen - 2)
  if count < size ∧ count ≤ line.length then some (line.take count ++ [0]) else none

def readWords : Nat → List UInt8 → Nat → Slots → Option (Nat × Slots)
  | 0, _, lineNum, slots => some (lineNum, slots)
  | k + 1, file, lineNum, slots =>
    match getline file with
    | none => some (lineNum, slots)
    | some (line, file) =>
      (copyLine line).bind fun word =>
      readWords k file (lineNum + 1) (slots.setIfInBounds lineNum (some word))

def clearSlots : Nat → Nat → Slots → Slots
  | 0, _, slots => slots
  | k + 1, lineNum, slots => clearSlots k (lineNum + 1) (slots.setIfInBounds lineNum none)

/-- `file` holds the bytes of the file, `none` when it cannot be opened. The second
component is the C return value, `true` for 1. The blocks of the old dictionary
are freed, and none of its entries is kept. -/
def loadDictionary (file : Option (List UInt8)) (d : Dictionary) : Option (Dictionary × Bool) :=
  match file with
  | none => some ({ d with dictionarySize := 0 }, true)
  | some file =>
    (readWords maxWordAmmount file 0 d.dictionary).map fun (lineNum, slots) =>
      ({ dictionarySize := lineNum
         dictionary := clearSlots (maxWordAmmount - lineNum) lineNum slots }, false)

section Loading

def place : Nat → List (List UInt8) → Slots → Slots
  | _, [], slots => slots
  | lineNum, word :: words, slots =>
    place (lineNum + 1) words (slots.setIfInBounds lineNum (some word))

theorem readWords_eq (k : Nat) (file : List UInt8) (lineNum : Nat) (slots : Slots) :
    readWords k file lineNum slots =
      (((lines lineFeed file).take k).mapM copyLine).map fun words =>
        (lineNum + words.length, place lineNum words slots) := by
  induction k generalizing file lineNum slots with
  | zero => rfl
  | succ k ih =>
    by_cases hf : file = []
    · subst hf
      rfl
    · rw [lines_eq_cut lineFeed hf, readWords, getline, if_neg hf, List.take_succ_cons,
        List.mapM_cons]
      simp only [ih]
      cases copyLine (cut lineFeed file).1 with
      | none => rfl
      | some word =>
        cases ((lines lineFeed (cut lineFeed file).2).take k).mapM copyLine with
        | none => rfl
        | some words => simp [place, Nat.add_comm, Nat.add_left_comm]

theorem getElem_place (lineNum : Nat) (words : List (List UInt8)) (slots : Slots) {i : Nat}
    (hi : i < maxWordAmmount) : (place lineNum words slots)[i] =
      if lineNum ≤ i ∧ i < lineNum + words.length then words[i - lineNum]? else slots[i] := by
  induction words generalizing lineNum slots with
  | nil =>
    rw [place, if_neg]
    simp
  | cons word words ih =>
    rw [place, ih, Vector.getElem_setIfInBounds]
    by_cases h1 : lineNum = i
    · subst h1
      simp
    · by_cases h2 : lineNum + 1 ≤ i ∧ i < lineNum + 1 + words.length
      · rw [if_pos h2, if_pos (by simp; omega), show i - lineNum = i - (lineNum + 1) + 1 by omega,
          List.getElem?_cons_succ]
      · rw [if_neg h2, if_neg h1, if_neg (by simp; omega)]

theorem getElem_clearSlots (k lineNum : Nat) (slots : Slots) {i : Nat} (hi : i < maxWordAmmount) :
    (clearSlots k lineNum slots)[i] =
      if lineNum ≤ i ∧ i < lineNum + k then none else slots[i] := by
  induction k generalizing lineNum slots with
  | zero =>
    rw [clearSlots, if_neg]
    omega
  | succ k ih =>
    rw [clearSlots, ih, Vector.getElem_setIfInBounds]
    by_cases h1 : lineNum = i
    · subst h1
      simp
    · by_cases h2 : lineNum + 1 ≤ i ∧ i < lineNum + 1 + k
      · rw [if_pos h2, if_pos (by omega)]
      · rw [if_neg h2, if_neg h1, if_neg (by omega)]

def blocks (file : List UInt8) : Option (List (List UInt8)) :=
  ((lines lineFeed file).take maxWordAmmount).mapM copyLine

variable {file : List UInt8} {old d : Dictionary} {failed : Bool}

theorem loadDictionary_eq (file : List UInt8) (old : Dictionary) :
    loadDictionary (some file) old = (blocks file).map fun words =>
      ({ dictionarySize := words.length
         dictionary := clearSlots (maxWordAmmount - words.length) words.length
           (place 0 words old.dictionary) }, false) := by
  rw [loadDictionary, readWords_eq, Option.map_map, blocks]
  simp only [Nat.zero_add, Function.comp_def]

theorem loadDictionary_some (h : loadDictionary (some file) old = some (d, failed)) :
    ∃ words, blocks file = some words ∧ failed = false ∧ d.dictionarySize = words.length ∧
      ∀ i (hi : i < maxWordAmmount), d.dictionary[i] = words[i]? := by
  rw [loadDictionary_eq] at h
  obtain ⟨words, hw, heq⟩ := Option.map_eq_some_iff.mp h
  cases heq
  refine ⟨words, hw, rfl, rfl, fun i hi => ?_⟩
  simp only
  rw [getElem_clearSlots, getElem_place]
  by_cases h1 : i < words.length
  · rw [if_neg (by omega), if_pos (by omega), Nat.sub_zero]
  · rw [if_pos (by omega), List.getElem?_eq_none (by omega)]

end Loading

section Parsing

/-- A line without its terminator, which is CRLF or LF. -/
def chomp (line : List UInt8) : List UInt8 :=
  if [carriageReturn, lineFeed] <:+ line then line.take (line.length - 2)
  else if [lineFeed] <:+ line then line.take (line.length - 1)
  else line

/-- The entries are the first lines of the file, each with a terminating zero. -/
def Parsed (file : List UInt8) (d : Dictionary) : Prop :=
  d.dictionarySize = min (lines lineFeed file).length maxWordAmmount ∧
    ∀ i (hi : i < maxWordAmmount), d.dictionary[i] =
      if i < d.dictionarySize then (lines lineFeed file)[i]?.map fun line => chomp line ++ [0]
      else none

theorem copyLine_eq (line : List UInt8) : copyLine line =
    if 2 ≤ line.length then some (line.take (line.length - 2) ++ [0]) else none := by
  unfold copyLine sizeOfInt
  by_cases h : 2 ≤ line.length
  · have h1 : (0 : Int) ≤ line.length - 1 := by omega
    have h2 : (0 : Int) ≤ line.length - 2 := by omega
    have h3 : ((line.length : Int) - 2).toNat = line.length - 2 := by omega
    simp only [if_pos h1, if_pos h2, h3, if_pos h]
    rw [if_pos (by omega)]
  · have h2 : ¬ (0 : Int) ≤ line.length - 2 := by omega
    simp only [if_neg h2, if_neg h]
    rw [if_neg]
    rintro ⟨-, hc⟩
    have hbound : sizeBound = 4294967296 := rfl
    omega

theorem copyLine_iff (line : List UInt8) :
    copyLine line = some (chomp line ++ [0]) ↔ [carriageReturn, lineFeed] <:+ line := by
  rw [copyLine_eq]
  constructor
  · intro h
    by_contra hn
    split at h
    swap
    · cases h
    rename_i hl
    have hlen := congrArg List.length (List.append_cancel_right (Option.some.inj h))
    rw [chomp, if_neg hn] at hlen
    split at hlen
    · rw [List.length_take, List.length_take] at hlen
      omega
    · rw [List.length_take] at hlen
      omega
  · intro h
    have hl : 2 ≤ line.length := h.length_le
    rw [if_pos hl, chomp, if_pos h]

theorem mapM_eq_some_map {α β : Type} (f : α → Option β) (g : α → β) (l : List α) :
    l.mapM f = some (l.map g) ↔ ∀ a ∈ l, f a = some (g a) := by
  induction l with
  | nil => simp
  | cons a l ih =>
    rw [List.mapM_cons, List.forall_mem_cons, ← ih, List.map_cons]
    cases f a with
    | none => simp
    | some b =>
      cases l.mapM f with
      | none => simp
      | some bs => simp

theorem blocks_length {file : List UInt8} {words : List (List UInt8)}
    (h : blocks file = some words) :
    words.length = min (lines lineFeed file).length maxWordAmmount := by
  have hlen : ∀ (ls : List (List UInt8)) ws, ls.mapM copyLine = some ws →
      ws.length = ls.length := by
    intro ls
    induction ls with
    | nil => simp
    | cons l ls ih =>
      intro ws hws
      rw [List.mapM_cons] at hws
      obtain ⟨w, -, hws⟩ := Option.bind_eq_some_iff.mp hws
      obtain ⟨ws', hws', heq⟩ := Option.bind_eq_some_iff.mp hws
      cases heq
      rw [List.length_cons, List.length_cons, ih ws' hws']
  rw [hlen _ _ h, List.length_take, Nat.min_comm]

/-- A file is parsed line by line just if each of the lines that are read ends with CRLF. -/
theorem loadDictionary_parses_iff (file : List UInt8) (old : Dictionary) :
    (∃ d, loadDictionary (some file) old = some (d, false) ∧ Parsed file d) ↔
      ∀ line ∈ (lines lineFeed file).take maxWordAmmount,
        [carriageReturn, lineFeed] <:+ line := by
  have hblocks : (∀ line ∈ (lines lineFeed file).take maxWordAmmount,
      [carriageReturn, lineFeed] <:+ line) ↔ blocks file =
        some (((lines lineFeed file).take maxWordAmmount).map fun line => chomp line ++ [0]) := by
    rw [blocks, mapM_eq_some_map]
    exact forall₂_congr fun line _ => (copyLine_iff line).symm
  rw [hblocks]
  constructor
  · rintro ⟨d, hd, hsize, hslots⟩
    obtain ⟨words, hw, -, hlen, hget⟩ := loadDictionary_some hd
    rw [hw]
    congr 1
    apply List.ext_getElem?
    intro i
    rw [List.getElem?_map, List.getElem?_take]
    by_cases hi : i < maxWordAmmount
    · rw [if_pos hi, ← hget i hi, hslots i hi]
      split
      · rfl
      · rw [List.getElem?_eq_none (by omega)]
        rfl
    · rw [if_neg hi, List.getElem?_eq_none (by omega)]
      rfl
  · intro hw
    have hd : ∃ d, loadDictionary (some file) old = some (d, false) := by
      rw [loadDictionary_eq, hw]
      exact ⟨_, rfl⟩
    obtain ⟨d, hd⟩ := hd
    obtain ⟨words, hw', -, hlen, hget⟩ := loadDictionary_some hd
    refine ⟨d, hd, hlen.trans (blocks_length hw'), fun i hi => ?_⟩
    obtain rfl := Option.some.inj (hw'.symm.trans hw)
    rw [hget i hi, List.getElem?_map, List.getElem?_take_of_lt hi]
    split
    · rfl
    · rename_i hn
      rw [hlen, List.length_map, List.length_take] at hn
      rw [List.getElem?_eq_none (by omega)]
      rfl

/-- A line that ends with LF alone loses a character, and `memcpy` gets a negative
length for a blank one. -/
theorem lf_lines_not_parsed :
    (∃ d, loadDictionary (some [97, 98, lineFeed]) {} = some (d, false) ∧
      d.dictionary[0] = some [97, 0] ∧ ¬ Parsed [97, 98, lineFeed] d) ∧
      loadDictionary (some [lineFeed]) {} = none := by
  have hload : ∃ d, loadDictionary (some [97, 98, lineFeed]) {} = some (d, false) := by
    rw [loadDictionary_eq]
    exact ⟨_, rfl⟩
  obtain ⟨d, hd⟩ := hload
  obtain ⟨words, hw, -, -, hget⟩ := loadDictionary_some hd
  obtain rfl : [[97, 0]] = words := Option.some.inj hw
  have h0 : d.dictionary[0] = some [97, 0] := hget 0 (by decide)
  refine ⟨⟨d, hd, h0, fun hp => ?_⟩, ?_⟩
  · have hparsed := hp.2 0 (by decide)
    rw [h0, hp.1] at hparsed
    exact absurd hparsed (by decide)
  · rw [loadDictionary_eq]
    rfl

end Parsing

section Choice

variable {file : List UInt8} {old d : Dictionary} {failed : Bool}

/-- The entry is one of those loaded, and points to a word. -/
def Chosen (d : Dictionary) (ind : Nat) : Prop :=
  ind < d.dictionarySize ∧ ∃ word, d.dictionary[ind]? = some (some word)

/-- The index of a word with the quotient and the product taken exactly, where `wordIndex`
rounds both. -/
def exactIndex (random dictionarySize : Nat) : Nat := random * dictionarySize / randMax

theorem exactIndex_lt_iff {random size : Nat} :
    exactIndex random size < size ↔ 0 < size ∧ random < randMax := by
  have hmax : 0 < randMax := by decide
  rw [exactIndex, Nat.div_lt_iff_lt_mul hmax, Nat.mul_comm size]
  constructor
  · intro h
    have hsize : 0 < size := Nat.pos_of_ne_zero fun h0 => by simp [h0] at h
    exact ⟨hsize, Nat.lt_of_mul_lt_mul_right h⟩
  · rintro ⟨hsize, hlt⟩
    exact Nat.mul_lt_mul_of_pos_right hlt hsize

theorem chosen_iff (h : loadDictionary (some file) old = some (d, failed)) (ind : Nat) :
    Chosen d ind ↔ ind < d.dictionarySize := by
  refine ⟨And.left, fun hlt => ⟨hlt, ?_⟩⟩
  obtain ⟨words, hw, -, hsize, hget⟩ := loadDictionary_some h
  have hmax : ind < maxWordAmmount := by
    have hlen := blocks_length hw
    omega
  rw [hsize] at hlt
  exact ⟨words[ind], by rw [Vector.getElem?_eq_getElem hmax, hget ind hmax,
    List.getElem?_eq_getElem hlt]⟩

/-- Each word of a text is a loaded one just if the dictionary has words and no draw
is at the upper end of the random range. -/
theorem every_word_exists_iff (h : loadDictionary (some file) old = some (d, false))
    (random : UInt32 → Nat → Nat) (seed : UInt32) (wordAmmount : Nat) :
    (∀ i < wordAmmount, Chosen d (exactIndex (random seed i) d.dictionarySize)) ↔
      ∀ i < wordAmmount, 0 < d.dictionarySize ∧ random seed i < randMax :=
  forall₂_congr fun _ _ => (chosen_iff h _).trans exactIndex_lt_iff

def oneWordDictionary : Dictionary :=
  ((loadDictionary (some [97, carriageReturn, lineFeed]) {}).getD ({}, true)).1

theorem load_oneWordDictionary :
    loadDictionary (some [97, carriageReturn, lineFeed]) {} = some (oneWordDictionary, false) := by
  rw [oneWordDictionary, loadDictionary_eq]
  rfl

theorem every_word_exists_iff_one_word :
    Chosen oneWordDictionary (exactIndex 5 oneWordDictionary.dictionarySize) :=
  (every_word_exists_iff load_oneWordDictionary (fun _ _ => 5) 0 25).mpr
    (fun _ _ => ⟨by rw [oneWordDictionary, loadDictionary_eq]; decide, by decide⟩) 0 (by decide)

/-- The largest random number selects the entry behind the last word, and an empty file
has no word to select. -/
theorem last_draw_too_far :
    (loadDictionary (some [97, carriageReturn, lineFeed]) {} = some (oneWordDictionary, false) ∧
      ¬ Chosen oneWordDictionary (exactIndex randMax oneWordDictionary.dictionarySize)) ∧
      ∃ d, loadDictionary (some []) {} = some (d, false) ∧
        ¬ Chosen d (exactIndex 5 d.dictionarySize) := by
  refine ⟨⟨load_oneWordDictionary, fun hc => ?_⟩, ?_⟩
  · exact absurd (exactIndex_lt_iff.mp hc.1).2 (by decide)
  · have hload : ∃ d, loadDictionary (some []) {} = some (d, false) ∧ d.dictionarySize = 0 := by
      rw [loadDictionary_eq]
      exact ⟨_, rfl, rfl⟩
    obtain ⟨d, hd, hsize⟩ := hload
    exact ⟨d, hd, fun hc => absurd hc.1 (by rw [hsize]; decide)⟩

end Choice

end WriteWise.Data
