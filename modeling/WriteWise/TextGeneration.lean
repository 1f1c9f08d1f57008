import WriteWise.Data
import WriteWise.TypingSession

namespace WriteWise.TextGeneration

open Library.Lines Data Typing TypingSession

abbrev space : UInt8 := UInt8.ofNat ' '.toNat

def joined (words : List Word) : List UInt8 := [space].intercalate (words.map (·.1))

def textOf (words : List Word) : TypingInfo where
  generatedText := some (joined words ++ [0])
  typedText := some (List.replicate ((joined words).length + 1) 0)
  mistakes := some (List.replicate (joined words).length false)
  generatedTextSize := (joined words).length
  status := .ready

section Loop

variable {dictionary : List Word} {random : Nat → Nat}

theorem appendWords_round {n i size : Nat} {text : List UInt8} {word : Word}
    (hword : dictionary[wordIndex (random i) dictionary.length]? = some word)
    (hsize : size = if i = 0 then text.length else text.length + 1)
    (hfit : size + (word.1.length + 1) < sizeBound) :
    appendWords dictionary random (n + 1) i (size, text) =
      appendWords dictionary random n (i + 1) (size + (word.1.length + 1),
        (if i = 0 then text else text ++ [space]) ++ word.1) := by
  simp only [appendWords, hword, Option.bind_some]
  rw [if_neg (not_le.mpr hfit)]
  by_cases hi : i = 0
  · rw [if_pos hi] at hsize
    have hroom : text.length + word.1.length < size + (word.1.length + 1) := by omega
    simp only [if_pos hi, Option.bind_some, strcat, if_pos hroom]
  · rw [if_neg hi] at hsize
    have hspace : text.length + 1 < size + (word.1.length + 1) := by omega
    have hroom : text.length + 1 + word.1.length < size + (word.1.length + 1) := by omega
    simp only [if_neg hi, strcat, List.length_cons, List.length_nil, Nat.zero_add, if_pos hspace,
      Option.bind_some, List.length_append, if_pos hroom]

theorem appendWords_rest (words : List Word) {i : Nat} (hi : i ≠ 0) (text : List UInt8)
    (hwords : ∀ j (hj : j < words.length),
      dictionary[wordIndex (random (i + j)) dictionary.length]? = some words[j])
    (hfit : text.length + (words.flatMap fun word => space :: word.1).length + 1 < sizeBound) :
    appendWords dictionary random words.length i (text.length + 1, text) =
      some (text.length + (words.flatMap fun word => space :: word.1).length + 1,
        text ++ words.flatMap fun word => space :: word.1) := by
  induction words generalizing i text with
  | nil => simp [appendWords]
  | cons word words ih =>
    simp only [List.flatMap_cons, List.length_append, List.length_cons] at hfit ⊢
    have hfirst : dictionary[wordIndex (random i) dictionary.length]? = some word :=
      hwords 0 (Nat.succ_pos _)
    rw [appendWords_round hfirst (if_neg hi).symm (by omega), if_neg hi]
    have hnext : ∀ j (hj : j < words.length),
        dictionary[wordIndex (random (i + 1 + j)) dictionary.length]? = some words[j] := by
      intro j hj
      rw [show i + 1 + j = i + (j + 1) by omega]
      exact hwords (j + 1) (Nat.succ_lt_succ hj)
    have hlen : (text ++ [space] ++ word.1).length = text.length + (word.1.length + 1) := by
      simp only [List.length_append, List.length_cons, List.length_nil]
      omega
    have h := ih (Nat.succ_ne_zero i) (text ++ [space] ++ word.1) hnext (by omega)
    rw [hlen] at h
    rw [show text.length + 1 + (word.1.length + 1) = text.length + (word.1.length + 1) + 1 by omega,
      h]
    refine congrArg some (Prod.ext ?_ ?_)
    · simp only
      omega
    · simp only [List.append_assoc, List.cons_append, List.nil_append]

theorem joined_cons (word : Word) (words : List Word) :
    joined (word :: words) = word.1 ++ words.flatMap fun word => space :: word.1 := by
  rw [joined, List.map_cons, intercalate_cons, List.flatMap_map]

theorem appendWords_joined (words : List Word)
    (hwords : ∀ i (hi : i < words.length),
      dictionary[wordIndex (random i) dictionary.length]? = some words[i])
    (hfit : (joined words).length + 1 < sizeBound) (hne : words ≠ []) :
    appendWords dictionary random words.length 0 (0, []) =
      some ((joined words).length + 1, joined words) := by
  obtain ⟨word, rest, rfl⟩ := List.exists_cons_of_ne_nil hne
  rw [joined_cons, List.length_append] at hfit
  have hfirst : dictionary[wordIndex (random 0) dictionary.length]? = some word :=
    hwords 0 (Nat.succ_pos _)
  have hrest : ∀ j (hj : j < rest.length),
      dictionary[wordIndex (random (1 + j)) dictionary.length]? = some rest[j] := by
    intro j hj
    rw [Nat.add_comm]
    exact hwords (j + 1) (Nat.succ_lt_succ hj)
  have hround := @appendWords_round _ _ rest.length 0 0 [] _ hfirst rfl (by omega)
  rw [if_pos rfl, List.nil_append, Nat.zero_add] at hround
  rw [List.length_cons, hround, Nat.zero_add,
    appendWords_rest rest Nat.one_ne_zero word.1 hrest hfit, joined_cons, List.length_append]

theorem appendWords_text {n i size : Nat} (hi : i ≠ 0) {text : List UInt8} {r : Nat × List UInt8}
    (h : appendWords dictionary random n i (size, text) = some r) :
    ∃ words : List Word, words.length = n ∧ (∀ w ∈ words, w ∈ dictionary) ∧
      r.2 = text ++ words.flatMap fun word => space :: word.1 := by
  induction n generalizing i size text with
  | zero =>
    cases h
    exact ⟨[], rfl, nofun, (List.append_nil text).symm⟩
  | succ n ih =>
    obtain ⟨word, hword, -, hrest⟩ := appendWords_succ h
    obtain ⟨words, hlen, hmem, htext⟩ := ih (Nat.succ_ne_zero i) hrest
    refine ⟨word :: words, congrArg Nat.succ hlen, List.forall_mem_cons.mpr
      ⟨List.mem_of_getElem? hword, hmem⟩, ?_⟩
    rw [htext, if_neg hi, List.flatMap_cons]
    simp only [List.append_assoc, List.cons_append, List.nil_append]

theorem joined_concat {words : List Word} (hne : words ≠ []) (word : Word) :
    joined (words ++ [word]) = joined words ++ space :: word.1 := by
  obtain ⟨first, rest, rfl⟩ := List.exists_cons_of_ne_nil hne
  rw [List.cons_append, joined_cons, joined_cons, List.flatMap_append, List.append_assoc]
  simp

theorem length_joined_take (words : List Word) (i : Nat) :
    (joined (words.take i)).length ≤ (joined words).length := by
  cases i with
  | zero => exact Nat.zero_le _
  | succ i =>
    cases words with
    | nil => rfl
    | cons word words =>
      have hflat : (words.flatMap fun word => space :: word.1) =
          ((words.take i).flatMap fun word => space :: word.1) ++
            (words.drop i).flatMap fun word => space :: word.1 := by
        rw [← List.flatMap_append, List.take_append_drop]
      rw [List.take_succ_cons, joined_cons, joined_cons, hflat]
      simp

theorem length_flatMap_le {words : List Word} {bound : Nat}
    (h : ∀ w ∈ words, w.1.length ≤ bound) :
    (words.flatMap fun word => space :: word.1).length ≤ words.length * (bound + 1) := by
  induction words with
  | nil => simp
  | cons w ws ih =>
    have hw := h w List.mem_cons_self
    have hrest := ih fun v hv => h v (List.mem_cons_of_mem w hv)
    rw [List.flatMap_cons, List.length_append, List.length_cons, List.length_cons, Nat.succ_mul]
    omega

theorem length_joined_le {words : List Word} {bound : Nat}
    (h : ∀ w ∈ words, w.1.length ≤ bound) :
    (joined words).length ≤ words.length * (bound + 1) - 1 := by
  cases words with
  | nil => exact Nat.zero_le _
  | cons w ws =>
    have hw := h w List.mem_cons_self
    have hrest := length_flatMap_le fun v hv => h v (List.mem_cons_of_mem w hv)
    rw [joined_cons, List.length_append, List.length_cons, Nat.succ_mul]
    omega

end Loop

/-- The text is that of the selected words, and in every round of the loop the string
with its terminator fills exactly the block that was asked for in this round. -/
theorem generateText_joined (dictionary : List Word) (random : UInt32 → Nat → Nat) (seed : UInt32)
    (words : List Word)
    (hwords : ∀ i (hi : i < words.length),
      dictionary[wordIndex (random seed i) dictionary.length]? = some words[i])
    (hfit : (joined words).length + 1 < sizeBound) :
    generateText dictionary random words.length seed = some (textOf words) ∧
      ∀ i (hi : i < words.length), ∃ size,
        appendWords dictionary (random seed) i 0 (0, []) = some (size, joined (words.take i)) ∧
          (joined (words.take (i + 1))).length + 1 = size + (words[i].1.length + 1) := by
  refine ⟨?_, fun i hi => ?_⟩
  · by_cases hne : words = []
    · subst hne
      rfl
    · have hlen : words.length ≠ 0 := fun h0 => hne (List.length_eq_zero_iff.mp h0)
      rw [generateText, if_neg hlen, appendWords_joined words hwords hfit hne, Option.map_some]
      simp only [sizeDec_succ hfit]
      rfl
  · rw [List.take_succ_eq_append_getElem hi]
    by_cases h0 : i = 0
    · subst h0
      refine ⟨0, rfl, ?_⟩
      simp [joined]
    · have hne : words.take i ≠ [] := by
        rw [← List.length_pos_iff, List.length_take]
        omega
      have hlen : (words.take i).length = i := List.length_take_of_le hi.le
      have htake : ∀ j (hj : j < (words.take i).length),
          dictionary[wordIndex (random seed j) dictionary.length]? = some (words.take i)[j] := by
        intro j hj
        rw [List.getElem_take]
        exact hwords j _
      have h := appendWords_joined (words.take i) htake
        (Nat.lt_of_le_of_lt (Nat.succ_le_succ (length_joined_take words i)) hfit) hne
      rw [hlen] at h
      refine ⟨_, h, ?_⟩
      rw [joined_concat hne, List.length_append, List.length_cons]
      omega

/-- Every generated text consists of words of the dictionary. -/
theorem generateText_words {dictionary : List Word} {random : UInt32 → Nat → Nat} {n : Nat}
    {seed : UInt32} {t : TypingInfo}
    (h : generateText dictionary random (n + 1) seed = some t) :
    ∃ words : List Word, words.length = n + 1 ∧ (∀ w ∈ words, w ∈ dictionary) ∧
      t.generatedText = some (joined words ++ [0]) := by
  obtain ⟨r, hr, rfl⟩ := Option.map_eq_some_iff.mp h
  obtain ⟨word, hword, -, hrest⟩ := appendWords_succ hr
  obtain ⟨words, hlen, hmem, htext⟩ := appendWords_text Nat.one_ne_zero hrest
  refine ⟨word :: words, congrArg Nat.succ hlen, List.forall_mem_cons.mpr
    ⟨List.mem_of_getElem? hword, hmem⟩, ?_⟩
  rw [joined_cons]
  exact congrArg (fun text => some (text ++ [0])) htext

def twoWords : List Word := [⟨[97], letter_noZero⟩, ⟨[98, 99], by decide⟩]

def firstThenSecond : UInt32 → Nat → Nat := fun _ i => if i = 0 then 0 else 1600000000

theorem generateText_joined_two :
    generateText twoWords firstThenSecond 2 5 = some (textOf twoWords) :=
  (generateText_joined twoWords firstThenSecond 5 twoWords (by decide) (by decide)).1

example : joined twoWords = [97, 32, 98, 99] := by decide

section Dictionary

variable {file : List UInt8} {old d : Dictionary} {failed : Bool}

def wordOf (block : List UInt8) : Word :=
  ⟨block.takeWhile fun b => b ≠ 0, fun h => by simpa using List.mem_takeWhile_imp h⟩

def wordsOf (d : Dictionary) : List Word :=
  (d.dictionary.toList.take d.dictionarySize).filterMap (Option.map wordOf)

theorem length_wordsOf (h : loadDictionary (some file) old = some (d, failed)) :
    (wordsOf d).length = d.dictionarySize := by
  obtain ⟨words, hw, -, hsize, hget⟩ := loadDictionary_some h
  have hle : words.length ≤ maxWordAmmount := (blocks_length hw).trans_le (Nat.min_le_right _ _)
  have hslots : d.dictionary.toList.take d.dictionarySize = words.map some := by
    apply List.ext_getElem?
    intro i
    rw [hsize, List.getElem?_take, List.getElem?_map]
    split
    · rename_i hi
      have hmax : i < maxWordAmmount := by omega
      rw [Vector.getElem?_toList, Vector.getElem?_eq_getElem hmax, hget i hmax,
        List.getElem?_eq_getElem hi]
      rfl
    · rw [List.getElem?_eq_none (by omega)]
      rfl
  rw [wordsOf, hslots, hsize, List.filterMap_map]
  simp

theorem appendWords_chooses {dictionary : List Word} {random : Nat → Nat} {n i : Nat}
    {s r : Nat × List UInt8} (h : appendWords dictionary random n i s = some r) (j : Nat)
    (hj : j < n) : wordIndex (random (i + j)) dictionary.length < dictionary.length := by
  induction n generalizing i s j with
  | zero => exact absurd hj (Nat.not_lt_zero j)
  | succ n ih =>
    obtain ⟨size, text⟩ := s
    obtain ⟨word, hword, -, hrest⟩ := appendWords_succ h
    cases j with
    | zero => exact (List.getElem?_eq_some_iff.mp hword).1
    | succ j =>
      rw [show i + (j + 1) = i + 1 + j by omega]
      exact ih hrest j (Nat.lt_of_succ_lt_succ hj)

theorem generateText_chooses (h : loadDictionary (some file) old = some (d, failed))
    {random : UInt32 → Nat → Nat} {wordAmmount : Nat} {seed : UInt32} {t : TypingInfo}
    (ht : generateText (wordsOf d) random wordAmmount seed = some t) :
    ∀ i < wordAmmount, Chosen d (wordIndex (random seed i) d.dictionarySize) := by
  intro i hi
  obtain ⟨r, hr, -⟩ := Option.map_eq_some_iff.mp ht
  have hlt := appendWords_chooses hr i hi
  rw [length_wordsOf h, Nat.zero_add] at hlt
  exact (chosen_iff h _).mpr hlt

end Dictionary

end WriteWise.TextGeneration
