import Mathlib
import WriteWise.Library.Lines

namespace WriteWise.Library.WordWrap

open Lines

variable {α : Type}

theorem notMem_of_mem_splitOn [BEq α] [LawfulBEq α] {sep : α} {xs w : List α}
    (h : w ∈ xs.splitOn sep) : sep ∉ w := by
  induction xs generalizing w with
  | nil =>
    obtain rfl : w = [] := by simpa using h
    exact List.not_mem_nil
  | cons x xs ih =>
    rw [List.splitOn_cons_eq_if_modifyHead] at h
    obtain ⟨v, vs, hv⟩ := List.exists_cons_of_ne_nil (List.splitOn_ne_nil sep xs)
    rw [hv] at h ih
    split at h
    · obtain rfl | hw := List.mem_cons.mp h
      · exact List.not_mem_nil
      · exact ih hw
    · rename_i hx
      rw [List.modifyHead_cons] at h
      obtain rfl | hw := List.mem_cons.mp h
      · rw [List.mem_cons, not_or]
        refine ⟨fun he => hx ?_, ih (by simp)⟩
        rw [he, BEq.rfl]
      · exact ih (List.mem_cons_of_mem _ hw)

section Wrapping

variable (sep : α) (fits : Nat → Prop) [DecidablePred fits]

/-- Put words on a line as long as they fit, each behind a separator. -/
def fill : List α → List (List α) → List (List α)
  | line, [] => [line]
  | line, w :: ws =>
    if fits (line.length + 1 + w.length) then fill (line ++ sep :: w) ws else line :: fill w ws

/-- The lines of a text, given as its words. -/
def wrap : List (List α) → List (List α)
  | [] => []
  | w :: ws => fill sep fits w ws

/-- A character with the place it is set at, unless it is dropped there. -/
structure Slot (α : Type) where
  char : α
  col : Nat
  row : Nat
  drawn : Bool
  deriving DecidableEq

def setWord (row : Nat) : Nat → List α → List (Slot α)
  | _, [] => []
  | col, c :: cs => ⟨c, col, row, true⟩ :: setWord row (col + 1) cs

/-- Set the words that follow: one that does not fit starts a line, and the separator
before it is dropped. -/
def setWords : Nat → Nat → List (List α) → List (Slot α)
  | _, _, [] => []
  | row, col, w :: ws =>
    if fits (col + 1 + w.length) then
      ⟨sep, col, row, true⟩ :: setWord row (col + 1) w ++ setWords row (col + 1 + w.length) ws
    else ⟨sep, col, row, false⟩ :: setWord (row + 1) 0 w ++ setWords (row + 1) w.length ws

def setText : List (List α) → List (Slot α)
  | [] => []
  | w :: ws => setWord 0 0 w ++ setWords sep fits 0 w.length ws

/-- The row and the column behind the words. -/
def endOf : Nat → Nat → List (List α) → Nat × Nat
  | row, col, [] => (row, col)
  | row, col, w :: ws =>
    if fits (col + 1 + w.length) then endOf row (col + 1 + w.length) ws
    else endOf (row + 1) w.length ws

def setLines : Nat → List (List α) → List (Slot α)
  | _, [] => []
  | row, l :: ls => setWord row 0 l ++ setLines (row + 1) ls

theorem setWord_append (row col : Nat) (v w : List α) :
    setWord row col (v ++ w) = setWord row col v ++ setWord row (col + v.length) w := by
  induction v generalizing col with
  | nil => rfl
  | cons c v ih =>
    rw [List.cons_append, setWord, setWord, ih, List.length_cons, List.cons_append]
    congr 3
    omega

@[simp] theorem length_setWord (row col : Nat) (w : List α) :
    (setWord row col w).length = w.length := by
  induction w generalizing col with
  | nil => rfl
  | cons c w ih => rw [setWord, List.length_cons, ih, List.length_cons]

theorem filter_setWord (row col : Nat) (w : List α) :
    (setWord row col w).filter Slot.drawn = setWord row col w := by
  induction w generalizing col with
  | nil => rfl
  | cons c w ih => rw [setWord, List.filter_cons_of_pos rfl, ih]

theorem length_line (line w : List α) :
    (line ++ sep :: w).length = line.length + 1 + w.length := by
  rw [List.length_append, List.length_cons]
  omega

theorem drawn_setWords (row : Nat) (line : List α) (ws : List (List α)) :
    setWord row 0 line ++ (setWords sep fits row line.length ws).filter Slot.drawn =
      setLines row (fill sep fits line ws) := by
  induction ws generalizing row line with
  | nil => rfl
  | cons w ws ih =>
    rw [setWords, fill]
    split
    · rw [← ih, length_line, setWord_append, setWord, Nat.zero_add, List.cons_append,
        List.filter_cons_of_pos rfl, List.filter_append, filter_setWord, List.append_assoc,
        List.cons_append]
    · rw [setLines, ← ih, List.cons_append, List.filter_cons_of_neg Bool.false_ne_true,
        List.filter_append, filter_setWord]

theorem drawn_setText (ws : List (List α)) :
    (setText sep fits ws).filter Slot.drawn = setLines 0 (wrap sep fits ws) := by
  cases ws with
  | nil => rfl
  | cons w ws =>
    rw [setText, wrap, List.filter_append, filter_setWord]
    exact drawn_setWords sep fits 0 w ws

theorem length_setWords (row col : Nat) (ws : List (List α)) :
    (setWords sep fits row col ws).length = (ws.flatMap fun w => sep :: w).length := by
  induction ws generalizing row col with
  | nil => rfl
  | cons w ws ih =>
    rw [setWords, List.flatMap_cons, List.length_append, List.length_cons]
    split
    · rw [List.length_append, List.length_cons, length_setWord, ih]
    · rw [List.length_append, List.length_cons, length_setWord, ih]

theorem length_setText (ws : List (List α)) :
    (setText sep fits ws).length = ([sep].intercalate ws).length := by
  cases ws with
  | nil => rfl
  | cons w ws =>
    rw [setText, intercalate_cons, List.length_append, List.length_append, length_setWord,
      length_setWords]

theorem length_fill (row : Nat) (line : List α) (ws : List (List α)) :
    row + (fill sep fits line ws).length = (endOf fits row line.length ws).1 + 1 := by
  induction ws generalizing row line with
  | nil => rfl
  | cons w ws ih =>
    rw [fill, endOf]
    split
    · rw [ih, length_line]
    · rw [List.length_cons, ← ih]
      omega

theorem fill_ne_nil (line : List α) (ws : List (List α)) : fill sep fits line ws ≠ [] := by
  intro h
  have hlen := length_fill sep fits 0 line ws
  rw [h, List.length_nil] at hlen
  omega

theorem intercalate_fill (line : List α) (ws : List (List α)) :
    [sep].intercalate (fill sep fits line ws) = [sep].intercalate (line :: ws) := by
  induction ws generalizing line with
  | nil => rfl
  | cons w ws ih =>
    rw [fill]
    split
    · rw [ih, intercalate_cons, intercalate_cons, List.flatMap_cons, List.append_assoc]
    · rw [List.intercalate_cons_of_ne_nil (fill_ne_nil sep fits w ws), ih,
        List.intercalate_cons_of_ne_nil (List.cons_ne_nil w ws)]

theorem intercalate_wrap (ws : List (List α)) :
    [sep].intercalate (wrap sep fits ws) = [sep].intercalate ws := by
  cases ws with
  | nil => rfl
  | cons w ws => exact intercalate_fill sep fits w ws

theorem fits_fill {line : List α} {ws : List (List α)} (hline : fits line.length)
    (hws : ∀ w ∈ ws, fits w.length) : ∀ l ∈ fill sep fits line ws, fits l.length := by
  induction ws generalizing line with
  | nil =>
    intro l hl
    obtain rfl := List.mem_singleton.mp hl
    exact hline
  | cons w ws ih =>
    have hrest : ∀ v ∈ ws, fits v.length := fun v hv => hws v (List.mem_cons_of_mem _ hv)
    rw [fill]
    split
    · rename_i hfit
      exact ih (by rwa [length_line]) hrest
    · intro l hl
      obtain rfl | hl := List.mem_cons.mp hl
      · exact hline
      · exact ih (hws w List.mem_cons_self) hrest l hl

theorem fits_wrap {ws : List (List α)} (hws : ∀ w ∈ ws, fits w.length) :
    ∀ l ∈ wrap sep fits ws, fits l.length := by
  cases ws with
  | nil => exact nofun
  | cons w ws =>
    exact fits_fill sep fits (hws w List.mem_cons_self) fun v hv =>
      hws v (List.mem_cons_of_mem _ hv)

theorem fill_eq_cons {line : List α} {ws : List (List α)} :
    ∃ l ls, fill sep fits line ws = l :: ls ∧ (l = line ∨ ∃ v, l = line ++ sep :: v) := by
  induction ws generalizing line with
  | nil => exact ⟨line, [], rfl, .inl rfl⟩
  | cons w ws ih =>
    rw [fill]
    split
    · obtain ⟨l, ls, hl, hline⟩ := @ih (line ++ sep :: w)
      refine ⟨l, ls, hl, .inr ?_⟩
      obtain rfl | ⟨v, rfl⟩ := hline
      · exact ⟨w, rfl⟩
      · exact ⟨w ++ sep :: v, by rw [List.append_assoc, List.cons_append]⟩
    · exact ⟨line, _, rfl, .inl rfl⟩

section Greedy

variable [BEq α] [LawfulBEq α]

def firstWord (line : List α) : List α := line.takeWhile fun c => c != sep

theorem firstWord_eq {w : List α} (hw : sep ∉ w) : firstWord sep w = w := by
  refine List.takeWhile_eq_self_iff.mpr fun c hc => ?_
  rw [bne_iff_ne]
  rintro rfl
  exact hw hc

theorem firstWord_cons {w : List α} (hw : sep ∉ w) (v : List α) :
    firstWord sep (w ++ sep :: v) = w := by
  rw [firstWord, List.takeWhile_append_of_pos, List.takeWhile_cons, if_neg (by simp),
    List.append_nil]
  intro c hc
  rw [bne_iff_ne]
  rintro rfl
  exact hw hc

/-- A line ends only where the next word would not have fitted. -/
theorem greedy_fill {line : List α} {ws : List (List α)} (hws : ∀ w ∈ ws, sep ∉ w) :
    (fill sep fits line ws).IsChain fun l l' => ¬ fits (l.length + 1 + (firstWord sep l').length) := by
  induction ws generalizing line with
  | nil => exact List.isChain_singleton _
  | cons w ws ih =>
    have hrest : ∀ v ∈ ws, sep ∉ v := fun v hv => hws v (List.mem_cons_of_mem _ hv)
    have hw := hws w List.mem_cons_self
    rw [fill]
    split
    · exact ih hrest
    · rename_i hfit
      obtain ⟨l, ls, hl, hfirst⟩ := @fill_eq_cons _ sep fits _ w ws
      have hchain := @ih w hrest
      rw [hl] at hchain ⊢
      refine List.isChain_cons_cons.mpr ⟨?_, hchain⟩
      obtain rfl | ⟨v, rfl⟩ := hfirst
      · rwa [firstWord_eq sep hw]
      · rwa [firstWord_cons sep hw]

theorem greedy_wrap {ws : List (List α)} (hws : ∀ w ∈ ws, sep ∉ w) :
    (wrap sep fits ws).IsChain fun l l' => ¬ fits (l.length + 1 + (firstWord sep l').length) := by
  cases ws with
  | nil => exact List.isChain_nil
  | cons w ws => exact greedy_fill sep fits fun v hv => hws v (List.mem_cons_of_mem _ hv)

end Greedy

section Bounds

variable {fits}

theorem row_le_endOf (row col : Nat) (ws : List (List α)) : row ≤ (endOf fits row col ws).1 := by
  induction ws generalizing row col with
  | nil => exact le_rfl
  | cons w ws ih =>
    rw [endOf]
    split
    · exact ih row _
    · exact (Nat.le_succ row).trans (ih (row + 1) _)

theorem fits_endOf {row col : Nat} {ws : List (List α)} (hcol : fits col)
    (hws : ∀ w ∈ ws, fits w.length) : fits (endOf fits row col ws).2 := by
  induction ws generalizing row col with
  | nil => exact hcol
  | cons w ws ih =>
    have hrest : ∀ v ∈ ws, fits v.length := fun v hv => hws v (List.mem_cons_of_mem _ hv)
    rw [endOf]
    split
    · rename_i hfit
      exact ih hfit hrest
    · exact ih (hws w List.mem_cons_self) hrest

theorem mem_setWord {row col : Nat} {w : List α} {s : Slot α} (h : s ∈ setWord row col w) :
    s.row = row ∧ s.col < col + w.length := by
  induction w generalizing col with
  | nil => cases h
  | cons c w ih =>
    rw [List.length_cons]
    obtain rfl | hw := List.mem_cons.mp h
    · exact ⟨rfl, by simp only; omega⟩
    · obtain ⟨hrow, hcol⟩ := ih hw
      exact ⟨hrow, by omega⟩

variable (hmono : ∀ {m n : Nat}, m ≤ n → fits n → fits m)

include hmono

theorem bounds_setWords {row col : Nat} {ws : List (List α)} (hcol : fits col)
    (hws : ∀ w ∈ ws, fits w.length) :
    ∀ s ∈ setWords sep fits row col ws, s.row ≤ (endOf fits row col ws).1 ∧ fits s.col := by
  induction ws generalizing row col with
  | nil => exact nofun
  | cons w ws ih =>
    have hw := hws w List.mem_cons_self
    have hrest : ∀ v ∈ ws, fits v.length := fun v hv => hws v (List.mem_cons_of_mem _ hv)
    intro s hs
    rw [setWords] at hs
    rw [endOf]
    by_cases hfit : fits (col + 1 + w.length)
    · rw [if_pos hfit] at hs ⊢
      obtain hfirst | hlater := List.mem_append.mp hs
      · obtain rfl | hword := List.mem_cons.mp hfirst
        · exact ⟨row_le_endOf _ _ _, hcol⟩
        · obtain ⟨hrow, hlt⟩ := mem_setWord hword
          exact ⟨hrow ▸ row_le_endOf _ _ _, hmono hlt.le hfit⟩
      · exact ih hfit hrest s hlater
    · rw [if_neg hfit] at hs ⊢
      obtain hfirst | hlater := List.mem_append.mp hs
      · obtain rfl | hword := List.mem_cons.mp hfirst
        · exact ⟨(Nat.le_succ row).trans (row_le_endOf _ _ _), hcol⟩
        · obtain ⟨hrow, hlt⟩ := mem_setWord hword
          rw [Nat.zero_add] at hlt
          exact ⟨hrow ▸ row_le_endOf _ _ _, hmono hlt.le hw⟩
      · exact ih hw hrest s hlater

theorem bounds_setText {ws : List (List α)} (hws : ∀ w ∈ ws, fits w.length) :
    ∀ s ∈ setText sep fits ws, s.row < (wrap sep fits ws).length ∧ fits s.col := by
  cases ws with
  | nil => exact nofun
  | cons w ws =>
    have hw := hws w List.mem_cons_self
    have hlen := length_fill sep fits 0 w ws
    intro s hs
    rw [wrap]
    obtain hword | hlater := List.mem_append.mp hs
    · obtain ⟨hrow, hlt⟩ := mem_setWord hword
      rw [Nat.zero_add] at hlt
      exact ⟨by omega, hmono hlt.le hw⟩
    · obtain ⟨hrow, hcol⟩ := bounds_setWords sep hmono hw
        (fun v hv => hws v (List.mem_cons_of_mem _ hv)) s hlater
      exact ⟨by omega, hcol⟩

omit hmono

/-- Each line but the last one is long when all words are short. -/
theorem endOf_le {short long : Nat} (hfits : ∀ n < long + short, fits n) {ws : List (List α)}
    (hws : ∀ w ∈ ws, w.length ≤ short) (row col : Nat) :
    (endOf fits row col ws).1 * long ≤
      row * long + col + (ws.flatMap fun w => sep :: w).length := by
  induction ws generalizing row col with
  | nil => exact Nat.le_add_right _ _
  | cons w ws ih =>
    have hw := hws w List.mem_cons_self
    have hrest : ∀ v ∈ ws, v.length ≤ short := fun v hv => hws v (List.mem_cons_of_mem _ hv)
    rw [List.flatMap_cons, List.length_append, List.length_cons, endOf]
    split
    · have h := ih hrest row (col + 1 + w.length)
      omega
    · rename_i hfit
      have hlong : long ≤ col + 1 := by
        by_contra hlt
        exact hfit (hfits _ (by omega))
      have h := ih hrest (row + 1) w.length
      rw [Nat.succ_mul] at h
      omega

theorem length_wrap_le {short long : Nat} (hfits : ∀ n < long + short, fits n)
    {ws : List (List α)} (hws : ∀ w ∈ ws, w.length ≤ short) :
    ((wrap sep fits ws).length - 1) * long ≤ ([sep].intercalate ws).length := by
  cases ws with
  | nil => simp [wrap]
  | cons w ws =>
    have hlen := length_fill sep fits 0 w ws
    have hend := endOf_le sep hfits (fun v hv => hws v (List.mem_cons_of_mem _ hv)) 0 w.length
    have hrows : (wrap sep fits (w :: ws)).length - 1 = (endOf fits 0 w.length ws).1 := by
      rw [wrap]
      omega
    rw [hrows, intercalate_cons, List.length_append]
    rwa [Nat.zero_mul, Nat.zero_add] at hend

end Bounds

end Wrapping

end WriteWise.Library.WordWrap
