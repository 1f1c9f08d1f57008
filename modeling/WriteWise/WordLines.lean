import WriteWise.Library.WordWrap
import WriteWise.TypingView

namespace WriteWise.WordLines

open Library.Lines Library.Loops Library.WordWrap
open TextGeneration Graphics Text DrawText TextLayout TypingView

/-- The loops compute with their numbers as if they had no bound. -/
structure NoWrap (b : TextBox) (n : Nat) : Prop where
  dx : breaks b n = false → (layoutAt b n).dx + b.xStep < 2 ^ 16
  dy : breaks b n = true → (layoutAt b n).dy + b.yStep < 2 ^ 16
  wordWidth : (layoutAt b n).nextWord = some n →
    ((strchr b.str (n + 1)).getD b.str.length - n) * b.xStep < 2 ^ 16

/-- The loops treat character `n` as the slot says. -/
structure Cell (b : TextBox) (n : Nat) (s : Slot UInt8) : Prop where
  char : b.str[n]? = some s.char
  look : ∃ l, b.look n (layoutAt b n) = some (l, !s.drawn)
  dx : (layoutAt b n).dx = s.col * b.xStep
  dy : (layoutAt b n).dy = s.row * b.yStep
  noWrap : NoWrap b n

/-- The loops stand before character `n` at that row and column. -/
def At (b : TextBox) (n row col : Nat) : Prop :=
  layoutAt b n = ⟨col * b.xStep, row * b.yStep, strchr b.str n⟩

def Fits (b : TextBox) (n : Nat) : Prop := n * b.xStep ≤ b.maxWidth

instance (b : TextBox) : DecidablePred (Fits b) := fun n => by
  unfold Fits
  infer_instance

/-- From character `n` on, the loops treat the characters as the slots say. -/
def Follows (b : TextBox) : Nat → List (Slot UInt8) → Prop
  | _, [] => True
  | n, s :: slots => Cell b n s ∧ Follows b (n + 1) slots

section Strchr

variable {str rest : List UInt8} {n : Nat} {c : UInt8}

theorem drop_succ (h : str.drop n = c :: rest) : str.drop (n + 1) = rest := by
  rw [← List.tail_drop, h, List.tail_cons]

theorem strchr_space (h : str.drop n = space :: rest) : strchr str n = some n := by
  rw [strchr, h, List.idxOf?_cons, if_pos BEq.rfl]
  rfl

theorem strchr_skip (h : str.drop n = c :: rest) (hc : c ≠ space) :
    strchr str n = strchr str (n + 1) := by
  rw [strchr, h, List.idxOf?_cons, if_neg (by simpa using hc), strchr, drop_succ h, Option.map_map]
  congr 1
  funext i
  rw [Function.comp_apply]
  omega

theorem strchr_end (h : str.drop n = []) : strchr str n = none := by
  rw [strchr, h]
  rfl

theorem strchr_word {w tail : List UInt8} (hw : space ∉ w) (h : str.drop n = w ++ tail) :
    strchr str n = strchr str (n + w.length) := by
  induction w generalizing n with
  | nil => rfl
  | cons c w ih =>
    rw [List.mem_cons, not_or] at hw
    rw [strchr_skip h (Ne.symm hw.1), ih hw.2 (drop_succ h), List.length_cons]
    congr 1
    omega

theorem strchr_ne_self (h : str.drop n = c :: rest) (hc : c ≠ space) : strchr str n ≠ some n := by
  intro hn
  rw [strchr_skip h hc, strchr] at hn
  obtain ⟨k, -, hk⟩ := Option.map_eq_some_iff.mp hn
  omega

theorem getElem?_of_drop (h : str.drop n = c :: rest) : str[n]? = some c := by
  have h0 : (str.drop n)[0]? = some c := by rw [h]; rfl
  rwa [List.getElem?_drop, Nat.add_zero] at h0

end Strchr

section Steps

variable {b : TextBox} {n row col : Nat} {rest : List UInt8}

theorem u16_of_lt {n : Nat} (h : n < 2 ^ 16) : u16 n = n := Nat.mod_eq_of_lt h

theorem At.char (h : At b n row col) {c : UInt8} (hdrop : b.str.drop n = c :: rest)
    (hc : c ≠ space) (hlt : (col + 1) * b.xStep < 2 ^ 16) :
    Cell b n ⟨c, col, row, true⟩ ∧ At b (n + 1) row (col + 1) := by
  have hnext : (layoutAt b n).nextWord ≠ some n := by
    rw [h]
    exact strchr_ne_self hdrop hc
  have hlook : b.look n (layoutAt b n) = some (layoutAt b n, false) := if_neg hnext
  have hdx : (layoutAt b n).dx + b.xStep = (col + 1) * b.xStep := by
    rw [h, Nat.succ_mul]
  refine ⟨⟨getElem?_of_drop hdrop, ⟨_, hlook⟩, by rw [h], by rw [h], ?_, ?_, ?_⟩, ?_⟩
  · intro _
    rwa [hdx]
  · rw [breaks_drawn hlook]
    nofun
  · intro hn
    exact absurd hn hnext
  · rw [At, layoutAt_drawn hlook, TextBox.advance, hdx, u16_of_lt hlt, h, strchr_skip hdrop hc]

theorem wordWidth_eq {next : Option Nat}
    (h : (next.getD b.str.length - n) * b.xStep < 2 ^ 16) :
    b.wordWidth n next = some ((next.getD b.str.length - n) * b.xStep) := by
  cases next with
  | none => exact congrArg some (u16_of_lt h)
  | some next =>
    have hint : ¬ intBound ≤ (next - n) * b.xStep := Nat.not_le.mpr (h.trans (by decide))
    exact (if_neg hint).trans (congrArg some (u16_of_lt h))

/-- What follows a word: nothing, or another space. -/
def Ends (tail : List UInt8) : Prop := tail = [] ∨ ∃ t, tail = space :: t

theorem distance_eq {w tail : List UInt8} (hw : space ∉ w) (htail : Ends tail)
    (hdrop : b.str.drop n = space :: (w ++ tail)) :
    (strchr b.str (n + 1)).getD b.str.length - n = w.length + 1 := by
  have hlen := congrArg List.length hdrop
  rw [List.length_drop, List.length_cons, List.length_append] at hlen
  have hrest := drop_succ hdrop
  have hbehind : b.str.drop (n + 1 + w.length) = tail := by
    rw [← List.drop_drop, hrest, List.drop_left]
  rw [strchr_word hw hrest]
  obtain rfl | ⟨t, rfl⟩ := htail
  · rw [strchr_end hbehind, Option.getD_none]
    rw [List.length_nil] at hlen
    omega
  · rw [strchr_space hbehind, Option.getD_some]
    omega

theorem At.look_space (h : At b n row col) {w tail : List UInt8} (hw : space ∉ w)
    (htail : Ends tail) (hdrop : b.str.drop n = space :: (w ++ tail))
    (hword : (w.length + 1) * b.xStep < 2 ^ 16) :
    b.look n (layoutAt b n) = some (if Fits b (col + 1 + w.length) then
      (⟨col * b.xStep, row * b.yStep, strchr b.str (n + 1)⟩, false)
    else (⟨0, u16 (row * b.yStep + b.yStep), strchr b.str (n + 1)⟩, true)) := by
  have hdist := distance_eq hw htail hdrop
  have hwidth : b.wordWidth n (strchr b.str (n + 1)) = some ((w.length + 1) * b.xStep) := by
    rw [wordWidth_eq (by rwa [hdist]), hdist]
  have hsum : col * b.xStep + (w.length + 1) * b.xStep = (col + 1 + w.length) * b.xStep := by
    rw [← Nat.add_mul]
    congr 1
    omega
  rw [h, TextBox.look, if_pos (strchr_space hdrop)]
  simp only [hwidth, Option.map_some]
  congr 1
  rw [hsum]
  by_cases hfit : Fits b (col + 1 + w.length)
  · rw [if_pos hfit, if_neg (Nat.not_lt.mpr hfit)]
  · rw [if_neg hfit, if_pos (Nat.lt_of_not_le hfit)]

theorem At.fit (h : At b n row col) (hmax : b.maxWidth < 2 ^ 16) {w tail : List UInt8}
    (hw : space ∉ w) (htail : Ends tail) (hdrop : b.str.drop n = space :: (w ++ tail))
    (hword : (w.length + 1) * b.xStep < 2 ^ 16) (hfit : Fits b (col + 1 + w.length)) :
    Cell b n ⟨space, col, row, true⟩ ∧ At b (n + 1) row (col + 1) := by
  have hlook := h.look_space hw htail hdrop hword
  rw [if_pos hfit] at hlook
  have hlt : (col + 1) * b.xStep < 2 ^ 16 :=
    (Nat.mul_le_mul_right _ (Nat.le_add_right _ _)).trans_lt (lt_of_le_of_lt hfit hmax)
  refine ⟨⟨getElem?_of_drop hdrop, ⟨_, hlook⟩, by rw [h], by rw [h], ?_, ?_, ?_⟩, ?_⟩
  · intro _
    rwa [h, ← Nat.succ_mul]
  · rw [breaks_drawn hlook]
    nofun
  · rwa [distance_eq hw htail hdrop, imp_iff_right]
    rw [h]
    exact strchr_space hdrop
  · rw [At, layoutAt_drawn hlook, TextBox.advance]
    simp only
    rw [← Nat.succ_mul, u16_of_lt hlt]

/-- At a space before a word that does not fit the line ends. -/
theorem At.wrap (h : At b n row col) {w tail : List UInt8} (hw : space ∉ w) (htail : Ends tail)
    (hdrop : b.str.drop n = space :: (w ++ tail)) (hword : (w.length + 1) * b.xStep < 2 ^ 16)
    (hfit : ¬ Fits b (col + 1 + w.length)) (hrow : (row + 1) * b.yStep < 2 ^ 16) :
    Cell b n ⟨space, col, row, false⟩ ∧ At b (n + 1) (row + 1) 0 := by
  have hlook := h.look_space hw htail hdrop hword
  rw [if_neg hfit] at hlook
  refine ⟨⟨getElem?_of_drop hdrop, ⟨_, hlook⟩, by rw [h], by rw [h], ?_, ?_, ?_⟩, ?_⟩
  · rw [breaks_broken hlook]
    nofun
  · intro _
    rwa [h, ← Nat.succ_mul]
  · rwa [distance_eq hw htail hdrop, imp_iff_right]
    rw [h]
    exact strchr_space hdrop
  · rw [At, layoutAt_broken hlook, ← Nat.succ_mul, u16_of_lt hrow, Nat.zero_mul]

end Steps

section Runs

variable {b : TextBox}

theorem Follows.append {n : Nat} {slots more : List (Slot UInt8)} (h : Follows b n slots)
    (hmore : Follows b (n + slots.length) more) : Follows b n (slots ++ more) := by
  induction slots generalizing n with
  | nil => exact hmore
  | cons s slots ih =>
    refine ⟨h.1, ih h.2 ?_⟩
    rw [List.length_cons] at hmore
    rwa [Nat.add_right_comm]

theorem At.word {n row col : Nat} (h : At b n row col) {w tail : List UInt8} (hw : space ∉ w)
    (hdrop : b.str.drop n = w ++ tail) (hlt : (col + w.length) * b.xStep < 2 ^ 16) :
    Follows b n (setWord row col w) ∧ At b (n + w.length) row (col + w.length) := by
  induction w generalizing n col with
  | nil => exact ⟨trivial, h⟩
  | cons c w ih =>
    rw [List.mem_cons, not_or] at hw
    rw [List.length_cons, ← Nat.add_assoc, Nat.add_right_comm] at hlt
    have hchar : (col + 1) * b.xStep < 2 ^ 16 :=
      (Nat.mul_le_mul_right _ (Nat.le_add_right _ _)).trans_lt hlt
    obtain ⟨hcell, hnext⟩ := h.char hdrop (Ne.symm hw.1) hchar
    obtain ⟨hrest, hend⟩ := ih hnext hw.2 (drop_succ hdrop) hlt
    rw [List.length_cons, ← Nat.add_assoc, ← Nat.add_assoc, Nat.add_right_comm n,
      Nat.add_right_comm col]
    exact ⟨⟨hcell, hrest⟩, hend⟩

def Narrow (b : TextBox) (w : List UInt8) : Prop :=
  space ∉ w ∧ Fits b w.length ∧ (w.length + 1) * b.xStep < 2 ^ 16

theorem ends_flatMap (ws : List (List UInt8)) : Ends (ws.flatMap fun w => space :: w) := by
  cases ws with
  | nil => exact .inl rfl
  | cons w ws => exact .inr ⟨_, List.flatMap_cons⟩

theorem At.words {n row col : Nat} (h : At b n row col) (hmax : b.maxWidth < 2 ^ 16)
    {ws : List (List UInt8)} (hws : ∀ w ∈ ws, Narrow b w)
    (hdrop : b.str.drop n = ws.flatMap fun w => space :: w)
    (hrow : (endOf (Fits b) row col ws).1 * b.yStep < 2 ^ 16) :
    Follows b n (setWords space (Fits b) row col ws) ∧
      At b (n + (ws.flatMap fun w => space :: w).length) (endOf (Fits b) row col ws).1
        (endOf (Fits b) row col ws).2 := by
  induction ws generalizing n row col with
  | nil => exact ⟨trivial, h⟩
  | cons w ws ih =>
    obtain ⟨hspace, hfitw, hword⟩ := hws w List.mem_cons_self
    have hrest : ∀ v ∈ ws, Narrow b v := fun v hv => hws v (List.mem_cons_of_mem _ hv)
    have htail := ends_flatMap ws
    rw [List.flatMap_cons, List.cons_append] at hdrop
    have hafter := drop_succ hdrop
    have hbehind : b.str.drop (n + 1 + w.length) = ws.flatMap fun w => space :: w := by
      rw [← List.drop_drop, hafter, List.drop_left]
    have hpos : n + (space :: w ++ ws.flatMap fun w => space :: w).length =
        n + 1 + w.length + (ws.flatMap fun w => space :: w).length := by
      rw [List.length_append, List.length_cons]
      omega
    rw [List.flatMap_cons, hpos]
    rw [endOf] at hrow ⊢
    rw [setWords]
    by_cases hfit : Fits b (col + 1 + w.length)
    · rw [if_pos hfit] at hrow ⊢
      rw [if_pos hfit]
      obtain ⟨hcell, hnext⟩ := h.fit hmax hspace htail hdrop hword hfit
      obtain ⟨hset, hend⟩ := hnext.word hspace hafter (lt_of_le_of_lt hfit hmax)
      obtain ⟨hfollow, hlast⟩ := ih hend hrest hbehind hrow
      refine ⟨⟨hcell, hset.append ?_⟩, hlast⟩
      rwa [length_setWord]
    · rw [if_neg hfit] at hrow ⊢
      rw [if_neg hfit]
      have hrow' : (row + 1) * b.yStep < 2 ^ 16 :=
        (Nat.mul_le_mul_right _ (row_le_endOf _ _ _)).trans_lt hrow
      obtain ⟨hcell, hnext⟩ := h.wrap hspace htail hdrop hword hfit hrow'
      obtain ⟨hset, hend⟩ := hnext.word hspace hafter
        (by rw [Nat.zero_add]; exact lt_of_le_of_lt hfitw hmax)
      rw [Nat.zero_add] at hend
      obtain ⟨hfollow, hlast⟩ := ih hend hrest hbehind hrow
      refine ⟨⟨hcell, hset.append ?_⟩, hlast⟩
      rwa [length_setWord]

def textLines (b : TextBox) : List (List UInt8) := wrap space (Fits b) (b.str.splitOn space)

structure Roomy (b : TextBox) : Prop where
  maxWidth : b.maxWidth < 2 ^ 16
  narrow : ∀ w ∈ b.str.splitOn space, Narrow b w
  rows : ((textLines b).length - 1) * b.yStep < 2 ^ 16

def textSlots (b : TextBox) : List (Slot UInt8) := setText space (Fits b) (b.str.splitOn space)

theorem length_textSlots (b : TextBox) : (textSlots b).length = b.str.length := by
  rw [textSlots, length_setText, List.intercalate_splitOn]

/-- The loops set the whole text as the library does, and end behind its last line. -/
theorem Roomy.follows (h : Roomy b) :
    Follows b 0 (textSlots b) ∧
      ∃ col, Fits b col ∧ At b b.str.length ((textLines b).length - 1) col := by
  obtain ⟨w, ws, hsplit⟩ := List.exists_cons_of_ne_nil (List.splitOn_ne_nil space b.str)
  have hstr : b.str = w ++ ws.flatMap fun v => space :: v := by
    rw [← intercalate_cons, ← hsplit, List.intercalate_splitOn]
  have hlast : (textLines b).length - 1 = (endOf (Fits b) 0 w.length ws).1 := by
    have hlen := length_fill space (Fits b) 0 w ws
    rw [textLines, hsplit, wrap]
    omega
  have hnarrow := h.narrow
  rw [hsplit] at hnarrow
  obtain ⟨hspace, hfit, -⟩ := hnarrow w List.mem_cons_self
  have hrest : ∀ v ∈ ws, Narrow b v := fun v hv => hnarrow v (List.mem_cons_of_mem _ hv)
  have hstart : At b 0 0 0 := by
    rw [At, Nat.zero_mul, Nat.zero_mul]
    rfl
  obtain ⟨hword, hbehind⟩ := hstart.word hspace (List.drop_zero.trans hstr)
    (by rw [Nat.zero_add]; exact lt_of_le_of_lt hfit h.maxWidth)
  rw [Nat.zero_add] at hbehind
  have hdrop : b.str.drop w.length = ws.flatMap fun v => space :: v := by
    rw [hstr, List.drop_left]
  obtain ⟨hwords, hend⟩ := hbehind.words h.maxWidth hrest hdrop (hlast ▸ h.rows)
  refine ⟨?_, (endOf (Fits b) 0 w.length ws).2, fits_endOf hfit fun v hv => (hrest v hv).2.1, ?_⟩
  · rw [textSlots, hsplit, setText]
    refine hword.append ?_
    rwa [length_setWord, Nat.zero_add]
  · rw [hlast]
    have hlen := congrArg List.length hstr
    rw [List.length_append] at hlen
    rwa [hlen]

end Runs

section Glyphs

variable {b : TextBox} {n : Nat} {slots : List (Slot UInt8)}

theorem Follows.cell (h : Follows b n slots) {k : Nat} {s : Slot UInt8} (hs : slots[k]? = some s) :
    Cell b (n + k) s := by
  induction slots generalizing n k with
  | nil => cases hs
  | cons t slots ih =>
    cases k with
    | zero =>
      cases hs
      exact h.1
    | succ k =>
      have hcell := ih h.2 hs
      rwa [Nat.add_right_comm] at hcell

def place (b : TextBox) (s : Slot UInt8) : UInt8 × Nat × Nat :=
  (s.char, s.col * b.xStep, s.row * b.yStep)

theorem Follows.glyphs (h : Follows b n slots) (color : UInt32) :
    ((List.range' n slots.length).flatMap (textItems b color)).filterMap (noted glyph) =
      ((slots.filter Slot.drawn).map (place b)).map some := by
  induction slots generalizing n with
  | nil => rfl
  | cons s slots ih =>
    obtain ⟨hchar, ⟨l, hlook⟩, hdx, hdy, -⟩ := h.1
    rw [List.length_cons, List.range'_succ, List.flatMap_cons, List.filterMap_append, ih h.2,
      textItems, cellItems, hlook]
    obtain ⟨c, col, row, _ | _⟩ := s
    · rfl
    · have hc : b.str.getD n 0 = c := by
        rw [List.getD_eq_getElem?_getD, hchar]
        rfl
      rw [hdx, hdy, hc]
      rfl

end Glyphs

theorem Roomy.bounds {b : TextBox} (h : Roomy b) {n : Nat} (hn : n ≤ b.str.length) :
    (layoutAt b n).dx ≤ b.maxWidth ∧
      (layoutAt b n).dy ≤ ((textLines b).length - 1) * b.yStep := by
  obtain ⟨hfollows, col, hcol, hend⟩ := h.follows
  obtain hlt | rfl := hn.lt_or_eq
  · have hslot := List.getElem?_eq_getElem (by rwa [length_textSlots] : n < (textSlots b).length)
    have hcell := hfollows.cell hslot
    rw [Nat.zero_add] at hcell
    have hmono : ∀ {m n : Nat}, m ≤ n → Fits b n → Fits b m := fun hmn hfit =>
      (Nat.mul_le_mul_right _ hmn).trans hfit
    obtain ⟨hrow, hfit⟩ := bounds_setText space hmono (fun w hw => (h.narrow w hw).2.1) _
      (List.mem_of_getElem? hslot)
    rw [hcell.dx, hcell.dy]
    exact ⟨hfit, Nat.mul_le_mul_right _ (Nat.le_sub_one_of_lt hrow)⟩
  · rw [hend]
    exact ⟨hcol, le_rfl⟩

theorem Roomy.drawn {b : TextBox} (h : Roomy b) (color : UInt32) :
    ∃ calls, each (defined record) ((List.range b.str.length).flatMap (textItems b color)) [] =
        some (calls, false) ∧
      calls.filterMap glyph = (setLines 0 (textLines b)).map (place b) := by
  have hfollows := h.follows.1
  have hnone : none ∉ (List.range b.str.length).flatMap (textItems b color) := by
    simp only [List.mem_flatMap, List.mem_range, not_exists, not_and]
    intro n hn
    rw [← length_textSlots] at hn
    obtain ⟨l, hlook⟩ := (hfollows.cell (List.getElem?_eq_getElem hn)).look
    rw [Nat.zero_add] at hlook
    exact none_notMem_cellItems ⟨_, hlook⟩
  obtain ⟨calls, hcalls⟩ := exists_map_some hnone
  have hrun : each (defined record) (calls.map some) [] = some (calls, false) := by
    rw [each_defined_map, each_record, List.nil_append]
  have hnoted := each_noted glyph (calls.map some) []
  rw [hrun, ← hcalls, List.range_eq_range', ← length_textSlots, hfollows.glyphs color, textSlots,
    drawn_setText, each_defined_map, each_record] at hnoted
  refine ⟨calls, by rw [hcalls, hrun], ?_⟩
  exact congrArg Prod.fst (Option.some.inj hnoted)

def fontBox (str : List UInt8) (maxWidth : UInt16) (p : UInt8) : TextBox :=
  ⟨str, maxWidth.toNat, ⟨5 * p.toNat, 7 * p.toNat, p.toNat⟩⟩

theorem fontBox_xStep (str : List UInt8) (maxWidth : UInt16) (p : UInt8) :
    (fontBox str maxWidth p).xStep = 6 * p.toNat := by
  have hp := p.toNat_lt
  have hsum : 5 * p.toNat + p.toNat = 6 * p.toNat := (Nat.succ_mul 5 p.toNat).symm
  rw [TextBox.xStep, fontBox, hsum, u16_of_lt (by omega)]

theorem fontBox_yStep (str : List UInt8) (maxWidth : UInt16) (p : UInt8) :
    (fontBox str maxWidth p).yStep = 10 * p.toNat := by
  have hp := p.toNat_lt
  have hsum : 7 * p.toNat + 3 * p.toNat = 10 * p.toNat := (Nat.add_mul 7 3 p.toNat).symm
  rw [TextBox.yStep, fontBox, hsum, u16_of_lt (by omega)]

/-- Words that fit are set on lines that fit: the lines make up the text, none is broken before a
word that would have fitted, and no number of the loop exceeds its type. -/
theorem wrapped_text_fits (str : List UInt8) (maxWidth : UInt16) (p : UInt8)
    (hwords : ∀ w ∈ str.splitOn space, w.length * (6 * p.toNat) ≤ maxWidth.toNat ∧
      (w.length + 1) * (6 * p.toNat) ≤ 65535)
    (hheight : ((textLines (fontBox str maxWidth p)).length - 1) * (10 * p.toNat) < 65536)
    (x y : UInt16) (color : UInt32) :
    let b := fontBox str maxWidth p
    let lines := textLines b
    (∃ calls, drawText (fun _ _ _ => record) x y maxWidth str color b.size [] =
        some (calls, false) ∧
      calls.filterMap glyph = (setLines 0 lines).map fun s =>
        (s.char, s.col * (6 * p.toNat), s.row * (10 * p.toNat))) ∧
      [space].intercalate lines = str ∧
      (∀ l ∈ lines, l.length * (6 * p.toNat) ≤ maxWidth.toNat) ∧
      lines.IsChain (fun l l' =>
        maxWidth.toNat < (l.length + 1 + (firstWord space l').length) * (6 * p.toNat)) ∧
      ∀ n < str.length, NoWrap b n := by
  have hx := fontBox_xStep str maxWidth p
  have hy := fontBox_yStep str maxWidth p
  have hspace : ∀ w ∈ str.splitOn space, space ∉ w := fun w hw => notMem_of_mem_splitOn hw
  have hfits : ∀ w ∈ str.splitOn space, Fits (fontBox str maxWidth p) w.length := by
    intro w hw
    rw [Fits, hx]
    exact (hwords w hw).1
  have hroomy : Roomy (fontBox str maxWidth p) := by
    refine ⟨maxWidth.toNat_lt, fun w hw => ⟨hspace w hw, hfits w hw, ?_⟩, ?_⟩
    · rw [hx]
      exact Nat.lt_succ_of_le (hwords w hw).2
    · rw [hy]
      exact hheight
  refine ⟨?_, ?_, ?_, ?_, ?_⟩
  · obtain ⟨calls, hcalls, hglyph⟩ := hroomy.drawn color
    refine ⟨calls, (drawText_eq x y maxWidth str color _ []).trans hcalls, ?_⟩
    rw [hglyph]
    unfold place
    rw [hx, hy]
  · rw [textLines, intercalate_wrap]
    exact List.intercalate_splitOn space
  · intro l hl
    have hfit := fits_wrap space (Fits (fontBox str maxWidth p)) hfits l hl
    rwa [Fits, hx] at hfit
  · refine (greedy_wrap space (Fits (fontBox str maxWidth p)) hspace).imp fun l l' hfit => ?_
    rw [Fits, hx] at hfit
    exact Nat.lt_of_not_le hfit
  · intro n hn
    have hcell := hroomy.follows.1.cell (List.getElem?_eq_getElem (by rwa [length_textSlots]))
    rw [Nat.zero_add] at hcell
    exact hcell.noWrap

theorem wrapped_text_fits_letters : ∃ calls,
    drawText (fun _ _ _ => record) 9 9 13 [97, 32, 98] 7 ⟨5, 7, 1⟩ [] = some (calls, false) ∧
      calls.filterMap glyph = [(97, 0, 0), (98, 0, 10)] :=
  (wrapped_text_fits [97, 32, 98] 13 1 (by decide) (by decide) 9 9 7).1

end WriteWise.WordLines
