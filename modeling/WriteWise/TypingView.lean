import WriteWise.TextLayout

namespace WriteWise.TypingView

open Library.Loops Typing Graphics Video Text DrawText TextLayout

def glyph (call : DrawCall) : Option (UInt8 × Nat × Nat) :=
  match call.shape with
  | .char c => some (c, call.dx, call.dy)
  | _ => none

def cursorMark (call : DrawCall) : Option (Nat × Nat) :=
  if call.shape = .cursor then some (call.dx, call.dy) else none

section Notes

variable {ι κ : Type}

theorem each_record (xs calls : List ι) : each record xs calls = some (calls ++ xs, false) := by
  induction xs generalizing calls with
  | nil => rw [each_nil, List.append_nil]
  | cons x xs ih =>
    rw [each_cons, record, proceed_done, ih, List.append_assoc]
    rfl

/-- What is noted of an item, where there is nothing to note of some. -/
def noted (f : ι → Option κ) : Option ι → Option (Option κ)
  | none => some none
  | some x => (f x).map some

theorem each_noted (f : ι → Option κ) (items : List (Option ι)) (calls : List ι) :
    (each (defined record) items calls).map (fun r => (r.1.filterMap f, r.2)) =
      each (defined record) (items.filterMap (noted f)) (calls.filterMap f) := by
  induction items generalizing calls with
  | nil => rfl
  | cons item items ih =>
    cases item with
    | none => rfl
    | some x =>
      have hcalls : (calls ++ [x]).filterMap f = calls.filterMap f ++ (f x).toList := by
        rw [List.filterMap_append]
        cases hx : f x <;> simp [hx]
      rw [each_cons, defined, record, proceed_done, ih, hcalls]
      cases hx : f x with
      | none => simp [noted, hx]
      | some y => simp [noted, hx, each_cons, defined, record]

theorem each_record_eq_some {items : List (Option ι)} {earlier calls : List ι} {failed : Bool}
    (h : each (defined record) items earlier = some (calls, failed)) :
    failed = false ∧ ∃ xs, calls = earlier ++ xs ∧ items = xs.map some := by
  induction items generalizing earlier with
  | nil =>
    cases h
    exact ⟨rfl, [], (List.append_nil _).symm, rfl⟩
  | cons item items ih =>
    cases item with
    | none => cases h
    | some x =>
      obtain ⟨hf, xs, rfl, rfl⟩ := ih h
      exact ⟨hf, x :: xs, by rw [List.append_assoc]; rfl, rfl⟩

end Notes

section Items

variable {κ : Type} {b : TextBox} {typed : List UInt8} {cursor : Nat}
  {rightColor wrongColor unwrittenColor : UInt32}

theorem filterMap_viewItems (f : Option DrawCall → Option κ) {note : Nat → List κ} {rest : List κ}
    (hlen : typed.length ≤ b.str.length)
    (htyped : ∀ n, (typedItems b typed cursor rightColor wrongColor n).filterMap f = note n)
    (hunwritten : ∀ n, (unwrittenItems b cursor rightColor unwrittenColor n).filterMap f = note n)
    (hrest : (cursorItems b cursor rightColor b.str.length).filterMap f = rest) :
    (viewItems b typed cursor rightColor wrongColor unwrittenColor).filterMap f =
      (List.range b.str.length).flatMap note ++ rest := by
  have hsplit : List.range b.str.length =
      List.range typed.length ++ List.range' typed.length (b.str.length - typed.length) := by
    obtain ⟨k, hk⟩ := Nat.exists_eq_add_of_le hlen
    rw [hk, Nat.add_sub_cancel_left, List.range_add, List.range'_eq_map_range]
  rw [viewItems, List.filterMap_append, List.filterMap_append, List.filterMap_flatMap,
    List.filterMap_flatMap, hsplit, List.flatMap_append, List.append_assoc, hrest]
  simp only [htyped, hunwritten]

theorem filterMap_cellItems (f : DrawCall → Option κ) (n : Nat) {calls calls' : List DrawCall}
    (h : calls.filterMap f = calls'.filterMap f) :
    (cellItems b n calls).filterMap (noted f) = (cellItems b n calls').filterMap (noted f) := by
  have hmap : ∀ calls : List DrawCall,
      (calls.map some).filterMap (noted f) = (calls.filterMap f).map some := by
    intro calls
    rw [List.filterMap_map, List.map_filterMap]
    rfl
  unfold cellItems
  split
  · rfl
  · rfl
  · rw [hmap, hmap, h]

theorem glyph_cursorItems (n : Nat) :
    (cursorItems b cursor rightColor n).filterMap (noted glyph) = [] := by
  unfold cursorItems
  split
  · rfl
  · rfl

theorem glyph_typedItems (n : Nat) (color : UInt32) :
    (typedItems b typed cursor rightColor wrongColor n).filterMap (noted glyph) =
      (textItems b color n).filterMap (noted glyph) := by
  rw [typedItems, List.filterMap_append, glyph_cursorItems, List.nil_append]
  refine filterMap_cellItems glyph n ?_
  by_cases hwrong : wrongBefore b typed (n + 1) = true
  · rw [if_pos hwrong]
    rfl
  · rw [if_neg hwrong]
    rfl

theorem glyph_unwrittenItems (n : Nat) (color : UInt32) :
    (unwrittenItems b cursor rightColor unwrittenColor n).filterMap (noted glyph) =
      (textItems b color n).filterMap (noted glyph) := by
  rw [unwrittenItems, List.filterMap_append, glyph_cursorItems, List.nil_append]
  exact filterMap_cellItems glyph n rfl

theorem mark_cursorItems (n : Nat) :
    (cursorItems b cursor rightColor n).filterMap (·.bind cursorMark) =
      if cursor = n then [((layoutAt b n).dx, (layoutAt b n).dy)] else [] := by
  unfold cursorItems
  split
  · rfl
  · rfl

theorem mark_cellItems (n : Nat) {calls : List DrawCall} (h : calls.filterMap cursorMark = []) :
    (cellItems b n calls).filterMap (·.bind cursorMark) = [] := by
  unfold cellItems
  split
  · rfl
  · rfl
  · rw [List.filterMap_map]
    exact h

theorem mark_typedItems (n : Nat) :
    (typedItems b typed cursor rightColor wrongColor n).filterMap (·.bind cursorMark) =
      if cursor = n then [((layoutAt b n).dx, (layoutAt b n).dy)] else [] := by
  rw [typedItems, List.filterMap_append, mark_cursorItems, mark_cellItems, List.append_nil]
  by_cases hwrong : wrongBefore b typed (n + 1) = true
  · rw [if_pos hwrong]
    rfl
  · rw [if_neg hwrong]
    rfl

theorem mark_unwrittenItems (n : Nat) :
    (unwrittenItems b cursor rightColor unwrittenColor n).filterMap (·.bind cursorMark) =
      if cursor = n then [((layoutAt b n).dx, (layoutAt b n).dy)] else [] := by
  rw [unwrittenItems, List.filterMap_append, mark_cursorItems, textItems, mark_cellItems,
    List.append_nil]
  rfl

theorem flatMap_ite (f : Nat → κ) (c n : Nat) :
    ((List.range n).flatMap fun i => if c = i then [f i] else []) = if c < n then [f c] else [] := by
  induction n with
  | zero => rfl
  | succ n ih =>
    rw [List.range_succ, List.flatMap_append, ih, List.flatMap_singleton]
    obtain hlt | rfl | hgt := Nat.lt_trichotomy c n
    · rw [if_pos hlt, if_neg hlt.ne, if_pos (by omega)]
      rfl
    · rw [if_neg (lt_irrefl c), if_pos rfl, if_pos (Nat.lt_succ_self c)]
      rfl
    · rw [if_neg (by omega), if_neg (by omega), if_neg (by omega)]
      rfl

theorem mark_viewItems (hlen : typed.length ≤ b.str.length) (hcursor : cursor ≤ b.str.length) :
    (viewItems b typed cursor rightColor wrongColor unwrittenColor).filterMap (·.bind cursorMark) =
      [((layoutAt b cursor).dx, (layoutAt b cursor).dy)] := by
  rw [filterMap_viewItems _ hlen mark_typedItems mark_unwrittenItems (mark_cursorItems _),
    flatMap_ite (fun n => ((layoutAt b n).dx, (layoutAt b n).dy))]
  obtain hlt | rfl := hcursor.lt_or_eq
  · rw [if_pos hlt, if_neg hlt.ne]
    rfl
  · rw [if_neg (lt_irrefl _), if_pos rfl]
    rfl

theorem none_notMem_cellItems {n : Nat} {calls : List DrawCall}
    (h : ∃ r, b.look n (layoutAt b n) = some r) : none ∉ cellItems b n calls := by
  obtain ⟨⟨l, broken⟩, hlook⟩ := h
  unfold cellItems
  rw [hlook]
  cases broken <;> simp

theorem none_notMem_cursorItems (n : Nat) : none ∉ cursorItems b cursor rightColor n := by
  unfold cursorItems
  split
  · simp
  · exact List.not_mem_nil

theorem none_notMem_viewItems (h : ∀ n, ∃ r, b.look n (layoutAt b n) = some r) :
    none ∉ viewItems b typed cursor rightColor wrongColor unwrittenColor := by
  simp only [viewItems, typedItems, unwrittenItems, textItems, List.mem_append, List.mem_flatMap,
    not_or, not_exists, not_and]
  exact ⟨fun n _ => ⟨none_notMem_cursorItems n, none_notMem_cellItems (h n)⟩,
    fun n _ => ⟨none_notMem_cursorItems n, none_notMem_cellItems (h n)⟩,
    none_notMem_cursorItems _⟩

theorem exists_map_some {ι : Type} {items : List (Option ι)} (h : none ∉ items) :
    ∃ xs : List ι, items = xs.map some := by
  induction items with
  | nil => exact ⟨[], rfl⟩
  | cons item items ih =>
    rw [List.mem_cons, not_or] at h
    obtain ⟨x, rfl⟩ := Option.ne_none_iff_exists'.mp (Ne.symm h.1)
    obtain ⟨xs, rfl⟩ := ih h.2
    exact ⟨x :: xs, rfl⟩

end Items

/-- The view draws the characters of the text where the plain renderer draws them, whatever has
been typed, and marks the cell of the cursor once. Both are undefined if the width of a word is not
an `int`, and neither is if that of the text is one. -/
theorem view_draws_like_text {t : TypingInfo} {g typed : List UInt8} (hv : View t g typed)
    (hlen : g.length < 2 ^ 16) (currentMode : MinixMode) (m : ModeInfo) (cx cy maxWidth : ℚ)
    (color rightColor wrongColor unwrittenColor : UInt32) (size : FontSize) {fuel : Nat}
    (hfuel : g.length < fuel) :
    let b := textBox currentMode cx cy maxWidth g size
    let view := drawTypingTest (fun _ _ _ => record) currentMode m t cx cy maxWidth rightColor
      wrongColor unwrittenColor size fuel []
    let text := drawTextColor (fun _ _ _ => record) currentMode m cx cy maxWidth g color size []
    view.map (fun r => (r.1.filterMap glyph, r.2)) =
        text.map (fun r => (r.1.filterMap glyph, r.2)) ∧
      (∀ calls failed, view = some (calls, failed) → failed = false ∧
        calls.filterMap cursorMark =
          [((layoutAt b t.typingCursor).dx, (layoutAt b t.typingCursor).dy)]) ∧
      (g.length * b.xStep < intBound → ∃ calls, view = some (calls, false)) := by
  rcases hplace : placeText currentMode cx cy maxWidth g size with ⟨x, y, maxW⟩
  have hbox : textBox currentMode cx cy maxWidth g size = ⟨g, maxW.toNat, size⟩ := by
    rw [textBox, hplace]
  simp only
  rw [hbox, drawTypingTest_eq currentMode m hv hlen cx cy maxWidth rightColor wrongColor
    unwrittenColor size hfuel [] hplace, drawTextColor_eq currentMode m cx cy maxWidth color size []
    hplace]
  refine ⟨?_, fun calls failed h => ?_, fun h => ?_⟩
  · rw [each_noted, each_noted, List.filterMap_flatMap, filterMap_viewItems (noted glyph) hv.length
      (fun n => glyph_typedItems n (filteredColor currentMode m color))
      (fun n => glyph_unwrittenItems n (filteredColor currentMode m color)) (glyph_cursorItems _),
      List.append_nil]
  · obtain ⟨rfl, xs, rfl, hxs⟩ := each_record_eq_some h
    refine ⟨rfl, ?_⟩
    have hmark := @mark_viewItems ⟨g, maxW.toNat, size⟩ typed t.typingCursor
      (filteredColor currentMode m rightColor) (filteredColor currentMode m wrongColor)
      (filteredColor currentMode m unwrittenColor) hv.length (hv.cursor ▸ hv.length)
    rw [hxs, List.filterMap_map] at hmark
    exact hmark
  · obtain ⟨xs, hxs⟩ := exists_map_some (none_notMem_viewItems fun n =>
      @look_defined ⟨g, maxW.toNat, size⟩ h n _)
    exact ⟨xs, by rw [hxs, each_defined_map, each_record]; rfl⟩

def halfTyped : TypingInfo where
  generatedText := some [97, 32, 98, 0]
  typedText := some [120, 0, 0, 0]
  typingCursor := 1

theorem view_draws_like_text_half :
    ∃ calls, drawTypingTest (fun _ _ _ => record) .vbe480pDc {} halfTyped (1 / 2) (2 / 5) (1 / 50) 1
      2 3 ⟨5, 7, 1⟩ 4 [] = some (calls, false) :=
  (@view_draws_like_text halfTyped [97, 32, 98] [120]
    ⟨rfl, by decide, ⟨[0, 0], rfl⟩, by decide, by decide, rfl⟩ (by decide) .vbe480pDc {} (1 / 2)
    (2 / 5) (1 / 50) 0 1 2 3 ⟨5, 7, 1⟩ 4 (by decide)).2.2 (by decide)

end WriteWise.TypingView
