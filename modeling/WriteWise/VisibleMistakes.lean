import WriteWise.TypingView

namespace WriteWise.VisibleMistakes

open Library.Loops Library.Runs Typing TypingSession Program RunInvariant TestEnd Graphics Video Text
  DrawText TextLayout TypingView

def Mistyped (t : TypingInfo) (i : Nat) : Prop :=
  i < t.typingCursor ∧ peek t.typedText i ≠ peek t.generatedText i

def FirstMistake (t : TypingInfo) (i : Nat) : Prop := Mistyped t i ∧ ∀ j < i, ¬ Mistyped t j

def Drawn (calls : List DrawCall) (i : Nat) : Prop :=
  ∃ call ∈ calls, call.index = i ∧ (glyph call).isSome

def Underlined (wrongColor : UInt32) (calls : List DrawCall) (i : Nat) : Prop :=
  ∃ call ∈ calls, call.index = i ∧ call.shape = .underline ∧ call.color = wrongColor

/-- From the first mistake on, all that is drawn of the typed text is underlined. -/
structure MistakesVisible (t : TypingInfo) (wrongColor : UInt32) (calls : List DrawCall) :
    Prop where
  underlined : ∀ i < t.typingCursor, Drawn calls i →
    (Underlined wrongColor calls i ↔ ∃ j ≤ i, Mistyped t j)
  wrongChars : 0 < t.wrongChars → ∃ j, FirstMistake t j ∧
    ((∃ i, j < i ∧ i < t.typingCursor ∧ Drawn calls i) → ∃ i, Underlined wrongColor calls i)

/-- If the line is broken at the first mistake, the character that is drawn next, if it has been
typed, is a mistake too. -/
def NextMistyped (b : TextBox) (t : TypingInfo) : Prop :=
  ∀ j, FirstMistake t j → breaks b j = true → ∀ i, j < i → i < t.typingCursor →
    breaks b i = false → (∀ k, j < k → k < i → breaks b k = true) → Mistyped t i

section Sticky

variable {P B : Nat → Prop}

theorem exists_first {i : Nat} (h : P i) : ∃ j ≤ i, P j ∧ ∀ k < j, ¬ P k := by
  classical
  have hex : ∃ j, P j := ⟨i, h⟩
  exact ⟨Nat.find hex, Nat.find_le h, Nat.find_spec hex, fun k hk => Nat.find_min hex hk⟩

/-- A flag that misses what happens at some positions is right at the others exactly if what
happens first is not missed, or happens again at the next of the others. -/
theorem sticky_iff {n : Nat} :
    (∀ i < n, ¬ B i → ((∃ j ≤ i, ¬ B j ∧ P j) ↔ ∃ j ≤ i, P j)) ↔
      ∀ j, (P j ∧ ∀ k < j, ¬ P k) → B j → ∀ i, j < i → i < n → ¬ B i →
        (∀ k, j < k → k < i → B k) → P i := by
  constructor
  · rintro hflag j ⟨hj, hfirst⟩ hbreak i hji hi hBi hbetween
    obtain ⟨k, hk, hBk, hPk⟩ := (hflag i hi hBi).mpr ⟨j, hji.le, hj⟩
    obtain hkj | rfl | hjk := Nat.lt_trichotomy k j
    · exact absurd hPk (hfirst k hkj)
    · exact absurd hbreak hBk
    · obtain rfl | hki := hk.eq_or_lt
      · exact hPk
      · exact absurd (hbetween k hjk hki) hBk
  · intro hnext i hi hBi
    refine ⟨fun ⟨j, hj, _, hPj⟩ => ⟨j, hj, hPj⟩, ?_⟩
    rintro ⟨i', hi', hPi'⟩
    obtain ⟨j, hj, hPj, hfirst⟩ := exists_first hPi'
    by_cases hBj : B j
    · have hji : j < i := by
        refine (hj.trans hi').lt_of_ne ?_
        rintro rfl
        exact hBi hBj
      obtain ⟨k, hk, ⟨hjk, hBk⟩, hmin⟩ := @exists_first (fun k => j < k ∧ ¬ B k) i ⟨hji, hBi⟩
      refine ⟨k, hk, hBk, hnext j ⟨hPj, hfirst⟩ hBj k hjk (hk.trans_lt hi) hBk fun l hjl hlk => ?_⟩
      by_contra hBl
      exact hmin l hlk ⟨hjl, hBl⟩
    · exact ⟨j, hj.trans hi', hBj, hPj⟩

end Sticky

section Calls

variable {b : TextBox} {typed : List UInt8} {cursor : Nat}
  {rightColor wrongColor unwrittenColor : UInt32} {calls : List DrawCall}

theorem mem_cellItems {n : Nat} {call : DrawCall} :
    some call ∈ cellItems b n calls ↔
      (∃ l, b.look n (layoutAt b n) = some (l, false)) ∧ call ∈ calls := by
  unfold cellItems
  split
  · rename_i h
    simp [h]
  · rename_i h
    simp [h]
  · rename_i l h
    simp [h]

theorem mem_cursorItems {color : UInt32} {n : Nat} {call : DrawCall}
    (h : some call ∈ cursorItems b cursor color n) : call.index = n ∧ call.shape = .cursor := by
  unfold cursorItems at h
  split at h
  · cases List.mem_singleton.mp h
    exact ⟨rfl, rfl⟩
  · cases h

theorem mem_typedItems {n : Nat} {call : DrawCall} :
    some call ∈ typedItems b typed cursor rightColor wrongColor n ↔
      some call ∈ cursorItems b cursor rightColor n ∨
      (∃ l, b.look n (layoutAt b n) = some (l, false)) ∧
        (call = ⟨n, (layoutAt b n).dx, (layoutAt b n).dy, .char (b.str.getD n 0),
            if typed[n]? = b.str[n]? then rightColor else wrongColor⟩ ∨
          wrongBefore b typed (n + 1) = true ∧
            call = ⟨n, (layoutAt b n).dx, (layoutAt b n).dy, .underline, wrongColor⟩) := by
  rw [typedItems, List.mem_append, mem_cellItems, List.mem_cons]
  by_cases hwrong : wrongBefore b typed (n + 1) = true
  · rw [if_pos hwrong, List.mem_singleton]
    simp only [hwrong, true_and]
  · rw [if_neg hwrong]
    simp only [hwrong, List.not_mem_nil, Bool.false_eq_true, false_and]

theorem index_typedItems {n : Nat} {call : DrawCall}
    (h : some call ∈ typedItems b typed cursor rightColor wrongColor n) : call.index = n := by
  obtain hcursor | ⟨-, rfl | ⟨-, rfl⟩⟩ := mem_typedItems.mp h
  · exact (mem_cursorItems hcursor).1
  · rfl
  · rfl

theorem index_unwrittenItems {n : Nat} {call : DrawCall}
    (h : some call ∈ unwrittenItems b cursor rightColor unwrittenColor n) : call.index = n := by
  rw [unwrittenItems, List.mem_append, textItems, mem_cellItems, List.mem_singleton] at h
  obtain hcursor | ⟨-, rfl⟩ := h
  · exact (mem_cursorItems hcursor).1
  · rfl

theorem mem_calls_iff
    (h : viewItems b typed cursor rightColor wrongColor unwrittenColor = calls.map some) {i : Nat}
    (hi : i < typed.length) (hle : typed.length ≤ b.str.length) {call : DrawCall} :
    call ∈ calls ∧ call.index = i ↔
      some call ∈ typedItems b typed cursor rightColor wrongColor i := by
  have hmem : call ∈ calls ↔
      some call ∈ viewItems b typed cursor rightColor wrongColor unwrittenColor := by
    rw [h, List.mem_map_of_injective (Option.some_injective _)]
  rw [hmem, viewItems, List.mem_append, List.mem_append, List.mem_flatMap, List.mem_flatMap]
  constructor
  · rintro ⟨⟨n, -, hn⟩ | ⟨n, hrange, hn⟩ | hend, rfl⟩
    · rwa [index_typedItems hn]
    · rw [index_unwrittenItems hn] at hi
      have hge := (List.mem_range'_1.mp hrange).1
      omega
    · rw [(mem_cursorItems hend).1] at hi
      omega
  · intro hn
    exact ⟨.inl ⟨i, List.mem_range.mpr hi, hn⟩, index_typedItems hn⟩

theorem drawn_iff
    (h : viewItems b typed cursor rightColor wrongColor unwrittenColor = calls.map some) {i : Nat}
    (hi : i < typed.length) (hle : typed.length ≤ b.str.length) :
    Drawn calls i ↔ ∃ l, b.look i (layoutAt b i) = some (l, false) := by
  constructor
  · rintro ⟨call, hcall, hindex, hglyph⟩
    obtain hcursor | ⟨hlook, -⟩ := mem_typedItems.mp ((mem_calls_iff h hi hle).mp ⟨hcall, hindex⟩)
    · rw [glyph, (mem_cursorItems hcursor).2] at hglyph
      cases hglyph
    · exact hlook
  · intro hlook
    obtain ⟨hcall, hindex⟩ := (mem_calls_iff h hi hle).mpr
      (mem_typedItems.mpr (.inr ⟨hlook, .inl rfl⟩))
    exact ⟨_, hcall, hindex, rfl⟩

/-- In a call that completes, every typed character is drawn that the line is not broken at. -/
theorem drawn_iff_breaks
    (h : viewItems b typed cursor rightColor wrongColor unwrittenColor = calls.map some) {i : Nat}
    (hi : i < typed.length) (hle : typed.length ≤ b.str.length) :
    Drawn calls i ↔ ¬ breaks b i = true := by
  rw [drawn_iff h hi hle]
  rcases hlook : b.look i (layoutAt b i) with _ | ⟨l, _ | _⟩
  · have hcell : none ∈ typedItems b typed cursor rightColor wrongColor i := by
      rw [typedItems, cellItems, hlook]
      simp
    have hnone : none ∈ calls.map some := by
      rw [← h, viewItems, List.mem_append, List.mem_flatMap]
      exact .inl ⟨i, List.mem_range.mpr hi, hcell⟩
    obtain ⟨call, -, hcall⟩ := List.mem_map.mp hnone
    cases hcall
  · rw [breaks_drawn hlook]
    exact ⟨fun _ => Bool.false_ne_true, fun _ => ⟨l, rfl⟩⟩
  · rw [breaks_broken hlook]
    refine ⟨?_, fun hne => absurd rfl hne⟩
    rintro ⟨l, hl⟩
    cases hl

theorem underlined_iff
    (h : viewItems b typed cursor rightColor wrongColor unwrittenColor = calls.map some) {i : Nat}
    (hi : i < typed.length) (hle : typed.length ≤ b.str.length) :
    Underlined wrongColor calls i ↔
      (∃ l, b.look i (layoutAt b i) = some (l, false)) ∧ wrongBefore b typed (i + 1) = true := by
  constructor
  · rintro ⟨call, hcall, hindex, hshape, -⟩
    obtain hcursor | ⟨hlook, rfl | ⟨hwrong, -⟩⟩ :=
      mem_typedItems.mp ((mem_calls_iff h hi hle).mp ⟨hcall, hindex⟩)
    · rw [(mem_cursorItems hcursor).2] at hshape
      cases hshape
    · cases hshape
    · exact ⟨hlook, hwrong⟩
  · rintro ⟨hlook, hwrong⟩
    obtain ⟨hcall, hindex⟩ := (mem_calls_iff h hi hle).mpr
      (mem_typedItems.mpr (.inr ⟨hlook, .inr ⟨hwrong, rfl⟩⟩))
    exact ⟨_, hcall, hindex, rfl, rfl⟩

theorem wrongBefore_iff (n : Nat) :
    wrongBefore b typed n = true ↔ ∃ j < n, ¬ breaks b j = true ∧ typed[j]? ≠ b.str[j]? := by
  simp [wrongBefore]

end Calls

section Reachable

variable {t : TypingInfo} {g typed : List UInt8}

theorem mistyped_iff (hv : View t g typed) {i : Nat} :
    Mistyped t i ↔ i < typed.length ∧ typed[i]? ≠ g[i]? := by
  rw [Mistyped, hv.cursor]
  refine and_congr_right fun hi => ?_
  have hg : i < g.length := hi.trans_le hv.length
  rw [(hv.peek_typed hi).1, (hv.peek_generated hg).1, List.getElem?_eq_getElem hi,
    List.getElem?_eq_getElem hg]

theorem underlined_all_iff (hv : View t g typed) {b : TextBox} (hb : b.str = g)
    {rightColor wrongColor unwrittenColor : UInt32} {calls : List DrawCall}
    (h : viewItems b typed t.typingCursor rightColor wrongColor unwrittenColor = calls.map some) :
    (∀ i < t.typingCursor, Drawn calls i →
      (Underlined wrongColor calls i ↔ ∃ j ≤ i, Mistyped t j)) ↔ NextMistyped b t := by
  subst hb
  have hunder : ∀ i < t.typingCursor, Drawn calls i →
      (Underlined wrongColor calls i ↔ ∃ j ≤ i, ¬ breaks b j = true ∧ Mistyped t j) := by
    intro i hi hdraw
    rw [hv.cursor] at hi
    rw [underlined_iff h hi hv.length, wrongBefore_iff]
    simp only [(drawn_iff h hi hv.length).mp hdraw, true_and, mistyped_iff hv, Nat.lt_succ_iff]
    refine exists_congr fun j => and_congr_right fun hj => and_congr_right fun _ => ?_
    simp only [hj.trans_lt hi, true_and]
  unfold NextMistyped FirstMistake
  simp only [← Bool.not_eq_true]
  rw [← sticky_iff]
  refine forall_congr' fun i => forall_congr' fun hi => ?_
  have hdrawn := drawn_iff_breaks h (hv.cursor ▸ hi) hv.length
  constructor
  · intro hvis hB
    rw [← hunder i hi (hdrawn.mpr hB)]
    exact hvis (hdrawn.mpr hB)
  · intro hvis hdraw
    rw [hunder i hi hdraw]
    exact hvis (hdrawn.mp hdraw)

theorem exists_firstMistake {s : List UInt8} {m : List Bool} (hsess : Session t g s m)
    (hpos : 0 < t.wrongChars) : ∃ j, FirstMistake t j := by
  have hex : ∃ i, Mistyped t i := by
    by_contra hnone
    rw [hsess.wrong, wrongBelow, Nat.pos_iff_ne_zero, Ne, Nat.count_iff_forall_not] at hpos
    refine hpos fun i hi hne => hnone ⟨i, hi, ?_⟩
    rw [peek_some hsess.typed, peek_some hsess.generated, List.getElem?_append_left]
    · exact hne
    · exact hi.trans_le hsess.cursor
  obtain ⟨i, hi⟩ := hex
  obtain ⟨j, -, hj⟩ := exists_first hi
  exact ⟨j, hj⟩

end Reachable

/-- In every reachable state of a test, a call that completes shows the mistakes exactly if, where
the first of them is at a line break, the next character that is drawn is mistyped too. -/
theorem mistakes_visible_iff {random : UInt32 → Nat → Nat} {dictionary : List Word}
    {es : List Event} {app : App} (hr : run (step random) (initial dictionary) es = some app)
    (hs : app.typingInfo.status ≠ .unready) {g : List UInt8}
    (hg : app.typingInfo.generatedText.map cString = some g) (currentMode : MinixMode)
    (m : ModeInfo) (cx cy maxWidth : ℚ) (rightColor wrongColor unwrittenColor : UInt32)
    (size : FontSize) (fuel : Nat) (calls : List DrawCall)
    (h : drawTypingTest (fun _ _ _ => record) currentMode m app.typingInfo cx cy maxWidth rightColor
      wrongColor unwrittenColor size fuel [] = some (calls, false)) :
    MistakesVisible app.typingInfo (filteredColor currentMode m wrongColor) calls ↔
      NextMistyped (textBox currentMode cx cy maxWidth g size) app.typingInfo := by
  obtain ⟨g', s, marks, hsess⟩ := reachable_session hr hs
  obtain rfl : g' = g := Option.some.inj ((cString_generated hsess).symm.trans hg)
  rcases hplace : placeText currentMode cx cy maxWidth g' size with ⟨x, y, maxW⟩
  have hbox : textBox currentMode cx cy maxWidth g' size = ⟨g', maxW.toNat, size⟩ := by
    rw [textBox, hplace]
  have hview := View.of_session hsess
  obtain ⟨-, xs, rfl, hitems⟩ := each_record_eq_some (drawTypingTest_done currentMode m hview cx cy
    maxWidth rightColor wrongColor unwrittenColor size fuel hplace h)
  have hiff := underlined_all_iff hview rfl hitems
  rw [hbox, ← hiff]
  refine ⟨fun hvis => hvis.underlined, fun hunder => ⟨hunder, fun hpos => ?_⟩⟩
  obtain ⟨j, hj⟩ := exists_firstMistake hsess hpos
  refine ⟨j, hj, ?_⟩
  rintro ⟨i, hji, hi, hdraw⟩
  exact ⟨i, (hunder i hi hdraw).mpr ⟨j, hji.le, hj.1⟩⟩

def startMode : ModeInfo where
  xResolution := 800
  yResolution := 600
  bitsPerPixel := 24
  redMaskSize := 8
  redFieldPosition := 16
  greenMaskSize := 8
  greenFieldPosition := 8
  blueMaskSize := 8

/-- The first word fills a line up to where the second one would not fit. -/
def longAndShort : List Word := [⟨List.replicate 27 97, by decide⟩, ⟨[97], letter_noZero⟩]

def longWordsFirst : UInt32 → Nat → Nat := fun _ i => if i < 2 then 0 else 1600000000

def longWordKeys (more : List UInt8) : List Event :=
  [.mousePress 1, .click .mainTraining 5] ++
    (List.replicate 27 0x1E ++ more).map fun b => .keyboard (some b) 6

def afterLongWord (more : List UInt8) : App :=
  (run (step longWordsFirst) (initial longAndShort) (longWordKeys more)).getD {}

def drawnAfterLongWord (more : List UInt8) : List DrawCall :=
  ((drawTypingTest (fun _ _ _ => record) .vbe600pDc startMode (afterLongWord more).typingInfo
    (1 / 2) (2 / 5) (4 / 5) 0xFFFFFF 0xFF4040 0x505050 (getFontSize .vbe600pDc .medium) 200
    []).getD ([], true)).1

/-- A letter is typed for the space at which the line is broken, and the next one is right. -/
theorem broken_mistake_invisible : ∃ app calls,
    run (step longWordsFirst) (initial longAndShort) (longWordKeys [0x1E, 0x1E]) = some app ∧
      app.typingInfo.status ≠ .unready ∧
      drawTypingTest (fun _ _ _ => record) .vbe600pDc startMode app.typingInfo (1 / 2) (2 / 5)
        (4 / 5) 0xFFFFFF 0xFF4040 0x505050 (getFontSize .vbe600pDc .medium) 200 [] =
          some (calls, false) ∧
      ¬ MistakesVisible app.typingInfo (filteredColor .vbe600pDc startMode 0xFF4040) calls := by
  have hstate : run (step longWordsFirst) (initial longAndShort) (longWordKeys [0x1E, 0x1E]) =
        some (afterLongWord [0x1E, 0x1E]) ∧
      (afterLongWord [0x1E, 0x1E]).typingInfo.status ≠ .unready ∧
      28 < (afterLongWord [0x1E, 0x1E]).typingInfo.typingCursor ∧
      Mistyped (afterLongWord [0x1E, 0x1E]).typingInfo 27 := by
    unfold Mistyped
    decide +kernel
  have hcalls : drawTypingTest (fun _ _ _ => record) .vbe600pDc startMode
        (afterLongWord [0x1E, 0x1E]).typingInfo (1 / 2) (2 / 5) (4 / 5) 0xFFFFFF 0xFF4040 0x505050
        (getFontSize .vbe600pDc .medium) 200 [] = some (drawnAfterLongWord [0x1E, 0x1E], false) ∧
      Drawn (drawnAfterLongWord [0x1E, 0x1E]) 28 ∧
      ¬ Underlined (filteredColor .vbe600pDc startMode 0xFF4040)
        (drawnAfterLongWord [0x1E, 0x1E]) 28 := by
    unfold Drawn Underlined
    decide +kernel
  obtain ⟨hrun, hstatus, hcursor, hmistyped⟩ := hstate
  obtain ⟨hdraw, hdrawn, hunder⟩ := hcalls
  refine ⟨_, _, hrun, hstatus, hdraw, fun h => ?_⟩
  exact hunder ((h.underlined 28 hcursor hdrawn).mpr ⟨27, by decide, hmistyped⟩)

/-- The letter after that space is wrong as well. -/
theorem mistakes_visible_iff_next : MistakesVisible (afterLongWord [0x1E, 0x1F]).typingInfo
    (filteredColor .vbe600pDc startMode 0xFF4040) (drawnAfterLongWord [0x1E, 0x1F]) := by
  have hstate : run (step longWordsFirst) (initial longAndShort) (longWordKeys [0x1E, 0x1F]) =
        some (afterLongWord [0x1E, 0x1F]) ∧
      (afterLongWord [0x1E, 0x1F]).typingInfo.status ≠ .unready ∧
      (afterLongWord [0x1E, 0x1F]).typingInfo.generatedText.map cString =
        some (((afterLongWord [0x1E, 0x1F]).typingInfo.generatedText.map cString).getD []) ∧
      (afterLongWord [0x1E, 0x1F]).typingInfo.typingCursor = 29 ∧
      (∀ j < 27, ¬ Mistyped (afterLongWord [0x1E, 0x1F]).typingInfo j) ∧
      Mistyped (afterLongWord [0x1E, 0x1F]).typingInfo 28 := by
    unfold Mistyped
    decide +kernel
  obtain ⟨hrun, hstatus, htext, hcursor, hbefore, hmistyped⟩ := hstate
  refine (mistakes_visible_iff hrun hstatus htext .vbe600pDc startMode (1 / 2) (2 / 5) (4 / 5)
    0xFFFFFF 0xFF4040 0x505050 (getFontSize .vbe600pDc .medium) 200 _ (by decide +kernel)).mpr ?_
  intro j hj _ i hji hi _ _
  have hge : 27 ≤ j := Nat.le_of_not_lt fun hlt => hbefore j hlt hj.1
  obtain rfl : i = 28 := by omega
  exact hmistyped

end WriteWise.VisibleMistakes
