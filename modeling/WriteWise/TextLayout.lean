import WriteWise.DrawText

namespace WriteWise.TextLayout

open Library.Loops Typing TypingSession TestEnd Graphics Video Text DrawText

/-- Where the loops stand before they look at character `n`. -/
def layoutAt (b : TextBox) : Nat → Layout
  | 0 => b.start
  | n + 1 =>
    match b.look n (layoutAt b n) with
    | none => layoutAt b n
    | some (l, true) => l
    | some (l, false) => b.advance l

/-- The line is broken at character `n`, a space that is not drawn. -/
def breaks (b : TextBox) (n : Nat) : Bool :=
  ((b.look n (layoutAt b n)).map Prod.snd).getD false

def textBox (currentMode : MinixMode) (cx cy maxWidth : ℚ) (str : List UInt8) (size : FontSize) :
    TextBox :=
  ⟨str, (placeText currentMode cx cy maxWidth str size).2.2.toNat, size⟩

/-- The calls at character `n`, or `none` where the width of the word is undefined. -/
def cellItems (b : TextBox) (n : Nat) (calls : List DrawCall) : List (Option DrawCall) :=
  match b.look n (layoutAt b n) with
  | none => [none]
  | some (_, true) => []
  | some (_, false) => calls.map some

def textItems (b : TextBox) (color : UInt32) (n : Nat) : List (Option DrawCall) :=
  cellItems b n
    [⟨n, (layoutAt b n).dx, (layoutAt b n).dy, .char (b.str.getD n 0), color⟩]

def cursorItems (b : TextBox) (cursor : Nat) (color : UInt32) (n : Nat) : List (Option DrawCall) :=
  if cursor = n then [some ⟨n, (layoutAt b n).dx, (layoutAt b n).dy, .cursor, color⟩] else []

def wrongBefore (b : TextBox) (typed : List UInt8) (n : Nat) : Bool :=
  (List.range n).any fun j => !breaks b j && typed[j]? != b.str[j]?

def typedItems (b : TextBox) (typed : List UInt8) (cursor : Nat) (rightColor wrongColor : UInt32)
    (n : Nat) : List (Option DrawCall) :=
  cursorItems b cursor rightColor n ++ cellItems b n
    (⟨n, (layoutAt b n).dx, (layoutAt b n).dy, .char (b.str.getD n 0),
      if typed[n]? = b.str[n]? then rightColor else wrongColor⟩ ::
    if wrongBefore b typed (n + 1) then
      [⟨n, (layoutAt b n).dx, (layoutAt b n).dy, .underline, wrongColor⟩]
    else [])

def unwrittenItems (b : TextBox) (cursor : Nat) (rightColor unwrittenColor : UInt32) (n : Nat) :
    List (Option DrawCall) :=
  cursorItems b cursor rightColor n ++ textItems b unwrittenColor n

/-- The generated text and what has been typed of it, as the view reads them. -/
structure View (t : TypingInfo) (g typed : List UInt8) : Prop where
  generated : t.generatedText = some (g ++ [0])
  nulFree : 0 ∉ g
  written : ∃ more, t.typedText = some (typed ++ 0 :: more)
  typedNulFree : 0 ∉ typed
  length : typed.length ≤ g.length
  cursor : t.typingCursor = typed.length

namespace View

variable {t : TypingInfo} {g typed : List UInt8}

theorem peek_typed (h : View t g typed) {i : Nat} (hi : i < typed.length) :
    peek t.typedText i = some typed[i] ∧ typed[i] ≠ 0 := by
  obtain ⟨more, hmore⟩ := h.written
  refine ⟨?_, fun hz => h.typedNulFree (hz ▸ List.getElem_mem hi)⟩
  rw [peek, hmore, Option.bind_some, List.getElem?_append_left hi, List.getElem?_eq_getElem hi]

theorem peek_typed_end (h : View t g typed) : peek t.typedText typed.length = some 0 := by
  obtain ⟨more, hmore⟩ := h.written
  rw [peek, hmore, Option.bind_some, List.getElem?_append_right le_rfl, Nat.sub_self]
  rfl

theorem peek_generated (h : View t g typed) {i : Nat} (hi : i < g.length) :
    peek t.generatedText i = some g[i] ∧ g[i] ≠ 0 := by
  refine ⟨?_, fun hz => h.nulFree (hz ▸ List.getElem_mem hi)⟩
  rw [peek, h.generated, Option.bind_some, List.getElem?_append_left hi,
    List.getElem?_eq_getElem hi]

theorem peek_generated_end (h : View t g typed) : peek t.generatedText g.length = some 0 := by
  rw [peek, h.generated, Option.bind_some, List.getElem?_append_right le_rfl, Nat.sub_self]
  rfl

theorem of_session {s : List UInt8} {m : List Bool} (h : Session t g s m) :
    View t g (s.take t.typingCursor) := by
  obtain ⟨hnul, more, hs⟩ := typed_parts h
  have hlen : (s.take t.typingCursor).length = t.typingCursor := by
    rw [List.length_take, h.typedLength]
    have hcur := h.cursor
    omega
  refine ⟨h.generated, h.nulFree, ⟨more, ?_⟩, hnul, ?_, hlen.symm⟩
  · rw [h.typed, ← hs]
  · rw [hlen]
    exact h.cursor

end View

section Look

variable {b : TextBox} {n : Nat} {l : Layout}

theorem strchr_lt {str : List UInt8} {i j : Nat} (h : strchr str i = some j) : j < str.length := by
  obtain ⟨k, hk, rfl⟩ := Option.map_eq_some_iff.mp h
  have hlt := (List.idxOf?_eq_some_iff.mp hk).1
  rw [List.length_drop] at hlt
  omega

theorem look_defined (h : b.str.length * b.xStep < intBound) (n : Nat) (l : Layout) :
    ∃ r, b.look n l = some r := by
  have hword : ∃ w, b.wordWidth n (strchr b.str (n + 1)) = some w := by
    rcases hnext : strchr b.str (n + 1) with _ | next
    · exact ⟨_, rfl⟩
    · have hle : (next - n) * b.xStep ≤ b.str.length * b.xStep :=
        Nat.mul_le_mul_right _ ((Nat.sub_le _ _).trans (strchr_lt hnext).le)
      exact ⟨_, if_neg (by omega)⟩
  obtain ⟨w, hw⟩ := hword
  unfold TextBox.look
  split
  · simp only [hw, Option.map_some]
    exact ⟨_, rfl⟩
  · exact ⟨_, rfl⟩

theorem look_stays (h : b.look n (layoutAt b n) = some (l, false)) :
    l.dx = (layoutAt b n).dx ∧ l.dy = (layoutAt b n).dy := by
  unfold TextBox.look at h
  split at h
  · obtain ⟨w, -, hw⟩ := Option.map_eq_some_iff.mp h
    split at hw
    · cases hw
    · cases hw
      exact ⟨rfl, rfl⟩
  · cases h
    exact ⟨rfl, rfl⟩

theorem layoutAt_broken (h : b.look n (layoutAt b n) = some (l, true)) : layoutAt b (n + 1) = l := by
  rw [layoutAt, h]

theorem layoutAt_drawn (h : b.look n (layoutAt b n) = some (l, false)) :
    layoutAt b (n + 1) = b.advance l := by
  rw [layoutAt, h]

theorem breaks_broken (h : b.look n (layoutAt b n) = some (l, true)) : breaks b n = true := by
  rw [breaks, h]
  rfl

theorem breaks_drawn (h : b.look n (layoutAt b n) = some (l, false)) : breaks b n = false := by
  rw [breaks, h]
  rfl

end Look

section Drawing

variable {σ : Type} {draw : DrawCall → σ → Result σ}

/-- The plain renderer makes the calls of each character in turn. -/
theorem drawTextLoop_eq (b : TextBox) (color : UInt32) {rest : List UInt8} {i : Nat}
    (hrest : b.str.drop i = rest) (s : σ) :
    drawTextLoop draw b color rest i (layoutAt b i) s =
      each (defined draw) ((List.range' i rest.length).flatMap (textItems b color)) s := by
  induction rest generalizing i s with
  | nil => rfl
  | cons c rest ih =>
    have hlt : i < b.str.length := by
      by_contra hge
      rw [List.drop_eq_nil_of_le (by omega)] at hrest
      cases hrest
    have hdrop := List.drop_eq_getElem_cons hlt
    rw [hrest, List.cons.injEq] at hdrop
    have hc : b.str.getD i 0 = c := by
      rw [List.getD_eq_getElem _ _ hlt, hdrop.1]
    rw [List.length_cons, List.range'_succ, List.flatMap_cons, each_append, drawTextLoop, textItems,
      cellItems]
    rcases hlook : b.look i (layoutAt b i) with _ | ⟨l, _ | _⟩
    · rfl
    · obtain ⟨hx, hy⟩ := look_stays hlook
      simp only [Option.bind_some, Bool.false_eq_true, if_false, List.map_cons, List.map_nil]
      rw [each_singleton, defined, hx, hy, hc, ← layoutAt_drawn hlook]
      apply congrArg
      funext s
      exact ih hdrop.2.symm s
    · simp only [Option.bind_some, if_true, each_nil, proceed_done]
      rw [← layoutAt_broken hlook]
      exact ih hdrop.2.symm s

variable {b : TextBox} {t : TypingInfo} {typed : List UInt8}

theorem cursorMark_eq (b : TextBox) (cursor : Nat) (color : UInt32) (i : Nat) (s : σ) :
    (if cursor = i then drawCursorMark draw color i (layoutAt b i) s else some (s, false)) =
      each (defined draw) (cursorItems b cursor color i) s := by
  unfold cursorItems
  split
  · exact (each_singleton _ _ _).symm
  · rfl

theorem wrongBefore_succ (b : TextBox) (typed : List UInt8) (n : Nat) :
    wrongBefore b typed (n + 1) =
      (wrongBefore b typed n || (!breaks b n && typed[n]? != b.str[n]?)) := by
  rw [wrongBefore, List.range_succ, List.any_append]
  simp [wrongBefore]

theorem u16_succ {i n : Nat} (hi : i < n) (hn : n < 2 ^ 16) : u16 (i + 1) = i + 1 :=
  Nat.mod_eq_of_lt (by omega)

theorem typedLoop_turn (hv : View t b.str typed) (hlen : typed.length < 2 ^ 16)
    (rightColor wrongColor : UInt32) (next : Nat → Layout → σ → Result σ) (fuel : Nat) {i : Nat}
    (hi : i < typed.length) (s : σ) :
    typedLoop draw b t rightColor wrongColor next (fuel + 1) i (layoutAt b i)
        (wrongBefore b typed i) s =
      proceed
        (each (defined draw) (typedItems b typed t.typingCursor rightColor wrongColor i) s)
        (typedLoop draw b t rightColor wrongColor next fuel (i + 1) (layoutAt b (i + 1))
          (wrongBefore b typed (i + 1))) := by
  have hg : i < b.str.length := hi.trans_le hv.length
  obtain ⟨htyped, hne⟩ := hv.peek_typed hi
  have hgen := (hv.peek_generated hg).1
  rw [typedLoop, htyped, hgen, u16_succ hi hlen]
  simp only [Option.bind_some]
  rw [if_neg hne, typedItems, each_append, proceed_assoc, cursorMark_eq]
  apply congrArg
  funext s
  rw [cellItems]
  rcases hlook : b.look i (layoutAt b i) with _ | ⟨l, _ | _⟩
  · rfl
  · obtain ⟨hx, hy⟩ := look_stays hlook
    have hwrong : (wrongBefore b typed i || typed[i] != b.str[i]) =
        wrongBefore b typed (i + 1) := by
      rw [wrongBefore_succ, breaks_drawn hlook, List.getElem?_eq_getElem hi,
        List.getElem?_eq_getElem hg]
      rfl
    have hcolor : (if typed[i]? = b.str[i]? then rightColor else wrongColor) =
        if typed[i] = b.str[i] then rightColor else wrongColor := by
      refine if_congr ?_ rfl rfl
      rw [List.getElem?_eq_getElem hi, List.getElem?_eq_getElem hg, Option.some.injEq]
    simp only [Option.bind_some, Bool.false_eq_true, if_false]
    rw [hwrong, hx, hy, hcolor, List.getD_eq_getElem _ _ hg, each_defined_map, each_cons,
      proceed_assoc, ← layoutAt_drawn hlook]
    apply congrArg
    funext s
    rw [each_ite]
  · have hwrong : wrongBefore b typed i = wrongBefore b typed (i + 1) := by
      rw [wrongBefore_succ, breaks_broken hlook]
      simp
    simp only [Option.bind_some, if_true, each_nil, proceed_done]
    rw [hwrong, ← layoutAt_broken hlook]

theorem typedLoop_eq (hv : View t b.str typed) (hlen : typed.length < 2 ^ 16)
    (rightColor wrongColor : UInt32) (next : Nat → Layout → σ → Result σ) {k i fuel : Nat}
    (hik : i + k = typed.length) (hfuel : k < fuel) (s : σ) :
    typedLoop draw b t rightColor wrongColor next fuel i (layoutAt b i) (wrongBefore b typed i) s =
      proceed (each (defined draw)
          ((List.range' i k).flatMap (typedItems b typed t.typingCursor rightColor wrongColor)) s)
        (next typed.length (layoutAt b typed.length)) := by
  induction k generalizing i fuel s with
  | zero =>
    obtain ⟨fuel, rfl⟩ := Nat.exists_eq_succ_of_ne_zero (by omega : fuel ≠ 0)
    obtain rfl : i = typed.length := hik
    rw [typedLoop, hv.peek_typed_end]
    rfl
  | succ k ih =>
    obtain ⟨fuel, rfl⟩ := Nat.exists_eq_succ_of_ne_zero (by omega : fuel ≠ 0)
    rw [typedLoop_turn hv hlen rightColor wrongColor next fuel (by omega) s, List.range'_succ,
      List.flatMap_cons, each_append, proceed_assoc]
    apply congrArg
    funext s
    exact ih (by omega) (by omega) s

theorem unwrittenLoop_turn (hv : View t b.str typed) (hlen : b.str.length < 2 ^ 16)
    (rightColor unwrittenColor : UInt32) (next : Nat → Layout → σ → Result σ) (fuel : Nat)
    {i : Nat} (hi : i < b.str.length) (s : σ) :
    unwrittenLoop draw b t rightColor unwrittenColor next (fuel + 1) i (layoutAt b i) s =
      proceed (each (defined draw) (unwrittenItems b t.typingCursor rightColor unwrittenColor i) s)
        (unwrittenLoop draw b t rightColor unwrittenColor next fuel (i + 1)
          (layoutAt b (i + 1))) := by
  obtain ⟨hgen, hne⟩ := hv.peek_generated hi
  rw [unwrittenLoop, hgen, u16_succ hi hlen]
  simp only [Option.bind_some]
  rw [if_neg hne, unwrittenItems, each_append, proceed_assoc, cursorMark_eq, textItems, cellItems]
  apply congrArg
  funext s
  rcases hlook : b.look i (layoutAt b i) with _ | ⟨l, _ | _⟩
  · rfl
  · obtain ⟨hx, hy⟩ := look_stays hlook
    simp only [Option.bind_some, Bool.false_eq_true, if_false]
    rw [hx, hy, List.getD_eq_getElem _ _ hi, each_defined_map, each_singleton,
      ← layoutAt_drawn hlook]
  · simp only [Option.bind_some, if_true, each_nil, proceed_done]
    rw [← layoutAt_broken hlook]

theorem unwrittenLoop_eq (hv : View t b.str typed) (hlen : b.str.length < 2 ^ 16)
    (rightColor unwrittenColor : UInt32) (next : Nat → Layout → σ → Result σ) {k i fuel : Nat}
    (hik : i + k = b.str.length) (hfuel : k < fuel) (s : σ) :
    unwrittenLoop draw b t rightColor unwrittenColor next fuel i (layoutAt b i) s =
      proceed (each (defined draw)
          ((List.range' i k).flatMap (unwrittenItems b t.typingCursor rightColor unwrittenColor)) s)
        (next b.str.length (layoutAt b b.str.length)) := by
  induction k generalizing i fuel s with
  | zero =>
    obtain ⟨fuel, rfl⟩ := Nat.exists_eq_succ_of_ne_zero (by omega : fuel ≠ 0)
    obtain rfl : i = b.str.length := hik
    rw [unwrittenLoop, hv.peek_generated_end]
    rfl
  | succ k ih =>
    obtain ⟨fuel, rfl⟩ := Nat.exists_eq_succ_of_ne_zero (by omega : fuel ≠ 0)
    rw [unwrittenLoop_turn hv hlen rightColor unwrittenColor next fuel (by omega) s,
      List.range'_succ, List.flatMap_cons, each_append, proceed_assoc]
    apply congrArg
    funext s
    exact ih (by omega) (by omega) s

section Fuel

variable {rightColor wrongColor unwrittenColor : UInt32} {next next' : Nat → Layout → σ → Result σ}

theorem unwrittenLoop_extends (hnext : ∀ i l s, Extends (next i l s) (next' i l s))
    {fuel fuel' : Nat} (hle : fuel ≤ fuel') (i : Nat) (l : Layout) (s : σ) :
    Extends (unwrittenLoop draw b t rightColor unwrittenColor next fuel i l s)
      (unwrittenLoop draw b t rightColor unwrittenColor next' fuel' i l s) := by
  induction fuel generalizing fuel' i l s with
  | zero => exact nofun
  | succ fuel ih =>
    obtain ⟨fuel', rfl⟩ := Nat.exists_eq_succ_of_ne_zero (by omega : fuel' ≠ 0)
    have hrest := @ih fuel' (by omega)
    rw [unwrittenLoop, unwrittenLoop]
    refine .bind _ fun generated => ?_
    split
    · exact hnext i l s
    · refine .proceed _ fun s => .bind _ fun ⟨l, broken⟩ => ?_
      cases broken with
      | true => exact hrest _ l s
      | false => exact .proceed _ fun s => hrest _ _ s

theorem typedLoop_extends (hnext : ∀ i l s, Extends (next i l s) (next' i l s))
    {fuel fuel' : Nat} (hle : fuel ≤ fuel') (i : Nat) (l : Layout) (isWrongFromHere : Bool) (s : σ) :
    Extends (typedLoop draw b t rightColor wrongColor next fuel i l isWrongFromHere s)
      (typedLoop draw b t rightColor wrongColor next' fuel' i l isWrongFromHere s) := by
  induction fuel generalizing fuel' i l isWrongFromHere s with
  | zero => exact nofun
  | succ fuel ih =>
    obtain ⟨fuel', rfl⟩ := Nat.exists_eq_succ_of_ne_zero (by omega : fuel' ≠ 0)
    have hrest := @ih fuel' (by omega)
    rw [typedLoop, typedLoop]
    refine .bind _ fun typed => ?_
    split
    · exact hnext i l s
    · refine .proceed _ fun s => .bind _ fun ⟨l, broken⟩ => ?_
      cases broken with
      | true => exact hrest _ l _ s
      | false => exact .bind _ fun generated => .proceed _ fun s => .proceed _ fun s => hrest _ _ _ s

/-- The index of the second loop never reaches the end of a long text. -/
theorem unwrittenLoop_endless (hv : View t b.str typed) (hlen : 2 ^ 16 ≤ b.str.length) (fuel : Nat)
    {i : Nat} (hi : i < 2 ^ 16) (l : Layout) (s s' : σ) :
    unwrittenLoop draw b t rightColor unwrittenColor next fuel i l s ≠ some (s', false) := by
  induction fuel generalizing i l s with
  | zero => exact nofun
  | succ fuel ih =>
    have hrest : ∀ l s, unwrittenLoop draw b t rightColor unwrittenColor next fuel (u16 (i + 1)) l s ≠
        some (s', false) := ih (Nat.mod_lt _ (by decide))
    obtain ⟨hgen, hne⟩ := hv.peek_generated (by omega : i < b.str.length)
    intro h
    rw [unwrittenLoop, hgen, Option.bind_some, if_neg hne] at h
    obtain ⟨s, -, h⟩ := proceed_eq_done h
    obtain ⟨⟨l, broken⟩, -, h⟩ := Option.bind_eq_some_iff.mp h
    cases broken with
    | true => exact hrest l s h
    | false =>
      obtain ⟨s, -, h⟩ := proceed_eq_done h
      exact hrest _ s h

theorem typedLoop_endless
    (hnext : ∀ {i}, i < 2 ^ 16 → ∀ l (s s' : σ), next i l s ≠ some (s', false)) (fuel : Nat)
    {i : Nat} (hi : i < 2 ^ 16) (l : Layout) (isWrongFromHere : Bool) (s s' : σ) :
    typedLoop draw b t rightColor wrongColor next fuel i l isWrongFromHere s ≠ some (s', false) := by
  induction fuel generalizing i l isWrongFromHere s with
  | zero => exact nofun
  | succ fuel ih =>
    have hrest : ∀ l w s, typedLoop draw b t rightColor wrongColor next fuel (u16 (i + 1)) l w s ≠
        some (s', false) := ih (Nat.mod_lt _ (by decide))
    intro h
    rw [typedLoop] at h
    obtain ⟨typed, -, h⟩ := Option.bind_eq_some_iff.mp h
    split at h
    · exact hnext hi l s s' h
    · obtain ⟨s, -, h⟩ := proceed_eq_done h
      obtain ⟨⟨l, broken⟩, -, h⟩ := Option.bind_eq_some_iff.mp h
      cases broken with
      | true => exact hrest l _ s h
      | false =>
        obtain ⟨generated, -, h⟩ := Option.bind_eq_some_iff.mp h
        obtain ⟨s, -, h⟩ := proceed_eq_done h
        obtain ⟨s, -, h⟩ := proceed_eq_done h
        exact hrest _ _ s h

end Fuel

end Drawing

def viewItems (b : TextBox) (typed : List UInt8) (cursor : Nat)
    (rightColor wrongColor unwrittenColor : UInt32) : List (Option DrawCall) :=
  (List.range typed.length).flatMap (typedItems b typed cursor rightColor wrongColor) ++
    ((List.range' typed.length (b.str.length - typed.length)).flatMap
        (unwrittenItems b cursor rightColor unwrittenColor) ++
      cursorItems b cursor rightColor b.str.length)

section Functions

variable {σ : Type} {draw : UInt16 → UInt16 → FontSize → DrawCall → σ → Result σ}

theorem drawText_eq (x y maxWidth : UInt16) (str : List UInt8) (color : UInt32) (size : FontSize)
    (s : σ) :
    drawText draw x y maxWidth str color size s = each (defined (draw x y size))
      ((List.range str.length).flatMap (textItems ⟨str, maxWidth.toNat, size⟩ color)) s := by
  rw [List.range_eq_range']
  exact drawTextLoop_eq ⟨str, maxWidth.toNat, size⟩ color List.drop_zero s

variable {t : TypingInfo} {g typed : List UInt8} (currentMode : MinixMode) (m : ModeInfo)

theorem drawTextColor_eq (cx cy maxWidth : ℚ) (color : UInt32) (size : FontSize) (s : σ)
    {x y maxW : UInt16} (hplace : placeText currentMode cx cy maxWidth g size = (x, y, maxW)) :
    drawTextColor draw currentMode m cx cy maxWidth g color size s = each (defined (draw x y size))
      ((List.range g.length).flatMap
        (textItems ⟨g, maxW.toNat, size⟩ (filteredColor currentMode m color))) s := by
  rw [drawTextColor, hplace]
  exact drawText_eq x y maxW g _ size s

theorem drawTypingTest_eq (hv : View t g typed) (hlen : g.length < 2 ^ 16) (cx cy maxWidth : ℚ)
    (rightColor wrongColor unwrittenColor : UInt32) (size : FontSize) {fuel : Nat}
    (hfuel : g.length < fuel) (s : σ) {x y maxW : UInt16}
    (hplace : placeText currentMode cx cy maxWidth g size = (x, y, maxW)) :
    drawTypingTest draw currentMode m t cx cy maxWidth rightColor wrongColor unwrittenColor size
        fuel s =
      each (defined (draw x y size)) (viewItems ⟨g, maxW.toNat, size⟩ typed t.typingCursor
        (filteredColor currentMode m rightColor) (filteredColor currentMode m wrongColor)
        (filteredColor currentMode m unwrittenColor)) s := by
  have hle := hv.length
  have hstart : (⟨g, maxW.toNat, size⟩ : TextBox).start = layoutAt ⟨g, maxW.toNat, size⟩ 0 := rfl
  have hwrong : false = wrongBefore ⟨g, maxW.toNat, size⟩ typed 0 := rfl
  rw [drawTypingTest, hv.generated, Option.map_some, Option.bind_some,
    cString_append_zero hv.nulFree, hplace]
  simp only
  rw [hstart, hwrong, typedLoop_eq hv (by omega) _ _ _ (Nat.zero_add _) (by omega), viewItems,
    each_append, List.range_eq_range']
  apply congrArg
  funext s
  rw [unwrittenLoop_eq hv hlen _ _ _ (Nat.add_sub_of_le hle) ((Nat.sub_le _ _).trans_lt hfuel),
    each_append]
  apply congrArg
  funext s
  exact cursorMark_eq _ _ _ _ _

theorem drawTypingTest_done (hv : View t g typed) (cx cy maxWidth : ℚ)
    (rightColor wrongColor unwrittenColor : UInt32) (size : FontSize) (fuel : Nat) {s s' : σ}
    {x y maxW : UInt16} (hplace : placeText currentMode cx cy maxWidth g size = (x, y, maxW))
    (h : drawTypingTest draw currentMode m t cx cy maxWidth rightColor wrongColor unwrittenColor
      size fuel s = some (s', false)) :
    each (defined (draw x y size)) (viewItems ⟨g, maxW.toNat, size⟩ typed t.typingCursor
        (filteredColor currentMode m rightColor) (filteredColor currentMode m wrongColor)
        (filteredColor currentMode m unwrittenColor)) s = some (s', false) := by
  have hlen : g.length < 2 ^ 16 := by
    by_contra hlen
    rw [drawTypingTest, hv.generated, Option.map_some, Option.bind_some,
      cString_append_zero hv.nulFree, hplace] at h
    exact typedLoop_endless (fun hi l s s' => unwrittenLoop_endless hv (Nat.le_of_not_lt hlen) fuel
      hi l s s') fuel (by decide) _ _ s s' h
  rw [← drawTypingTest_eq currentMode m hv hlen cx cy maxWidth rightColor wrongColor unwrittenColor
    size (by omega : g.length < fuel + g.length + 1) s hplace]
  rw [drawTypingTest, hv.generated, Option.map_some, Option.bind_some] at h ⊢
  exact typedLoop_extends (fun i l s => unwrittenLoop_extends (fun _ _ _ => .refl _) (by omega) i l s)
    (by omega) _ _ _ s _ h

end Functions

end WriteWise.TextLayout
