import WriteWise.Program

namespace WriteWise.KeyboardCodes

open Scancode Typing Program

/-- The codes that the handler keeps to itself: it returns before it has dealt with the prefix. -/
def Modifier (b : UInt8) : Prop :=
  b = leftShiftScancode ∨ b = rightShiftScancode ∨ b = leftShiftScancode ||| breakCode ∨
    b = rightShiftScancode ||| breakCode ∨ b = leftCtrlScancode ∨
    b = leftCtrlScancode ||| breakCode ∨ b = leftAltScancode ∨ b = leftAltScancode ||| breakCode ∨
    b = capslockScancode

instance (b : UInt8) : Decidable (Modifier b) := by
  unfold Modifier
  infer_instance

theorem keyboardIh_prefix (k : Keyboard) : keyboardIh (some twoBytes) k =
    ({ k with scancode := twoBytes, isTwoBytes := true }, false) := rfl

theorem keyboardIh_modifier {b : UInt8} (h : Modifier b) (k : Keyboard) :
    ∃ shift ctrl alt caps, keyboardIh (some b) k = ({ k with
      scancode := b
      isShiftPressed := shift
      isCtrlPressed := ctrl
      isAltPressed := alt
      isCapsLockActive := caps }, false) := by
  obtain h | h | h | h | h | h | h | h | h := h <;> subst h <;> exact ⟨_, _, _, _, rfl⟩

theorem keyboardIh_key {b : UInt8} (hp : b ≠ twoBytes) (h : ¬ Modifier b) (k : Keyboard) :
    keyboardIh (some b) k = ({ k with
      scancode := b
      isScancodeTwoBytes := k.isTwoBytes
      isTwoBytes := false }, true) := by
  simp only [Modifier, not_or] at h
  obtain ⟨h1, h2, h3, h4, h5, h6, h7, h8, h9⟩ := h
  unfold keyboardIh
  simp only [if_neg hp, if_neg (not_or.mpr ⟨h1, h2⟩), if_neg (not_or.mpr ⟨h3, h4⟩), if_neg h5,
    if_neg h6, if_neg h7, if_neg h8, if_neg h9]

/-- The handler on bytes that are read without errors, and what it returned for the last one. -/
def feed (k : Keyboard) (bytes : List UInt8) : Keyboard × Bool :=
  bytes.foldl (fun r b => keyboardIh (some b) r.1) (k, false)

theorem feed_concat (k : Keyboard) (bytes : List UInt8) (b : UInt8) :
    feed k (bytes ++ [b]) = keyboardIh (some b) (feed k bytes).1 := by
  simp [feed]

/-- The complete code of a key. That of an extended key follows the prefix. -/
structure Code where
  extended : Bool
  low : UInt8
  low_ne : low ≠ twoBytes
  deriving DecidableEq

def Code.bytes (c : Code) : List UInt8 := if c.extended then [twoBytes, c.low] else [c.low]

def bytesOf (codes : List Code) : List UInt8 := codes.flatMap Code.bytes

def report (codes : List Code) : Keyboard × Bool := feed {} (bytesOf codes)

/-- The codes end in a prefixed one that was kept back, with nothing reported since. -/
def Pending (codes : List Code) : Prop :=
  ∃ before c since, codes = before ++ c :: since ∧ c.extended = true ∧ Modifier c.low ∧
    ∀ d ∈ since, Modifier d.low

theorem pending_concat (codes : List Code) (c : Code) : Pending (codes ++ [c]) ↔
    Modifier c.low ∧ (c.extended = true ∨ Pending codes) := by
  constructor
  · rintro ⟨before, d, since, he, hext, hmod, hsince⟩
    induction since using List.reverseRecOn with
    | nil =>
      obtain ⟨-, hc⟩ := List.append_inj' he rfl
      obtain rfl := List.singleton_inj.mp hc
      exact ⟨hmod, .inl hext⟩
    | append_singleton since last _ =>
      rw [← List.cons_append, ← List.append_assoc] at he
      obtain ⟨hcodes, hc⟩ := List.append_inj' he rfl
      obtain rfl := List.singleton_inj.mp hc
      subst hcodes
      refine ⟨hsince c (by simp), .inr ⟨before, d, since, rfl, hext, hmod, fun e he => ?_⟩⟩
      exact hsince e (by simp [he])
  · rintro ⟨hmod, hext | ⟨before, d, since, rfl, hext, hd, hsince⟩⟩
    · exact ⟨codes, c, [], rfl, hext, hmod, by simp⟩
    · refine ⟨before, d, since ++ [c], by simp, hext, hd, fun e he => ?_⟩
      obtain he | he := List.mem_append.mp he
      · exact hsince e he
      · obtain rfl := List.mem_singleton.mp he
        exact hmod

theorem report_concat (codes : List Code) (c : Code) : report (codes ++ [c]) =
    keyboardIh (some c.low) { (report codes).1 with
      scancode := if c.extended then twoBytes else (report codes).1.scancode
      isTwoBytes := c.extended || (report codes).1.isTwoBytes } := by
  have hb : bytesOf (codes ++ [c]) = bytesOf codes ++ c.bytes := by simp [bytesOf]
  rw [report, hb, Code.bytes]
  cases hc : c.extended with
  | false =>
    simp only [Bool.false_eq_true, if_false, Bool.false_or]
    exact feed_concat {} (bytesOf codes) c.low
  | true =>
    have hsplit : [twoBytes, c.low] = [twoBytes] ++ [c.low] := rfl
    simp only [if_true, Bool.true_or]
    rw [hsplit, ← List.append_assoc, feed_concat, feed_concat, keyboardIh_prefix]
    rfl

/-- The prefix stays pending behind the codes that are kept back. -/
theorem isTwoBytes_iff_pending (codes : List Code) :
    (report codes).1.isTwoBytes = true ↔ Pending codes := by
  induction codes using List.reverseRecOn with
  | nil =>
    have hnil : ¬ Pending [] := by
      rintro ⟨before, c, since, he, -⟩
      simp at he
    simp only [hnil, iff_false]
    decide
  | append_singleton codes c ih =>
    rw [pending_concat, ← ih, report_concat]
    by_cases hmod : Modifier c.low
    · obtain ⟨shift, ctrl, alt, caps, he⟩ := keyboardIh_modifier hmod { (report codes).1 with
        scancode := if c.extended then twoBytes else (report codes).1.scancode
        isTwoBytes := c.extended || (report codes).1.isTwoBytes }
      rw [he]
      simp [hmod]
    · rw [keyboardIh_key c.low_ne hmod]
      simp [hmod]

/-- A code is reported unless it is one of those kept back, and the flag says
that it or one that was kept back before it had the prefix. -/
theorem report_key (codes : List Code) {c : Code} (h : ¬ Modifier c.low) :
    (report (codes ++ [c])).2 = true ∧ (report (codes ++ [c])).1.scancode = c.low ∧
      ((report (codes ++ [c])).1.isScancodeTwoBytes = true ↔
        c.extended = true ∨ Pending codes) := by
  rw [report_concat, keyboardIh_key c.low_ne h, ← isTwoBytes_iff_pending]
  simp

theorem report_modifier (codes : List Code) {c : Code} (h : Modifier c.low) :
    (report (codes ++ [c])).2 = false := by
  obtain ⟨shift, ctrl, alt, caps, he⟩ := keyboardIh_modifier h { (report codes).1 with
    scancode := if c.extended then twoBytes else (report codes).1.scancode
    isTwoBytes := c.extended || (report codes).1.isTwoBytes }
  rw [report_concat, he]

/-- Whenever the handler reports a code, its flag says whether that code had the prefix. -/
def Attributed (codes : List Code) : Prop :=
  ∀ before c after, codes = before ++ c :: after → (report (before ++ [c])).2 = true →
    ((report (before ++ [c])).1.isScancodeTwoBytes = true ↔ c.extended = true)

/-- Between a prefixed code that is kept back and an unprefixed one that is reported,
another one is reported. -/
def Separated (codes : List Code) : Prop :=
  ∀ before c after, codes = before ++ c :: after → c.extended = false → ¬ Modifier c.low →
    ¬ Pending before

def ActsOnEsc (random : UInt32 → Nat → Nat) (k : Keyboard) : Prop :=
  ∀ (app : App) (now : UInt64), app.keyboard = k →
    app.keyboardScancodeHandler random now =
      app.changeState random (if app.currAppState = .mainState then .endState else .mainState) now

theorem actsOnEsc (random : UInt32 → Nat → Nat) {k : Keyboard} (hs : k.scancode = breakEsc)
    (hk : k.isScancodeTwoBytes = false) : ActsOnEsc random k := by
  rintro app now rfl
  have hbreak : app.keyboard.scancode &&& breakCode ≠ 0 := by
    rw [hs]
    decide
  unfold App.keyboardScancodeHandler
  rw [if_pos hbreak, if_pos ⟨hk, hs⟩]
  cases app.currAppState <;> rfl

/-- The codes are attributed to the right keys exactly if no prefix is left pending before an
unprefixed key, and then every release of ESC is acted on. -/
theorem attributed_iff (random : UInt32 → Nat → Nat) (codes : List Code) :
    (Attributed codes ↔ Separated codes) ∧
      (Separated codes → ∀ before c after, codes = before ++ c :: after → c.extended = false →
        c.low = breakEsc → ActsOnEsc random (report (before ++ [c])).1) := by
  refine ⟨⟨fun h before c after he hext hmod hpend => ?_, fun h before c after he hrep => ?_⟩,
    fun h before c after he hext hesc => ?_⟩
  · obtain ⟨hrep, -, hflag⟩ := report_key before hmod
    have hext' := (h before c after he hrep).mp (hflag.mpr (.inr hpend))
    rw [hext] at hext'
    cases hext'
  · have hmod : ¬ Modifier c.low := by
      intro hmod
      rw [report_modifier before hmod] at hrep
      cases hrep
    obtain ⟨-, -, hflag⟩ := report_key before hmod
    rw [hflag, or_iff_left_iff_imp]
    intro hpend
    by_contra hext
    exact h before c after he (Bool.eq_false_iff.mpr hext) hmod hpend
  · have hmod : ¬ Modifier c.low := by
      rw [hesc]
      decide
    obtain ⟨-, hs, hflag⟩ := report_key before hmod
    refine actsOnEsc random (hs.trans hesc) (Bool.eq_false_iff.mpr fun hc => ?_)
    obtain hc | hc := hflag.mp hc
    · rw [hext] at hc
      cases hc
    · exact h before c after he hext hmod hc

def altThenEsc : List Code := [⟨true, leftAltScancode, by decide⟩, ⟨false, breakEsc, by decide⟩]

theorem alt_then_esc_misattributed : ¬ Attributed altThenEsc := by
  intro h
  have hflag := h [⟨true, leftAltScancode, by decide⟩] ⟨false, breakEsc, by decide⟩ [] rfl
    (by decide)
  revert hflag
  decide

end WriteWise.KeyboardCodes
