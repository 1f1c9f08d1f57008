import WriteWise.KeyboardCodes
import WriteWise.RunInvariant

namespace WriteWise.ExtendedKeys

open Library.Runs Scancode Typing TypingSession Program RunInvariant KeyboardCodes

/-- The keys of the main block that have a character. -/
def Printing (b : UInt8) : Prop :=
  keyScancodeRow1First ≤ b ∧ b ≤ keyScancodeRow1Last ∨
    keyScancodeRow2First ≤ b ∧ b ≤ keyScancodeRow2Last ∨
    keyScancodeRow3First ≤ b ∧ b ≤ keyScancodeRow3Last ∨
    keyScancodeRow4First ≤ b ∧ b ≤ keyScancodeRow4Last ∨ b = spaceScancode ∨ b = enterScancode

instance (b : UInt8) : Decidable (Printing b) := by
  unfold Printing
  infer_instance

theorem printing_key : ∀ b : UInt8, Printing b → ¬ Modifier b ∧ b ≠ twoBytes ∧
    b ≠ backspaceScancode ∧ b ≠ makeEsc ∧ b &&& breakCode = 0 := by
  decide +kernel

theorem getChar_of_not_printing {b : UInt8} (h : ¬ Printing b) (k : Keyboard) :
    getCharFromMakecode k b = 0 := by
  simp only [Printing, not_or] at h
  obtain ⟨h1, h2, h3, h4, h5, h6⟩ := h
  unfold getCharFromMakecode
  split
  · rfl
  · simp only
    rw [if_neg h1, if_neg h2, if_neg h3, if_neg, if_neg, if_neg h5, if_neg h6]
    · exact fun hc => h4 ⟨UInt8.le_trans (by decide) (UInt8.le_of_lt hc.1), hc.2⟩
    · exact fun hc => h4 ⟨hc.1, UInt8.le_trans hc.2 (by decide)⟩

def TypingScreen (app : App) : Prop :=
  app.currAppState = .trainingState ∨ app.currAppState = .raceState

section Rounds

variable {random : UInt32 → Nat → Nat} {app : App}

theorem step_keyboard (hs : TypingScreen app) (b : UInt8) (now : UInt64) :
    step random app (.keyboard (some b) now) =
      if (keyboardIh (some b) app.keyboard).2 then
        App.keyboardScancodeHandler random now
          { app with keyboard := (keyboardIh (some b) app.keyboard).1 }
      else some { app with keyboard := (keyboardIh (some b) app.keyboard).1 } := by
  have hend : app.currAppState ≠ .endState := by
    obtain h | h := hs <;> rw [h] <;> decide
  exact if_neg hend

theorem step_prefix (hs : TypingScreen app) (now : UInt64) :
    step random app (.keyboard (some twoBytes) now) =
      some { app with keyboard := { app.keyboard with
        scancode := twoBytes, isTwoBytes := true } } := by
  rw [step_keyboard hs, keyboardIh_prefix]
  exact if_neg Bool.false_ne_true

theorem scancodeHandler_make (hs : TypingScreen app) (now : UInt64)
    (hmake : app.keyboard.scancode &&& breakCode = 0)
    (hesc : app.keyboard.isScancodeTwoBytes = true ∨ app.keyboard.scancode ≠ makeEsc) :
    app.keyboardScancodeHandler random now =
      app.typingInputHandler (app.currAppState = .raceState) := by
  have hstart : app.currAppState ≠ .startState := by
    obtain h | h := hs <;> rw [h] <;> decide
  have hesc' : ¬ (app.keyboard.isScancodeTwoBytes = false ∧ app.keyboard.scancode = makeEsc) := by
    rintro ⟨h1, h2⟩
    obtain h | h := hesc
    · cases h.symm.trans h1
    · exact h h2
  unfold App.keyboardScancodeHandler
  simp only
  rw [if_neg (by simpa using hmake), if_neg hesc', if_neg hstart]
  exact if_pos hs

theorem scancodeHandler_break (now : UInt64) (hbreak : app.keyboard.scancode &&& breakCode ≠ 0)
    (hesc : app.keyboard.isScancodeTwoBytes = true) :
    app.keyboardScancodeHandler random now = some app := by
  unfold App.keyboardScancodeHandler
  simp only
  rw [if_pos hbreak, if_neg (by simp [hesc])]

end Rounds

section Keys

variable {app : App} {g s : List UInt8} {m : List Bool} (isRace : Bool)

theorem handler_erases (hs : app.typingInfo.status = .typing) (h : Session app.typingInfo g s m)
    (hk : app.keyboard.scancode = backspaceScancode) :
    ∃ u, app.typingInputHandler isRace = some { app with typingInfo := u } ∧ u.status = .typing ∧
      u.typingCursor = app.typingInfo.typingCursor - 1 ∧
      Session u g (s.set (app.typingInfo.typingCursor - 1) 0) m ∧
      (app.typingInfo.typingCursor = 0 → u = app.typingInfo) := by
  obtain ⟨u, hu, hst, -, hcur, hsess⟩ := h.eraseChar
  refine ⟨u, ?_, hst.trans hs, hcur, hsess, fun h0 => ?_⟩
  · rw [handler_running hs, if_pos hk, hu, Option.map_some]
  · rw [Typing.eraseChar, if_pos h0] at hu
    exact (Option.some.inj hu).symm

theorem handler_ignores (hs : app.typingInfo.status = .typing) (h : Session app.typingInfo g s m)
    (hk : app.keyboard.scancode ≠ backspaceScancode)
    (hc : 0 < (getCharFromMakecode app.keyboard app.keyboard.scancode).toInt8 →
      g.length ≤ app.typingInfo.typingCursor) :
    app.typingInputHandler isRace = some app := by
  rw [handler_running hs, if_neg hk, h.size]
  by_cases hlt : app.typingInfo.typingCursor < g.length
  · have hc' : ¬ 0 < (getCharFromMakecode app.keyboard app.keyboard.scancode).toInt8 := by
      intro hpos
      have hge := hc hpos
      omega
    have hnot : ¬ Complete app.typingInfo := by
      rintro ⟨hall, -⟩
      rw [h.typedChars, h.size] at hall
      omega
    rw [if_pos hlt, typeChar, if_neg hc', Option.map_some, if_neg hnot]
  · exact if_neg hlt

theorem handler_types (hs : app.typingInfo.status = .typing) (h : Session app.typingInfo g s m)
    (hk : app.keyboard.scancode ≠ backspaceScancode)
    (hlt : app.typingInfo.typingCursor < g.length) {c : UInt8}
    (hc : getCharFromMakecode app.keyboard app.keyboard.scancode = c) (hpos : 0 < c.toInt8) :
    ∃ u m', app.typingInputHandler isRace = some (if Complete u then
        finish isRace { app with typingInfo := u } else { app with typingInfo := u }) ∧
      u.status = .typing ∧ u.typingCursor = app.typingInfo.typingCursor + 1 ∧
      Session u g (s.set app.typingInfo.typingCursor c) m' := by
  obtain ⟨u, hu, hst, -, hcur, mark, -, hsess⟩ := h.typeChar hlt hpos
  refine ⟨u, _, ?_, hst.trans hs, hcur, hsess⟩
  rw [handler_running hs, if_neg hk, h.size, if_pos hlt, hc, hu, Option.map_some]

end Keys

/-- The typed text, the cursor, the marks and the counters are the same. -/
structure Untouched (t u : TypingInfo) : Prop where
  typed : u.typedText = t.typedText
  cursor : u.typingCursor = t.typingCursor
  mistakes : u.mistakes = t.mistakes
  typedChars : u.typedChars = t.typedChars
  wrong : u.wrongChars = t.wrongChars
  total : u.totalWrongChars = t.totalWrongChars

theorem Untouched.refl (t : TypingInfo) : Untouched t t := ⟨rfl, rfl, rfl, rfl, rfl, rfl⟩

/-- The low byte erases nothing and types nothing. -/
def TypesNothing (t : TypingInfo) (k : Keyboard) (low : UInt8) : Prop :=
  (low = backspaceScancode → t.typingCursor = 0) ∧
    (0 < (getCharFromMakecode k low).toInt8 → t.generatedTextSize ≤ t.typingCursor)

theorem typesNothing_of_not_printing {t : TypingInfo} {k : Keyboard} {low : UInt8}
    (hb : low ≠ backspaceScancode) (h : ¬ Printing low) : TypesNothing t k low := by
  refine ⟨fun hc => absurd hc hb, fun hc => ?_⟩
  rw [getChar_of_not_printing h] at hc
  exact absurd hc (by decide)

theorem not_printing_modifier {b : UInt8} (h : Modifier b) : ¬ Printing b :=
  fun hp => (printing_key b hp).1 h

theorem modifier_ne_backspace : ∀ b : UInt8, Modifier b → b ≠ backspaceScancode := by
  decide +kernel

theorem break_ne_backspace : ∀ b : UInt8, b &&& breakCode ≠ 0 → b ≠ backspaceScancode := by
  decide +kernel

theorem handler_untouched_iff {app : App} {g s : List UInt8} {m : List Bool} (isRace : Bool)
    (hs : app.typingInfo.status = .typing) (h : Session app.typingInfo g s m) :
    ∃ next, app.typingInputHandler isRace = some next ∧
      (Untouched app.typingInfo next.typingInfo ↔
        TypesNothing app.typingInfo app.keyboard app.keyboard.scancode) := by
  by_cases hb : app.keyboard.scancode = backspaceScancode
  · obtain ⟨u, hu, -, hcur, -, h0⟩ := handler_erases isRace hs h hb
    have hchar : ¬ 0 < (getCharFromMakecode app.keyboard app.keyboard.scancode).toInt8 := by
      rw [hb, getChar_of_not_printing (by decide)]
      decide
    refine ⟨_, hu, fun ht => ⟨fun _ => ?_, fun hc => absurd hc hchar⟩, fun ht => ?_⟩
    · have hsame := ht.cursor
      simp only at hsame
      omega
    · rw [h0 (ht.1 hb)]
      exact .refl _
  · by_cases hc : 0 < (getCharFromMakecode app.keyboard app.keyboard.scancode).toInt8 →
        g.length ≤ app.typingInfo.typingCursor
    · refine ⟨app, handler_ignores isRace hs h hb hc, fun _ => ?_, fun _ => .refl _⟩
      rw [TypesNothing, h.size]
      exact ⟨fun hb' => absurd hb' hb, hc⟩
    · push Not at hc
      obtain ⟨u, m', hu, -, hcur, -⟩ := handler_types isRace hs h hb hc.2 rfl hc.1
      refine ⟨_, hu, fun ht => ?_, fun ht => ?_⟩
      · have hsame := ht.cursor
        split at hsame
        · rw [finish_typingInfo] at hsame
          exact absurd (hcur.symm.trans hsame) (Nat.succ_ne_self _)
        · exact absurd (hcur.symm.trans hsame) (Nat.succ_ne_self _)
      · have hle := ht.2 hc.1
        rw [h.size] at hle
        exact absurd hc.2 (by omega)

variable {random : UInt32 → Nat → Nat}

/-- An extended key leaves the typing alone exactly if the main-block key with the same low byte
would have done so. -/
theorem extended_key_iff {dictionary : List Word} {es : List Event} {app : App}
    (hr : run (step random) (initial dictionary) es = some app) (hscreen : TypingScreen app)
    (hs : app.typingInfo.status = .typing) (k : Keyboard) (low : UInt8) (hlow : low ≠ twoBytes)
    (now now' : UInt64) :
    ∃ next, run (step random) { app with keyboard := k }
        [.keyboard (some twoBytes) now, .keyboard (some low) now'] = some next ∧
      (Untouched app.typingInfo next.typingInfo ↔ TypesNothing app.typingInfo k low) := by
  obtain ⟨g, s, m, hsess⟩ := reachable_session hr (by rw [hs]; decide)
  have hscreen₀ : TypingScreen { app with keyboard := k } := hscreen
  have hscreen₁ : TypingScreen { app with keyboard := { k with
      scancode := twoBytes, isTwoBytes := true } } := hscreen
  simp only [run, step_prefix hscreen₀, Option.bind_some, Option.bind_fun_some,
    step_keyboard hscreen₁]
  by_cases hmod : Modifier low
  · obtain ⟨shift, ctrl, alt, caps, he⟩ :=
      keyboardIh_modifier hmod { k with scancode := twoBytes, isTwoBytes := true }
    rw [he]
    exact ⟨_, rfl, fun _ => typesNothing_of_not_printing (modifier_ne_backspace low hmod)
      (not_printing_modifier hmod), fun _ => .refl _⟩
  · rw [keyboardIh_key hlow hmod, if_pos rfl]
    by_cases hbreak : low &&& breakCode = 0
    · have hscreen₂ : TypingScreen { app with keyboard := { k with
          scancode := low, isTwoBytes := false, isScancodeTwoBytes := true } } := hscreen
      rw [scancodeHandler_make hscreen₂ now' hbreak (.inl rfl)]
      exact handler_untouched_iff _ hs hsess
    · rw [scancodeHandler_break now' hbreak rfl]
      refine ⟨_, rfl, fun _ => typesNothing_of_not_printing (break_ne_backspace low hbreak) ?_,
        fun _ => .refl _⟩
      exact fun hp => hbreak (printing_key low hp).2.2.2.2

/-- The training screen with a text of letters `a`, the first of them typed. -/
def trainingRun : List Event :=
  [.mousePress 1, .click .mainTraining 5, .keyboard (some 0x1E) 6]

def training : App := (run (step fun _ _ => 0) (initial [⟨[97], letter_noZero⟩]) trainingRun).getD {}

theorem extended_key_iff_right_ctrl : ∃ next, run (step fun _ _ => 0)
    { training with keyboard := {} } [.keyboard (some twoBytes) 7, .keyboard (some 0x1D) 7] =
      some next ∧ Untouched training.typingInfo next.typingInfo := by
  obtain ⟨next, hn, hiff⟩ := @extended_key_iff (fun _ _ => 0) [⟨[97], by decide⟩] trainingRun
    training (by decide +kernel) (.inl (by decide +kernel)) (by decide +kernel) {} 0x1D (by decide)
    7 7
  exact ⟨next, hn, hiff.mpr ⟨by decide, by decide⟩⟩

/-- The Enter key of the keypad types a line break. -/
theorem keypad_enter_types : run (step fun _ _ => 0) (initial [⟨[97], by decide⟩]) trainingRun =
    some training ∧ training.currAppState = .trainingState ∧
      training.typingInfo.status = .typing ∧ ∃ next,
    run (step fun _ _ => 0) training [.keyboard (some twoBytes) 7, .keyboard (some 0x1C) 7] =
      some next ∧ ¬ Untouched training.typingInfo next.typingInfo := by
  refine ⟨by decide +kernel, by decide +kernel, by decide +kernel, (run (step fun _ _ => 0) training
    [.keyboard (some twoBytes) 7, .keyboard (some 0x1C) 7]).getD {}, by decide +kernel, fun h => ?_⟩
  have hcursor := h.cursor
  revert hcursor
  decide +kernel

end WriteWise.ExtendedKeys
