import WriteWise.ExtendedKeys
import WriteWise.TestEnd

namespace WriteWise.WayOut

open Library.Runs Scancode Typing TypingSession Program RunInvariant TestEnd KeyboardCodes
  ExtendedKeys

/-- A character that some key gives, in some state of Shift and Caps Lock. -/
def Producible (c : UInt8) : Prop :=
  ∃ k b, k.currentKeyboardLayout = .portuguese ∧ getCharFromMakecode k b = c ∧ 0 < c.toInt8

def Letter (b : UInt8) : Prop :=
  keyScancodeRow2First ≤ b ∧ b ≤ keyScancodeRow2Last ∨
    keyScancodeRow3First ≤ b ∧ b ≤ keyScancodeRow3Last ∨
    keyScancodeRow4First ≤ b ∧ b ≤ keyScancodeM

instance (b : UInt8) : Decidable (Letter b) := by
  unfold Letter
  infer_instance

/-- The layout decides which rows a letter key is in, so only one branch of the search is left. -/
theorem letter_rows : ∀ b : UInt8, Letter b →
    ¬ (keyScancodeRow1First ≤ b ∧ b ≤ keyScancodeRow1Last) ∧
      ¬ (keyScancodeM < b ∧ b ≤ keyScancodeRow4Last) := by
  decide +kernel

theorem getChar_letter {k k' : Keyboard} {b : UInt8} (hb : Letter b)
    (hl : k.currentKeyboardLayout = k'.currentKeyboardLayout)
    (h : k.isShiftPressed = k.isCapsLockActive ↔ k'.isShiftPressed = k'.isCapsLockActive) :
    getCharFromMakecode k b = getCharFromMakecode k' b := by
  obtain ⟨h1, h2⟩ := letter_rows b hb
  unfold getCharFromMakecode
  rw [hl]
  cases k'.currentKeyboardLayout.table with
  | none => rfl
  | some t => simp only [if_neg h1, if_neg h2, h]

theorem getChar_other {k k' : Keyboard} {b : UInt8} (hb : ¬ Letter b)
    (hl : k.currentKeyboardLayout = k'.currentKeyboardLayout)
    (h : k.isShiftPressed = k'.isShiftPressed) :
    getCharFromMakecode k b = getCharFromMakecode k' b := by
  simp only [Letter, not_or] at hb
  obtain ⟨h2, h3, h4⟩ := hb
  unfold getCharFromMakecode
  rw [hl]
  cases k'.currentKeyboardLayout.table with
  | none => rfl
  | some t => simp only [if_neg h2, if_neg h3, if_neg h4, h]

theorem Producible.key {c : UInt8} (h : Producible c) (caps : Bool) :
    ∃ shift b, Printing b ∧ 0 < c.toInt8 ∧ ∀ k : Keyboard, k.currentKeyboardLayout = .portuguese →
      k.isShiftPressed = shift → k.isCapsLockActive = caps → getCharFromMakecode k b = c := by
  obtain ⟨k₀, b, hl₀, hc, hpos⟩ := h
  have hb : Printing b := by
    by_contra hb
    rw [getChar_of_not_printing hb] at hc
    rw [← hc] at hpos
    exact absurd hpos (by decide)
  by_cases hletter : Letter b
  · refine ⟨caps ^^ (k₀.isShiftPressed ^^ k₀.isCapsLockActive), b, hb, hpos, fun k hl hs hcaps => ?_⟩
    rw [← hc]
    refine getChar_letter hletter (hl.trans hl₀.symm) ?_
    rw [hs, hcaps]
    cases caps <;> cases k₀.isShiftPressed <;> cases k₀.isCapsLockActive <;> decide
  · refine ⟨k₀.isShiftPressed, b, hb, hpos, fun k hl hs _ => ?_⟩
    rw [← hc]
    exact getChar_other hletter (hl.trans hl₀.symm) hs

structure Running (g : List UInt8) (app : App) (s : List UInt8) (m : List Bool) : Prop where
  screen : TypingScreen app
  status : app.typingInfo.status = .typing
  session : Session app.typingInfo g s m
  layout : app.keyboard.currentKeyboardLayout = .portuguese

def key (now : UInt64) (b : UInt8) : Event := .keyboard (some b) now

def keys (now : UInt64) (bytes : List UInt8) : List Event := bytes.map (key now)

variable (random : UInt32 → Nat → Nat) {app : App} {g s : List UInt8} {m : List Bool}

theorem Running.step_key (h : Running g app s m) {b : UInt8} (hmod : ¬ Modifier b)
    (htwo : b ≠ twoBytes) (hesc : b ≠ makeEsc) (hmake : b &&& breakCode = 0) (now : UInt64) :
    ∃ k : Keyboard, k.scancode = b ∧ k.currentKeyboardLayout = .portuguese ∧
      k.isShiftPressed = app.keyboard.isShiftPressed ∧
      k.isCapsLockActive = app.keyboard.isCapsLockActive ∧
      step random app (key now b) = App.typingInputHandler (app.currAppState = .raceState)
        { app with keyboard := k } := by
  refine ⟨{ app.keyboard with
    scancode := b
    isScancodeTwoBytes := app.keyboard.isTwoBytes
    isTwoBytes := false }, rfl, h.layout, rfl, rfl, ?_⟩
  rw [key, step_keyboard h.screen, keyboardIh_key htwo hmod, if_pos rfl]
  have hscreen : TypingScreen { app with keyboard := { app.keyboard with
      scancode := b
      isScancodeTwoBytes := app.keyboard.isTwoBytes
      isTwoBytes := false } } := h.screen
  exact scancodeHandler_make hscreen now hmake (.inr hesc)

theorem Running.erase (h : Running g app s m) (now : UInt64) :
    ∃ next s', step random app (key now backspaceScancode) = some next ∧ Running g next s' m ∧
      next.typingInfo.typingCursor = app.typingInfo.typingCursor - 1 := by
  obtain ⟨k, hk, hl, -, -, hstep⟩ := h.step_key random (by decide : ¬ Modifier backspaceScancode)
    (by decide) (by decide) (by decide) now
  obtain ⟨u, hu, hst, hcur, hsess, -⟩ := @handler_erases
    { app with keyboard := k } g s m (app.currAppState = .raceState) h.status h.session hk
  exact ⟨_, _, hstep.trans hu, ⟨h.screen, hst, hsess, hl⟩, hcur⟩

theorem Running.eraseAll (h : Running g app s m) (now : UInt64) :
    ∃ bytes next s', run (step random) app (keys now bytes) = some next ∧
      Running g next s' m ∧ next.typingInfo.typingCursor = 0 := by
  induction hn : app.typingInfo.typingCursor generalizing app s with
  | zero => exact ⟨[], app, s, rfl, h, hn⟩
  | succ n ih =>
    obtain ⟨next, s', hstep, hnext, hcur⟩ := h.erase random now
    obtain ⟨bytes, last, s'', hrun, hlast⟩ := ih hnext (by omega)
    refine ⟨backspaceScancode :: bytes, last, s'', ?_, hlast⟩
    rw [keys] at hrun
    simp only [keys, List.map_cons, run, hstep, Option.bind_some, hrun]

theorem Running.shift (h : Running g app s m) (shift : Bool) (now : UInt64) :
    ∃ b next, step random app (key now b) = some next ∧ Running g next s m ∧
      next.typingInfo = app.typingInfo ∧ next.keyboard.isShiftPressed = shift ∧
      next.keyboard.isCapsLockActive = app.keyboard.isCapsLockActive := by
  cases shift with
  | true =>
    refine ⟨leftShiftScancode, _, step_keyboard h.screen _ now, ?_, rfl, rfl, rfl⟩
    exact ⟨h.screen, h.status, h.session, h.layout⟩
  | false =>
    refine ⟨leftShiftScancode ||| breakCode, _, step_keyboard h.screen _ now, ?_, rfl, rfl, rfl⟩
    exact ⟨h.screen, h.status, h.session, h.layout⟩

structure Done (g : List UInt8) (t : TypingInfo) : Prop where
  status : t.status = .finished
  typed : t.typedText.map cString = some g
  generated : t.generatedText.map cString = some g

theorem done_finish {u : TypingInfo} (hsess : Session u g s m) (hc : Complete u) (isRace : Bool)
    (app : App) : Done g (finish isRace { app with typingInfo := u }).typingInfo := by
  have hgen := cString_generated hsess
  rw [finish_typingInfo]
  exact ⟨rfl, ((right_iff_complete hsess).mpr hc).trans hgen, hgen⟩

def RightSoFar (g s : List UInt8) (t : TypingInfo) : Prop :=
  ∀ i < t.typingCursor, s[i]? = g[i]?

/-- The next character of the text takes two keys. It ends the test if it is the last one. -/
theorem Running.type (h : Running g app s m) (hright : RightSoFar g s app.typingInfo) {c : UInt8}
    (hc : g[app.typingInfo.typingCursor]? = some c) (hp : Producible c) (now : UInt64) :
    ∃ bytes next, run (step random) app (keys now bytes) = some next ∧
      (Done g next.typingInfo ∨ ∃ s' m', Running g next s' m' ∧
        RightSoFar g s' next.typingInfo ∧
        next.typingInfo.typingCursor = app.typingInfo.typingCursor + 1 ∧
        next.typingInfo.typingCursor < g.length) := by
  have hlt := (List.getElem?_eq_some_iff.mp hc).1
  obtain ⟨shift, b, hb, hpos, hchar⟩ := hp.key app.keyboard.isCapsLockActive
  obtain ⟨hmod, htwo, hback, hesc, hmake⟩ := printing_key b hb
  obtain ⟨b₀, app₀, hstep₀, h₀, ht₀, hs₀, hcaps₀⟩ := h.shift random shift now
  obtain ⟨k, hk, hl, hs, hcaps, hstep⟩ := h₀.step_key random hmod htwo hesc hmake now
  rw [← ht₀] at hlt hc hright ⊢
  obtain ⟨u, m', hu, hst, hcur, hsess⟩ := @handler_types
    { app₀ with keyboard := k } g s m (app₀.currAppState = .raceState) h₀.status h₀.session
    (by rw [hk]; exact hback) hlt c
    (by rw [hk]; exact hchar k hl (hs.trans hs₀) (hcaps.trans hcaps₀)) hpos
  have hright' : RightSoFar g (s.set app₀.typingInfo.typingCursor c) u := by
    intro i hi
    simp only at hcur
    obtain hi | rfl : i < app₀.typingInfo.typingCursor ∨ i = app₀.typingInfo.typingCursor := by
      omega
    · rw [List.getElem?_set_ne hi.ne', hright i hi]
    · rw [List.getElem?_set_self (by rw [h₀.session.typedLength]; omega), hc]
  have hrun : run (step random) app (keys now [b₀, b]) = step random app₀ (key now b) := by
    simp only [keys, List.map_cons, List.map_nil, run, hstep₀, Option.bind_some,
      Option.bind_fun_some]
  refine ⟨[b₀, b], _, hrun.trans (hstep.trans hu), ?_⟩
  by_cases hcomp : Complete u
  · rw [if_pos hcomp]
    exact .inl (done_finish hsess hcomp _ _)
  · rw [if_neg hcomp]
    refine .inr ⟨_, m', ⟨h₀.screen, hst, hsess, hl⟩, hright', hcur, ?_⟩
    have hle := hsess.cursor
    have hne : u.typingCursor ≠ g.length := fun he =>
      hcomp ((complete_iff hsess).mpr ⟨he, hright'⟩)
    exact lt_of_le_of_ne hle hne

theorem Running.typeAll (h : Running g app s m) (hright : RightSoFar g s app.typingInfo)
    (hlt : app.typingInfo.typingCursor < g.length) (hg : ∀ c ∈ g, Producible c) (now : UInt64) :
    ∃ bytes next, run (step random) app (keys now bytes) = some next ∧
      Done g next.typingInfo := by
  induction hn : g.length - app.typingInfo.typingCursor generalizing app s m with
  | zero => omega
  | succ n ih =>
    have hc := List.getElem?_eq_getElem hlt
    obtain ⟨bytes, next, hrun, hdone | ⟨s', m', hnext, hright', hcur, hlt'⟩⟩ :=
      h.type random hright hc (hg _ (List.getElem_mem hlt)) now
    · exact ⟨bytes, next, hrun, hdone⟩
    · obtain ⟨more, last, hrun', hdone⟩ := ih hnext hright' hlt' (by omega)
      refine ⟨bytes ++ more, last, ?_, hdone⟩
      rw [keys, List.map_append]
      exact run_trans hrun hrun'

/-- From every reachable state of a test, and whatever the modifiers and the prefix are,
some bytes from the keyboard end the test with the generated text. -/
theorem no_dead_end {random : UInt32 → Nat → Nat} {dictionary : List Word} {es : List Event}
    (hr : run (step random) (initial dictionary) es = some app) (hscreen : TypingScreen app)
    (hs : app.typingInfo.status = .typing)
    (hg : app.typingInfo.generatedText.map cString = some g) (hne : g ≠ [])
    (hchars : ∀ c ∈ g, Producible c) (k : Keyboard)
    (hk : k.currentKeyboardLayout = .portuguese) (now : UInt64) :
    ∃ bytes next, run (step random) { app with keyboard := k } (keys now bytes) = some next ∧
      Done g next.typingInfo := by
  obtain ⟨g', s, m, hsess⟩ := reachable_session hr (by rw [hs]; decide)
  obtain rfl : g' = g := Option.some.inj ((cString_generated hsess).symm.trans hg)
  have hstart : Running g' { app with keyboard := k } s m := ⟨hscreen, hs, hsess, hk⟩
  obtain ⟨erase, empty, s', herase, hempty, hcur⟩ := hstart.eraseAll random now
  have hright : RightSoFar g' s' empty.typingInfo := by
    intro i hi
    omega
  obtain ⟨type, next, htype, hdone⟩ := hempty.typeAll random hright
    (by rw [hcur]; exact List.length_pos_of_ne_nil hne) hchars now
  refine ⟨erase ++ type, next, ?_, hdone⟩
  rw [keys, List.map_append]
  exact run_trans herase htype

/-- The letter `s` is typed by mistake for the first `a`, with Caps Lock on and a prefix pending. -/
theorem no_dead_end_mistyped : ∃ app next bytes,
    run (step fun _ _ => 0) app (keys 9 bytes) = some next ∧
      Done ((List.range 49).map fun i => if i % 2 = 0 then 97 else 32) next.typingInfo := by
  have hchars : ∀ c ∈ ((List.range 49).map fun i => if i % 2 = 0 then (97 : UInt8) else 32),
      Producible c := by
    intro c hc
    obtain ⟨i, -, rfl⟩ := List.mem_map.mp hc
    split
    · exact ⟨{}, 0x1E, rfl, by decide, by decide⟩
    · exact ⟨{}, 0x39, rfl, by decide, by decide⟩
  obtain ⟨bytes, next, hr, hdone⟩ := @no_dead_end
    ((run (step fun _ _ => 0) (initial [⟨[97], by decide⟩])
      [.mousePress 1, .click .mainTraining 5, .keyboard (some 0x1F) 6]).getD {})
    ((List.range 49).map fun i => if i % 2 = 0 then 97 else 32) (fun _ _ => 0)
    [⟨[97], by decide⟩] [.mousePress 1, .click .mainTraining 5, .keyboard (some 0x1F) 6]
    (by decide +kernel) (.inl (by decide +kernel)) (by decide +kernel) (by decide +kernel)
    (by decide) hchars { isCapsLockActive := true, isTwoBytes := true } rfl 9
  exact ⟨_, next, bytes, hr, hdone⟩

end WriteWise.WayOut
