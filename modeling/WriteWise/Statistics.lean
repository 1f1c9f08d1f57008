import WriteWise.AckWait
import WriteWise.Display

namespace WriteWise.Statistics

open Library.Runs Library.Decimal Scancode Serial Typing TypingSession Program Steps RunInvariant
  TextGeneration ScreenFit Display

/-- A property of `typingInfo` that everything keeps by which the program reaches it. -/
structure Closed (random : UInt32 → Nat → Nat) (dictionary : List Word) (P : TypingInfo → Prop) :
    Prop where
  generate {seed : UInt32} {t : TypingInfo} (h : generateText dictionary random 25 seed = some t) :
    P t
  reset : P resetTypingInfo
  start {t : TypingInfo} (h : P t) (hs : t.status = .ready) (now : Nat) : P (startTyping now t)
  update {t : TypingInfo} (h : P t) (now : Nat) : P (updateTypingInfo now t)
  finish {t : TypingInfo} (h : P t) (hs : t.status = .typing) (now : Nat) : P (endTyping now t)
  typeChar {t u : TypingInfo} {c : UInt8} (h : P t) (hs : t.status = .typing)
    (hlt : t.typingCursor < t.generatedTextSize) (hu : typeChar c t = some u) : P u
  eraseChar {t u : TypingInfo} (h : P t) (hs : t.status = .typing) (hu : eraseChar t = some u) : P u

namespace Closed

variable {random : UInt32 → Nat → Nat} {P : TypingInfo → Prop} {app next : App}

theorem generateText {seed : UInt32} (hc : Closed random app.dictionary P)
    (hr : app.generateText random 25 seed = some next) : P next.typingInfo := by
  obtain ⟨t, ht, rfl⟩ := Option.map_eq_some_iff.mp hr
  exact hc.generate ht

theorem checkIfReady (hr : app.checkIfReady random = some next)
    (hc : Closed random app.dictionary P) (h : P app.typingInfo) : P next.typingInfo := by
  unfold App.checkIfReady at hr
  split at hr
  · obtain ⟨u, hu, rfl⟩ := Option.map_eq_some_iff.mp hr
    have hP := generateText hc hu
    exact hP
  · cases hr
    exact h

theorem handleControl {byte : UInt8} (hc : Closed random app.dictionary P) (h : P app.typingInfo)
    (hr : app.handleControl random byte = some next) : P next.typingInfo := by
  unfold App.handleControl at hr
  split at hr
  · cases hr
    exact h
  split at hr
  · cases hr
    exact h
  have hwon : P (app.handleWon byte).typingInfo := by
    unfold App.handleWon
    split
    · rename_i hw
      exact hc.finish h hw.1 _
    · exact h
  have hexit : P ((app.handleWon byte).handleExit byte).typingInfo := by
    unfold App.handleExit
    split
    · exact hc.reset
    · exact hwon
  have hdict : ((app.handleWon byte).handleExit byte).dictionary = app.dictionary :=
    (keeps_handleExit byte _).dictionary.trans (keeps_handleWon byte app).dictionary
  rw [← hdict] at hc
  obtain ⟨-, rfl⟩ | ⟨-, u, hu, rfl⟩ := handleAck_step hr
  · exact hexit
  cases hu with
  | ack => exact hexit
  | readyAck hu =>
    have hP := checkIfReady hu hc hexit
    exact hP
  | nreadyAck => exact hexit
  | other => exact hexit

theorem handleMessage {m : Message} (hc : Closed random app.dictionary P) (h : P app.typingInfo)
    (hr : app.handleMessage random m = some next) : P next.typingInfo := by
  cases m with
  | ulong seed =>
    obtain ⟨u, hu, rfl⟩ := Option.map_eq_some_iff.mp hr
    split at hu
    · obtain ⟨v, hv, rfl⟩ := Option.map_eq_some_iff.mp hu
      have hP := checkIfReady hv hc h
      exact hP
    · cases hu
      exact h
  | control byte => exact handleControl hc h hr
  | _ =>
    cases hr
    exact h

theorem running {isRace : Bool} (hc : Closed random app.dictionary P) (h : P app.typingInfo)
    (hs : app.typingInfo.status = .typing) (hr : app.typingInputHandler isRace = some next) :
    P next.typingInfo := by
  rw [handler_running hs] at hr
  split at hr
  · obtain ⟨u, hu, rfl⟩ := Option.map_eq_some_iff.mp hr
    exact hc.eraseChar h hs hu
  split at hr
  · rename_i hlt
    obtain ⟨u, hu, rfl⟩ := Option.map_eq_some_iff.mp hr
    have hP := hc.typeChar h hs hlt hu
    split
    · rw [finish_typingInfo]
      exact hc.finish hP ((RaceSteps.typeChar_keeps hu).1.trans hs) _
    · exact hP
  · cases hr
    exact h

theorem typingInputHandler {isRace : Bool} (hc : Closed random app.dictionary P)
    (h : P app.typingInfo) (hr : app.typingInputHandler isRace = some next) :
    P next.typingInfo := by
  by_cases hs : app.typingInfo.status = .typing
  · exact running hc h hs hr
  by_cases hidle : isRace = true ∨ app.typingInfo.status ≠ .ready
  · cases (handler_idle hs hidle).symm.trans hr
    exact h
  · obtain ⟨hrace, hready⟩ := not_or.mp hidle
    obtain rfl : isRace = false := by simpa using hrace
    rw [handler_start (not_not.mp hready)] at hr
    exact @running random P app.startTyping next false hc (hc.start h (not_not.mp hready) _) rfl hr

theorem timerInterrupt (hc : Closed random app.dictionary P) (h : P app.typingInfo) :
    P app.timerInterrupt.typingInfo := by
  have hhalf : ∀ a : App, P a.typingInfo → P a.halfSecond.typingInfo := by
    intro a ha
    unfold App.halfSecond
    split
    · exact hc.update ha _
    · exact ha
  have hcount : ∀ a : App, P a.typingInfo → P a.countdown.typingInfo := by
    intro a ha
    unfold App.countdown
    split
    · rename_i hs
      simp only
      split
      · exact hc.start ha hs _
      · exact ha
    · exact ha
  rw [TestEnd.timer_typingInfo, App.tick]
  simp only
  split
  · exact hhalf _ h
  split
  · exact hcount _ (hhalf _ h)
  · exact h

theorem changeState {newState : AppState} {now : UInt64} (hc : Closed random app.dictionary P)
    (h : P app.typingInfo) (hr : app.changeState random newState now = some next) :
    P next.typingInfo := by
  have hexit : ∀ a, a = (if app.currAppState = .raceState then app.call serialPortSendExit
      else app) → a.dictionary = app.dictionary ∧ P a.typingInfo := by
    rintro a rfl
    split
    · exact ⟨rfl, h⟩
    · exact ⟨rfl, h⟩
  obtain ⟨hdict, hP⟩ := hexit _ rfl
  unfold App.changeState at hr
  cases newState with
  | trainingState => exact generateText (hdict ▸ hc) hr
  | raceState =>
    cases hr
    exact hc.reset
  | _ =>
    cases hr
    exact hP

theorem step {e : Event} (hc : Closed random app.dictionary P) (h : P app.typingInfo)
    (hr : Program.step random app e = some next) : P next.typingInfo := by
  cases round_of_step hr with
  | timer does =>
    subst does
    exact timerInterrupt hc h
  | serial input does =>
    unfold App.serialInterrupt at does
    split at does
    · cases does
      exact h
    simp only at does
    split at does
    · cases does
      exact h
    · refine handleMessage ?_ ?_ does
      · exact hc
      · exact h
  | screen keyboard newState now home does =>
    have hP := @changeState random P { app with keyboard := keyboard } next newState now hc h does
    exact hP
  | typing byte now keyboard does =>
    have hP := @typingInputHandler random P { app with keyboard := keyboard } next _ hc h does
    exact hP
  | ready now screen does =>
    subst does
    rw [(RaceSteps.raceReadyButton_quiet app now).typingInfo]
    exact h
  | reset now screen does =>
    subst does
    unfold App.raceResetButton
    split
    · exact hc.reset
    · exact h
  | training now screen does => exact generateText hc does
  | idle keyboard does =>
    subst does
    exact h
  | kernel answers does =>
    subst does
    exact h

theorem reachable {dictionary : List Word} {es : List Event} (hc : Closed random dictionary P)
    (hr : run (Program.step random) (initial dictionary) es = some app) : P app.typingInfo := by
  have h : app.dictionary = dictionary ∧ P app.typingInfo :=
    @invariant _ _ (Program.step random) (fun _ _ => True)
      (fun a => a.dictionary = dictionary ∧ P a.typingInfo)
      (fun _ _ _ ha _ hs => ⟨(keeps_step hs).dictionary.trans ha.1, step (ha.1 ▸ hc) ha.2 hs⟩)
      _ _ _ ⟨rfl, hc.reset⟩ (guarded_of_forall (fun _ _ _ => trivial) _) hr
  exact h.2

end Closed

section Pace

/-- The session is valid, its text is not longer than `longest`, and nobody has typed faster
than one character in each sixtieth of a second. -/
structure Paced (longest : Nat) (t : TypingInfo) : Prop where
  valid : Valid t
  size : t.generatedTextSize ≤ longest
  slow : t.wpm ≤ (720 * longest : Nat)

variable {longest : Nat} {t u : TypingInfo}

theorem typedChars_le (h : Valid t) : t.typedChars ≤ t.generatedTextSize := by
  by_cases hs : t.status = .unready
  · have hclear := h.cleared hs
    rw [hclear.typedChars]
    exact Nat.zero_le _
  · obtain ⟨g, s, m, hsess⟩ := h.session hs
    rw [hsess.typedChars, hsess.size]
    exact hsess.cursor

/-- The clock counts sixtieths of a second, and a word has five characters. -/
theorem wpm_calc (h : t.typedChars ≤ longest) :
    (calcTypingStatus t).wpm ≤ (720 * longest : Nat) := by
  simp only [calcTypingStatus]
  by_cases hz : ulongSub t.timeEnd t.timeStart = 0
  · rw [if_pos hz]
    exact Nat.cast_nonneg _
  · rw [if_neg hz, if_neg hz]
    have hdiff : (1 : ℚ) ≤ (ulongSub t.timeEnd t.timeStart : ℚ) := by
      exact_mod_cast Nat.one_le_iff_ne_zero.mpr hz
    have hchars : ((t.typedChars * 60 % sizeBound : Nat) : ℚ) ≤ 60 * longest := by
      have hle : t.typedChars * 60 % sizeBound ≤ 60 * longest :=
        (Nat.mod_le _ _).trans (by omega)
      exact_mod_cast hle
    rw [div_div, div_le_iff₀ (by positivity)]
    push_cast
    calc ((t.typedChars * 60 % sizeBound : Nat) : ℚ) ≤ 60 * longest := hchars
      _ = 720 * longest * (1 / 60 * 5) := by ring
      _ ≤ 720 * longest * ((ulongSub t.timeEnd t.timeStart : ℚ) / 60 * 5) := by gcongr

theorem typeChar_frame {c : UInt8} (h : typeChar c t = some u) :
    u.generatedTextSize = t.generatedTextSize ∧ u.wpm = t.wpm := by
  unfold typeChar at h
  split at h
  · obtain ⟨mistake, -, h⟩ := Option.bind_eq_some_iff.mp h
    obtain ⟨wanted, -, h⟩ := Option.bind_eq_some_iff.mp h
    obtain ⟨marked, -, h⟩ := Option.bind_eq_some_iff.mp h
    obtain ⟨typed, -, rfl⟩ := Option.map_eq_some_iff.mp h
    exact ⟨rfl, rfl⟩
  · cases h
    exact ⟨rfl, rfl⟩

theorem eraseChar_frame (h : eraseChar t = some u) :
    u.generatedTextSize = t.generatedTextSize ∧ u.wpm = t.wpm := by
  unfold eraseChar at h
  split at h
  · cases h
    exact ⟨rfl, rfl⟩
  obtain ⟨mistake, -, h⟩ := Option.bind_eq_some_iff.mp h
  obtain ⟨v, hv, h⟩ := Option.bind_eq_some_iff.mp h
  obtain ⟨typed, -, rfl⟩ := Option.map_eq_some_iff.mp h
  split at hv
  · obtain ⟨typed, -, hv⟩ := Option.bind_eq_some_iff.mp hv
    obtain ⟨wanted, -, hv⟩ := Option.bind_eq_some_iff.mp hv
    cases hv
    exact ⟨rfl, rfl⟩
  · cases hv
    exact ⟨rfl, rfl⟩

theorem valid_typeChar {c : UInt8} (h : Valid t) (hs : t.status = .typing)
    (hlt : t.typingCursor < t.generatedTextSize) (hu : typeChar c t = some u) : Valid u := by
  obtain ⟨g, s, m, hsess⟩ := h.session (by rw [hs]; decide)
  by_cases hc : 0 < c.toInt8
  · rw [hsess.size] at hlt
    obtain ⟨v, hv, hst, hacc, -, mark, -, hnew⟩ := hsess.typeChar hlt hc
    cases hv.symm.trans hu
    refine ⟨fun hn => ?_, fun _ => ⟨g, _, _, hnew⟩, hacc ▸ h.acc⟩
    cases (hst.trans hs).symm.trans hn
  · rw [typeChar, if_neg hc] at hu
    cases hu
    exact h

theorem valid_eraseChar (h : Valid t) (hs : t.status = .typing) (hu : eraseChar t = some u) :
    Valid u := by
  obtain ⟨g, s, m, hsess⟩ := h.session (by rw [hs]; decide)
  obtain ⟨v, hv, hst, hacc, -, hnew⟩ := hsess.eraseChar
  cases hv.symm.trans hu
  refine ⟨fun hn => ?_, fun _ => ⟨g, _, _, hnew⟩, hacc ▸ h.acc⟩
  cases (hst.trans hs).symm.trans hn

/-- A text of 25 short words has at most 424 characters, and the pace never gets above one
character in each tick of the clock. -/
theorem paced_closed {random : UInt32 → Nat → Nat} {dictionary : List Word}
    (hdict : ∀ w ∈ dictionary, Short w) : Closed random dictionary (Paced 424) where
  generate := by
    intro seed t h
    obtain ⟨-, -, g, s, m, hsess⟩ := generateText_session h
    obtain ⟨words, hlen, hmem, htext⟩ := generateText_words h
    have hjoined : joined words = g := by
      have heq := htext.symm.trans hsess.generated
      rw [Option.some.injEq] at heq
      exact List.append_cancel_right heq
    have hle := length_joined_le fun w hw => (hdict w (hmem w hw)).2.1
    rw [hlen, hjoined] at hle
    refine ⟨.generate h, hsess.size.trans_le hle, ?_⟩
    obtain ⟨r, -, rfl⟩ := Option.map_eq_some_iff.mp h
    exact Nat.cast_nonneg _
  reset := ⟨.reset, Nat.zero_le _, Nat.cast_nonneg _⟩
  start h hs now := ⟨h.valid.start hs now, h.size, h.slow⟩
  update := by
    intro t h now
    refine ⟨h.valid.update now, ?_, ?_⟩
    · rw [(TestEnd.SameTest.update t now).size]
      exact h.size
    · unfold updateTypingInfo
      split
      · exact @wpm_calc 424 { t with timeEnd := now } ((typedChars_le h.valid).trans h.size)
      · exact h.slow
  finish h hs now := by
    refine ⟨h.valid.endTyping (by rw [hs]; decide) now, h.size, ?_⟩
    exact wpm_calc ((typedChars_le h.valid).trans h.size)
  typeChar h hs hlt hu := by
    obtain ⟨hsize, hwpm⟩ := typeChar_frame hu
    exact ⟨valid_typeChar h.valid hs hlt hu, hsize.trans_le h.size, hwpm.trans_le h.slow⟩
  eraseChar h hs hu := by
    obtain ⟨hsize, hwpm⟩ := eraseChar_frame hu
    exact ⟨valid_eraseChar h.valid hs hu, hsize.trans_le h.size, hwpm.trans_le h.slow⟩

end Pace

section Countdown

open RaceSteps AckWait

variable {random : UInt32 → Nat → Nat} {app next : App}

/-- A race whose text is there begins within five seconds. -/
def Counting (app : App) : Prop :=
  app.currAppState = .raceState → app.typingInfo.status = .ready →
    app.racingInfo.startTime ≤ app.timerCounter + 5 * frameRate

theorem counting_step {e : Event} (h : Counting app) (hr : step random app e = some next) :
    Counting next := by
  intro hrace hready
  by_cases hbefore : app.currAppState = .raceState
  swap
  · rw [step_enter hbefore hrace hr] at hready
    cases hready
  obtain ⟨hmain, -⟩ | ⟨-, hchange⟩ := step_change hbefore hr
  · cases hmain.symm.trans hrace
  cases hchange with
  | launch input m he hm hl text =>
    rw [text.startTime, Nat.add_comm]
  | reset he ht =>
    rw [ht] at hready
    cases hready
  | start he hs =>
    rw [hs.typingInfo] at hready
    cases hready
  | progress hp =>
    obtain hs | hs := hp.after
    · cases hs.symm.trans hready
    · cases hs.symm.trans hready
  | quiet hq =>
    rw [hq.typingInfo] at hready
    have hask : ask app e = none := by
      cases e with
      | click button now =>
        cases button with
        | raceReady =>
          refine if_neg fun hc => ?_
          cases hc.2.symm.trans hready
        | _ => rfl
      | _ => rfl
    have hclock := (noAsk_step hr hask).clock
    rw [hq.startTime]
    exact (h hbefore hready).trans (Nat.add_le_add_right hclock _)

theorem counting_reachable {dictionary : List Word} {es : List Event}
    (hr : run (step random) (initial dictionary) es = some app) : Counting app := by
  have hstart : Counting (initial dictionary) := by
    intro hrace
    cases hrace
  exact @invariant _ _ (step random) (fun _ _ => True) Counting
    (fun _ _ _ h _ hs => counting_step h hs) _ _ _ hstart
    (guarded_of_forall (fun _ _ _ => trivial) _) hr

end Countdown

section Texts

def accText (t : TypingInfo) : Option (List UInt8) := store 10 (fixed2 t.acc ++ bytes "%")

def wpmText (t : TypingInfo) : Option (List UInt8) := store 10 (fixed2 t.wpm)

def charsText (t : TypingInfo) : Option (List UInt8) :=
  store 10 (signedDecimal t.typedChars ++ bytes "/" ++ signedDecimal t.generatedTextSize)

theorem store_some {size : Nat} {text : List UInt8} (h : text.length < size) :
    store size text = some text := if_pos h

variable {t : TypingInfo}

/-- The arrays are long enough, that of the pace to the last byte. -/
theorem texts_fit (h : Paced 424 t) :
    (∃ str, accText t = some str ∧ str.length ≤ 7) ∧
      (∃ str, wpmText t = some str ∧ str.length ≤ 9) ∧
        ∃ str, charsText t = some str ∧ str.length ≤ 7 := by
  have hacc : (fixed2 t.acc ++ bytes "%").length ≤ 7 := by
    have hle : t.acc ≤ (100 : Nat) := h.valid.acc.2
    have hlen := @length_fixed2_le 3 100 t.acc (by decide) hle (by decide)
    have hpercent : (bytes "%").length = 1 := rfl
    rw [List.length_append, hpercent]
    omega
  have hwpm : (fixed2 t.wpm).length ≤ 9 :=
    @length_fixed2_le 6 (720 * 424) t.wpm (by decide) h.slow (by decide)
  have hchars : (signedDecimal t.typedChars ++ bytes "/" ++
      signedDecimal t.generatedTextSize).length ≤ 7 := by
    have hsize := h.size
    have htyped := (typedChars_le h.valid).trans hsize
    have hleft := @length_decimal_le t.typedChars 3 (by decide) (by omega)
    have hright := @length_decimal_le t.generatedTextSize 3 (by decide) (by omega)
    have hslash : (bytes "/").length = 1 := rfl
    rw [signedDecimal_of_lt (by omega), signedDecimal_of_lt (by omega), List.length_append,
      List.length_append, hslash]
    omega
  exact ⟨⟨_, store_some (by omega), hacc⟩, ⟨_, store_some (by omega), hwpm⟩,
    ⟨_, store_some (by omega), hchars⟩⟩

end Texts

end WriteWise.Statistics
