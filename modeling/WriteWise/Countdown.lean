import WriteWise.RunningRace

namespace WriteWise.Countdown

open Library.Runs Serial Typing Program RaceSteps

variable (random : UInt32 → Nat → Nat)

/-- Since the text came, nothing has touched the typing. -/
structure Waiting (text app : App) : Prop where
  screen : app.currAppState = .raceState
  quiet : Quiet text app

/-- Since the test began, no text has been generated and no test has been started. -/
structure Testing (begun app : App) : Prop where
  screen : app.currAppState = .raceState
  status : app.typingInfo.status = .typing ∨ app.typingInfo.status = .finished
  timeStart : app.typingInfo.timeStart = begun.typingInfo.timeStart
  generatedText : app.typingInfo.generatedText = begun.typingInfo.generatedText
  generated : app.generated = begun.generated

/-- The run has come to a byte of the opponent with which the text was generated, and
has waited for the end of the countdown since. -/
inductive Armed (start : App) (es : List Event) (app : App) : Prop
  | intro (gs : List Event) (input : UartInput) (hs : List Event) (before text : App)
      (split : es = gs ++ .serial input :: hs)
      (reach : run (step random) start gs = some before)
      (arrives : step random before (.serial input) = some text)
      (comes : TextComes before text)
      (waits : run (step random) text hs = some app)
      (still : Guarded (step random) (fun a _ => Waiting text a) text hs)
      (now : Waiting text app)

/-- The run has come to the tick that started the test, and the test goes on since. -/
inductive Begun (start : App) (es : List Event) (app : App) : Prop
  | intro (fs ts : List Event) (ready begun : App)
      (split : es = fs ++ .timer :: ts)
      (armed : Armed random start fs ready)
      (ticks : step random ready .timer = some begun)
      (starts : Starts ready begun)
      (types : run (step random) begun ts = some app)
      (still : Guarded (step random) (fun a _ => Testing begun a) begun ts)
      (now : Testing begun app)

/-- Where the typing state of the race screen comes from. -/
def Accounted (start : App) (es : List Event) (app : App) : Prop :=
  app.currAppState = .raceState →
    match app.typingInfo.status with
    | .unready => app.typingInfo = resetTypingInfo
    | .ready => Armed random start es app
    | .typing | .finished => Begun random start es app

variable {random} {start app next : App} {es : List Event} {e : Event}

theorem Waiting.refl {text : App} (h : text.currAppState = .raceState) : Waiting text text :=
  ⟨h, .refl text⟩

theorem Armed.concat (h : Armed random start es app) (hstep : step random app e = some next)
    (hn : next.currAppState = .raceState) (hq : Quiet app next) :
    Armed random start (es ++ [e]) next := by
  obtain ⟨gs, input, hs, before, text, hsplit, hreach, harr, htext, hwait, hstill, hnow⟩ := h
  refine ⟨gs, input, hs ++ [e], before, text, ?_, hreach, harr, htext, ?_, ?_, hn,
    hnow.quiet.trans hq⟩
  · rw [hsplit, List.append_assoc, List.cons_append]
  · exact run_snoc hwait hstep
  · refine hstill.concat fun t ht => ?_
    cases hwait.symm.trans ht
    exact hnow

theorem Begun.concat (h : Begun random start es app) (hstep : step random app e = some next)
    (hn : ∀ begun, Testing begun app → Testing begun next) :
    Begun random start (es ++ [e]) next := by
  obtain ⟨fs, ts, ready, begun, hsplit, harmed, hticks, hstarts, htypes, hstill, hnow⟩ := h
  refine ⟨fs, ts ++ [e], ready, begun, ?_, harmed, hticks, hstarts, ?_, ?_, hn begun hnow⟩
  · rw [hsplit, List.append_assoc, List.cons_append]
  · exact run_snoc htypes hstep
  · refine hstill.concat fun t ht => ?_
    cases htypes.symm.trans ht
    exact hnow

theorem Testing.progress {begun : App} (h : Testing begun app)
    (hn : next.currAppState = .raceState) (hp : Progress app next) : Testing begun next :=
  ⟨hn, hp.after, hp.timeStart.trans h.timeStart, hp.generatedText.trans h.generatedText,
    hp.generated.trans h.generated⟩

theorem Testing.quiet {begun : App} (h : Testing begun app)
    (hn : next.currAppState = .raceState) (hq : Quiet app next) : Testing begun next :=
  ⟨hn, hq.typingInfo ▸ h.status, hq.typingInfo ▸ h.timeStart, hq.typingInfo ▸ h.generatedText,
    hq.generated.trans h.generated⟩

theorem Accounted.unready (h : app.typingInfo = resetTypingInfo) :
    Accounted random start es app := by
  intro _
  rw [h]
  rfl

theorem Accounted.armed (hs : app.typingInfo.status = .ready) (h : Armed random start es app) :
    Accounted random start es app := by
  intro _
  rw [hs]
  exact h

theorem Accounted.begun (hs : app.typingInfo.status = .typing ∨ app.typingInfo.status = .finished)
    (h : Begun random start es app) : Accounted random start es app := by
  intro _
  obtain hs | hs := hs
  · rw [hs]
    exact h
  · rw [hs]
    exact h

theorem accounted_step (hr : run (step random) start es = some app)
    (h : Accounted random start es app) (hstep : step random app e = some next) :
    Accounted random start (es ++ [e]) next := by
  by_cases hrace : app.currAppState = .raceState
  swap
  · intro hn
    exact Accounted.unready (step_enter hrace hn hstep) hn
  obtain ⟨hm, -⟩ | ⟨hn, hc⟩ := step_change hrace hstep
  · intro hn
    cases hm.symm.trans hn
  have hacc := h hrace
  cases hc with
  | launch input m he hm hl text =>
    subst he
    exact .armed text.status ⟨es, input, [], app, next, rfl, hr, hstep, text, rfl, trivial,
      .refl hn⟩
  | reset he ht => exact .unready ht
  | start he hst =>
    subst he
    rw [hst.before] at hacc
    have hts : next.typingInfo.status = .typing := by
      rw [hst.typingInfo]
      rfl
    exact .begun (.inl hts) ⟨es, [], app, next, rfl, hacc, hstep, hst, rfl, trivial, hn, .inl hts,
      rfl, rfl, rfl⟩
  | progress hp =>
    rw [hp.before] at hacc
    exact .begun hp.after (Begun.concat hacc hstep fun _ ht => ht.progress hn hp)
  | quiet hq =>
    have hst := congrArg TypingInfo.status hq.typingInfo
    cases hs : app.typingInfo.status with
    | unready =>
      rw [hs] at hacc
      exact .unready (hq.typingInfo.trans hacc)
    | ready =>
      rw [hs] at hacc
      exact .armed (hst.trans hs) (Armed.concat hacc hstep hn hq)
    | typing =>
      rw [hs] at hacc
      exact .begun (.inl (hst.trans hs)) (Begun.concat hacc hstep fun _ ht => ht.quiet hn hq)
    | finished =>
      rw [hs] at hacc
      exact .begun (.inr (hst.trans hs)) (Begun.concat hacc hstep fun _ ht => ht.quiet hn hq)

theorem accounted_run (hs : start.currAppState ≠ .raceState)
    (hr : run (step random) start es = some app) : Accounted random start es app := by
  have h := @history _ _ (step random)
    (fun es a => run (step random) start es = some a ∧ Accounted random start es a) start app es
    (fun es a e b ha hb => ⟨run_snoc ha.1 hb,
      accounted_step ha.1 ha.2 hb⟩) ⟨rfl, fun hc => absurd hc hs⟩ hr
  exact h.2

/-- Nobody types before the countdown is over: a test that runs or has run was started by
the timer, more than five seconds after its text was generated, and keys do nothing before. -/
theorem typing_after_countdown {dictionary : List Word}
    (hr : run (step random) (initial dictionary) es = some app)
    (hrace : app.currAppState = .raceState) :
    (app.typingInfo.status = .typing ∨ app.typingInfo.status = .finished ∨
        0 < app.typingInfo.typedChars →
      ∃ gs input hs ts before text ready begun,
        es = gs ++ .serial input :: hs ++ .timer :: ts ∧
        run (step random) (initial dictionary) gs = some before ∧
        step random before (.serial input) = some text ∧ TextComes before text ∧
        run (step random) text hs = some ready ∧
        Guarded (step random) (fun a _ => Waiting text a) text hs ∧ Waiting text ready ∧
        step random ready .timer = some begun ∧
        begun.typingInfo = startTyping begun.timerCounter text.typingInfo ∧
        text.racingInfo.startTime < begun.timerCounter ∧
        text.timerCounter + 5 * frameRate < begun.timerCounter ∧
        run (step random) begun ts = some app ∧
        Guarded (step random) (fun a _ => Testing begun a) begun ts ∧ Testing begun app) ∧
    (app.typingInfo.status ≠ .typing → ∀ byte now next,
      step random app (.keyboard byte now) = some next → next.typingInfo = app.typingInfo) := by
  have hacc := accounted_run (show AppState.startState ≠ .raceState by decide) hr hrace
  constructor
  · intro ht
    have hb : Begun random (initial dictionary) es app := by
      cases hs : app.typingInfo.status with
      | unready =>
        rw [hs] at hacc ht
        rw [show app.typingInfo = resetTypingInfo from hacc] at ht
        obtain h | h | h := ht
        · cases h
        · cases h
        · exact absurd h (lt_irrefl 0)
      | ready =>
        rw [hs] at hacc ht
        obtain ⟨_, _, _, _, text, _, _, _, hcomes, _, _, hnow⟩ := hacc
        rw [hnow.quiet.typingInfo, hcomes.typedChars] at ht
        obtain h | h | h := ht
        · cases h
        · cases h
        · exact absurd h (lt_irrefl 0)
      | typing =>
        rw [hs] at hacc
        exact hacc
      | finished =>
        rw [hs] at hacc
        exact hacc
    obtain ⟨fs, ts, ready, begun, rfl, harmed, hticks, hstarts, htypes, hstill, hnow⟩ := hb
    obtain ⟨gs, input, hs, before, text, rfl, hreach, harr, hcomes, hwait, hstill', hnow'⟩ := harmed
    have hlate : text.racingInfo.startTime < begun.timerCounter :=
      hnow'.quiet.startTime ▸ hstarts.late
    refine ⟨gs, input, hs, ts, before, text, ready, begun, rfl, hreach, harr, hcomes, hwait,
      hstill', hnow', hticks, ?_, hlate, ?_, htypes, hstill, hnow⟩
    · rw [hstarts.typingInfo, hnow'.quiet.typingInfo]
    · rw [hcomes.startTime] at hlate
      omega
  · intro hs byte now next hn
    obtain ⟨-, hq⟩ | ⟨-, hc⟩ := step_change hrace hn
    · exact hq.typingInfo
    cases hc with
    | launch input m he => cases he
    | reset he => exact absurd he id
    | start he => cases he
    | progress hp => exact absurd hp.before hs
    | quiet hq => exact hq.typingInfo

theorem typing_after_countdown_under_way : ∃ text begun : App,
    text.timerCounter + 5 * frameRate < begun.timerCounter ∧
      Testing begun (RunningRace.after RunningRace.underWay) := by
  obtain ⟨_, _, _, _, _, text, _, begun, _, _, _, _, _, _, _, _, _, _, hlate, _, _, hnow⟩ :=
    (typing_after_countdown
      (show run (step fun _ _ => 0) (initial [⟨[97], by decide⟩]) RunningRace.underWay =
        some (RunningRace.after RunningRace.underWay) by decide +kernel)
      (by decide +kernel)).1 (.inl (by decide +kernel))
  exact ⟨text, begun, hlate, hnow⟩

end WriteWise.Countdown
