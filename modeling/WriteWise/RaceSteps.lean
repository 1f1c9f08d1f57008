import WriteWise.TestEnd

namespace WriteWise.RaceSteps

open Library.Runs Scancode Serial Typing TypingSession Program Steps RunInvariant TestEnd

/-- The message is the last one that `checkIfReady` waits for. -/
def Launches (app : App) : Message → Prop
  | .ulong seed =>
    app.waitingForSeed = true ∧ RacingInfo.BothReady { app.racingInfo with seedYou := seed }
  | .control byte =>
    byte = infoReadyAck ∧ app.port.waitingAckSerialPort = true ∧
      RacingInfo.BothReady { app.racingInfo with readyMe := true }
  | _ => False

instance (app : App) : DecidablePred (Launches app)
  | .ulong _ => inferInstanceAs (Decidable (_ ∧ _))
  | .control _ => inferInstanceAs (Decidable (_ ∧ _))
  | .long _ | .uint _ | .int _ | .float _ | .double _ => .isFalse id

structure TextComes (app next : App) : Prop where
  generated : ∃ seed, next.generated = app.generated ++ [seed]
  status : next.typingInfo.status = .ready
  typedChars : next.typingInfo.typedChars = 0
  startTime : next.racingInfo.startTime = 5 * frameRate + next.timerCounter

structure Quiet (app next : App) : Prop where
  typingInfo : next.typingInfo = app.typingInfo
  startTime : next.racingInfo.startTime = app.racingInfo.startTime
  generated : next.generated = app.generated

structure Progress (app next : App) : Prop where
  before : app.typingInfo.status = .typing
  after : next.typingInfo.status = .typing ∨ next.typingInfo.status = .finished
  timeStart : next.typingInfo.timeStart = app.typingInfo.timeStart
  generatedText : next.typingInfo.generatedText = app.typingInfo.generatedText
  startTime : next.racingInfo.startTime = app.racingInfo.startTime
  generated : next.generated = app.generated

/-- What a program does with a message, as far as the typing is concerned. -/
inductive Heard (app next : App) (m : Message) : Prop
  | launch (launches : Launches app m) (text : TextComes app next)
  | exit (message : m = .control infoExit) (typingInfo : next.typingInfo = resetTypingInfo)
      (generated : next.generated = app.generated)
  | won (message : m = .control infoWon) (progress : Progress app next)
      (same : SameTest app.typingInfo next.typingInfo)
  | quiet (silent : ¬ Launches app m) (quiet : Quiet app next)

theorem Quiet.refl (app : App) : Quiet app app := ⟨rfl, rfl, rfl⟩

theorem Quiet.trans {a b c : App} (hab : Quiet a b) (hbc : Quiet b c) : Quiet a c :=
  ⟨hbc.typingInfo.trans hab.typingInfo, hbc.startTime.trans hab.startTime,
    hbc.generated.trans hab.generated⟩

theorem Progress.quiet {a b c : App} (h : Progress a b) (hq : Quiet b c) : Progress a c :=
  ⟨h.before, hq.typingInfo ▸ h.after, hq.typingInfo ▸ h.timeStart, hq.typingInfo ▸ h.generatedText,
    hq.startTime.trans h.startTime, hq.generated.trans h.generated⟩

section Messages

variable {random : UInt32 → Nat → Nat} {app next : App}

theorem generateText_typedChars {dictionary : List Word} {n : Nat} {seed : UInt32}
    {t : TypingInfo} (h : generateText dictionary random n seed = some t) : t.typedChars = 0 := by
  unfold generateText at h
  obtain ⟨r, -, rfl⟩ := Option.map_eq_some_iff.mp h
  rfl

theorem checkIfReady_cases (h : app.checkIfReady random = some next) :
    next.currAppState = app.currAppState ∧
      ((app.racingInfo.BothReady ∧ TextComes app next) ∨
        ¬ app.racingInfo.BothReady ∧ next = app) := by
  unfold App.checkIfReady at h
  split at h
  · obtain ⟨u, hu, rfl⟩ := Option.map_eq_some_iff.mp h
    obtain ⟨t, ht, rfl⟩ := Option.map_eq_some_iff.mp hu
    exact ⟨rfl, .inl ⟨‹_›, ⟨_, rfl⟩, (generateText_session ht).1, generateText_typedChars ht, rfl⟩⟩
  · cases h
    exact ⟨rfl, .inr ⟨‹_›, rfl⟩⟩

/-- Only a positive answer to a waiting program makes it look whether the race can begin. -/
theorem handleAck_cases {byte : UInt8} (h : app.handleAck random byte = some next) :
    next.currAppState = app.currAppState ∧
      ((Launches app (.control byte) ∧ TextComes app next) ∨
        ¬ Launches app (.control byte) ∧ Quiet app next) := by
  obtain ⟨hw, rfl⟩ | ⟨hw, u, hu, rfl⟩ := handleAck_step h
  · exact ⟨rfl, .inr ⟨fun hl => absurd (hw.symm.trans hl.2.1) (by decide), .refl _⟩⟩
  cases hu with
  | ack => exact ⟨rfl, .inr ⟨fun hl => absurd hl.1 (by decide), rfl, rfl, rfl⟩⟩
  | readyAck hu =>
    obtain ⟨hscreen, ⟨hb, ht⟩ | ⟨hb, rfl⟩⟩ := checkIfReady_cases hu
    · exact ⟨hscreen, .inl ⟨⟨rfl, hw, hb⟩, ht.generated, ht.status, ht.typedChars, ht.startTime⟩⟩
    · exact ⟨rfl, .inr ⟨fun hl => hb hl.2.2, rfl, rfl, rfl⟩⟩
  | nreadyAck => exact ⟨rfl, .inr ⟨fun hl => absurd hl.1 (by decide), rfl, rfl, rfl⟩⟩
  | other _ hrack _ => exact ⟨rfl, .inr ⟨fun hl => hrack hl.1, rfl, rfl, rfl⟩⟩

theorem handleWon_progress (hs : app.typingInfo.status = .typing) :
    Progress app (app.handleWon infoWon) ∧
      SameTest app.typingInfo (app.handleWon infoWon).typingInfo ∧
      (app.handleWon infoWon).currAppState = app.currAppState := by
  rw [App.handleWon, if_pos ⟨hs, rfl⟩]
  exact ⟨⟨hs, .inr rfl, rfl, rfl, rfl, rfl⟩, .endTyping _ _, rfl⟩

theorem handleControl_cases {byte : UInt8} (h : app.handleControl random byte = some next) :
    next.currAppState = app.currAppState ∧ Heard app next (.control byte) := by
  unfold App.handleControl at h
  split at h
  · rename_i hc
    cases h
    have hsilent : ¬ Launches app (.control byte) := fun hl => absurd (hl.1.symm.trans hc.2)
      (by decide)
    exact ⟨rfl, .quiet hsilent ⟨rfl, rfl, rfl⟩⟩
  split at h
  · rename_i hc
    cases h
    have hsilent : ¬ Launches app (.control byte) := fun hl => absurd (hl.1.symm.trans hc.2)
      (by decide)
    exact ⟨rfl, .quiet hsilent ⟨rfl, rfl, rfl⟩⟩
  by_cases hwon : app.typingInfo.status = .typing ∧ byte = infoWon
  · obtain ⟨hs, rfl⟩ := hwon
    obtain ⟨hp, hsame, hwscreen⟩ := handleWon_progress hs
    rw [handleExit_skip _ (by decide)] at h
    obtain ⟨hscreen, ⟨hl, -⟩ | ⟨-, hq⟩⟩ := handleAck_cases h
    · exact absurd hl.1 (by decide)
    · exact ⟨hscreen.trans hwscreen, .won rfl (hp.quiet hq) (hq.typingInfo ▸ hsame)⟩
  have hw : app.handleWon byte = app := if_neg hwon
  rw [hw] at h
  by_cases hexit : byte = infoExit
  · subst hexit
    have hx : app.handleExit infoExit = app.resetTypingInfo.resetRacingInfo := if_pos rfl
    rw [hx] at h
    obtain ⟨hscreen, ⟨hl, -⟩ | ⟨-, hq⟩⟩ := handleAck_cases h
    · exact absurd hl.1 (by decide)
    · exact ⟨hscreen, .exit rfl hq.typingInfo hq.generated⟩
  · rw [handleExit_skip app hexit] at h
    obtain ⟨hscreen, ⟨hl, ht⟩ | ⟨hl, hq⟩⟩ := handleAck_cases h
    · exact ⟨hscreen, .launch hl ht⟩
    · exact ⟨hscreen, .quiet hl hq⟩

theorem handleMessage_cases {m : Message} (h : app.handleMessage random m = some next) :
    next.currAppState = app.currAppState ∧ Heard app next m := by
  cases m with
  | ulong seed =>
    obtain ⟨u, hu, rfl⟩ := Option.map_eq_some_iff.mp h
    split at hu
    · obtain ⟨v, hv, rfl⟩ := Option.map_eq_some_iff.mp hu
      obtain ⟨hscreen, ⟨hb, ht⟩ | ⟨hb, rfl⟩⟩ := checkIfReady_cases hv
      · exact ⟨hscreen, .launch ⟨‹_›, hb⟩ ⟨ht.generated, ht.status, ht.typedChars, ht.startTime⟩⟩
      · exact ⟨rfl, .quiet (fun hl => hb hl.2) ⟨rfl, rfl, rfl⟩⟩
    · rename_i hwait
      cases hu
      exact ⟨rfl, .quiet (fun hl => hwait hl.1) ⟨rfl, rfl, rfl⟩⟩
  | control byte => exact handleControl_cases h
  | _ =>
    cases h
    exact ⟨rfl, .quiet id ⟨rfl, rfl, rfl⟩⟩

def received (app : App) (input : UartInput) : Option Message :=
  (serialSwitch input app.port.decoder).2

theorem serialInterrupt_cases {input : UartInput} (hrace : app.currAppState = .raceState)
    (h : app.serialInterrupt random input = some next) : next.currAppState = .raceState ∧
      ((received app input = none ∧ Quiet app next) ∨
        ∃ m, received app input = some m ∧ Heard app next m) := by
  unfold App.serialInterrupt at h
  rw [if_neg (fun hn => hn hrace)] at h
  simp only at h
  split at h
  · rename_i hm
    cases h
    exact ⟨hrace, .inl ⟨hm, rfl, rfl, rfl⟩⟩
  · rename_i m hm
    obtain ⟨hscreen, hh⟩ := handleMessage_cases h
    refine ⟨hscreen.trans hrace, .inr ⟨m, hm, ?_⟩⟩
    have hl : Launches { app with port := { app.port with
        decoder := (serialSwitch input app.port.decoder).1 } } m ↔ Launches app m := by
      cases m <;> rfl
    cases hh with
    | launch hl' ht =>
      exact .launch (hl.mp hl') ⟨ht.generated, ht.status, ht.typedChars, ht.startTime⟩
    | exit hm ht hg => exact .exit hm ht hg
    | won hm hp hs =>
      exact .won hm ⟨hp.before, hp.after, hp.timeStart, hp.generatedText, hp.startTime,
        hp.generated⟩ hs
    | quiet hn hq =>
      exact .quiet (fun hl' => hn (hl.mpr hl')) ⟨hq.typingInfo, hq.startTime, hq.generated⟩

theorem typeChar_keeps {c : UInt8} {t u : TypingInfo} (h : typeChar c t = some u) :
    u.status = t.status ∧ u.timeStart = t.timeStart ∧ u.generatedText = t.generatedText := by
  unfold typeChar at h
  split at h
  · obtain ⟨mistake, -, h⟩ := Option.bind_eq_some_iff.mp h
    obtain ⟨wanted, -, h⟩ := Option.bind_eq_some_iff.mp h
    obtain ⟨marked, -, h⟩ := Option.bind_eq_some_iff.mp h
    obtain ⟨typed, -, rfl⟩ := Option.map_eq_some_iff.mp h
    exact ⟨rfl, rfl, rfl⟩
  · cases h
    exact ⟨rfl, rfl, rfl⟩

theorem eraseChar_keeps {t u : TypingInfo} (h : eraseChar t = some u) :
    u.status = t.status ∧ u.timeStart = t.timeStart ∧ u.generatedText = t.generatedText := by
  unfold eraseChar at h
  split at h
  · cases h
    exact ⟨rfl, rfl, rfl⟩
  obtain ⟨mistake, -, h⟩ := Option.bind_eq_some_iff.mp h
  obtain ⟨v, hv, h⟩ := Option.bind_eq_some_iff.mp h
  obtain ⟨typed, -, rfl⟩ := Option.map_eq_some_iff.mp h
  split at hv
  · obtain ⟨typed, -, hv⟩ := Option.bind_eq_some_iff.mp hv
    obtain ⟨wanted, -, hv⟩ := Option.bind_eq_some_iff.mp hv
    cases hv
    exact ⟨rfl, rfl, rfl⟩
  · cases hv
    exact ⟨rfl, rfl, rfl⟩

/-- A key counts only in a test that runs. -/
theorem handler_cases (h : app.typingInputHandler true = some next) :
    next.currAppState = app.currAppState ∧ (Quiet app next ∨ Progress app next) := by
  by_cases hs : app.typingInfo.status = .typing
  swap
  · cases (handler_idle hs (.inl rfl)).symm.trans h
    exact ⟨rfl, .inl (.refl _)⟩
  simp only [App.typingInputHandler, Bool.not_true, Bool.false_eq_true, false_and, if_false, hs,
    if_true] at h
  split at h
  · obtain ⟨u, hu, rfl⟩ := Option.map_eq_some_iff.mp h
    obtain ⟨hst, hts, hg⟩ := eraseChar_keeps hu
    exact ⟨rfl, .inr ⟨hs, .inl (hst.trans hs), hts, hg, rfl, rfl⟩⟩
  split at h
  · obtain ⟨u, hu, rfl⟩ := Option.map_eq_some_iff.mp h
    obtain ⟨hst, hts, hg⟩ := typeChar_keeps hu
    split
    · exact ⟨rfl, .inr ⟨hs, .inr rfl, hts, hg, rfl, rfl⟩⟩
    · exact ⟨rfl, .inr ⟨hs, .inl (hst.trans hs), hts, hg, rfl, rfl⟩⟩
  · cases h
    exact ⟨rfl, .inl (.refl _)⟩

end Messages

structure Starts (app next : App) : Prop where
  before : app.typingInfo.status = .ready
  late : app.racingInfo.startTime < next.timerCounter
  typingInfo : next.typingInfo = startTyping next.timerCounter app.typingInfo
  startTime : next.racingInfo.startTime = app.racingInfo.startTime
  generated : next.generated = app.generated

/-- The events that end a race: the opponent leaves, or the player wants a new one. -/
def Ends (app : App) : Event → Prop
  | .serial input => received app input = some (.control infoExit)
  | .click button _ => button = .raceReset
  | _ => False

inductive Change (app next : App) (e : Event) : Prop
  | launch (input : UartInput) (m : Message) (event : e = .serial input)
      (message : received app input = some m) (launches : Launches app m)
      (text : TextComes app next)
  | reset (ends : Ends app e) (typingInfo : next.typingInfo = resetTypingInfo)
      (generated : next.generated = app.generated)
  | start (event : e = .timer) (starts : Starts app next)
  | progress (progress : Progress app next)
      (same : (∃ byte now, e = .keyboard byte now) ∨ SameTest app.typingInfo next.typingInfo)
  | quiet (quiet : Quiet app next)

theorem Change.of_eq {app next next' : App} {e : Event} (h : Change app next e)
    (ht : next'.typingInfo = next.typingInfo)
    (hs : next'.racingInfo.startTime = next.racingInfo.startTime)
    (hg : next'.generated = next.generated) (hc : next'.timerCounter = next.timerCounter) :
    Change app next' e := by
  cases h with
  | launch input m he hm hl text =>
    exact .launch input m he hm hl ⟨hg ▸ text.generated, ht ▸ text.status, ht ▸ text.typedChars,
      by rw [hs, hc, text.startTime]⟩
  | reset he hr hn => exact .reset he (ht.trans hr) (hg.trans hn)
  | start he h =>
    exact .start he ⟨h.before, hc ▸ h.late, by rw [ht, hc, h.typingInfo], hs.trans h.startTime,
      hg.trans h.generated⟩
  | progress h hsame =>
    exact .progress ⟨h.before, ht ▸ h.after, ht ▸ h.timeStart, ht ▸ h.generatedText,
      hs.trans h.startTime, hg.trans h.generated⟩ (ht ▸ hsame)
  | quiet h => exact .quiet ⟨ht.trans h.typingInfo, hs.trans h.startTime, hg.trans h.generated⟩

theorem timeLeft_nonpos (startTime counter : Nat) :
    ((startTime : Int) - counter) / (frameRate : Nat) + 1 ≤ 0 ↔ startTime < counter := by
  simp only [frameRate, Nat.cast_ofNat]
  omega

section Events

variable {random : UInt32 → Nat → Nat} {app next : App}

theorem timeStart_update (t : TypingInfo) (now : Nat) :
    (updateTypingInfo now t).timeStart = t.timeStart := by
  unfold updateTypingInfo
  split
  · rfl
  · rfl

theorem halfSecond_change (app : App) : Quiet app app.halfSecond ∨
    Progress app app.halfSecond ∧ SameTest app.typingInfo app.halfSecond.typingInfo := by
  unfold App.halfSecond
  split
  · by_cases hs : app.typingInfo.status = .typing
    · have hsame := SameTest.update app.typingInfo app.timerCounter
      exact .inr ⟨⟨hs, .inl ((status_update _ _).trans hs), timeStart_update _ _, hsame.generated,
        rfl, rfl⟩, hsame⟩
    · exact .inl ⟨if_neg hs, rfl, rfl⟩
  · exact .inl (.refl _)

theorem countdown_change (app : App) : Quiet app app.countdown ∨ Starts app app.countdown := by
  unfold App.countdown
  split
  · simp only
    split
    · exact .inr ⟨‹_›, (timeLeft_nonpos _ _).mp ‹_›, rfl, rfl, rfl⟩
    · exact .inl (.refl _)
  · exact .inl (.refl _)

theorem tick_change (hrace : app.currAppState = .raceState) : Change app app.tick .timer := by
  have hhalf := halfSecond_change { app with timerCounter := app.timerCounter + 1 }
  have htick : app.tick =
      (App.halfSecond { app with timerCounter := app.timerCounter + 1 }).countdown := by
    simp only [App.tick, hrace, if_true]
    rw [if_neg (by decide)]
  rw [htick]
  generalize App.halfSecond { app with timerCounter := app.timerCounter + 1 } = a at hhalf ⊢
  have hcount := countdown_change a
  obtain hq | ⟨hp, hsame⟩ := hhalf
  · obtain hc | hc := hcount
    · have hq' := hq.trans hc
      exact .quiet ⟨hq'.typingInfo, hq'.startTime, hq'.generated⟩
    · refine .start rfl ⟨?_, ?_, ?_, hc.startTime.trans hq.startTime,
        hc.generated.trans hq.generated⟩
      · exact hq.typingInfo ▸ hc.before
      · exact hq.startTime ▸ hc.late
      · rw [hc.typingInfo, hq.typingInfo]
  · obtain hc | hc := hcount
    · have hp' := hp.quiet hc
      exact .progress ⟨hp'.before, hp'.after, hp'.timeStart, hp'.generatedText, hp'.startTime,
        hp'.generated⟩ (.inr (hc.typingInfo ▸ hsame))
    · obtain ha | ha := hp.after
      · cases ha.symm.trans hc.before
      · cases ha.symm.trans hc.before

theorem timerInterrupt_screen (app : App) :
    app.timerInterrupt.currAppState = app.currAppState := by
  unfold App.timerInterrupt
  simp only
  split
  · exact tick_currAppState app
  · exact tick_currAppState app

theorem timerInterrupt_change (hrace : app.currAppState = .raceState) :
    Change app app.timerInterrupt .timer := by
  unfold App.timerInterrupt
  simp only
  split
  · exact (tick_change hrace).of_eq rfl rfl rfl rfl
  · exact tick_change hrace

theorem changeState_screen {newState : AppState} {now : UInt64}
    (h : app.changeState random newState now = some next) : next.currAppState = newState ∧
      (newState = .raceState → next.typingInfo = resetTypingInfo) ∧
      (newState = .mainState → Quiet app next) := by
  unfold App.changeState at h
  simp only at h
  cases newState with
  | trainingState =>
    obtain ⟨t, -, rfl⟩ := Option.map_eq_some_iff.mp h
    exact ⟨rfl, nofun, nofun⟩
  | raceState =>
    cases h
    exact ⟨rfl, fun _ => rfl, nofun⟩
  | mainState =>
    cases h
    refine ⟨rfl, nofun, fun _ => ?_⟩
    split
    · exact ⟨rfl, rfl, rfl⟩
    · exact ⟨rfl, rfl, rfl⟩
  | _ =>
    cases h
    exact ⟨rfl, nofun, nofun⟩

theorem raceReadyButton_quiet (app : App) (now : UInt64) : Quiet app (app.raceReadyButton now) := by
  obtain ⟨seed, port, h⟩ := raceReadyButton_frame app now
  rw [h]
  exact ⟨rfl, rfl, rfl⟩

theorem raceReadyButton_screen (app : App) (now : UInt64) :
    (app.raceReadyButton now).currAppState = app.currAppState := by
  obtain ⟨seed, port, h⟩ := raceReadyButton_frame app now
  rw [h]

theorem raceResetButton_change (app : App) (now : UInt64) :
    app.raceResetButton.currAppState = app.currAppState ∧
      Change app app.raceResetButton (.click .raceReset now) := by
  unfold App.raceResetButton
  split
  · exact ⟨rfl, .reset rfl rfl rfl⟩
  · exact ⟨rfl, .quiet (.refl _)⟩

theorem step_serial (hrace : app.currAppState = .raceState) (input : UartInput) :
    step random app (.serial input) = app.serialInterrupt random input :=
  if_neg (by rw [hrace]; decide)

/-- On the race screen every event leaves the screen or makes one of the changes. -/
theorem step_change {e : Event} (hrace : app.currAppState = .raceState)
    (h : step random app e = some next) : (next.currAppState = .mainState ∧ Quiet app next) ∨
      next.currAppState = .raceState ∧ Change app next e := by
  cases round_of_step h with
  | timer does =>
    subst does
    exact .inr ⟨(timerInterrupt_screen app).trans hrace, timerInterrupt_change hrace⟩
  | serial input does =>
    obtain ⟨hs, ⟨-, hq⟩ | ⟨m, hm, hh⟩⟩ := serialInterrupt_cases hrace does
    · exact .inr ⟨hs, .quiet hq⟩
    refine .inr ⟨hs, ?_⟩
    cases hh with
    | launch hl ht => exact .launch input m rfl hm hl ht
    | exit he ht hg => exact .reset (hm.trans (congrArg some he)) ht hg
    | won _ hp hsame => exact .progress hp (.inr hsame)
    | quiet _ hq => exact .quiet hq
  | screen keyboard newState now home does =>
    obtain rfl := home hrace
    obtain ⟨hs, -, hq⟩ := changeState_screen does
    exact .inl ⟨hs, (hq rfl).typingInfo, (hq rfl).startTime, (hq rfl).generated⟩
  | typing byte now keyboard does =>
    simp only [hrace, decide_true] at does
    obtain ⟨hs, hq | hp⟩ := handler_cases does
    · exact .inr ⟨hs, .quiet ⟨hq.typingInfo, hq.startTime, hq.generated⟩⟩
    · exact .inr ⟨hs, .progress ⟨hp.before, hp.after, hp.timeStart, hp.generatedText,
        hp.startTime, hp.generated⟩ (.inl ⟨byte, now, rfl⟩)⟩
  | ready now screen does =>
    subst does
    exact .inr ⟨(raceReadyButton_screen app now).trans hrace,
      .quiet (raceReadyButton_quiet app now)⟩
  | reset now screen does =>
    subst does
    obtain ⟨hs, hc⟩ := raceResetButton_change app now
    exact .inr ⟨hs.trans hrace, hc⟩
  | training now screen does => cases hrace.symm.trans screen
  | idle keyboard does =>
    subst does
    exact .inr ⟨hrace, .quiet ⟨rfl, rfl, rfl⟩⟩
  | kernel answers does =>
    subst does
    exact .inr ⟨hrace, .quiet ⟨rfl, rfl, rfl⟩⟩

theorem handler_screen {isRace : Bool} (h : app.typingInputHandler isRace = some next) :
    next.currAppState = app.currAppState := by
  obtain ⟨t, rfl⟩ | ⟨-, t, rfl⟩ := handler_frame h
  · rfl
  · rfl

theorem step_enter {e : Event} (hrace : app.currAppState ≠ .raceState)
    (hn : next.currAppState = .raceState) (h : step random app e = some next) :
    next.typingInfo = resetTypingInfo := by
  have hsame (hs : next.currAppState = app.currAppState) : next.typingInfo = resetTypingInfo :=
    absurd (hs.symm.trans hn) hrace
  cases round_of_step h with
  | timer does =>
    subst does
    exact hsame (timerInterrupt_screen app)
  | serial input does =>
    cases (if_pos hrace).symm.trans does
    exact hsame rfl
  | screen keyboard newState now home does =>
    obtain ⟨hs, ht, -⟩ := changeState_screen does
    exact ht (hs.symm.trans hn)
  | typing byte now keyboard does =>
    have hs := handler_screen does
    exact hsame hs
  | ready now screen does => exact absurd screen hrace
  | reset now screen does => exact absurd screen hrace
  | training now screen does =>
    obtain ⟨t, -, rfl⟩ := Option.map_eq_some_iff.mp does
    exact hsame rfl
  | idle keyboard does =>
    subst does
    exact hsame rfl
  | kernel answers does =>
    subst does
    exact hsame rfl

end Events

end WriteWise.RaceSteps
