import WriteWise.RaceSteps
import WriteWise.SerialStream

namespace WriteWise.RunningRace

open Library.Runs Serial SerialStream Typing Program TestEnd RaceSteps

/-- The race goes on: no text is generated, and nothing of the typing is lost. -/
structure Kept (app next : App) : Prop where
  generated : next.generated = app.generated
  test : SameTest app.typingInfo next.typingInfo

def NoLaunch (app : App) (input : UartInput) : Prop :=
  ∀ m, received app input = some m → ¬ Launches app m

instance (app : App) (input : UartInput) : Decidable (NoLaunch app input) :=
  match h : received app input with
  | none => .isTrue fun m hm => by cases h.symm.trans hm
  | some m => decidable_of_iff (¬ Launches app m)
      ⟨fun hn m' hm' => by cases h.symm.trans hm'; exact hn, fun hn => hn m h⟩

variable (random : UInt32 → Nat → Nat)

/-- Neither does the event launch a race, nor does it end one or leave the screen. -/
structure Undisturbed (app : App) (e : Event) : Prop where
  launch : ∀ input, e = .serial input → NoLaunch app input
  ends : ¬ Ends app e
  stays : ∀ next, step random app e = some next → next.currAppState = .raceState

variable {random} {app next : App}

theorem checkIfReady_defined (h : ¬ app.racingInfo.BothReady) :
    app.checkIfReady random = some app := if_neg h

theorem handleAck_defined {byte : UInt8} (h : ¬ Launches app (.control byte)) :
    ∃ next, app.handleAck random byte = some next := by
  unfold App.handleAck
  split
  swap
  · exact ⟨_, rfl⟩
  rename_i hw
  split
  · exact ⟨_, rfl⟩
  split
  · rename_i hb
    rw [checkIfReady_defined fun hr => h ⟨hb, hw, hr⟩]
    exact ⟨_, rfl⟩
  split
  · exact ⟨_, rfl⟩
  · exact ⟨_, rfl⟩

theorem handleControl_defined {byte : UInt8} (h : ¬ Launches app (.control byte)) :
    ∃ next, app.handleControl random byte = some next := by
  unfold App.handleControl
  split
  · exact ⟨_, rfl⟩
  split
  · exact ⟨_, rfl⟩
  refine handleAck_defined fun hl => h ?_
  obtain rfl := hl.1
  rw [handleWon_skip app (by decide), handleExit_skip app (by decide)] at hl
  exact hl

theorem handleMessage_defined {m : Message} (h : ¬ Launches app m) :
    ∃ next, app.handleMessage random m = some next := by
  cases m with
  | ulong seed =>
    unfold App.handleMessage
    simp only
    split
    · rw [checkIfReady_defined fun hb => h ⟨‹_›, hb⟩]
      exact ⟨_, rfl⟩
    · exact ⟨_, rfl⟩
  | control byte => exact handleControl_defined h
  | _ => exact ⟨_, rfl⟩

theorem launches_decoder (d : Decoder) (m : Message) :
    Launches { app with port := { app.port with decoder := d } } m ↔ Launches app m := by
  cases m <;> rfl

theorem serialInterrupt_defined {input : UartInput} (h : NoLaunch app input) :
    ∃ next, app.serialInterrupt random input = some next := by
  unfold App.serialInterrupt
  split
  · exact ⟨_, rfl⟩
  simp only
  split
  · exact ⟨_, rfl⟩
  · exact handleMessage_defined fun hl => h _ ‹_› ((launches_decoder _ _).mp hl)

theorem kept_iff (hrace : app.currAppState = .raceState) {input : UartInput}
    (hexit : received app input ≠ some (.control infoExit)) :
    (∃ next, step random app (.serial input) = some next ∧ Kept app next) ↔
      NoLaunch app input := by
  rw [step_serial hrace]
  constructor
  · rintro ⟨next, hn, hk⟩ m hm hl
    obtain ⟨-, ⟨hnone, -⟩ | ⟨m', hm', hh⟩⟩ := serialInterrupt_cases hrace hn
    · cases hnone.symm.trans hm
    cases hm'.symm.trans hm
    cases hh with
    | launch _ ht =>
      obtain ⟨seed, hg⟩ := ht.generated
      have hlen := congrArg List.length (hk.generated.symm.trans hg)
      simp at hlen
    | exit he =>
      subst he
      exact hexit hm
    | won he =>
      subst he
      exact absurd hl.1 (by decide)
    | quiet hq => exact hq hl
  · intro h
    obtain ⟨next, hn⟩ := @serialInterrupt_defined random _ _ h
    refine ⟨next, hn, ?_⟩
    obtain ⟨-, ⟨-, hq⟩ | ⟨m, hm, hh⟩⟩ := serialInterrupt_cases hrace hn
    · exact ⟨hq.generated, hq.typingInfo ▸ .refl _⟩
    cases hh with
    | launch hl => exact absurd hl (h m hm)
    | exit he =>
      subst he
      exact absurd hm hexit
    | won _ hp hsame => exact ⟨hp.generated, hsame⟩
    | quiet _ hq => exact ⟨hq.generated, hq.typingInfo ▸ .refl _⟩

/-- An undisturbed step keeps the race, and only a key goes on with the typing. -/
theorem undisturbed_step {e : Event} (hrace : app.currAppState = .raceState)
    (hs : app.typingInfo.status ≠ .unready) (hu : Undisturbed random app e)
    (h : step random app e = some next) :
    next.typingInfo.status ≠ .unready ∧ next.generated = app.generated ∧
      next.typingInfo.generatedText = app.typingInfo.generatedText ∧
      ((∀ byte now, e ≠ .keyboard byte now) → SameTest app.typingInfo next.typingInfo) := by
  obtain ⟨hm, -⟩ | ⟨-, hc⟩ := step_change hrace h
  · cases (hu.stays next h).symm.trans hm
  cases hc with
  | launch input m he hm hl => exact absurd hl (hu.launch input he m hm)
  | reset he => exact absurd he hu.ends
  | start _ hst =>
    rw [hst.typingInfo]
    exact ⟨nofun, hst.generated, rfl, fun _ => .start _ _⟩
  | progress hp hsame =>
    refine ⟨?_, hp.generated, hp.generatedText, fun hk => ?_⟩
    · obtain ha | ha := hp.after
      · rw [ha]
        decide
      · rw [ha]
        decide
    · obtain ⟨byte, now, rfl⟩ | hsame := hsame
      · exact absurd rfl (hk byte now)
      · exact hsame
  | quiet hq =>
    rw [hq.typingInfo]
    exact ⟨hs, hq.generated, rfl, fun _ => .refl _⟩

/-- Every step of a run but the keys leaves the buffers, the cursor and the counters alone. -/
def TypedByKeys (random : UInt32 → Nat → Nat) (app : App) (e : Event) : Prop :=
  (∀ byte now, e ≠ .keyboard byte now) → ∀ next, step random app e = some next →
    SameTest app.typingInfo next.typingInfo

theorem undisturbed_run {es : List Event} (hrace : app.currAppState = .raceState)
    (hs : app.typingInfo.status ≠ .unready)
    (hu : Guarded (step random) (Undisturbed random) app es)
    (h : run (step random) app es = some next) :
    next.currAppState = .raceState ∧ next.typingInfo.status ≠ .unready ∧
      next.generated = app.generated ∧
      next.typingInfo.generatedText = app.typingInfo.generatedText ∧
      Guarded (step random) (TypedByKeys random) app es := by
  induction es generalizing app with
  | nil =>
    cases h
    exact ⟨hrace, hs, rfl, rfl, trivial⟩
  | cons e es ih =>
    obtain ⟨u, hstep, hr⟩ := run_cons_some h
    obtain ⟨hus, hug, hut, huk⟩ := undisturbed_step hrace hs hu.1 hstep
    obtain ⟨h1, h2, h3, h4, h5⟩ := ih (hu.1.stays u hstep) hus (hu.2 u hstep) hr
    refine ⟨h1, h2, h3.trans hug, h4.trans hut, fun hk v hv => ?_, fun v hv => ?_⟩
    · cases hstep.symm.trans hv
      exact huk hk
    · cases hstep.symm.trans hv
      exact h5

/-- A byte other than the message that the opponent has left keeps a race that has begun
exactly when it does not launch a race, and what is never disturbed keeps its text. -/
theorem race_kept_iff (hrace : app.currAppState = .raceState)
    (hs : app.typingInfo.status ≠ .unready) :
    (∀ input, received app input ≠ some (.control infoExit) →
      ((∃ next, step random app (.serial input) = some next ∧ Kept app next) ↔
        NoLaunch app input)) ∧
    ∀ es next, Guarded (step random) (Undisturbed random) app es →
      run (step random) app es = some next →
        next.typingInfo.status ≠ .unready ∧ next.generated = app.generated ∧
        next.typingInfo.generatedText = app.typingInfo.generatedText ∧
        Guarded (step random) (TypedByKeys random) app es :=
  ⟨fun _ hexit => kept_iff hrace hexit, fun _ _ hu h => (undisturbed_run hrace hs hu h).2⟩

def arrive (bytes : List UInt8) : List Event := bytes.map fun b => .serial (fresh b)

/-- The player presses twice and takes it back, and the opponent presses once. The text
is there while the second answer of the opponent is still to come. -/
def launched : List Event :=
  [Event.mousePress 0, Event.click .mainRace 0, Event.click .raceReady 5,
    Event.click .raceReady 5] ++ arrive [infoReadyAck, infoAck] ++ [Event.click .raceReady 5] ++
    arrive [infoReady, infoULong, 7, 0, 0, 0, 0, 0, 0, 0]

def after (es : List Event) : App :=
  (run (step fun _ _ => 0) (initial [⟨[97], letter_noZero⟩]) es).getD {}

theorem race_kept_iff_launched : ∃ next,
    step (fun _ _ => 0) (after launched) (.serial (fresh infoAck)) = some next ∧
      Kept (after launched) next :=
  (((@race_kept_iff (fun _ _ => 0) (after launched) (by decide +kernel) (by decide +kernel)).1
    (fresh infoAck) (by decide +kernel)).mpr (by decide +kernel))

def underWay : List Event :=
  launched ++ List.replicate 301 Event.timer ++ [Event.keyboard (some 0x1E) 0]

/-- An answer launches the race a second time: the typed text is gone. -/
theorem answer_restarts_race :
    run (step fun _ _ => 0) (initial [⟨[97], by decide⟩]) underWay = some (after underWay) ∧
      (after underWay).currAppState = .raceState ∧
      (after underWay).typingInfo.status = .typing ∧ (after underWay).typingInfo.typedChars = 1 ∧
      received (after underWay) (fresh infoReadyAck) = some (.control infoReadyAck) ∧
      ((step (fun _ _ => 0) (after underWay) (.serial (fresh infoReadyAck))).map fun app =>
        (app.generated, app.typingInfo.typedChars)) = some ([12, 12], 0) := by
  decide +kernel

end WriteWise.RunningRace
