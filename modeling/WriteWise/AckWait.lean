import WriteWise.RaceSteps
import WriteWise.Sending
import WriteWise.SerialStream

namespace WriteWise.AckWait

open Library Library.Runs Scancode Serial Typing Program Steps RaceSteps Sending

/-- The latest message that expects an acknowledgement: whether all of it was
transmitted, and at which tick. -/
structure Ask where
  sent : Bool
  tick : Nat
  deriving DecidableEq

/-- What a press of the ready button asks for: the seed behind the byte that the player is
ready, or that the player is not ready after all. -/
def pressAsk (now : UInt64) (app : App) : Ask :=
  if app.racingInfo.readyMe then ⟨!(serialPortSendNReady app.port).2, app.timerCounter⟩
  else ⟨!(serialPortSendULong now app.timerCounter (serialPortSendReady app.port).1).2,
    app.timerCounter⟩

def ask (app : App) : Event → Option Ask
  | .click .raceReady now =>
    if app.currAppState = .raceState ∧ app.typingInfo.status = .unready then
      some (pressAsk now app)
    else none
  | _ => none

def stepAsk (random : UInt32 → Nat → Nat) (s : App × Option Ask) (e : Event) :
    Option (App × Option Ask) :=
  (step random s.1 e).map fun next => (next, (ask s.1 e).or s.2)

/-- A wait is for the latest ask, which was transmitted, and counts from its tick. The timer
gives up only when more ticks than the limit have passed since. -/
structure Kept (s : App × Option Ask) : Prop where
  waits : s.1.port.waitingAckSerialPort = true → s.2 = some ⟨true, s.1.port.waitingAckStartTime⟩
  late : s.1.tick.AckLate →
    ∃ t, s.2 = some ⟨true, t⟩ ∧ t + ackTimeout * frameRate < s.1.tick.timerCounter

/-- The kernel lets the press out, and the wait for its answer counts from now: for the seed
the driver sees to it, but not for the byte that takes the press back. -/
def PressSucceeds (app : App) : Prop :=
  if app.racingInfo.readyMe then
    GoesOut 1 app.port.answers ∧ app.port.waitingAckStartTime = app.timerCounter
  else GoesOut 9 (attempt maxAttemptsUart app.port.answers).2

def AskSucceeds (app : App) : Event → Prop
  | .click .raceReady _ =>
    app.currAppState = .raceState ∧ app.typingInfo.status = .unready → PressSucceeds app
  | _ => True

/-- No wait begins, and the clock does not go back. -/
structure NoAsk (app next : App) : Prop where
  waiting : next.port.waitingAckSerialPort = true → app.port.waitingAckSerialPort = true
  startTime : next.port.waitingAckStartTime = app.port.waitingAckStartTime
  clock : app.timerCounter ≤ next.timerCounter

namespace NoAsk

variable {a b c : App}

theorem refl (app : App) : NoAsk app app := ⟨id, rfl, le_rfl⟩

theorem trans (h : NoAsk a b) (h' : NoAsk b c) : NoAsk a c :=
  ⟨fun hw => h.waiting (h'.waiting hw), h'.startTime.trans h.startTime, h.clock.trans h'.clock⟩

theorem of_eq (h : NoAsk b c) (hp : b.port = a.port) (ht : b.timerCounter = a.timerCounter) :
    NoAsk a c :=
  ⟨fun hw => hp ▸ h.waiting hw, hp ▸ h.startTime, ht ▸ h.clock⟩

theorem of_sends {bytes : List UInt8} {f : Port → Port × Bool} (app : App)
    (h : Sends bytes app.port (f app.port).1) : NoAsk app (app.call f) :=
  ⟨fun hw => h.waitingAck ▸ hw, h.startTime, le_rfl⟩

end NoAsk

section Functions

variable {random : UInt32 → Nat → Nat} {app next : App}

theorem noAsk_generateText {n : Nat} {seed : UInt32}
    (h : app.generateText random n seed = some next) : NoAsk app next := by
  obtain ⟨t, -, rfl⟩ := Option.map_eq_some_iff.mp h
  exact ⟨id, rfl, le_rfl⟩

theorem noAsk_checkIfReady (h : app.checkIfReady random = some next) : NoAsk app next := by
  obtain rfl | ⟨t, seed, startTime, rfl⟩ := checkIfReady_frame h
  · exact .refl _
  · exact ⟨id, rfl, le_rfl⟩

theorem noAsk_clearFIFO (app : App) : NoAsk app (app.call serialPortClearFIFO) :=
  .of_sends app (clearFIFO_sends _)

theorem noAsk_sendByte (app : App) (byte : UInt8) :
    NoAsk app (app.call (serialPortSendByte byte)) :=
  .of_sends app (sendByte_sends _ byte)

theorem noAsk_answer (app : App) (byte : UInt8) :
    NoAsk app (app.call fun p => serialPortSendByte byte (serialPortClearFIFO p).1) :=
  .of_sends app (clear_sendByte_sends _ byte)

theorem noAsk_handleWon (byte : UInt8) (app : App) : NoAsk app (app.handleWon byte) := by
  unfold App.handleWon
  split
  · exact ⟨id, rfl, le_rfl⟩
  · exact .refl _

theorem noAsk_handleExit (byte : UInt8) (app : App) : NoAsk app (app.handleExit byte) := by
  unfold App.handleExit
  split
  · exact ⟨id, rfl, le_rfl⟩
  · exact .refl _

theorem noAsk_handleAck {byte : UInt8} (h : app.handleAck random byte = some next) :
    NoAsk app next := by
  obtain ⟨-, rfl⟩ | ⟨-, u, hu, rfl⟩ := handleAck_step h
  · exact .refl _
  · have hn : NoAsk app u := by
      cases hu with
      | ack => exact .refl _
      | readyAck hc => exact (noAsk_checkIfReady hc).of_eq rfl rfl
      | nreadyAck => exact ⟨id, rfl, le_rfl⟩
      | other => exact noAsk_clearFIFO app
    exact ⟨nofun, hn.startTime, hn.clock⟩

theorem noAsk_handleControl {byte : UInt8} (h : app.handleControl random byte = some next) :
    NoAsk app next := by
  unfold App.handleControl at h
  split at h
  · cases h
    exact (noAsk_answer _ infoReadyAck).of_eq rfl rfl
  split at h
  · cases h
    exact (noAsk_answer _ infoNReadyAck).of_eq rfl rfl
  · exact (noAsk_handleWon byte app).trans ((noAsk_handleExit byte _).trans (noAsk_handleAck h))

theorem noAsk_handleMessage {m : Message} (h : app.handleMessage random m = some next) :
    NoAsk app next := by
  cases m with
  | ulong seed =>
    obtain ⟨u, hu, rfl⟩ := Option.map_eq_some_iff.mp h
    refine NoAsk.trans (b := u) ?_ (noAsk_answer u infoAck)
    split at hu
    · obtain ⟨v, hv, rfl⟩ := Option.map_eq_some_iff.mp hu
      have hn : NoAsk app v := (noAsk_checkIfReady hv).of_eq rfl rfl
      exact hn.trans ⟨id, rfl, le_rfl⟩
    · cases hu
      exact .refl _
  | control byte => exact noAsk_handleControl h
  | _ =>
    cases h
    exact noAsk_answer app infoAck

theorem noAsk_serialInterrupt {input : UartInput}
    (h : app.serialInterrupt random input = some next) : NoAsk app next := by
  unfold App.serialInterrupt at h
  split at h
  · cases h
    exact .refl _
  simp only at h
  have hd : NoAsk app { app with port := { app.port with
      decoder := (serialSwitch input app.port.decoder).1 } } := ⟨id, rfl, le_rfl⟩
  split at h
  · cases h
    exact hd
  · exact hd.trans (noAsk_handleMessage h)

theorem noAsk_timerInterrupt (app : App) : NoAsk app app.timerInterrupt := by
  have htick : NoAsk app app.tick := by
    refine ⟨?_, ?_, ?_⟩
    · rw [tick_port]
      exact id
    · rw [tick_port]
    · rw [tick_timerCounter]
      exact Nat.le_succ _
  unfold App.timerInterrupt
  simp only
  split
  · exact htick.trans (noAsk_clearFIFO _)
  · exact htick

theorem noAsk_changeState {newState : AppState} {now : UInt64}
    (h : app.changeState random newState now = some next) : NoAsk app next := by
  unfold App.changeState at h
  simp only at h
  have hexit : NoAsk app (if app.currAppState = .raceState then app.call serialPortSendExit
      else app) := by
    split
    · exact noAsk_sendByte app infoExit
    · exact .refl _
  refine hexit.trans ?_
  cases newState with
  | trainingState => exact (noAsk_generateText h).of_eq rfl rfl
  | raceState =>
    cases h
    exact (noAsk_clearFIFO _).of_eq rfl rfl
  | _ =>
    cases h
    exact ⟨id, rfl, le_rfl⟩

theorem noAsk_typingInputHandler {isRace : Bool}
    (h : app.typingInputHandler isRace = some next) : NoAsk app next := by
  obtain ⟨t, rfl⟩ | ⟨-, t, rfl⟩ := handler_frame h
  · exact ⟨id, rfl, le_rfl⟩
  · exact (noAsk_sendByte _ infoWon).of_eq rfl rfl

/-- Only the ready button of a race that has not begun asks for an acknowledgement. -/
theorem noAsk_step {e : Event} (h : step random app e = some next) (ha : ask app e = none) :
    NoAsk app next := by
  cases round_of_step h with
  | timer does =>
    subst does
    exact noAsk_timerInterrupt app
  | serial input does => exact noAsk_serialInterrupt does
  | screen keyboard newState now home does => exact (noAsk_changeState does).of_eq rfl rfl
  | typing byte now keyboard does => exact (noAsk_typingInputHandler does).of_eq rfl rfl
  | ready now screen does =>
    subst does
    have hs : ¬ app.typingInfo.status = .unready := by
      intro hs
      have hask : ask app (.click .raceReady now) = some (pressAsk now app) := if_pos ⟨screen, hs⟩
      cases hask.symm.trans ha
    rw [App.raceReadyButton, if_neg hs]
    exact .refl _
  | reset now screen does =>
    subst does
    unfold App.raceResetButton
    split
    · exact ⟨id, rfl, le_rfl⟩
    · exact .refl _
  | training now screen does => exact noAsk_generateText does
  | idle keyboard does =>
    subst does
    exact ⟨id, rfl, le_rfl⟩
  | kernel answers does =>
    subst does
    exact ⟨id, rfl, le_rfl⟩

theorem press_waits (hs : app.typingInfo.status = .unready) (now : UInt64) :
    (app.raceReadyButton now).port.waitingAckSerialPort = true ∧
    ((app.raceReadyButton now).port.waitingAckStartTime = app.port.waitingAckStartTime ∨
      (app.raceReadyButton now).port.waitingAckStartTime = app.timerCounter) ∧
    (pressAsk now app = ⟨true, (app.raceReadyButton now).port.waitingAckStartTime⟩ ↔
      PressSucceeds app) := by
  unfold App.raceReadyButton pressAsk PressSucceeds
  rw [if_pos hs]
  by_cases hr : app.racingInfo.readyMe = true
  · rw [if_pos hr, if_pos hr, if_pos hr]
    have h := sendByte_sends { app.port with waitingAckSerialPort := true } infoNReady
    have hstart : (serialPortSendNReady app.port).1.waitingAckStartTime =
        app.port.waitingAckStartTime := h.startTime
    refine ⟨h.waitingAck, .inl hstart, ?_⟩
    rw [call_port, hstart, Ask.mk.injEq, Bool.not_eq_true']
    exact and_congr (sendByte_goesOut _ infoNReady) eq_comm
  rw [if_neg hr, if_neg hr, if_neg hr]
  have h1 := sendByte_sends { app.port with waitingAckSerialPort := true } infoReady
  have hleft : (serialPortSendReady app.port).1.answers =
      (attempt maxAttemptsUart app.port.answers).2 :=
    (sendByte_attempt { app.port with waitingAckSerialPort := true } infoReady).2
  have hout := sendValue_goesOut (serialPortSendReady app.port).1 infoULong 8 now.toNat
    app.timerCounter
  rw [hleft] at hout
  simp only [call_port, call_timerCounter, call_racingInfo, serialPortSendULong, ← hout]
  rcases sendValue_sends (serialPortSendReady app.port).1 infoULong 8 now.toNat
    app.timerCounter with ⟨herr, k, -, hk⟩ | ⟨hok, q, -, hq⟩
  · refine ⟨hk.waitingAck.trans h1.waitingAck, .inl (hk.startTime.trans h1.startTime), ?_⟩
    rw [herr]
    exact ⟨fun h => Bool.noConfusion (congrArg Ask.sent h), fun h => by cases h⟩
  · rw [hok, hq]
    exact ⟨rfl, .inr rfl, fun _ => rfl, fun _ => rfl⟩

/-- The clock is not behind the tick from which a wait counts. -/
def ClockOk (app : App) : Prop := app.port.waitingAckStartTime ≤ app.timerCounter

theorem waits_step {s : App × Option Ask} {e : Event}
    (hw : s.1.port.waitingAckSerialPort = true → s.2 = some ⟨true, s.1.port.waitingAckStartTime⟩)
    (hc : ClockOk s.1) (h : step random s.1 e = some next) : ClockOk next ∧
      ((next.port.waitingAckSerialPort = true →
        (ask s.1 e).or s.2 = some ⟨true, next.port.waitingAckStartTime⟩) ↔ AskSucceeds s.1 e) := by
  cases ha : ask s.1 e with
  | none =>
    have hn := noAsk_step h ha
    refine ⟨?_, fun _ => ?_, fun _ hnw => ?_⟩
    · unfold ClockOk
      rw [hn.startTime]
      exact hc.trans hn.clock
    · cases e with
      | click button now =>
        cases button with
        | raceReady =>
          intro hs
          cases (if_pos hs).symm.trans ha
        | _ => trivial
      | _ => trivial
    · rw [Option.none_or, hn.startTime]
      exact hw (hn.waiting hnw)
  | some a =>
    obtain ⟨now, rfl, hrace, hs, rfl⟩ : ∃ now, e = .click .raceReady now ∧
        s.1.currAppState = .raceState ∧ s.1.typingInfo.status = .unready ∧
        pressAsk now s.1 = a := by
      unfold ask at ha
      split at ha
      · split at ha
        · rename_i now hs
          exact ⟨now, rfl, hs.1, hs.2, Option.some.inj ha⟩
        · cases ha
      · cases ha
    have hnext : next = s.1.raceReadyButton now :=
      Option.some.inj (h.symm.trans (step_raceReady hrace now))
    obtain ⟨hwait, hstart, hiff⟩ := press_waits hs now
    subst hnext
    refine ⟨?_, fun hk _ => hiff.mp (Option.some.inj (hk hwait)), fun hk _ => ?_⟩
    · have hclock : (s.1.raceReadyButton now).timerCounter = s.1.timerCounter := by
        obtain ⟨seed, port, hframe⟩ := raceReadyButton_frame s.1 now
        rw [hframe]
      unfold ClockOk
      rw [hclock]
      obtain hstart | hstart := hstart
      · rw [hstart]
        exact hc
      · rw [hstart]
    · rw [Option.some_or, hiff.mpr (hk ⟨hrace, hs⟩)]

theorem askSucceeds_of_none {e : Event} (h : step random app e = none) : AskSucceeds app e := by
  cases e with
  | click button now =>
    cases button with
    | raceReady =>
      rintro ⟨hrace, -⟩
      cases h.symm.trans (step_raceReady hrace now)
    | _ => trivial
  | _ => trivial

theorem Kept.of_waits {s : App × Option Ask}
    (hw : s.1.port.waitingAckSerialPort = true → s.2 = some ⟨true, s.1.port.waitingAckStartTime⟩)
    (hc : ClockOk s.1) : Kept s := by
  refine ⟨hw, fun hlate => ?_⟩
  unfold App.AckLate at hlate
  rw [tick_port, tick_timerCounter] at hlate
  refine ⟨_, hw hlate.1, ?_⟩
  have hle : s.1.port.waitingAckStartTime ≤ s.1.timerCounter + 1 := hc.trans (Nat.le_succ _)
  have hsub := hlate.2
  rw [ulongSub, if_pos hle] at hsub
  rw [tick_timerCounter]
  omega

end Functions

/-- In every run a wait is for the latest ask, counts from the tick of its transmission and
is given up only after it, exactly when every press succeeds. -/
theorem ack_bookkeeping_iff (random : UInt32 → Nat → Nat) (dictionary : List Word)
    (es : List Event) :
    (∀ fs, fs <+: es → ∀ s, run (stepAsk random) (initial dictionary, none) fs = some s → Kept s) ↔
      Guarded (step random) AskSucceeds (initial dictionary) es := by
  have hmain : ∀ (es : List Event) (s : App × Option Ask),
      (s.1.port.waitingAckSerialPort = true →
        s.2 = some ⟨true, s.1.port.waitingAckStartTime⟩) → ClockOk s.1 →
      ((∀ fs, fs <+: es → ∀ t, run (stepAsk random) s fs = some t → Kept t) ↔
        Guarded (step random) AskSucceeds s.1 es) := by
    intro es
    induction es with
    | nil =>
      intro s hw hc
      refine ⟨fun _ => trivial, fun _ fs hfs t ht => ?_⟩
      obtain rfl := List.prefix_nil.mp hfs
      cases ht
      exact .of_waits hw hc
    | cons e es ih =>
      intro s hw hc
      constructor
      · intro h
        have hguard : AskSucceeds s.1 e := by
          cases hstep : step random s.1 e with
          | none => exact askSucceeds_of_none hstep
          | some t =>
            refine (waits_step hw hc hstep).2.mp ?_
            refine (h [e] ⟨es, rfl⟩ (t, (ask s.1 e).or s.2) ?_).waits
            simp only [run, stepAsk, hstep, Option.map_some, Option.bind_some]
        refine ⟨hguard, fun t hstep => ?_⟩
        obtain ⟨hct, hwt⟩ := waits_step hw hc hstep
        refine (ih (t, (ask s.1 e).or s.2) (hwt.mpr hguard) hct).mp fun fs hfs u hu => ?_
        refine h (e :: fs) (List.cons_prefix_cons.mpr ⟨rfl, hfs⟩) u ?_
        simp only [run, stepAsk, hstep, Option.map_some, Option.bind_some]
        exact hu
      · rintro ⟨hguard, hrest⟩ fs hfs u hu
        cases fs with
        | nil =>
          cases hu
          exact .of_waits hw hc
        | cons f fs =>
          obtain ⟨rfl, hfs'⟩ := List.cons_prefix_cons.mp hfs
          obtain ⟨t, ht, hu⟩ := run_cons_some hu
          obtain ⟨next, hstep, rfl⟩ := Option.map_eq_some_iff.mp ht
          obtain ⟨hct, hwt⟩ := waits_step hw hc hstep
          exact (ih _ (hwt.mpr hguard) hct).mpr (hrest next hstep) fs hfs' u hu
  exact hmain es (initial dictionary, none) (fun hw => by cases hw) le_rfl

/-- The player is ready, and takes it back when a second and one tick have gone by. -/
def takeBack : List Event :=
  [Event.mousePress 0, Event.click .mainRace 0, Event.click .raceReady 5,
    Event.serial (SerialStream.fresh infoReadyAck), Event.serial (SerialStream.fresh infoAck)] ++
    List.replicate 61 Event.timer ++ [Event.click .raceReady 5]

def takenBack : App × Option Ask :=
  (run (stepAsk fun _ _ => 0) (initial [], none) takeBack).getD ({}, none)

/-- The wait counts from the press before, and the next tick clears the FIFO. -/
theorem takeBack_given_up :
    run (stepAsk fun _ _ => 0) (initial [], none) takeBack = some takenBack ∧
      takenBack.2 = some ⟨true, 61⟩ ∧ takenBack.1.port.waitingAckSerialPort = true ∧
      takenBack.1.port.waitingAckStartTime = 0 ∧ takenBack.1.tick.AckLate ∧
      takenBack.1.timerInterrupt.port.out = takenBack.1.port.out ++ [.fcr fcrClear] := by
  decide +kernel

end WriteWise.AckWait
