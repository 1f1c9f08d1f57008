import WriteWise.Program

namespace WriteWise.Steps

open Scancode Serial Typing Program

/-- What a round of the main loop does. The race screen is only left for the main screen. -/
inductive Round (random : UInt32 → Nat → Nat) (app next : App) : Event → Prop
  | timer (does : next = app.timerInterrupt) : Round random app next .timer
  | serial (input : UartInput) (does : app.serialInterrupt random input = some next) :
      Round random app next (.serial input)
  | screen {e : Event} (keyboard : Keyboard) (newState : AppState) (now : UInt64)
      (home : app.currAppState = .raceState → newState = .mainState)
      (does : App.changeState random newState now { app with keyboard := keyboard } = some next) :
      Round random app next e
  | typing (byte : Option UInt8) (now : UInt64) (keyboard : Keyboard)
      (does : App.typingInputHandler (app.currAppState = .raceState)
        { app with keyboard := keyboard } = some next) : Round random app next (.keyboard byte now)
  | ready (now : UInt64) (screen : app.currAppState = .raceState)
      (does : next = app.raceReadyButton now) : Round random app next (.click .raceReady now)
  | reset (now : UInt64) (screen : app.currAppState = .raceState)
      (does : next = app.raceResetButton) : Round random app next (.click .raceReset now)
  | training (now : UInt64) (screen : app.currAppState = .trainingState)
      (does : app.trainingButtonReset random now = some next) :
      Round random app next (.click .trainingReset now)
  | idle {e : Event} (keyboard : Keyboard) (does : next = { app with keyboard := keyboard }) :
      Round random app next e
  | kernel (answers : List (Option UInt8))
      (does : next = { app with port := { app.port with answers := answers } }) :
      Round random app next (.kernel answers)

/-- What a byte does to a program that waits for an acknowledgement. -/
inductive Acknowledges (random : UInt32 → Nat → Nat) (app : App) : UInt8 → App → Prop
  | ack : Acknowledges random app infoAck app
  | readyAck {next : App} (does : App.checkIfReady random
      { app with racingInfo := { app.racingInfo with readyMe := true } } = some next) :
      Acknowledges random app infoReadyAck next
  | nreadyAck : Acknowledges random app infoNReadyAck
      { app with racingInfo := { app.racingInfo with readyMe := false, seedMe := 0 } }
  | other {byte : UInt8} (ack : byte ≠ infoAck) (readyAck : byte ≠ infoReadyAck)
      (nreadyAck : byte ≠ infoNReadyAck) :
      Acknowledges random app byte (app.call serialPortClearFIFO)

variable {random : UInt32 → Nat → Nat} {app next : App}

theorem handleAck_step {byte : UInt8} (h : app.handleAck random byte = some next) :
    (app.port.waitingAckSerialPort = false ∧ next = app) ∨
      app.port.waitingAckSerialPort = true ∧ ∃ u, Acknowledges random app byte u ∧
        next = { u with port := { u.port with waitingAckSerialPort := false } } := by
  unfold App.handleAck at h
  by_cases hw : app.port.waitingAckSerialPort = true
  swap
  · rw [if_neg hw] at h
    exact .inl ⟨Bool.eq_false_of_not_eq_true hw, (Option.some.inj h).symm⟩
  rw [if_pos hw] at h
  obtain ⟨u, hu, rfl⟩ := Option.map_eq_some_iff.mp h
  refine .inr ⟨hw, u, ?_, rfl⟩
  split at hu
  · subst byte
    cases hu
    exact .ack
  split at hu
  · subst byte
    exact .readyAck hu
  split at hu
  · subst byte
    cases hu
    exact .nreadyAck
  · cases hu
    exact .other ‹_› ‹_› ‹_›

/-- Only two bytes change more than the wait. -/
theorem handleAck_frame {byte : UInt8} (h : app.handleAck random byte = some next)
    (hready : byte ≠ infoReadyAck) (hnready : byte ≠ infoNReadyAck) :
    next.typingInfo = app.typingInfo ∧ next.racingInfo = app.racingInfo := by
  obtain ⟨-, rfl⟩ | ⟨-, u, hu, rfl⟩ := handleAck_step h
  · exact ⟨rfl, rfl⟩
  cases hu with
  | ack => exact ⟨rfl, rfl⟩
  | readyAck => exact absurd rfl hready
  | nreadyAck => exact absurd rfl hnready
  | other => exact ⟨rfl, rfl⟩

theorem round_keyboard (byte : Option UInt8) {now : UInt64} {keyboard : Keyboard}
    (h : App.keyboardScancodeHandler random now { app with keyboard := keyboard } = some next) :
    Round random app next (.keyboard byte now) := by
  unfold App.keyboardScancodeHandler at h
  simp only at h
  split at h
  · split at h
    · split at h
      · rename_i hmain
        refine .screen keyboard .endState now (fun hr => ?_) h
        cases hmain.symm.trans hr
      · exact .screen keyboard .mainState now (fun _ => rfl) h
    · exact .idle keyboard (Option.some.inj h).symm
  split at h
  · exact .idle keyboard (Option.some.inj h).symm
  split at h
  · exact .screen keyboard .mainState now (fun _ => rfl) h
  split at h
  · exact .typing byte now keyboard h
  · exact .idle keyboard (Option.some.inj h).symm

theorem round_click {button : Button} {now : UInt64} (hb : button.screen = app.currAppState)
    (h : app.onClick random button now = some next) :
    Round random app next (.click button now) := by
  have hmain (newState : AppState) (hb : AppState.mainState = app.currAppState)
      (h : app.changeState random newState now = some next) :
      Round random app next (.click button now) := by
    refine .screen app.keyboard newState now (fun hr => ?_) h
    cases hb.trans hr
  cases button with
  | mainTraining => exact hmain .trainingState hb h
  | mainRace => exact hmain .raceState hb h
  | mainInstructions => exact hmain .instructionsState hb h
  | mainSettings => exact hmain .settingsState hb h
  | trainingReset => exact .training now hb.symm h
  | raceReady => exact .ready now hb.symm (Option.some.inj h).symm
  | raceReset => exact .reset now hb.symm (Option.some.inj h).symm

theorem step_raceReady (hrace : app.currAppState = .raceState) (now : UInt64) :
    step random app (.click .raceReady now) = some (app.raceReadyButton now) := by
  unfold step
  rw [if_neg (by rw [hrace]; decide)]
  exact if_pos hrace.symm

/-- Every step of the program is one of these rounds. -/
theorem round_of_step {e : Event} (h : step random app e = some next) :
    Round random app next e := by
  unfold step at h
  split at h
  · cases h
  cases e with
  | timer => exact .timer (Option.some.inj h).symm
  | keyboard byte now =>
    simp only at h
    split at h
    · exact round_keyboard byte h
    · exact .idle _ (Option.some.inj h).symm
  | serial input => exact .serial input h
  | mousePress now =>
    simp only at h
    split at h
    · exact .screen app.keyboard .mainState now (fun _ => rfl) h
    · exact .idle app.keyboard (Option.some.inj h).symm
  | click button now =>
    simp only at h
    split at h
    · exact round_click ‹_› h
    · cases h
  | kernel answers => exact .kernel answers (Option.some.inj h).symm

end WriteWise.Steps
