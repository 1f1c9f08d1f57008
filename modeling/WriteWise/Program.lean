import WriteWise.Serial
import WriteWise.Typing

namespace WriteWise.Program

open Scancode Serial Typing

inductive AppState
  | startState
  | mainState
  | trainingState
  | raceState
  | instructionsState
  | settingsState
  | endState
  deriving DecidableEq, Repr

structure RacingInfo where
  readyMe : Bool := false
  readyYou : Bool := false
  seedMe : UInt64 := 0
  seedYou : UInt64 := 0
  startTime : Nat := 0
  won : Bool := false
  deriving DecidableEq

/-- The globals of the program that decide what it does, without those that only
concern the drawing. The clock `timerCounter` never wraps around. `generated` is a ghost:
the seeds of all calls of `generateText`. -/
structure App where
  currAppState : AppState := .startState
  typingInfo : TypingInfo := {}
  racingInfo : RacingInfo := {}
  waitingForSeed : Bool := false
  port : Port := {}
  timerCounter : Nat := 0
  keyboard : Keyboard := {}
  dictionary : List Word := []
  generated : List UInt32 := []
  deriving DecidableEq

abbrev ackTimeout : Nat := 1

/-- Call a function of the serial port driver and ignore what it returns. -/
def App.call (f : Port → Port × Bool) (app : App) : App := { app with port := (f app.port).1 }

def App.resetTypingInfo (app : App) : App := { app with typingInfo := Typing.resetTypingInfo }

def App.resetRacingInfo (app : App) : App := { app with racingInfo := {} }

def App.startTyping (app : App) : App :=
  { app with typingInfo := Typing.startTyping app.timerCounter app.typingInfo }

def App.updateTypingInfo (app : App) : App :=
  { app with typingInfo := Typing.updateTypingInfo app.timerCounter app.typingInfo }

def App.endTyping (app : App) : App :=
  { app with typingInfo := Typing.endTyping app.timerCounter app.typingInfo }

def App.endRace (app : App) : App :=
  App.call serialPortSendWon { app with racingInfo := { app.racingInfo with won := true } }

variable (random : UInt32 → Nat → Nat)

def App.generateText (wordAmmount : Nat) (seed : UInt32) (app : App) : Option App :=
  (Typing.generateText app.dictionary random wordAmmount seed).map fun t =>
    { app with typingInfo := t, generated := app.generated ++ [seed] }

def RacingInfo.BothReady (r : RacingInfo) : Prop :=
  r.readyMe = true ∧ r.readyYou = true ∧ r.seedMe ≠ 0 ∧ r.seedYou ≠ 0

instance (r : RacingInfo) : Decidable r.BothReady := by
  unfold RacingInfo.BothReady
  infer_instance

def App.checkIfReady (app : App) : Option App :=
  if app.racingInfo.BothReady then
    (app.generateText random 25 (app.racingInfo.seedMe + app.racingInfo.seedYou).toUInt32).map
      fun app => { app with
        racingInfo := { app.racingInfo with startTime := 5 * frameRate + app.timerCounter } }
  else some app

/-- Undefined where the C code leaves a buffer or follows a null pointer. -/
def App.typingInputHandler (isRace : Bool) (app : App) : Option App :=
  let app := if !isRace ∧ app.typingInfo.status = .ready then app.startTyping else app
  if app.typingInfo.status = .typing then
    if app.keyboard.scancode = backspaceScancode then
      (eraseChar app.typingInfo).map fun t => { app with typingInfo := t }
    else if app.typingInfo.typingCursor < app.typingInfo.generatedTextSize then
      (typeChar (getCharFromMakecode app.keyboard app.keyboard.scancode) app.typingInfo).map fun t =>
        let app := { app with typingInfo := t }
        if t.typedChars = t.generatedTextSize ∧ t.wrongChars = 0 then
          let app := app.endTyping
          if isRace then app.endRace else app
        else app
    else some app
  else some app

def App.handleWon (byte : UInt8) (app : App) : App :=
  if app.typingInfo.status = .typing ∧ byte = infoWon then
    let app := app.endTyping
    { app with racingInfo := { app.racingInfo with won := false } }
  else app

def App.handleExit (byte : UInt8) (app : App) : App :=
  if byte = infoExit then app.resetTypingInfo.resetRacingInfo else app

/-- A byte that comes while an acknowledgement is expected ends the wait, whatever it is. -/
def App.handleAck (byte : UInt8) (app : App) : Option App :=
  if app.port.waitingAckSerialPort then
    (if byte = infoAck then some app
    else if byte = infoReadyAck then
      App.checkIfReady random { app with racingInfo := { app.racingInfo with readyMe := true } }
    else if byte = infoNReadyAck then
      some { app with racingInfo := { app.racingInfo with readyMe := false, seedMe := 0 } }
    else some (app.call serialPortClearFIFO)).map fun app =>
      { app with port := { app.port with waitingAckSerialPort := false } }
  else some app

def App.handleControl (byte : UInt8) (app : App) : Option App :=
  if app.typingInfo.status = .unready ∧ byte = infoReady then
    some (App.call serialPortSendReadyAck { app with
      racingInfo := { app.racingInfo with readyYou := true }, waitingForSeed := true })
  else if app.typingInfo.status = .unready ∧ byte = infoNReady then
    some (App.call serialPortSendNReadyAck { app with
      racingInfo := { app.racingInfo with readyYou := false } })
  else App.handleAck random byte ((app.handleWon byte).handleExit byte)

/-- What the branches of the serial port switch do with a complete message. -/
def App.handleMessage (m : Message) (app : App) : Option App :=
  match m with
  | .ulong receivedULong =>
    (if app.waitingForSeed then
      (App.checkIfReady random { app with
        racingInfo := { app.racingInfo with seedYou := receivedULong } }).map fun app =>
          { app with waitingForSeed := false }
    else some app).map fun app => app.call serialPortSendAck
  | .control byte => app.handleControl random byte
  | _ => some (app.call serialPortSendAck)

def App.serialInterrupt (input : UartInput) (app : App) : Option App :=
  if app.currAppState ≠ .raceState then some app
  else
    let r := serialSwitch input app.port.decoder
    let app := { app with port := { app.port with decoder := r.1 } }
    match r.2 with
    | none => some app
    | some m => app.handleMessage random m

def App.countdown (app : App) : App :=
  if app.typingInfo.status = .ready then
    let timeLeftInt : Int := app.racingInfo.startTime - app.timerCounter
    let timeLeft : Int := timeLeftInt / frameRate + 1
    if timeLeft ≤ 0 then app.startTyping else app
  else app

def App.halfSecond (app : App) : App :=
  if app.timerCounter % (frameRate >>> 1) = 0 then app.updateTypingInfo else app

/-- The timer branch up to the test for a late acknowledgement. -/
def App.tick (app : App) : App :=
  let app := { app with timerCounter := app.timerCounter + 1 }
  if app.currAppState = .trainingState then app.halfSecond
  else if app.currAppState = .raceState then app.halfSecond.countdown
  else app

def App.AckLate (app : App) : Prop :=
  app.port.waitingAckSerialPort = true ∧
    ackTimeout * frameRate < ulongSub app.timerCounter app.port.waitingAckStartTime

instance (app : App) : Decidable app.AckLate := by
  unfold App.AckLate
  infer_instance

/-- The timer branch of the main loop, but for the clock and the drawing of the screen. -/
def App.timerInterrupt (app : App) : App :=
  let app := app.tick
  if app.AckLate then app.call serialPortClearFIFO else app

/-- `now` is what `time(NULL)` returns. -/
def App.changeState (newState : AppState) (now : UInt64) (app : App) : Option App :=
  let app := if app.currAppState = .raceState then app.call serialPortSendExit else app
  let app := { app with currAppState := newState }
  match newState with
  | .trainingState => app.generateText random 25 now.toUInt32
  | .raceState => some (App.call serialPortClearFIFO app.resetTypingInfo.resetRacingInfo)
  | _ => some app

def App.keyboardScancodeHandler (now : UInt64) (app : App) : Option App :=
  let k := app.keyboard
  if k.scancode &&& breakCode ≠ 0 then
    if k.isScancodeTwoBytes = false ∧ k.scancode = breakEsc then
      match app.currAppState with
      | .mainState => app.changeState random .endState now
      | _ => app.changeState random .mainState now
    else some app
  else if k.isScancodeTwoBytes = false ∧ k.scancode = makeEsc then some app
  else if app.currAppState = .startState then app.changeState random .mainState now
  else if app.currAppState = .trainingState ∨ app.currAppState = .raceState then
    app.typingInputHandler (app.currAppState = .raceState)
  else some app

def App.raceReadyButton (now : UInt64) (app : App) : App :=
  if app.typingInfo.status = .unready then
    if app.racingInfo.readyMe then app.call serialPortSendNReady
    else
      let app := { app with racingInfo := { app.racingInfo with seedMe := now } }
      let app := app.call serialPortSendReady
      app.call (serialPortSendULong app.racingInfo.seedMe app.timerCounter)
  else app

def App.raceResetButton (app : App) : App :=
  if app.typingInfo.status = .finished then app.resetTypingInfo.resetRacingInfo else app

def App.trainingButtonReset (now : UInt64) (app : App) : Option App :=
  app.generateText random 25 now.toUInt32

inductive Button
  | mainTraining
  | mainRace
  | mainInstructions
  | mainSettings
  | trainingReset
  | raceReady
  | raceReset
  deriving DecidableEq, Repr

def Button.screen : Button → AppState
  | .mainTraining | .mainRace | .mainInstructions | .mainSettings => .mainState
  | .trainingReset => .trainingState
  | .raceReady | .raceReset => .raceState

def App.onClick (button : Button) (now : UInt64) (app : App) : Option App :=
  match button with
  | .mainTraining => app.changeState random .trainingState now
  | .mainRace => app.changeState random .raceState now
  | .mainInstructions => app.changeState random .instructionsState now
  | .mainSettings => app.changeState random .settingsState now
  | .trainingReset => app.trainingButtonReset random now
  | .raceReady => some (app.raceReadyButton now)
  | .raceReset => some app.raceResetButton

/-- What can happen to the program between two rounds of its main loop. `kernel`
fixes what the coming kernel calls of the sending functions return. -/
inductive Event
  | timer
  | keyboard (byte : Option UInt8) (now : UInt64)
  | serial (input : UartInput)
  | mousePress (now : UInt64)
  | click (button : Button) (now : UInt64)
  | kernel (answers : List (Option UInt8))

/-- One round of the main loop. There is none in the end state, and a button
is only clicked on its screen. -/
def step (app : App) (e : Event) : Option App :=
  if app.currAppState = .endState then none
  else match e with
    | .timer => some app.timerInterrupt
    | .keyboard byte now =>
      let r := keyboardIh byte app.keyboard
      let app := { app with keyboard := r.1 }
      if r.2 then app.keyboardScancodeHandler random now else some app
    | .serial input => app.serialInterrupt random input
    | .mousePress now =>
      if app.currAppState = .startState then app.changeState random .mainState now else some app
    | .click button now =>
      if button.screen = app.currAppState then app.onClick random button now else none
    | .kernel answers => some { app with port := { app.port with answers := answers } }

def initial (dictionary : List Word) : App := { dictionary := dictionary }

section Frame

variable (app : App) (f : Port → Port × Bool)

@[simp] theorem call_currAppState : (app.call f).currAppState = app.currAppState := rfl

@[simp] theorem call_typingInfo : (app.call f).typingInfo = app.typingInfo := rfl

@[simp] theorem call_racingInfo : (app.call f).racingInfo = app.racingInfo := rfl

@[simp] theorem call_waitingForSeed : (app.call f).waitingForSeed = app.waitingForSeed := rfl

@[simp] theorem call_port : (app.call f).port = (f app.port).1 := rfl

@[simp] theorem call_timerCounter : (app.call f).timerCounter = app.timerCounter := rfl

@[simp] theorem call_keyboard : (app.call f).keyboard = app.keyboard := rfl

@[simp] theorem call_dictionary : (app.call f).dictionary = app.dictionary := rfl

@[simp] theorem call_generated : (app.call f).generated = app.generated := rfl

theorem halfSecond_frame :
    app.halfSecond = { app with typingInfo := app.halfSecond.typingInfo } := by
  unfold App.halfSecond
  split
  · rfl
  · rfl

theorem countdown_frame : app.countdown = { app with typingInfo := app.countdown.typingInfo } := by
  unfold App.countdown
  split
  · simp only
    split
    · rfl
    · rfl
  · rfl

theorem tick_frame : app.tick =
    { app with timerCounter := app.timerCounter + 1, typingInfo := app.tick.typingInfo } := by
  have hhalf := halfSecond_frame { app with timerCounter := app.timerCounter + 1 }
  unfold App.tick
  simp only
  split
  · exact hhalf
  split
  · rw [countdown_frame, hhalf]
  · rfl

@[simp] theorem tick_port : app.tick.port = app.port := by
  rw [tick_frame]

@[simp] theorem tick_racingInfo : app.tick.racingInfo = app.racingInfo := by
  rw [tick_frame]

@[simp] theorem tick_timerCounter : app.tick.timerCounter = app.timerCounter + 1 := by
  rw [tick_frame]

@[simp] theorem tick_currAppState : app.tick.currAppState = app.currAppState := by
  rw [tick_frame]

@[simp] theorem tick_waitingForSeed : app.tick.waitingForSeed = app.waitingForSeed := by
  rw [tick_frame]

@[simp] theorem tick_generated : app.tick.generated = app.generated := by
  rw [tick_frame]

theorem handleWon_skip {byte : UInt8} (h : byte ≠ infoWon) : app.handleWon byte = app :=
  if_neg fun hc => h hc.2

theorem handleExit_skip {byte : UInt8} (h : byte ≠ infoExit) : app.handleExit byte = app :=
  if_neg h

@[simp] theorem handleWon_port (byte : UInt8) : (app.handleWon byte).port = app.port := by
  unfold App.handleWon
  split
  · rfl
  · rfl

@[simp] theorem handleExit_port (byte : UInt8) : (app.handleExit byte).port = app.port := by
  unfold App.handleExit
  split
  · rfl
  · rfl

theorem raceReadyButton_frame (now : UInt64) : ∃ seed port, app.raceReadyButton now =
    { app with racingInfo := { app.racingInfo with seedMe := seed }, port := port } := by
  unfold App.raceReadyButton
  split
  · split
    · exact ⟨app.racingInfo.seedMe, _, rfl⟩
    · exact ⟨now, _, rfl⟩
  · exact ⟨app.racingInfo.seedMe, app.port, rfl⟩

variable {app} {random} {next : App}

theorem checkIfReady_frame (h : app.checkIfReady random = some next) :
    next = app ∨ ∃ t seed startTime, next = { app with
      typingInfo := t
      generated := app.generated ++ [seed]
      racingInfo := { app.racingInfo with startTime := startTime } } := by
  unfold App.checkIfReady at h
  split at h
  · obtain ⟨u, hu, rfl⟩ := Option.map_eq_some_iff.mp h
    obtain ⟨t, -, rfl⟩ := Option.map_eq_some_iff.mp hu
    exact .inr ⟨t, _, _, rfl⟩
  · cases h
    exact .inl rfl

theorem handler_frame {isRace : Bool} (h : app.typingInputHandler isRace = some next) :
    (∃ t, next = { app with typingInfo := t }) ∨ isRace = true ∧
      ∃ t, next = App.endRace { app with typingInfo := t } := by
  obtain ⟨t₀, hstart⟩ : ∃ t₀, (if !isRace ∧ app.typingInfo.status = .ready then app.startTyping
      else app) = { app with typingInfo := t₀ } := by
    split
    · exact ⟨_, rfl⟩
    · exact ⟨app.typingInfo, rfl⟩
  unfold App.typingInputHandler at h
  rw [hstart] at h
  simp only at h
  split at h
  · split at h
    · obtain ⟨u, -, rfl⟩ := Option.map_eq_some_iff.mp h
      exact .inl ⟨u, rfl⟩
    split at h
    · obtain ⟨u, -, rfl⟩ := Option.map_eq_some_iff.mp h
      split
      · split
        · rename_i hrace
          exact .inr ⟨hrace, _, rfl⟩
        · exact .inl ⟨_, rfl⟩
      · exact .inl ⟨u, rfl⟩
    · cases h
      exact .inl ⟨t₀, rfl⟩
  · cases h
    exact .inl ⟨t₀, rfl⟩

end Frame

end WriteWise.Program
