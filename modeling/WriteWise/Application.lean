import WriteWise.Steps
import WriteWise.Ui

namespace WriteWise.Application

open Library.Runs Graphics Mouse Scancode Serial Typing Program Video Ui

/-- The functions that buttons call. -/
inductive Callback
  | button (button : Program.Button)
  | resolution (button : ResolutionButton)
  | settingsButtonDarkTheme
  | settingsButtonLightTheme
  deriving DecidableEq, Repr

def Callback.screen : Callback → AppState
  | .button b => b.screen
  | _ => .settingsState

def Callback.loads : Callback → Option AppState
  | .button .mainTraining => some .trainingState
  | .button .mainRace => some .raceState
  | .button .mainInstructions => some .instructionsState
  | .button .mainSettings => some .settingsState
  | .button _ => none
  | _ => some .settingsState

def Callback.setsMode : Callback → Bool
  | .resolution _ => true
  | _ => false

/-- What the loading of a screen does behind `clearScreen` and `clearButtons`. -/
inductive Load
  | draw
  | add (button : Ui.Button Callback) (index : Nat)
  deriving DecidableEq

section Screens

def startScreenLoad : List Load := [.draw, .draw]

def mainScreenLoad : List Load :=
  [.draw, .draw,
    .add ⟨0.3, 0.30, 0.4, 0.1, .button .mainTraining⟩ 0,
    .add ⟨0.3, 0.45, 0.4, 0.1, .button .mainRace⟩ 1,
    .add ⟨0.3, 0.60, 0.4, 0.1, .button .mainInstructions⟩ 2,
    .add ⟨0.3, 0.75, 0.4, 0.1, .button .mainSettings⟩ 3,
    .draw]

def trainingScreenLoad : List Load :=
  [.draw, .draw, .draw, .add ⟨0.4, 0.70, 0.2, 0.1, .button .trainingReset⟩ 0, .draw]

def raceScreenLoad : List Load :=
  [.draw, .draw, .draw,
    .add ⟨0.4, 0.70, 0.2, 0.1, .button .raceReady⟩ 0,
    .add ⟨0.4, 0.70, 0.2, 0.1, .button .raceReset⟩ 1]

def instructionScreenLoad : List Load := List.replicate 8 .draw

def settingsScreenLoad : List Load :=
  [.draw, .draw, .draw, .draw,
    .add ⟨0.1, 0.30, 0.3, 0.1, .resolution .settingsButton480p⟩ 0,
    .add ⟨0.1, 0.45, 0.3, 0.1, .resolution .settingsButton600p⟩ 1,
    .add ⟨0.1, 0.60, 0.3, 0.1, .resolution .settingsButton864p⟩ 2,
    .add ⟨0.1, 0.75, 0.3, 0.1, .resolution .settingsButton1024p⟩ 3,
    .draw,
    .add ⟨0.6, 0.45, 0.3, 0.1, .settingsButtonDarkTheme⟩ 4,
    .add ⟨0.6, 0.60, 0.3, 0.1, .settingsButtonLightTheme⟩ 5,
    .draw]

def loadScreen : AppState → List Load
  | .startState => startScreenLoad
  | .mainState => mainScreenLoad
  | .trainingState => trainingScreenLoad
  | .raceState => raceScreenLoad
  | .instructionsState => instructionScreenLoad
  | .settingsState => settingsScreenLoad
  | .endState => []

end Screens

/-- What a callback meets: the clock of the computer, which of its drawings succeed, and the
platform calls that set a mode. -/
structure Outside where
  now : UInt64 := 0
  drawn : Nat → Bool := fun _ => true
  platform : Platform := {}

def loadParts (drawn : Nat → Bool) (drawings : Nat) :
    List Load → UiState Callback → UiState Callback
  | [], ui => ui
  | .draw :: parts, ui => if drawn drawings then loadParts drawn (drawings + 1) parts ui else ui
  | .add button index :: parts, ui =>
    let r := addButton button index ui
    if r.2 then r.1 else loadParts drawn drawings parts r.1

/-- The program with its user interface. The last two are ghosts: the screen that was shown when
the left button last went down, and the callbacks of the last round of the main loop. -/
structure Desk where
  app : App
  ui : UiState Callback := {}
  pressScreen : AppState := .startState
  invoked : List Callback := []
  deriving DecidableEq

section Code

variable (random : UInt32 → Nat → Nat) (vbe : MinixMode → ModeInfo)

def Desk.loadScreen (outside : Outside) (d : Desk) : Desk :=
  let ui := clearButtons d.ui
  { d with ui := loadParts outside.drawn 0 (Application.loadScreen d.app.currAppState) ui }

def Desk.changeState (newState : AppState) (outside : Outside) (d : Desk) : Option Desk :=
  (d.app.changeState random newState outside.now).map fun app =>
    if newState = .endState then { d with app := app }
    else Desk.loadScreen outside { d with app := app }

/-- The handlers load the settings screen again, whatever is shown. -/
def Desk.settingsButton (button : ResolutionButton) (outside : Outside) (d : Desk) : Desk :=
  let ui := exitUI d.ui
  let ui := { ui with video := (setMinixMode vbe outside.platform button.mode ui.video).1 }
  { d with ui := loadParts outside.drawn 0 settingsScreenLoad (clearButtons (initUI ui)) }

/-- The theme decides nothing but colours. -/
def Desk.settingsButtonTheme (outside : Outside) (d : Desk) : Desk :=
  { d with ui := loadParts outside.drawn 0 settingsScreenLoad (clearButtons d.ui) }

def Desk.onClick (callback : Callback) (outside : Outside) (d : Desk) : Option Desk :=
  match callback with
  | .button .mainTraining => d.changeState random .trainingState outside
  | .button .mainRace => d.changeState random .raceState outside
  | .button .mainInstructions => d.changeState random .instructionsState outside
  | .button .mainSettings => d.changeState random .settingsState outside
  | .button .trainingReset =>
    (d.app.trainingButtonReset random outside.now).map fun app => { d with app := app }
  | .button .raceReady => some { d with app := d.app.raceReadyButton outside.now }
  | .button .raceReset => some { d with app := d.app.raceResetButton }
  | .resolution button => some (d.settingsButton vbe button outside)
  | .settingsButtonDarkTheme | .settingsButtonLightTheme => some (d.settingsButtonTheme outside)

def Desk.invoke (callback : Callback) (outside : Outside) (d : Desk) : Option Desk :=
  (d.onClick random vbe callback outside).map fun next =>
    { next with invoked := d.invoked ++ [callback] }

/-- The rest of the loop of `mouseUpdate`. A callback may change what is left for it. -/
def Desk.clickButtons (outside : Fin maxAmountOfButtons → Outside) :
    List (Fin maxAmountOfButtons) → Desk → Option Desk
  | [], d => some d
  | i :: rest, d =>
    match d.ui.clicked i with
    | none => Desk.clickButtons outside rest d
    | some button =>
      (d.invoke random vbe button.onClick (outside i)).bind (Desk.clickButtons outside rest)

def Desk.mouseUpdate (packet : Packet) (outside : Fin maxAmountOfButtons → Outside) (d : Desk) :
    Option Desk :=
  let d := { d with ui := d.ui.moveCursor packet }
  (if d.ui.ValidClick packet then
    d.clickButtons random vbe outside (List.finRange maxAmountOfButtons)
  else some d).map fun d => { d with ui := d.ui.pressButtons packet }

/-- Note the screen that a packet finds with which the left button goes down. -/
def Desk.notePress (packet : Packet) (d : Desk) : Desk :=
  { d with
    pressScreen := if d.ui.moreMouseInfo.leftPressed = false ∧ packet.lb = true then
      d.app.currAppState else d.pressScreen }

/-- The mouse branch of the main loop, for a complete packet. -/
def Desk.mouseInterrupt (packet : Packet) (enter : Outside)
    (outside : Fin maxAmountOfButtons → Outside) (d : Desk) : Option Desk :=
  let d := d.notePress packet
  (if d.app.currAppState = .startState ∧ (packet.lb = true ∨ packet.rb = true) then
    d.changeState random .mainState enter
  else some d).bind (Desk.mouseUpdate random vbe packet outside)

def Desk.keyboardScancodeHandler (outside : Outside) (d : Desk) : Option Desk :=
  let k := d.app.keyboard
  if k.scancode &&& breakCode ≠ 0 then
    if k.isScancodeTwoBytes = false ∧ k.scancode = breakEsc then
      match d.app.currAppState with
      | .mainState => d.changeState random .endState outside
      | _ => d.changeState random .mainState outside
    else some d
  else if k.isScancodeTwoBytes = false ∧ k.scancode = makeEsc then some d
  else if d.app.currAppState = .startState then d.changeState random .mainState outside
  else if d.app.currAppState = .trainingState ∨ d.app.currAppState = .raceState then
    (d.app.typingInputHandler (d.app.currAppState = .raceState)).map fun app =>
      { d with app := app }
  else some d

/-- What a round of the main loop is about. Each place of a button has its own answers from
outside, as more than one callback may be called. -/
inductive Input
  | mouse (packet : Packet) (enter : Outside) (outside : Fin maxAmountOfButtons → Outside)
  | keyboard (byte : Option UInt8) (outside : Outside)
  | timer
  | serial (input : UartInput)
  | kernel (answers : List (Option UInt8))

def Input.packet : Input → Option Packet
  | .mouse packet _ _ => some packet
  | _ => none

/-- One round of the main loop, in which a frame that is asked for can always be drawn. There is
none in the end state. -/
def mainLoop (d : Desk) (e : Input) : Option Desk :=
  if d.app.currAppState = .endState then none
  else
    let d := { d with invoked := [] }
    match e with
    | .mouse packet enter outside => d.mouseInterrupt random vbe packet enter outside
    | .keyboard byte outside =>
      let r := keyboardIh byte d.app.keyboard
      let d := { d with app := { d.app with keyboard := r.1 } }
      if r.2 then d.keyboardScancodeHandler random outside else some d
    | .timer => some { d with app := d.app.timerInterrupt }
    | .serial input => (d.app.serialInterrupt random input).map fun app => { d with app := app }
    | .kernel answers => some { d with
        app := { d.app with port := { d.app.port with answers := answers } } }

def startUp (dictionary : List Word) : Desk :=
  Desk.loadScreen {}
    { app := initial dictionary
      ui := initUI { video := (setMinixMode vbe {} .vbe600pDc {}).1 } }

end Code

section Screens

theorem addButton_frame (button : Ui.Button Callback) (index : Nat) (ui : UiState Callback) :
    (addButton button index ui).1 =
      { ui with buttons := (addButton button index ui).1.buttons } := by
  unfold addButton
  split
  · split
    · rfl
    · rfl
  · rfl

theorem addButton_get {button b : Ui.Button Callback} {index : Nat} {ui : UiState Callback}
    {i : Fin maxAmountOfButtons} (h : (addButton button index ui).1.buttons.get i = some b) :
    ui.buttons.get i = some b ∨ index = i ∧ button = b := by
  unfold addButton at h
  split at h
  · split at h
    · exact .inl h
    · simp only [Vector.get_eq_getElem] at h ⊢
      rw [Vector.getElem_set] at h
      split at h
      · exact .inr ⟨‹_›, Option.some.inj h⟩
      · exact .inl h
  · exact .inl h

theorem loadParts_frame (drawn : Nat → Bool) (drawings : Nat) (parts : List Load)
    (ui : UiState Callback) : loadParts drawn drawings parts ui =
      { ui with buttons := (loadParts drawn drawings parts ui).buttons } := by
  induction parts generalizing drawings ui with
  | nil => rfl
  | cons part parts ih =>
    cases part with
    | draw =>
      rw [loadParts]
      split
      · exact ih (drawings + 1) ui
      · rfl
    | add button index =>
      rw [loadParts]
      split
      · exact addButton_frame button index ui
      · rw [ih, addButton_frame]

theorem loadParts_get {drawn : Nat → Bool} {drawings : Nat} {parts : List Load}
    {ui : UiState Callback} {i : Fin maxAmountOfButtons} {b : Ui.Button Callback}
    (h : (loadParts drawn drawings parts ui).buttons.get i = some b) :
    ui.buttons.get i = some b ∨ .add b i ∈ parts := by
  induction parts generalizing drawings ui with
  | nil => exact .inl h
  | cons part parts ih =>
    cases part with
    | draw =>
      rw [loadParts] at h
      split at h
      · exact (ih h).imp_right (List.mem_cons_of_mem _)
      · exact .inl h
    | add button index =>
      have hadd (hget : (addButton button index ui).1.buttons.get i = some b) :
          ui.buttons.get i = some b ∨ Load.add b i ∈ Load.add button index :: parts := by
        obtain hget | ⟨rfl, rfl⟩ := addButton_get hget
        · exact .inl hget
        · exact .inr List.mem_cons_self
      rw [loadParts] at h
      split at h
      · exact hadd h
      · obtain hget | hmem := ih h
        · exact hadd hget
        · exact .inr (List.mem_cons_of_mem _ hmem)

def Placed (screen : AppState) (ui : UiState Callback) : Prop :=
  ∀ i b, ui.buttons.get i = some b → .add b i ∈ loadScreen screen

theorem placed_load (drawn : Nat → Bool) (screen : AppState) (ui : UiState Callback) :
    Placed screen (loadParts drawn 0 (loadScreen screen) (clearButtons ui)) := by
  intro i b h
  refine (loadParts_get h).resolve_left fun hclear => ?_
  simp [clearButtons, Vector.get_eq_getElem] at hclear

def buttonsOf (screen : AppState) : List (Ui.Button Callback × Nat) :=
  (loadScreen screen).filterMap fun
    | .draw => none
    | .add b i => some (b, i)

theorem mem_buttonsOf {screen : AppState} {b : Ui.Button Callback} {i : Nat}
    (h : .add b i ∈ loadScreen screen) : (b, i) ∈ buttonsOf screen :=
  List.mem_filterMap.mpr ⟨.add b i, h, rfl⟩

theorem screen_of_mem : ∀ screen, ∀ p ∈ buttonsOf screen, p.1.onClick.screen = screen := by
  intro screen
  cases screen <;> decide +kernel

/-- Behind a button that loads a screen, that screen has none in the same row. A resolution is
set for the whole screen, and forgets where the left button went down. -/
theorem rows_apart : ∀ screen, ∀ p ∈ buttonsOf screen, ∀ loaded ∈ p.1.onClick.loads,
    ∀ q ∈ buttonsOf loaded, p.2 < q.2 → p.1.onClick.setsMode = true ∨
      q.1.py + q.1.height ≤ p.1.py ∨ p.1.py + p.1.height ≤ q.1.py := by
  intro screen
  cases screen <;> decide +kernel

theorem below_title : ∀ screen, ∀ p ∈ buttonsOf screen, 0.3 ≤ p.1.py ∧ p.1.py ≤ 1 := by
  intro screen
  cases screen <;> decide +kernel

end Screens

end WriteWise.Application
