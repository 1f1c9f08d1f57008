import WriteWise.Ending
import WriteWise.Frames

namespace WriteWise.Proj

open Library.Loops Library.Progress Graphics Mouse Scancode Serial Typing Program Video Ui
  Application Display Screens Rtc Frames

/-- What a callback meets: the clock of the computer, the platform calls that set a mode, and what
the memory holds that is allocated for a frame or mapped. -/
structure Surroundings where
  now : UInt64 := 0
  platform : Platform := {}
  heap : Nat → UInt8 := fun _ => 0
  video : Nat → UInt8 := fun _ => 0

/-- The whole program: what decides its course, its interface, the three blocks that hold a frame,
and the rest that it shows. It has failed once `drawScreen` has made `proj_main_loop` return. -/
structure Station where
  app : App
  ui : UiState Face := {}
  frameBuffer : List UInt8 := []
  staticBuffer : List UInt8 := []
  vMem : List UInt8 := []
  currentTheme : AppTheme := .darkTheme
  clock : Clock := {}
  readyButtonText : List UInt8 := []
  popupText : List UInt8 := []
  failed : Bool := false
  deriving DecidableEq

section Memory

def block (contents : Nat → UInt8) (size : Nat) : List UInt8 := (List.range size).map contents

def memset (block : List UInt8) (byte : UInt8) (n : Nat) : Option (List UInt8) :=
  memcpy block 0 (List.replicate n byte) n

theorem memcpy_whole {block object : List UInt8} {n : Nat} (h : block.length = n)
    (h' : object.length = n) : memcpy block 0 object n = some object := by
  rw [memcpy, if_pos ⟨h'.ge, by omega⟩, List.take_of_length_le h'.le]
  have hdrop : block.drop object.length = [] := List.drop_eq_nil_of_le (by omega)
  rw [Library.Raster.splice, List.take_zero, List.nil_append, Nat.zero_add, hdrop, List.append_nil]

end Memory

namespace Station

section Frames

def screen (st : Station) : Screen where
  modeInfo := st.ui.video.modeInfo
  bytesPP := UInt16.ofNat st.ui.video.bytesPP
  frameBuffer := st.frameBuffer

def clearScreen (st : Station) : Option Station :=
  (memset st.frameBuffer st.currentTheme.background st.ui.video.frameSize).map fun frameBuffer =>
    { st with frameBuffer := frameBuffer }

def calcStaticUI (st : Station) : Option Station :=
  (memcpy st.staticBuffer 0 st.frameBuffer st.ui.video.frameSize).map fun staticBuffer =>
    { st with staticBuffer := staticBuffer }

def loadStaticUI (st : Station) : Option Station :=
  (memcpy st.frameBuffer 0 st.staticBuffer st.ui.video.frameSize).map fun frameBuffer =>
    { st with frameBuffer := frameBuffer }

def flipFrame (st : Station) : Option Station :=
  (memcpy st.vMem 0 st.frameBuffer st.ui.video.frameSize).map fun vMem => { st with vMem := vMem }

def initUI (st : Station) : Station :=
  { st with
    ui := Ui.initUI st.ui
    staticBuffer := List.replicate st.ui.video.frameSize 0 }

def exitUI (st : Station) : Station := { st with ui := Ui.exitUI st.ui, staticBuffer := [] }

/-- A frame buffer is allocated where the video memory has been mapped. Where it cannot be
mapped there is none any more. -/
def setMinixMode (vbe : MinixMode → ModeInfo) (mode : MinixMode) (outside : Surroundings)
    (st : Station) : Station :=
  let r := Video.setMinixMode vbe outside.platform mode st.ui.video
  let platform := outside.platform
  let asked : Bool := platform.graphicInt86 && platform.vbeGetModeInfo && platform.sysPrivctl
  let st := { st with ui := { st.ui with video := r.1 } }
  if mode ≠ .textMode ∧ r.2 = false then
    { st with
      frameBuffer := block outside.heap r.1.frameSize
      vMem := block outside.video r.1.frameSize }
  else { st with vMem := if mode ≠ .textMode ∧ asked then [] else st.vMem }

end Frames

section Loading

def loadParts (parts : List Part) (st : Station) : Result Station :=
  (each (Part.run st.ui.video.currentMode st.readyButtonText) parts ⟨st.ui.buttons, st.screen⟩).map
    fun r => ({ st with
      ui := { st.ui with buttons := r.1.buttons }
      frameBuffer := r.1.screen.frameBuffer }, r.2)

def load (parts : List Part) (st : Station) : Result Station :=
  st.clearScreen.bind fun st =>
  proceed (loadParts parts { st with ui := clearButtons st.ui }) fun st =>
    st.calcStaticUI.map fun st => (st, false)

def loadScreen (st : Station) : Result Station :=
  if st.app.currAppState = .endState then some (st, true)
  else
    let st := if st.app.currAppState = .raceState then
      { st with readyButtonText := bytes "Ready" } else st
    load (Screens.loadScreen st.ui.video.currentMode st.currentTheme st.app.currAppState) st

def loadSettings (st : Station) : Option Station :=
  (st.load (Screens.settingsScreenLoad st.ui.video.currentMode st.currentTheme)).map Prod.fst

end Loading

section Rounds

variable (random : UInt32 → Nat → Nat) (vbe : MinixMode → ModeInfo)

/-- Nobody looks at what `changeState` returns. -/
def changeState (newState : AppState) (outside : Surroundings) (st : Station) : Option Station :=
  (st.app.changeState random newState outside.now).bind fun app =>
    if newState = .endState then some { st with app := app }
    else (loadScreen { st with app := app }).map Prod.fst

def settingsButton (button : ResolutionButton) (outside : Surroundings) (st : Station) :
    Option Station :=
  (st.exitUI.setMinixMode vbe button.mode outside).initUI.loadSettings

def settingsButtonTheme (newTheme : AppTheme) (st : Station) : Option Station :=
  loadSettings { st with currentTheme := newTheme }

def onClick (callback : Callback) (outside : Surroundings) (st : Station) : Option Station :=
  match callback with
  | .button .mainTraining => st.changeState random .trainingState outside
  | .button .mainRace => st.changeState random .raceState outside
  | .button .mainInstructions => st.changeState random .instructionsState outside
  | .button .mainSettings => st.changeState random .settingsState outside
  | .button .trainingReset =>
    (st.app.trainingButtonReset random outside.now).map fun app => { st with app := app }
  | .button .raceReady => some { st with app := st.app.raceReadyButton outside.now }
  | .button .raceReset => some { st with app := st.app.raceResetButton }
  | .resolution button => st.settingsButton vbe button outside
  | .settingsButtonDarkTheme => st.settingsButtonTheme .darkTheme
  | .settingsButtonLightTheme => st.settingsButtonTheme .lightTheme

def clickButtons (outside : Fin maxAmountOfButtons → Surroundings) :
    List (Fin maxAmountOfButtons) → Station → Option Station
  | [], st => some st
  | i :: rest, st =>
    match st.ui.clicked i with
    | none => clickButtons outside rest st
    | some button =>
      (st.onClick random vbe button.onClick.callback (outside i)).bind (clickButtons outside rest)

def mouseUpdate (packet : Packet) (outside : Fin maxAmountOfButtons → Surroundings)
    (st : Station) : Option Station :=
  let st := { st with ui := st.ui.moveCursor packet }
  (if st.ui.ValidClick packet then
    st.clickButtons random vbe outside (List.finRange maxAmountOfButtons)
  else some st).map fun st => { st with ui := st.ui.pressButtons packet }

def mouseInterrupt (packet : Packet) (enter : Surroundings)
    (outside : Fin maxAmountOfButtons → Surroundings) (st : Station) : Option Station :=
  (if st.app.currAppState = .startState ∧ (packet.lb = true ∨ packet.rb = true) then
    st.changeState random .mainState enter
  else some st).bind (mouseUpdate random vbe packet outside)

def keyboardScancodeHandler (outside : Surroundings) (st : Station) : Option Station :=
  let k := st.app.keyboard
  if k.scancode &&& breakCode ≠ 0 then
    if k.isScancodeTwoBytes = false ∧ k.scancode = breakEsc then
      match st.app.currAppState with
      | .mainState => st.changeState random .endState outside
      | _ => st.changeState random .mainState outside
    else some st
  else if k.isScancodeTwoBytes = false ∧ k.scancode = makeEsc then some st
  else if st.app.currAppState = .startState then st.changeState random .mainState outside
  else if st.app.currAppState = .trainingState ∨ st.app.currAppState = .raceState then
    (st.app.typingInputHandler (st.app.currAppState = .raceState)).map fun app =>
      { st with app := app }
  else some st

/-- The clock is read every second. -/
def rtcUpdate (rtcIN : Registers) (st : Station) : Option Station :=
  if st.app.timerCounter % frameRate = 0 then
    (Rtc.rtcUpdate rtcIN st.clock).map fun r => { st with clock := r.1 }
  else some st

def timeLeft (app : App) : Int :=
  ((app.racingInfo.startTime : Int) - app.timerCounter) / (frameRate : Nat) + 1

/-- The text of a countdown that does not end with this tick, which would start the test. -/
def countdownText (st : Station) : Option Station :=
  if st.app.currAppState = .raceState ∧ st.app.typingInfo.status = .ready then
    (store 5 (Library.Decimal.decimal (timeLeft st.app).toNat)).map fun popupText =>
      { st with popupText := popupText }
  else some st

def scene (st : Station) : Scene where
  currAppState := st.app.currAppState
  typingInfo := st.app.typingInfo
  racingInfo := st.app.racingInfo
  currentMode := st.ui.video.currentMode
  currentTheme := st.currentTheme
  cursor := st.ui.cursor
  rtcInfo := st.clock.rtcInfo
  buttons := st.ui.buttons

def frame (st : Station) : Frame := ⟨st.screen, st.readyButtonText, st.popupText⟩

def drawScreen (st : Station) : Result Station :=
  st.loadStaticUI.bind fun st =>
  proceed ((st.scene.draw st.frame).map fun r => ({ st with
      frameBuffer := r.1.screen.frameBuffer
      readyButtonText := r.1.readyButtonText
      popupText := r.1.popupText }, r.2)) fun st =>
    st.flipFrame.map fun st => (st, false)

def timerInterrupt (rtcIN : Registers) (st : Station) : Option Station :=
  (rtcUpdate rtcIN { st with app := st.app.timerInterrupt }).bind fun st =>
  st.countdownText.bind fun st =>
  st.drawScreen.map fun r => { r.1 with failed := r.2 }

end Rounds

end Station

section Course

variable {st st' : Station}

/-- Loading and drawing go on with nothing of this. -/
structure SameCourse (st st' : Station) : Prop where
  app : st'.app = st.app
  clock : st'.clock = st.clock
  failed : st'.failed = st.failed

theorem SameCourse.trans {st'' : Station} (h : SameCourse st st') (h' : SameCourse st' st'') :
    SameCourse st st'' :=
  ⟨h'.app.trans h.app, h'.clock.trans h.clock, h'.failed.trans h.failed⟩

abbrev KeepsCourse (st : Station) : Result Station → Prop := Ensures fun r => SameCourse st r.1

theorem KeepsCourse.proceed {r : Result Station} {rest : Station → Result Station}
    (h : KeepsCourse st r) (hrest : ∀ st', SameCourse st st' → KeepsCourse st (rest st')) :
    KeepsCourse st (proceed r rest) := by
  rcases r with _ | ⟨st', failed⟩
  · exact .none
  · cases failed with
    | false => exact hrest st' (h _ rfl)
    | true => exact .pure (h _ rfl)

theorem load_course (parts : List Part) : KeepsCourse st (st.load parts) := by
  have hclear : Ensures (SameCourse st) st.clearScreen := by
    intro st' h
    obtain ⟨_, -, rfl⟩ := Option.map_eq_some_iff.mp h
    exact ⟨rfl, rfl, rfl⟩
  refine hclear.bind fun st₁ h₁ => KeepsCourse.proceed ?_ fun st₂ h₂ => ?_
  · intro r h
    obtain ⟨_, -, rfl⟩ := Option.map_eq_some_iff.mp h
    exact h₁.trans ⟨rfl, rfl, rfl⟩
  · intro r h
    obtain ⟨st₃, h₃, rfl⟩ := Option.map_eq_some_iff.mp h
    obtain ⟨_, -, rfl⟩ := Option.map_eq_some_iff.mp h₃
    exact h₂.trans ⟨rfl, rfl, rfl⟩

theorem loadScreen_course : KeepsCourse st st.loadScreen := by
  unfold Station.loadScreen
  apply Ensures.ite
  · exact fun _ => .pure ⟨rfl, rfl, rfl⟩
  · intro _ r h
    have hload := load_course _ r h
    split at hload
    · exact ⟨hload.app, hload.clock, hload.failed⟩
    · exact hload

theorem drawScreen_course : KeepsCourse st st.drawScreen := by
  have hload : Ensures (SameCourse st) st.loadStaticUI := by
    intro st' h
    obtain ⟨_, -, rfl⟩ := Option.map_eq_some_iff.mp h
    exact ⟨rfl, rfl, rfl⟩
  refine hload.bind fun st₁ h₁ => KeepsCourse.proceed ?_ fun st₂ h₂ => ?_
  · intro r h
    obtain ⟨_, -, rfl⟩ := Option.map_eq_some_iff.mp h
    exact h₁.trans ⟨rfl, rfl, rfl⟩
  · intro r h
    obtain ⟨st₃, h₃, rfl⟩ := Option.map_eq_some_iff.mp h
    obtain ⟨_, -, rfl⟩ := Option.map_eq_some_iff.mp h₃
    exact h₂.trans ⟨rfl, rfl, rfl⟩

end Course

/-- What a round of the main loop is about. -/
inductive Input
  | mouse (packet : Packet) (enter : Surroundings) (outside : Fin maxAmountOfButtons → Surroundings)
  | keyboard (byte : Option UInt8) (outside : Surroundings)
  | timer (rtcIN : Registers)
  | serial (input : UartInput)
  | kernel (answers : List (Option UInt8))

section Program

variable (random : UInt32 → Nat → Nat) (vbe : MinixMode → ModeInfo)

/-- One round of the main loop. There is none in the end state, or after a failure. -/
def mainLoop (st : Station) (e : Input) : Option Station :=
  if st.app.currAppState = .endState ∨ st.failed = true then none
  else match e with
    | .mouse packet enter outside => st.mouseInterrupt random vbe packet enter outside
    | .keyboard byte outside =>
      let r := keyboardIh byte st.app.keyboard
      let st := { st with app := { st.app with keyboard := r.1 } }
      if r.2 then st.keyboardScancodeHandler random outside else some st
    | .timer rtcIN => st.timerInterrupt rtcIN
    | .serial input => (st.app.serialInterrupt random input).map fun app => { st with app := app }
    | .kernel answers => some { st with
        app := { st.app with port := { st.app.port with answers := answers } } }

/-- The program after its start-up, in which the clock has been read and the mode has been set. -/
def startUp (dictionary : List Word) (clock : Clock) (outside : Surroundings) : Option Station :=
  let st : Station := { app := initial dictionary, clock := clock }
  let st := (st.setMinixMode vbe .vbe600pDc { outside with platform := {} }).initUI
  st.loadScreen.map fun r => { r.1 with failed := r.2 }

end Program

end WriteWise.Proj
