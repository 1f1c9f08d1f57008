import WriteWise.Rendering

namespace WriteWise.ProjRefinement

open Library.Loops Library.Runs Library.Progress TextGeneration Graphics Mouse Scancode Serial Typing
  Data Program RaceSteps Video ScreenFit Ui Application ApplicationRun Display Screens Rtc Frames
  Proj Rendering

/-- The platform refuses a mode at once, or sets it altogether. -/
def Clean (platform : Platform) : Prop :=
  platform.graphicInt86 = true →
    platform.vbeGetModeInfo = true ∧ platform.sysPrivctl = true ∧ platform.vmMapPhys = true

instance (platform : Platform) : Decidable (Clean platform) := inferInstanceAs (Decidable (_ → _))

/-- What the program without its looks meets: there all drawings succeed. -/
def eraseOutside (outside : Surroundings) : Outside where
  now := outside.now
  platform := outside.platform

def eraseInput : Proj.Input → Application.Input
  | .mouse packet enter outside =>
    .mouse packet (eraseOutside enter) fun i => eraseOutside (outside i)
  | .keyboard byte outside => .keyboard byte (eraseOutside outside)
  | .timer _ => .timer
  | .serial input => .serial input
  | .kernel answers => .kernel answers

/-- The two programs are in the same state, and the screen that is shown was loaded without a
failure. -/
structure Refines (vbe : MinixMode → ModeInfo) (st : Station) (d : Desk) : Prop where
  app : d.app = st.app
  ui : d.ui = erase st.ui
  shown : ∃ button, Sane vbe button st ∧
    (st.app.currAppState ≠ .endState → Loaded vbe button st.app.currAppState st)

variable {random : UInt32 → Nat → Nat} {vbe : MinixMode → ModeInfo} {button : ResolutionButton}
  {st : Station} {d : Desk} {outside : Surroundings}

section Load

theorem refines_loadScreen (hs : Supported vbe) (h : Sane vbe button st) (happ : d.app = st.app)
    (hui : d.ui = erase st.ui) (hend : st.app.currAppState ≠ .endState) :
    ∃ st', st.loadScreen = some (st', false) ∧ st'.currentTheme = st.currentTheme ∧
      Refines vbe st' (d.loadScreen (eraseOutside outside)) := by
  obtain ⟨text, htext, hst⟩ : ∃ text : List UInt8, text.length ≤ 7 ∧
      (if st.app.currAppState = .raceState then { st with readyButtonText := bytes "Ready" }
        else st) = { st with readyButtonText := text } := by
    split
    · exact ⟨_, by decide, rfl⟩
    · exact ⟨_, h.ready, rfl⟩
  have hsane : Sane vbe button { st with readyButtonText := text } :=
    ⟨h.failed, h.video, h.frameBuffer, h.staticBuffer, h.vMem, htext, h.popup⟩
  obtain ⟨buttons, frameBuffer, hload, hlen, hrun, herase⟩ :=
    load_spec hs hsane st.app.currAppState
  have hmode : st.ui.video.currentMode = button.mode := congrArg VideoState.currentMode h.video
  have hscreen : st.loadScreen = Station.load
      (Screens.loadScreen button.mode st.currentTheme st.app.currAppState)
      { st with readyButtonText := text } := by
    rw [Station.loadScreen, if_neg hend, hst]
    simp only
    rw [hmode]
  refine ⟨_, hscreen.trans hload, rfl, happ, ?_, button,
    ⟨h.failed, h.video, hlen, hlen, h.vMem, htext, h.popup⟩, fun _ => hrun⟩
  rw [Desk.loadScreen, happ, hui]
  exact herase

theorem refines_loadSettings (hs : Supported vbe) (h : Sane vbe button st) (happ : d.app = st.app)
    (hscreen : st.app.currAppState = .settingsState) {ui : UiState Callback}
    (hui : ui = erase st.ui) :
    ∃ st', st.loadSettings = some st' ∧ st'.app = st.app ∧ Refines vbe st' { d with
      ui := loadParts (fun _ => true) 0 Application.settingsScreenLoad (clearButtons ui) } := by
  obtain ⟨buttons, frameBuffer, hload, hlen, hrun, herase⟩ := load_spec hs h .settingsState
  have hmode : st.ui.video.currentMode = button.mode := congrArg VideoState.currentMode h.video
  have hsettings : st.loadSettings = (Station.load
      (Screens.loadScreen button.mode st.currentTheme .settingsState) st).map Prod.fst := by
    rw [Station.loadSettings, hmode]
    rfl
  refine ⟨_, hsettings.trans (congrArg (Option.map Prod.fst) hload), rfl, happ, ?_, button,
    ⟨h.failed, h.video, hlen, hlen, h.vMem, h.ready, h.popup⟩, fun _ => ?_⟩
  · rw [hui]
    exact herase
  · simp only [hscreen]
    exact hrun

theorem length_block (contents : Nat → UInt8) (size : Nat) :
    (block contents size).length = size := by
  rw [block, List.length_map, List.length_range]

theorem erase_initUI (ui : UiState Face) : erase (Ui.initUI ui) = Ui.initUI (erase ui) := by
  rw [Ui.initUI, erase_clearButtons]
  rfl

theorem setMinixMode_frame (mode : MinixMode) (st : Station) :
    (st.setMinixMode vbe mode outside).app = st.app ∧
      (st.setMinixMode vbe mode outside).ui = { st.ui with
        video := (Video.setMinixMode vbe outside.platform mode st.ui.video).1 } := by
  unfold Station.setMinixMode
  simp only
  split
  · exact ⟨rfl, rfl⟩
  · exact ⟨rfl, rfl⟩

theorem sane_setMode (h : Sane vbe button st) (b : ResolutionButton)
    (hclean : Clean outside.platform) :
    ∃ button', Sane vbe button' (st.exitUI.setMinixMode vbe b.mode outside).initUI := by
  have hmode : b.mode ≠ .textMode := by
    cases b <;> decide
  have hstatic : ∀ n, (List.replicate n (0 : UInt8)).length = n := fun n => List.length_replicate
  obtain ⟨now, ⟨graphic, info, privctl, map, text⟩, heap, video⟩ := outside
  have hvideo := h.video
  cases graphic with
  | false =>
    have hset : Video.setMinixMode vbe ⟨false, info, privctl, map, text⟩ b.mode
        st.exitUI.ui.video = (st.exitUI.ui.video, true) := by
      rw [Video.setMinixMode, if_neg hmode]
      rfl
    have hasked : ¬ (b.mode ≠ .textMode ∧ (false && info && privctl) = true) := by simp
    refine ⟨button, ?_⟩
    unfold Station.setMinixMode
    simp only [hset]
    rw [if_neg (fun hc => absurd hc.2 (by decide)), if_neg hasked]
    refine ⟨h.failed, ?_, h.frameBuffer, ?_, h.vMem, h.ready, h.popup⟩
    · simp only [Station.initUI, Station.exitUI, Ui.initUI, Ui.exitUI, clearButtons, hvideo]
      rfl
    · simp only [Station.initUI, Station.exitUI, Ui.exitUI, hvideo]
      exact hstatic _
  | true =>
    obtain ⟨rfl, rfl, rfl⟩ := hclean rfl
    have hset : Video.setMinixMode vbe ⟨true, true, true, true, text⟩ b.mode
        st.exitUI.ui.video = ({ videoOf vbe b with staticBuffer := 0 }, false) := by
      rw [Video.setMinixMode, if_neg hmode]
      rfl
    refine ⟨b, ?_⟩
    unfold Station.setMinixMode
    simp only [hset]
    rw [if_pos ⟨hmode, trivial⟩]
    exact ⟨h.failed, rfl, length_block _ _, hstatic _, length_block _ _, h.ready, h.popup⟩

end Load

section Rounds

def Goes (vbe : MinixMode → ModeInfo) (st : Station) (d : Desk) : Prop :=
  Refines vbe st d ∧ st.app.currAppState ≠ .endState

theorem Refines.withApp (h : Refines vbe st d) {app : App}
    (hscreen : app.currAppState = st.app.currAppState) :
    Refines vbe { st with app := app } { d with app := app } := by
  obtain ⟨button, hsane, hloaded⟩ := h.shown
  refine ⟨rfl, h.ui, button, ⟨hsane.failed, hsane.video, hsane.frameBuffer, hsane.staticBuffer,
    hsane.vMem, hsane.ready, hsane.popup⟩, ?_⟩
  simp only [hscreen]
  exact hloaded

theorem Refines.withUi (h : Refines vbe st d) {ui : UiState Face} {ui' : UiState Callback}
    (hui : ui' = erase ui) (hv : ui.video = st.ui.video) (hb : ui.buttons = st.ui.buttons) :
    Refines vbe { st with ui := ui } { d with ui := ui' } := by
  obtain ⟨button, hsane, hloaded⟩ := h.shown
  refine ⟨h.app, hui, button, ⟨hsane.failed, hv.trans hsane.video, hsane.frameBuffer,
    hsane.staticBuffer, hsane.vMem, hsane.ready, hsane.popup⟩, fun hend => ?_⟩
  have hl := hloaded hend
  unfold Loaded at hl ⊢
  simp only
  rw [hb]
  exact hl

theorem refines_changeState (hs : Supported vbe) (h : Refines vbe st d) (newState : AppState) :
    Option.Rel (fun st' d' => Refines vbe st' d' ∧ st'.app.currAppState = newState)
      (st.changeState random newState outside)
      (d.changeState random newState (eraseOutside outside)) := by
  obtain ⟨button, hsane, -⟩ := h.shown
  have hnow : (eraseOutside outside).now = outside.now := rfl
  rw [Station.changeState, Desk.changeState, h.app, hnow]
  cases hc : st.app.changeState random newState outside.now with
  | none => exact .none
  | some app =>
    have hscreen := (changeState_screen hc).1
    have hsane' : Sane vbe button { st with app := app } :=
      ⟨hsane.failed, hsane.video, hsane.frameBuffer, hsane.staticBuffer, hsane.vMem, hsane.ready,
        hsane.popup⟩
    rw [Option.bind_some, Option.map_some]
    by_cases hend : newState = .endState
    · rw [if_pos hend, if_pos hend]
      exact .some ⟨⟨rfl, h.ui, button, hsane', fun hne => absurd (hscreen.trans hend) hne⟩, hscreen⟩
    · rw [if_neg hend, if_neg hend]
      obtain ⟨st', hst', -, hrefines⟩ := @refines_loadScreen vbe button { st with app := app }
        { d with app := app } outside hs hsane' rfl h.ui fun he => hend (hscreen.symm.trans he)
      rw [hst', Option.map_some]
      have happ : app = st'.app := hrefines.app
      exact .some ⟨hrefines, happ ▸ hscreen⟩

theorem Refines.placed (hs : Supported vbe) (h : Refines vbe st d)
    (hend : st.app.currAppState ≠ .endState) : Placed st.app.currAppState (erase st.ui) := by
  obtain ⟨button, -, hloaded⟩ := h.shown
  intro i b hb
  have hget : (erase st.ui).buttons.get i = (st.ui.buttons.get i).map eraseButton :=
    Vector.getElem_map ..
  rw [hget] at hb
  obtain ⟨face, hface, rfl⟩ := Option.map_eq_some_iff.mp hb
  rw [← erase_loadScreen button.mode st.currentTheme]
  exact List.mem_map.mpr ⟨_, (((hloaded hend).spec hs).2 i face).mp hface, rfl⟩

theorem raceResetButton_screen (app : App) : app.raceResetButton.currAppState = app.currAppState := by
  unfold App.raceResetButton
  split
  · rfl
  · rfl

theorem refines_onClick (hs : Supported vbe) (h : Goes vbe st d) {c : Callback}
    (hscreen : c.screen = st.app.currAppState) (hclean : Clean outside.platform) :
    Option.Rel (Goes vbe) (st.onClick random vbe c outside)
      (d.onClick random vbe c (eraseOutside outside)) := by
  obtain ⟨h, hend⟩ := h
  have hchange : ∀ newState, newState ≠ .endState → Option.Rel (Goes vbe)
      (st.changeState random newState outside)
      (d.changeState random newState (eraseOutside outside)) := by
    intro newState hne
    exact rel_mono (refines_changeState hs h newState) fun _ _ hrel =>
      ⟨hrel.1, fun he => hne (hrel.2.symm.trans he)⟩
  have happ : ∀ app : App, app.currAppState = st.app.currAppState →
      Goes vbe { st with app := app } { d with app := app } :=
    fun app hsame => ⟨h.withApp hsame, fun he => hend (hsame.symm.trans he)⟩
  have hsettings : ∀ {button} {st₁ : Station} {ui : UiState Callback}, Sane vbe button st₁ →
      st₁.app = st.app → ui = erase st₁.ui → c.screen = .settingsState →
      Option.Rel (Goes vbe) st₁.loadSettings (some { d with
        ui := loadParts (fun _ => true) 0 Application.settingsScreenLoad (clearButtons ui) }) := by
    intro button st₁ ui hsane happ hui hset
    have hshown : st₁.app.currAppState = .settingsState := by
      rw [happ, ← hscreen, hset]
    obtain ⟨st', hst', happ', hrefines⟩ :=
      refines_loadSettings hs hsane (h.app.trans happ.symm) hshown hui
    rw [hst']
    refine .some ⟨hrefines, ?_⟩
    rw [happ', happ]
    exact hend
  cases c with
  | button b =>
    cases b with
    | mainTraining => exact hchange .trainingState (by decide)
    | mainRace => exact hchange .raceState (by decide)
    | mainInstructions => exact hchange .instructionsState (by decide)
    | mainSettings => exact hchange .settingsState (by decide)
    | trainingReset =>
      have hnow : (eraseOutside outside).now = outside.now := rfl
      rw [Station.onClick, Desk.onClick, h.app, hnow]
      cases hgen : st.app.trainingButtonReset random outside.now with
      | none => exact .none
      | some app =>
        obtain ⟨t, -, rfl⟩ := Option.map_eq_some_iff.mp hgen
        exact .some (happ _ rfl)
    | raceReady =>
      rw [Station.onClick, Desk.onClick, h.app]
      exact .some (happ _ (raceReadyButton_screen _ _))
    | raceReset =>
      rw [Station.onClick, Desk.onClick, h.app]
      exact .some (happ _ (raceResetButton_screen _))
  | resolution b =>
    obtain ⟨button, hsane, -⟩ := h.shown
    obtain ⟨button', hsane'⟩ := sane_setMode hsane b hclean
    rw [Station.onClick, Desk.onClick, Station.settingsButton, Desk.settingsButton, h.ui]
    obtain ⟨happ', hui'⟩ := @setMinixMode_frame vbe outside b.mode st.exitUI
    refine hsettings hsane' happ' ?_ rfl
    rw [Station.initUI, hui', erase_initUI]
    rfl
  | settingsButtonDarkTheme | settingsButtonLightTheme =>
    obtain ⟨button, hsane, -⟩ := h.shown
    rw [Station.onClick, Desk.onClick, Station.settingsButtonTheme, Desk.settingsButtonTheme]
    have hthemed : ∀ newTheme, Sane vbe button { st with currentTheme := newTheme } := fun _ =>
      ⟨hsane.failed, hsane.video, hsane.frameBuffer, hsane.staticBuffer, hsane.vMem, hsane.ready,
        hsane.popup⟩
    exact hsettings (hthemed _) rfl h.ui rfl

theorem erase_clicked (ui : UiState Face) (i : Fin maxAmountOfButtons) :
    (erase ui).clicked i = (ui.clicked i).map eraseButton := by
  have hget : (erase ui).buttons.get i = (ui.buttons.get i).map eraseButton := Vector.getElem_map ..
  rw [UiState.clicked, UiState.clicked, hget]
  cases ui.buttons.get i with
  | none => rfl
  | some b =>
    have hsame : decide (IsClickOnButton (erase ui).video.currentMode
        (erase ui).moreMouseInfo.leftX (erase ui).moreMouseInfo.leftY (eraseButton b)) =
          decide (IsClickOnButton ui.video.currentMode ui.moreMouseInfo.leftX
            ui.moreMouseInfo.leftY b) := rfl
    rw [Option.map_some, Option.filter_some, Option.filter_some, hsame]
    split
    · rfl
    · rfl

theorem refines_clickButtons (hs : Supported vbe) (h : Goes vbe st d)
    {outside : Fin maxAmountOfButtons → Surroundings} (hclean : ∀ i, Clean (outside i).platform)
    (places : List (Fin maxAmountOfButtons)) :
    Option.Rel (Goes vbe) (st.clickButtons random vbe outside places)
      (d.clickButtons random vbe (fun i => eraseOutside (outside i)) places) := by
  induction places generalizing st d with
  | nil => exact .some h
  | cons i rest ih =>
    have hclicked := erase_clicked st.ui i
    rw [Station.clickButtons, Desk.clickButtons, h.1.ui, hclicked]
    cases hb : st.ui.clicked i with
    | none => exact ih h
    | some b =>
      have hget : (erase st.ui).buttons.get i = some (eraseButton b) :=
        (clicked_eq_some.mp (hclicked.trans (congrArg (Option.map eraseButton) hb))).1
      have hscreen : b.onClick.callback.screen = st.app.currAppState :=
        screen_of_mem _ _ (mem_buttonsOf (h.1.placed hs h.2 i _ hget))
      have hrel := @refines_onClick random vbe st d (outside i) hs h _ hscreen (hclean i)
      simp only [Option.map_some, Desk.invoke, eraseButton]
      generalize st.onClick random vbe b.onClick.callback (outside i) = r,
        d.onClick random vbe b.onClick.callback (eraseOutside (outside i)) = r' at hrel
      cases hrel with
      | none => exact .none
      | some hrel => exact ih ⟨⟨hrel.1.app, hrel.1.ui, hrel.1.shown⟩, hrel.2⟩

theorem refines_mouseUpdate (hs : Supported vbe) (h : Goes vbe st d) (packet : Packet)
    {outside : Fin maxAmountOfButtons → Surroundings} (hclean : ∀ i, Clean (outside i).platform) :
    Option.Rel (Goes vbe) (st.mouseUpdate random vbe packet outside)
      (d.mouseUpdate random vbe packet fun i => eraseOutside (outside i)) := by
  have hmove : Goes vbe { st with ui := st.ui.moveCursor packet }
      { d with ui := d.ui.moveCursor packet } := by
    refine ⟨h.1.withUi ?_ rfl rfl, h.2⟩
    rw [h.1.ui]
    rfl
  have hpress : ∀ st' d', Goes vbe st' d' →
      Goes vbe { st' with ui := st'.ui.pressButtons packet }
        { d' with ui := d'.ui.pressButtons packet } := by
    intro st' d' h'
    refine ⟨h'.1.withUi ?_ rfl rfl, h'.2⟩
    rw [h'.1.ui]
    rfl
  rw [Station.mouseUpdate, Desk.mouseUpdate]
  refine rel_map hpress ?_
  have hvalid : (d.ui.moveCursor packet).ValidClick packet ↔
      (st.ui.moveCursor packet).ValidClick packet := by
    rw [h.1.ui]
    rfl
  by_cases hclick : (st.ui.moveCursor packet).ValidClick packet
  · rw [if_pos hclick, if_pos (hvalid.mpr hclick)]
    exact refines_clickButtons hs hmove hclean _
  · rw [if_neg hclick, if_neg fun hc => hclick (hvalid.mp hc)]
    exact .some hmove

theorem refines_mouseInterrupt (hs : Supported vbe) (h : Goes vbe st d) (packet : Packet)
    (enter : Surroundings) {outside : Fin maxAmountOfButtons → Surroundings}
    (hclean : ∀ i, Clean (outside i).platform) :
    Option.Rel (Goes vbe) (st.mouseInterrupt random vbe packet enter outside)
      (d.mouseInterrupt random vbe packet (eraseOutside enter) fun i =>
        eraseOutside (outside i)) := by
  have hnote : Goes vbe st (d.notePress packet) := ⟨⟨h.1.app, h.1.ui, h.1.shown⟩, h.2⟩
  have happ : (d.notePress packet).app = st.app := h.1.app
  rw [Station.mouseInterrupt, Desk.mouseInterrupt, happ]
  by_cases henter : st.app.currAppState = .startState ∧ (packet.lb = true ∨ packet.rb = true)
  · rw [if_pos henter, if_pos henter]
    have hrel := @refines_changeState random vbe st (d.notePress packet) enter hs hnote.1 .mainState
    generalize st.changeState random .mainState enter = r,
      (d.notePress packet).changeState random .mainState (eraseOutside enter) = r' at hrel
    cases hrel with
    | none => exact .none
    | some hrel =>
      refine refines_mouseUpdate hs ⟨hrel.1, fun he => ?_⟩ packet hclean
      cases hrel.2.symm.trans he
  · rw [if_neg henter, if_neg henter]
    exact refines_mouseUpdate hs hnote packet hclean

theorem refines_keyboard (hs : Supported vbe) (h : Refines vbe st d) :
    Option.Rel (Refines vbe) (st.keyboardScancodeHandler random outside)
      (d.keyboardScancodeHandler random (eraseOutside outside)) := by
  have hchange : ∀ newState, Option.Rel (Refines vbe) (st.changeState random newState outside)
      (d.changeState random newState (eraseOutside outside)) :=
    fun newState => rel_mono (refines_changeState hs h newState) fun _ _ hrel => hrel.1
  rw [Station.keyboardScancodeHandler, Desk.keyboardScancodeHandler, h.app]
  split
  · split
    · generalize st.app.currAppState = screen
      cases screen with
      | mainState => exact hchange .endState
      | _ => exact hchange .mainState
    · exact .some h
  split
  · exact .some h
  split
  · exact hchange .mainState
  split
  · cases hkey : st.app.typingInputHandler (st.app.currAppState = .raceState) with
    | none => exact .none
    | some app => exact .some (h.withApp (handler_screen hkey))
  · exact .some h

theorem serialInterrupt_screen {app next : App} {input : UartInput}
    (h : app.serialInterrupt random input = some next) : next.currAppState = app.currAppState := by
  by_cases hrace : app.currAppState = .raceState
  · rw [(serialInterrupt_cases hrace h).1, hrace]
  · cases (if_pos hrace).symm.trans h
    rfl

/-- Every mode is set altogether or refused. -/
def CleanInput : Proj.Input → Prop
  | .mouse _ _ outside => ∀ i, Clean (outside i).platform
  | _ => True

variable {dictionary : List Word}

/-- One round of the main loop, in a state that the program reaches. -/
theorem refines_mainLoop (hs : Supported vbe) (hdict : ∀ w ∈ dictionary, Short w)
    (h : Refines vbe st d) (hreach : Reaches random (initial dictionary) st.app) {e : Proj.Input}
    (hclean : CleanInput e) :
    Option.Rel (Refines vbe) (Proj.mainLoop random vbe st e)
      (Application.mainLoop random vbe d (eraseInput e)) := by
  obtain ⟨button, hsane, hloaded⟩ := h.shown
  obtain ⟨app, ui, pressScreen, invoked⟩ := d
  obtain rfl : app = st.app := h.app
  by_cases hend : st.app.currAppState = .endState
  · unfold Proj.mainLoop Application.mainLoop
    rw [if_pos (.inl hend), if_pos hend]
    exact .none
  have hgoes : ¬ (st.app.currAppState = .endState ∨ st.failed = true) := by
    rw [hsane.failed]
    simpa using hend
  have hclear : Refines vbe st ⟨st.app, ui, pressScreen, []⟩ := ⟨rfl, h.ui, h.shown⟩
  unfold Proj.mainLoop Application.mainLoop
  rw [if_neg hgoes, if_neg hend]
  cases e with
  | mouse packet enter outside =>
    exact rel_mono (refines_mouseInterrupt hs ⟨hclear, hend⟩ packet enter hclean)
      fun _ _ hrel => hrel.1
  | keyboard byte outside =>
    have hkey := @Refines.withApp vbe st _ hclear
      { st.app with keyboard := (keyboardIh byte st.app.keyboard).1 } rfl
    simp only [eraseInput]
    split
    · exact refines_keyboard hs hkey
    · exact .some hkey
  | timer rtcIN =>
    obtain ⟨es, hes⟩ := hreach
    obtain ⟨st', hst', hsane', happ, hui, hstatic, htheme, -⟩ :=
      timer_spec hs hdict hsane hend (hloaded hend) hes rtcIN
    simp only [eraseInput]
    rw [hst']
    refine .some ⟨happ.symm, ?_, button, hsane', fun _ => ?_⟩
    · rw [hui]
      exact h.ui
    · have hl := hloaded hend
      unfold Loaded at hl ⊢
      rwa [hui, hstatic, htheme, happ, timerInterrupt_screen]
  | serial input =>
    simp only [eraseInput]
    cases hserial : st.app.serialInterrupt random input with
    | none => exact .none
    | some app => exact .some (hclear.withApp (serialInterrupt_screen hserial))
  | kernel answers => exact .some (hclear.withApp rfl)

def Tracked (random : UInt32 → Nat → Nat) (vbe : MinixMode → ModeInfo) (dictionary : List Word)
    (st : Station) (d : Desk) : Prop :=
  Refines vbe st d ∧ Reaches random (initial dictionary) st.app

theorem tracked_mainLoop (hs : Supported vbe) (hdict : ∀ w ∈ dictionary, Short w)
    (h : Tracked random vbe dictionary st d) {e : Proj.Input} (hclean : CleanInput e) :
    Option.Rel (Tracked random vbe dictionary) (Proj.mainLoop random vbe st e)
      (Application.mainLoop random vbe d (eraseInput e)) := by
  obtain ⟨h, hreach⟩ := h
  have hrel := refines_mainLoop hs hdict h hreach hclean
  cases hd : Application.mainLoop random vbe d (eraseInput e) with
  | none =>
    rw [hd] at hrel
    cases hst : Proj.mainLoop random vbe st e with
    | none => exact .none
    | some st' =>
      rw [hst] at hrel
      cases hrel
  | some d' =>
    have hend : st.app.currAppState ≠ .endState := h.app ▸ Clicks.not_end hd
    have hplaced : Placed d.app.currAppState d.ui := by
      rw [h.app, h.ui]
      exact h.placed hs hend
    have hstep := reaches_mainLoop hplaced hd
    rw [h.app] at hstep
    rw [hd] at hrel
    cases hst : Proj.mainLoop random vbe st e with
    | none =>
      rw [hst] at hrel
      cases hrel
    | some st' =>
      rw [hst] at hrel
      cases hrel with
      | some hrel =>
        rw [hrel.app] at hstep
        exact .some ⟨hrel, hreach.trans hstep⟩

end Rounds

section Runs

variable {random : UInt32 → Nat → Nat} {vbe : MinixMode → ModeInfo} {dictionary : List Word}

theorem refines_startUp (hs : Supported vbe) (dictionary : List Word) (clock : Clock)
    (outside : Surroundings) : ∃ st, Proj.startUp vbe dictionary clock outside = some st ∧
      st.currentTheme = .darkTheme ∧
      Tracked random vbe dictionary st (Application.startUp vbe dictionary) := by
  obtain ⟨ui, hui⟩ : ∃ ui : UiState Face,
      ui = { video := { videoOf vbe .settingsButton600p with staticBuffer := 0 } } := ⟨_, rfl⟩
  have hmode : Station.setMinixMode vbe .vbe600pDc { outside with platform := {} }
      { app := initial dictionary, clock := clock } =
        { app := initial dictionary
          ui := ui
          frameBuffer := block outside.heap (frameOf (vbe .vbe600pDc))
          vMem := block outside.video (frameOf (vbe .vbe600pDc))
          clock := clock } := by
    have hset : Video.setMinixMode vbe {} .vbe600pDc {} =
        ({ videoOf vbe .settingsButton600p with staticBuffer := 0 }, false) := rfl
    unfold Station.setMinixMode
    simp only [hset, hui]
    rfl
  have hsane : Sane vbe .settingsButton600p (Station.initUI
      { app := initial dictionary
        ui := ui
        frameBuffer := block outside.heap (frameOf (vbe .vbe600pDc))
        vMem := block outside.video (frameOf (vbe .vbe600pDc))
        clock := clock }) := by
    rw [Station.initUI, hui]
    exact ⟨rfl, rfl, length_block _ _, List.length_replicate, length_block _ _, Nat.zero_le _,
      Nat.zero_le _⟩
  have hdesk : Ui.initUI { video := (Video.setMinixMode vbe {} .vbe600pDc {}).1 } =
      erase (Ui.initUI ui) := by
    rw [erase_initUI, hui]
    rfl
  obtain ⟨st, hst, htheme, hrefines⟩ := @refines_loadScreen vbe _ _
    { app := initial dictionary, ui := Ui.initUI { video := (Video.setMinixMode vbe {}
      .vbe600pDc {}).1 } } {} hs hsane rfl hdesk (by rintro ⟨⟩)
  have happ : initial dictionary = st.app := hrefines.app
  obtain ⟨button, hsane', -⟩ := hrefines.shown
  refine ⟨st, ?_, htheme, hrefines, happ ▸ .refl _⟩
  rw [Proj.startUp, hmode]
  simp only
  rw [hst, Option.map_some]
  simp only
  rw [← hsane'.failed]

theorem first_tick (hs : Supported vbe) (hdict : ∀ w ∈ dictionary, Short w) (clock : Clock)
    (outside : Surroundings) (rtcIN : Registers) :
    ∃ st, ((Proj.startUp vbe dictionary clock outside).bind fun st =>
        run (Proj.mainLoop random vbe) st [.timer rtcIN]) = some st ∧
      st.app = (initial dictionary).timerInterrupt ∧ st.currentTheme = .darkTheme ∧
      (Application.startUp vbe dictionary).ui = erase st.ui := by
  obtain ⟨st, hst, htheme, hrefines, es, hes⟩ :=
    @refines_startUp random vbe hs dictionary clock outside
  have happ : initial dictionary = st.app := hrefines.app
  have hend : st.app.currAppState ≠ .endState := by
    rw [← happ]
    rintro ⟨⟩
  obtain ⟨button, hsane, hloaded⟩ := hrefines.shown
  obtain ⟨st', hst', -, happ', hui, -, htheme', -⟩ :=
    timer_spec hs hdict hsane hend (hloaded hend) hes rtcIN
  have hround : Proj.mainLoop random vbe st (.timer rtcIN) = some st' := by
    unfold Proj.mainLoop
    rw [if_neg (by rw [hsane.failed]; simpa using hend)]
    exact hst'
  refine ⟨st', ?_, happ'.trans (congrArg _ happ.symm), htheme'.trans htheme, ?_⟩
  · rw [hst, Option.bind_some]
    exact run_cons hround []
  · rw [hui]
    exact hrefines.ui

theorem tracked_run (hs : Supported vbe) (hdict : ∀ w ∈ dictionary, Short w) (clock : Clock)
    (outside : Surroundings) {es : List Proj.Input} (hclean : ∀ e ∈ es, CleanInput e) :
    Option.Rel (Tracked random vbe dictionary)
      ((Proj.startUp vbe dictionary clock outside).bind fun st =>
        run (Proj.mainLoop random vbe) st es)
      (run (Application.mainLoop random vbe) (Application.startUp vbe dictionary)
        (es.map eraseInput)) := by
  obtain ⟨st, hst, -, htracked⟩ := @refines_startUp random vbe hs dictionary clock outside
  rw [hst, Option.bind_some, run_map]
  have hstep : ∀ (st : Station) (d : Desk) (e : Proj.Input), Tracked random vbe dictionary st d →
      CleanInput e → Option.Rel (Tracked random vbe dictionary) (Proj.mainLoop random vbe st e)
        ((fun d e => Application.mainLoop random vbe d (eraseInput e)) d e) :=
    fun _ _ _ ht he => tracked_mainLoop hs hdict ht he
  exact run_related hstep htracked hclean

/-- The program runs as the one without its looks does, and shows its buttons. -/
theorem proj_refines (hs : Supported vbe) (hdict : ∀ w ∈ dictionary, Short w)
    (clock : Clock) (outside : Surroundings) {es : List Proj.Input}
    (hclean : ∀ e ∈ es, CleanInput e) :
    Option.Rel (Refines vbe)
      ((Proj.startUp vbe dictionary clock outside).bind fun st =>
        run (Proj.mainLoop random vbe) st es)
      (run (Application.mainLoop random vbe) (Application.startUp vbe dictionary)
        (es.map eraseInput)) :=
  rel_mono (tracked_run hs hdict clock outside hclean) fun _ _ ht => ht.1

theorem supported_trueColor : Supported trueColor := by
  refine ⟨trueColor_resolution, fun button => ?_⟩
  cases button <;> decide

theorem short_letter : Short ⟨[97], letter_noZero⟩ := ⟨by decide, by decide, by decide⟩

/-- To the settings, where the mode changes to 640x480. -/
def toSmallMode : List Proj.Input :=
  [.timer fun _ => some 0, .mouse { rb := true } {} fun _ => {},
    .mouse { lb := true, deltaX := 100, deltaY := -250 } {} fun _ => {},
    .mouse {} {} fun _ => {}, .timer fun _ => none,
    .mouse { lb := true, deltaY := 250 } {} fun _ => {},
    .mouse {} {} fun _ => {}, .timer fun _ => some 18]

theorem clean_toSmallMode : ∀ e ∈ toSmallMode, CleanInput e := by
  simp [toSmallMode, CleanInput, Clean]

theorem proj_refines_letter : Option.Rel (Refines trueColor)
    ((Proj.startUp trueColor [⟨[97], letter_noZero⟩] {} {}).bind fun st =>
      run (Proj.mainLoop (fun _ _ => 0) trueColor) st toSmallMode)
    (run (Application.mainLoop (fun _ _ => 0) trueColor)
      (Application.startUp trueColor [⟨[97], letter_noZero⟩]) (toSmallMode.map eraseInput)) ∧
    (run (Application.mainLoop (fun _ _ => 0) trueColor)
      (Application.startUp trueColor [⟨[97], letter_noZero⟩]) (toSmallMode.map eraseInput)).map
        (fun d => d.ui.video.currentMode) = some .vbe480pDc :=
  ⟨proj_refines supported_trueColor (by simp [short_letter]) {} {} clean_toSmallMode,
    by decide +kernel⟩

def Going (random : UInt32 → Nat → Nat) (vbe : MinixMode → ModeInfo) (dictionary : List Word)
    (st : Station) : Prop :=
  ∃ d, Tracked random vbe dictionary st d ∧ Ending.Goes random d

theorem Going.mainLoop {st : Station} (h : Going random vbe dictionary st) (hs : Supported vbe)
    (hdict : ∀ w ∈ dictionary, Short w) {e : Proj.Input} (hclean : CleanInput e)
    (hend : st.app.currAppState ≠ .endState) :
    Gives (Going random vbe dictionary) (Proj.mainLoop random vbe st e) := by
  obtain ⟨d, htracked, hgoes⟩ := h
  obtain ⟨d', hd, hgoes'⟩ := hgoes.mainLoop (htracked.1.app ▸ hend) (eraseInput e)
  have hrel := tracked_mainLoop hs hdict htracked hclean
  rw [hd] at hrel
  cases hst : Proj.mainLoop random vbe st e with
  | none =>
    rw [hst] at hrel
    cases hrel
  | some st' =>
    rw [hst] at hrel
    cases hrel with
    | some htracked' => exact .pure ⟨d', htracked', hgoes'⟩

/-- With a dictionary whose words fit on the screen the program draws every frame that it is asked
for, and goes on until it is left. -/
theorem proj_runs_until_end {file : List UInt8} {old d : Dictionary}
    (hload : loadDictionary (some file) old = some (d, false)) (hne : file ≠ [])
    (hfile : file.length < 2 ^ 27) (hwords : ∀ w ∈ wordsOf d, Short w)
    (hrandom : ∀ seed i, random seed i < Ending.firstTooFar) (hs : Supported vbe) (clock : Clock)
    (outside : Surroundings) {es : List Proj.Input} (hclean : ∀ e ∈ es, CleanInput e) :
    ∃ st, Proj.startUp vbe (wordsOf d) clock outside = some st ∧
      Proceeds (Proj.mainLoop random vbe) (fun st => st.app.currAppState = .endState) st es ∧
      ∀ fs, fs <+: es → ∀ st', run (Proj.mainLoop random vbe) st fs = some st' →
        st'.failed = false := by
  have hgoes : Ending.Goes random (Application.startUp vbe (wordsOf d)) :=
    Ending.goes_startUp (Ending.servable_wordsOf hrandom hload hne hfile)
  obtain ⟨st, hst, -, htracked⟩ := @refines_startUp random vbe hs (wordsOf d) clock outside
  have hgoing : Going random vbe (wordsOf d) st := ⟨_, htracked, hgoes⟩
  refine ⟨st, hst, progress (fun _ _ hI he hend => hI.mainLoop hs hwords he hend) hgoing hclean, ?_⟩
  intro fs hfs st' hst'
  have hkeep : ∀ (st : Station) (e : Proj.Input) (st' : Station),
      Going random vbe (wordsOf d) st → CleanInput e →
      Proj.mainLoop random vbe st e = some st' → Going random vbe (wordsOf d) st' := by
    intro st e st' hI he hst'
    by_cases hend : st.app.currAppState = .endState
    · unfold Proj.mainLoop at hst'
      rw [if_pos (.inl hend)] at hst'
      cases hst'
    · obtain ⟨u, hu, hI'⟩ := hI.mainLoop hs hwords he hend
      cases hu.symm.trans hst'
      exact hI'
  obtain ⟨_, htracked', -⟩ := invariant (P := fun _ e => CleanInput e) hkeep hgoing
    (guarded_of_forall (fun _ e he => hclean e (hfs.mem he)) st) hst'
  obtain ⟨button, hsane, -⟩ := htracked'.1.shown
  exact hsane.failed

theorem letter_loaded : ∃ d, loadDictionary (some [97, carriageReturn, lineFeed]) {} =
    some (d, false) ∧ ∀ w ∈ wordsOf d, Short w := by
  have hblocks : blocks [97, carriageReturn, lineFeed] = some [[97, 0]] := by decide
  obtain ⟨d, hload⟩ : ∃ d,
      loadDictionary (some [97, carriageReturn, lineFeed]) {} = some (d, false) := by
    rw [loadDictionary_eq, hblocks]
    exact ⟨_, rfl⟩
  refine ⟨d, hload, fun w hw => ?_⟩
  obtain ⟨bs, hbs, block, hblock, rfl⟩ := Ending.mem_wordsOf hload hw
  cases hblocks.symm.trans hbs
  rw [List.mem_singleton.mp hblock]
  exact short_letter

theorem proj_runs_until_end_letter : ∃ d,
    loadDictionary (some [97, carriageReturn, lineFeed]) {} = some (d, false) ∧
      ∃ st, Proj.startUp trueColor (wordsOf d) {} {} = some st ∧
        Proceeds (Proj.mainLoop (fun _ _ => 0) trueColor)
          (fun st => st.app.currAppState = .endState) st
          (toSmallMode ++ [.keyboard (some breakEsc) {}, .keyboard (some breakEsc) {}]) ∧
        ∀ fs, fs <+: toSmallMode ++ [.keyboard (some breakEsc) {}, .keyboard (some breakEsc) {}] →
          ∀ st', run (Proj.mainLoop (fun _ _ => 0) trueColor) st fs = some st' →
            st'.failed = false := by
  obtain ⟨d, hload, hwords⟩ := letter_loaded
  exact ⟨d, hload, proj_runs_until_end hload (by decide) (by decide) hwords
    (fun _ _ => by decide) supported_trueColor {} {}
    (List.forall_mem_append.mpr ⟨clean_toSmallMode, by simp [CleanInput]⟩)⟩

end Runs

end WriteWise.ProjRefinement
