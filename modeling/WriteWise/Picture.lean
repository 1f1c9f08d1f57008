import WriteWise.ProjRefinement

namespace WriteWise.Picture

open Library.Loops Library.Runs Library.Decimal TextGeneration Graphics Scancode Typing Program
  Video ScreenFit Ui Application ApplicationRun RaceSteps Display Screens Rtc Frames Proj Rendering ProjRefinement

section Frames

/-- The button that starts a new race has a text of its own. -/
def Part.resetFixed : Part → Bool
  | .add button index => index ≠ 1 || decide (button.onClick.text ≠ .readyButtonText)
  | _ => true

theorem resetFixed_loadScreen (currentMode : MinixMode) (currentTheme : AppTheme)
    (screen : AppState) :
    ∀ part ∈ Screens.loadScreen currentMode currentTheme screen, Part.resetFixed part = true := by
  rw [← List.all_eq_true]
  cases screen <;> rfl

variable {vbe : MinixMode → ModeInfo} {button button' : ResolutionButton} {st st' : Station}

theorem resetFixed (hs : Supported vbe) (hloaded : Loaded vbe button st.app.currAppState st) :
    st.scene.ResetFixed := by
  intro b hb
  have hadd := ((hloaded.spec hs).2 ⟨1, one_lt_buttons⟩ b).mp hb
  have hfixed := resetFixed_loadScreen button.mode st.currentTheme _ _ hadd
  exact of_decide_eq_true hfixed

/-- A state shows the frame that is drawn over its screen. -/
structure Pictured (vbe : MinixMode → ModeInfo) (button : ResolutionButton) (st : Station) :
    Prop where
  sane : Sane vbe button st
  loaded : Loaded vbe button st.app.currAppState st
  drawn : ∃ readyButtonText popupText frame,
    st.scene.draw ⟨canvasOf (vbe button.mode) st.staticBuffer, readyButtonText, popupText⟩ =
      some (frame, false) ∧
    (st.app.currAppState = .raceState → st.app.typingInfo.status = .ready →
      popupText = decimal (Station.timeLeft st.app).toNat) ∧
    st.vMem = frame.screen.frameBuffer

/-- What a player can tell apart. -/
structure SameView (st st' : Station) : Prop where
  scene : ({ st.scene with buttons := noButtons } : Scene).visible =
    ({ st'.scene with buttons := noButtons } : Scene).visible
  countdown : st.app.currAppState = .raceState → st.app.typingInfo.status = .ready →
    Station.timeLeft st.app = Station.timeLeft st'.app

theorem mode_injective : Function.Injective ResolutionButton.mode := by
  intro b b' h
  cases b <;> cases b' <;> first | rfl | cases h

theorem SameView.ready (h : SameView st st') (hrace : st.app.currAppState = .raceState)
    (hready : st.app.typingInfo.status = .ready) :
    st'.app.currAppState = .raceState ∧ st'.app.typingInfo.status = .ready := by
  have hscreen : st.app.currAppState = st'.app.currAppState := congrArg Scene.currAppState h.scene
  have htest : (if (st.app.currAppState = .trainingState ∨ st.app.currAppState = .raceState) ∧
      st.app.typingInfo.status ≠ .unready then st.app.typingInfo else {}) =
    if (st'.app.currAppState = .trainingState ∨ st'.app.currAppState = .raceState) ∧
      st'.app.typingInfo.status ≠ .unready then st'.app.typingInfo else {} :=
    congrArg Scene.typingInfo h.scene
  rw [if_pos ⟨.inr hrace, by rw [hready]; decide⟩] at htest
  refine ⟨hscreen.symm.trans hrace, ?_⟩
  split at htest
  · rw [← htest, hready]
  · rw [htest] at hready
    cases hready

/-- What is shown is decided by what can be told apart. -/
theorem SameView.vMem (hs : Supported vbe) (h : SameView st st') (hst : Pictured vbe button st)
    (hst' : Pictured vbe button' st') : st.vMem = st'.vMem := by
  obtain ⟨hsane, hloaded, ready, popup, frame, hdraw, hpopup, hmem⟩ := hst
  obtain ⟨hsane', hloaded', ready', popup', frame', hdraw', hpopup', hmem'⟩ := hst'
  have hscreen : st.app.currAppState = st'.app.currAppState := congrArg Scene.currAppState h.scene
  have htheme : st.currentTheme = st'.currentTheme := congrArg Scene.currentTheme h.scene
  obtain rfl : button = button' := by
    apply mode_injective
    have hmode : st.ui.video.currentMode = st'.ui.video.currentMode :=
      congrArg Scene.currentMode h.scene
    rwa [hsane.video, hsane'.video] at hmode
  obtain ⟨hbuttons, hstatic⟩ : st.ui.buttons = st'.ui.buttons ∧
      canvasOf (vbe button.mode) st.staticBuffer = canvasOf (vbe button.mode) st'.staticBuffer := by
    unfold Loaded at hloaded hloaded'
    rw [hscreen, htheme, hloaded'] at hloaded
    simpa using hloaded.symm
  have hvisible : st.scene.visible = st'.scene.visible := by
    have hwith : ∀ st : Station, st.scene.visible =
        { ({ st.scene with buttons := noButtons } : Scene).visible with
          buttons := st.ui.buttons } := fun _ => rfl
    rw [hwith st, hwith st', h.scene, hbuttons]
  have hsame : st'.scene.draw = st.scene.draw := by
    rw [← draw_visible st.scene, hvisible, draw_visible]
  rw [hsame, ← hstatic] at hdraw'
  have halike : Alike st.scene ⟨canvasOf (vbe button.mode) st.staticBuffer, ready, popup⟩
      ⟨canvasOf (vbe button.mode) st.staticBuffer, ready', popup'⟩ := by
    refine ⟨rfl, fun hrace hready => ?_⟩
    obtain ⟨hrace', hready'⟩ := h.ready hrace hready
    have hcount : popup = decimal (Station.timeLeft st.app).toNat := hpopup hrace hready
    have hcount' : popup' = decimal (Station.timeLeft st'.app).toNat := hpopup' hrace' hready'
    simp only
    rw [hcount, hcount', h.countdown hrace hready]
  have hrelated := halike.draw (resetFixed hs hloaded)
  rw [hdraw, hdraw'] at hrelated
  cases hrelated with
  | ends _ hframes => rw [hmem, hmem', hframes.screen]

end Frames

section Runs

variable {random random' : UInt32 → Nat → Nat} {vbe : MinixMode → ModeInfo}
  {dictionary dictionary' : List Word}

theorem pictured_run (hs : Supported vbe) (hdict : ∀ w ∈ dictionary, Short w) {clock : Clock}
    {outside : Surroundings} {es : List Proj.Input} (hclean : ∀ e ∈ es, CleanInput e)
    {rtcIN : Registers} {st : Station}
    (h : ((Proj.startUp vbe dictionary clock outside).bind fun st =>
      run (Proj.mainLoop random vbe) st (es ++ [.timer rtcIN])) = some st) :
    ∃ button, Pictured vbe button st := by
  obtain ⟨start, hstart, hrun⟩ := Option.bind_eq_some_iff.mp h
  obtain ⟨before, hbefore, hround⟩ := run_concat_some hrun
  have hrel := @tracked_run random vbe dictionary hs hdict clock outside es hclean
  rw [hstart, Option.bind_some, hbefore] at hrel
  generalize run (Application.mainLoop random vbe) (Application.startUp vbe dictionary)
    (es.map eraseInput) = r at hrel
  obtain ⟨d, htracked⟩ : ∃ d, Tracked random vbe dictionary before d := by
    cases hrel with
    | some htracked => exact ⟨_, htracked⟩
  obtain ⟨⟨-, -, button, hsane, hshown⟩, es', hes'⟩ := htracked
  unfold Proj.mainLoop at hround
  split at hround
  · cases hround
  rename_i hgoes
  have hend : before.app.currAppState ≠ .endState := fun he => hgoes (.inl he)
  have hloaded := hshown hend
  obtain ⟨st', hst', hsane', happ, hui, hstatic, htheme, ready, popup, frame, hdraw, hpopup,
    hmem⟩ := timer_spec hs hdict hsane hend hloaded hes' rtcIN
  cases hst'.symm.trans hround
  refine ⟨button, hsane', ?_, ready, popup, frame, hstatic ▸ hdraw, hpopup, hmem⟩
  unfold Loaded at hloaded ⊢
  rwa [hui, hstatic, htheme, happ, timerInterrupt_screen]

/-- Two programs show the same picture where a player could not tell them apart, whatever they
showed before, and whatever their memory held. -/
theorem same_picture (hs : Supported vbe) (hdict : ∀ w ∈ dictionary, Short w)
    (hdict' : ∀ w ∈ dictionary', Short w) {clock clock' : Clock} {outside outside' : Surroundings}
    {es es' : List Proj.Input} (hclean : ∀ e ∈ es, CleanInput e)
    (hclean' : ∀ e ∈ es', CleanInput e) {rtcIN rtcIN' : Registers} {st st' : Station}
    (h : ((Proj.startUp vbe dictionary clock outside).bind fun st =>
      run (Proj.mainLoop random vbe) st (es ++ [.timer rtcIN])) = some st)
    (h' : ((Proj.startUp vbe dictionary' clock' outside').bind fun st =>
      run (Proj.mainLoop random' vbe) st (es' ++ [.timer rtcIN'])) = some st')
    (hview : SameView st st') : st.vMem = st'.vMem := by
  obtain ⟨button, hst⟩ := pictured_run hs hdict hclean h
  obtain ⟨button', hst'⟩ := pictured_run hs hdict' hclean' h'
  exact hview.vMem hs hst hst'

theorem same_picture_start : ∃ st st',
    ((Proj.startUp trueColor [] {} {}).bind fun st =>
      run (Proj.mainLoop (fun _ _ => 0) trueColor) st [.timer fun _ => none]) = some st ∧
    ((Proj.startUp trueColor [] {} { heap := fun _ => 255, video := fun _ => 7 }).bind fun st =>
      run (Proj.mainLoop (fun _ _ => 0) trueColor) st [.timer fun _ => some 18]) = some st' ∧
    st.vMem = st'.vMem := by
  have hdict : ∀ w ∈ ([] : List Word), Short w := by simp
  obtain ⟨st, hst, happ, htheme, hui⟩ := @first_tick (fun _ _ => 0) _ _ supported_trueColor hdict
    {} {} fun _ => none
  obtain ⟨st', hst', happ', htheme', hui'⟩ := @first_tick (fun _ _ => 0) _ _ supported_trueColor
    hdict {} { heap := fun _ => 255, video := fun _ => 7 } fun _ => some 18
  have hmode : st.ui.video.currentMode = st'.ui.video.currentMode :=
    congrArg (fun ui : UiState Callback => ui.video.currentMode) (hui.symm.trans hui')
  have hcursor : st.ui.cursor = st'.ui.cursor :=
    congrArg (fun ui : UiState Callback => ui.cursor) (hui.symm.trans hui')
  have hview : SameView st st' := by
    constructor
    · unfold Station.scene Scene.visible
      simp only
      rw [happ, happ', htheme, htheme', hmode, hcursor]
      rfl
    · intro _ _
      rw [happ, happ']
  have hclean : ∀ e ∈ ([] : List Proj.Input), CleanInput e := by simp
  exact ⟨st, st', hst, hst', same_picture supported_trueColor hdict hdict hclean hclean hst hst'
    hview⟩

end Runs

end WriteWise.Picture
