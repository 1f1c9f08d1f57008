import WriteWise.Application
import WriteWise.RaceSteps

namespace WriteWise.MouseUpdate

open Library.Runs Graphics Mouse Program Video Ui Application RaceSteps

/-- What the callback of a button of the shown screen does. -/
inductive Called (random : UInt32 → Nat → Nat) (vbe : MinixMode → ModeInfo) (outside : Outside)
    (d : Desk) : Callback → Desk → Prop
  | screen {b : Program.Button} {newState : AppState} {app : App}
      (loads : (Callback.button b).loads = some newState)
      (does : d.app.onClick random b outside.now = some app) (shows : app.currAppState = newState) :
      Called random vbe outside d (.button b) (Desk.loadScreen outside { d with app := app })
  | stays {b : Program.Button} {app : App} (loads : (Callback.button b).loads = none)
      (does : d.app.onClick random b outside.now = some app)
      (same : app.currAppState = d.app.currAppState) :
      Called random vbe outside d (.button b) { d with app := app }
  | resolution (button : ResolutionButton) :
      Called random vbe outside d (.resolution button) (d.settingsButton vbe button outside)
  | theme {c : Callback} (loads : c.loads = some .settingsState) (mode : c.setsMode = false)
      (screen : c.screen = .settingsState) :
      Called random vbe outside d c (d.settingsButtonTheme outside)

variable {random : UInt32 → Nat → Nat} {vbe : MinixMode → ModeInfo} {outside : Outside}
  {d u next : Desk} {c : Callback}

section Callbacks

theorem changeState_cases {newState : AppState} (hend : newState ≠ .endState)
    (h : d.changeState random newState outside = some next) :
    ∃ app, d.app.changeState random newState outside.now = some app ∧
      app.currAppState = newState ∧ next = Desk.loadScreen outside { d with app := app } := by
  obtain ⟨app, happ, rfl⟩ := Option.map_eq_some_iff.mp h
  exact ⟨app, happ, (changeState_screen happ).1, if_neg hend⟩

theorem onClick_called (h : d.onClick random vbe c outside = some next) :
    Called random vbe outside d c next := by
  cases c with
  | button b =>
    cases b with
    | mainTraining | mainRace | mainInstructions | mainSettings =>
      obtain ⟨app, happ, hshows, rfl⟩ := changeState_cases (by decide) h
      exact .screen rfl happ hshows
    | trainingReset =>
      obtain ⟨app, happ, rfl⟩ := Option.map_eq_some_iff.mp h
      refine .stays rfl happ ?_
      obtain ⟨t, -, rfl⟩ := Option.map_eq_some_iff.mp happ
      rfl
    | raceReady =>
      cases h
      exact .stays rfl rfl (raceReadyButton_screen d.app outside.now)
    | raceReset =>
      cases h
      exact .stays rfl rfl (raceResetButton_change d.app outside.now).1
  | resolution button =>
    cases h
    exact .resolution button
  | settingsButtonDarkTheme | settingsButtonLightTheme =>
    cases h
    exact .theme rfl rfl rfl

theorem loadScreen_ui (outside : Outside) (d : Desk) : (Desk.loadScreen outside d).ui =
    { d.ui with buttons := (Desk.loadScreen outside d).ui.buttons } :=
  loadParts_frame outside.drawn 0 (loadScreen d.app.currAppState) (clearButtons d.ui)

theorem placed_loadScreen (outside : Outside) (d : Desk) :
    Placed d.app.currAppState (Desk.loadScreen outside d).ui :=
  placed_load outside.drawn d.app.currAppState d.ui

theorem settingsButton_ui (button : ResolutionButton) (outside : Outside) (d : Desk) :
    (d.settingsButton vbe button outside).ui =
      { video := press vbe d.ui.video (button, outside.platform)
        cursor := { x := 200, y := 200 }
        buttons := (d.settingsButton vbe button outside).ui.buttons } := by
  rw [Desk.settingsButton]
  simp only
  rw [loadParts_frame]
  rfl

theorem Called.ghosts (h : Called random vbe outside d c next) :
    next.pressScreen = d.pressScreen ∧ next.invoked = d.invoked := by
  cases h <;> exact ⟨rfl, rfl⟩

theorem Called.same (h : Called random vbe outside d c next) (hloads : c.loads = none) :
    next.ui = d.ui ∧ next.app.currAppState = d.app.currAppState := by
  cases h with
  | screen loads => cases hloads.symm.trans loads
  | stays loads does same => exact ⟨rfl, same⟩
  | resolution => cases hloads
  | theme loads => cases hloads.symm.trans loads

theorem Called.shown (h : Called random vbe outside d c next) {s : AppState}
    (hloads : c.loads = some s) (hscreen : c.screen = d.app.currAppState) :
    next.app.currAppState = s ∧ Placed s next.ui := by
  cases h with
  | screen loads does shows =>
    obtain rfl := Option.some.inj (loads.symm.trans hloads)
    rw [← shows]
    exact ⟨rfl, placed_loadScreen _ _⟩
  | stays loads => cases loads.symm.trans hloads
  | resolution =>
    cases hloads
    exact ⟨hscreen.symm, placed_load _ .settingsState _⟩
  | theme loads mode screen =>
    obtain rfl := Option.some.inj (loads.symm.trans hloads)
    exact ⟨hscreen.symm.trans screen, placed_load _ .settingsState _⟩

theorem Called.ui (h : Called random vbe outside d c next) (hmode : c.setsMode = false) :
    next.ui = { d.ui with buttons := next.ui.buttons } := by
  cases h with
  | screen => exact loadScreen_ui _ _
  | stays => rfl
  | resolution => cases hmode
  | theme => exact loadParts_frame outside.drawn 0 settingsScreenLoad (clearButtons d.ui)

theorem Called.mode (h : Called random vbe outside d c next) (hmode : c.setsMode = true) :
    ∃ button, next = d.settingsButton vbe button outside := by
  cases h with
  | screen => cases hmode
  | stays => cases hmode
  | resolution button => exact ⟨button, rfl⟩
  | theme loads mode => cases mode.symm.trans hmode

end Callbacks

section Loop

/-- The callbacks that the release of the left button calls, all of them of the shown screen.
One that loads a screen is the last. -/
inductive Clicked (random : UInt32 → Nat → Nat) (vbe : MinixMode → ModeInfo) :
    Desk → List Callback → Desk → Prop
  | done (d : Desk) : Clicked random vbe d [] d
  | last {d next : Desk} {c : Callback} (outside : Outside)
      (call : Called random vbe outside d c next) (screen : c.screen = d.app.currAppState)
      (loads : c.loads ≠ none) :
      Clicked random vbe d [c] { next with invoked := d.invoked ++ [c] }
  | more {d u next : Desk} {c : Callback} {cs : List Callback} (outside : Outside)
      (call : Called random vbe outside d c u) (screen : c.screen = d.app.currAppState)
      (stays : c.loads = none)
      (rest : Clicked random vbe { u with invoked := d.invoked ++ [c] } cs next) :
      Clicked random vbe d (c :: cs) next

variable {answers : Fin maxAmountOfButtons → Outside} {i j : Fin maxAmountOfButtons}
  {b : Ui.Button Callback} {cs : List Callback}

/-- Behind the button whose callback has loaded a screen, no button of that screen is clicked
with the same release. -/
theorem Called.missed (h : Called random vbe outside d b.onClick next)
    (hplaced : Placed d.app.currAppState d.ui) (hi : d.ui.clicked i = some b)
    (hloads : b.onClick.loads ≠ none) (hij : i < j) : next.ui.clicked j = none := by
  obtain ⟨hget, hclick⟩ := clicked_eq_some.mp hi
  have hmem := mem_buttonsOf (hplaced i b hget)
  obtain ⟨s, hs⟩ := Option.ne_none_iff_exists'.mp hloads
  have hshown := (h.shown hs (screen_of_mem _ _ hmem)).2
  apply clicked_eq_none
  intro b' hget'
  have hmem' := mem_buttonsOf (hshown j b' hget')
  obtain ⟨hle, htop⟩ := below_title _ _ hmem'
  cases hmode : b.onClick.setsMode with
  | true =>
    obtain ⟨button, rfl⟩ := h.mode hmode
    rw [settingsButton_ui]
    exact not_click_corner _ hle htop
  | false =>
    rw [h.ui hmode]
    obtain hsets | habove | hbelow := rows_apart _ _ hmem s hs _ hmem' hij
    · cases hmode.symm.trans hsets
    · intro hclick'
      exact not_click_below hclick' habove (below_title _ _ hmem).2 hclick
    · exact not_click_below hclick hbelow htop

theorem clickButtons_none {rest : List (Fin maxAmountOfButtons)}
    (h : ∀ i ∈ rest, d.ui.clicked i = none) :
    d.clickButtons random vbe answers rest = some d := by
  induction rest with
  | nil => rfl
  | cons i rest ih =>
    rw [Desk.clickButtons, h i List.mem_cons_self]
    exact ih fun j hj => h j (List.mem_cons_of_mem i hj)

theorem clickButtons_clicked {rest : List (Fin maxAmountOfButtons)} (hrest : rest.Pairwise (· < ·))
    (hplaced : Placed d.app.currAppState d.ui)
    (h : d.clickButtons random vbe answers rest = some next) :
    ∃ cs, Clicked random vbe d cs next ∧ (cs = [] ↔ ∀ i ∈ rest, d.ui.clicked i = none) := by
  induction rest generalizing d with
  | nil =>
    cases h
    exact ⟨[], .done _, fun _ i hi => absurd hi List.not_mem_nil, fun _ => rfl⟩
  | cons i rest ih =>
    obtain ⟨hi, hrest⟩ := List.pairwise_cons.mp hrest
    rw [Desk.clickButtons] at h
    cases hb : d.ui.clicked i with
    | none =>
      rw [hb] at h
      obtain ⟨cs, hcs, hnone⟩ := ih hrest hplaced h
      refine ⟨cs, hcs, hnone.trans ?_⟩
      rw [List.forall_mem_cons]
      exact (and_iff_right hb).symm
    | some b =>
      rw [hb] at h
      obtain ⟨v, hv, h⟩ := Option.bind_eq_some_iff.mp h
      obtain ⟨u, hu, rfl⟩ := Option.map_eq_some_iff.mp hv
      have hcall := onClick_called hu
      have hscreen : b.onClick.screen = d.app.currAppState :=
        screen_of_mem _ _ (mem_buttonsOf (hplaced i b (clicked_eq_some.mp hb).1))
      have hhit (c : Callback) (cs : List Callback) :
          c :: cs = [] ↔ ∀ j ∈ i :: rest, d.ui.clicked j = none := by
        refine ⟨nofun, fun hnone => ?_⟩
        cases hb.symm.trans (hnone i List.mem_cons_self)
      by_cases hloads : b.onClick.loads = none
      · obtain ⟨hui, hcurr⟩ := hcall.same hloads
        have hplaced' : Placed u.app.currAppState u.ui := by
          rw [hui, hcurr]
          exact hplaced
        obtain ⟨cs, hcs, -⟩ := ih (d := { u with invoked := d.invoked ++ [b.onClick] }) hrest
          hplaced' h
        exact ⟨b.onClick :: cs, .more (answers i) hcall hscreen hloads hcs, hhit _ _⟩
      · have hmissed : ∀ j ∈ rest, u.ui.clicked j = none :=
          fun j hj => hcall.missed hplaced hb hloads (hi j hj)
        cases (clickButtons_none (d := { u with invoked := d.invoked ++ [b.onClick] })
          hmissed).symm.trans h
        exact ⟨[b.onClick], .last (answers i) hcall hscreen hloads, hhit _ _⟩

theorem Clicked.invoked (h : Clicked random vbe d cs next) :
    next.invoked = d.invoked ++ cs ∧ next.pressScreen = d.pressScreen := by
  induction h with
  | done d => exact ⟨(List.append_nil _).symm, rfl⟩
  | last outside call => exact ⟨rfl, call.ghosts.1⟩
  | more outside call screen stays rest ih =>
    obtain ⟨hinvoked, hpress⟩ := ih
    refine ⟨hinvoked.trans ?_, hpress.trans call.ghosts.1⟩
    rw [List.append_assoc, List.singleton_append]

theorem Clicked.screen (h : Clicked random vbe d cs next) :
    ∀ c ∈ cs, c.screen = d.app.currAppState := by
  induction h with
  | done d => exact fun c hc => absurd hc List.not_mem_nil
  | last outside call screen =>
    intro c hc
    rw [List.mem_singleton.mp hc]
    exact screen
  | more outside call screen stays rest ih =>
    intro c hc
    obtain rfl | hc := List.mem_cons.mp hc
    · exact screen
    · exact (ih c hc).trans (call.same stays).2

theorem Clicked.ends (h : Clicked random vbe d cs next) {as bs : List Callback}
    (hcs : cs = as ++ c :: bs) (hloads : c.loads ≠ none) : bs = [] := by
  induction h generalizing as with
  | done d => simp at hcs
  | last outside call screen loads =>
    cases as with
    | nil => exact (List.cons.inj hcs).2.symm
    | cons a as => simp at hcs
  | more outside call screen stays rest ih =>
    cases as with
    | nil =>
      obtain ⟨rfl, -⟩ := List.cons.inj hcs
      exact absurd stays hloads
    | cons a as => exact ih (List.cons.inj hcs).2

theorem Clicked.placed (h : Clicked random vbe d cs next)
    (hplaced : Placed d.app.currAppState d.ui) : Placed next.app.currAppState next.ui := by
  induction h with
  | done d => exact hplaced
  | last outside call screen loads =>
    obtain ⟨s, hs⟩ := Option.ne_none_iff_exists'.mp loads
    obtain ⟨hcurr, hshown⟩ := call.shown hs screen
    simp only
    rw [hcurr]
    exact hshown
  | more outside call screen stays rest ih =>
    obtain ⟨hui, hcurr⟩ := call.same stays
    apply ih
    simp only
    rw [hui, hcurr]
    exact hplaced

end Loop

section Rounds

variable {packet : Packet} {enter : Outside} {answers : Fin maxAmountOfButtons → Outside}

/-- A button of the mouse leads from the start screen to the main screen. -/
inductive Entered (random : UInt32 → Nat → Nat) (packet : Packet) (enter : Outside) (d : Desk) :
    Desk → Prop
  | stays (h : ¬ (d.app.currAppState = .startState ∧ (packet.lb = true ∨ packet.rb = true))) :
      Entered random packet enter d d
  | enters {app : App} (h : d.app.currAppState = .startState)
      (does : d.app.changeState random .mainState enter.now = some app)
      (main : app.currAppState = .mainState) :
      Entered random packet enter d (Desk.loadScreen enter { d with app := app })

theorem Entered.info (h : Entered random packet enter d u) :
    u.ui = { d.ui with buttons := u.ui.buttons } ∧ u.pressScreen = d.pressScreen ∧
      u.invoked = d.invoked := by
  cases h with
  | stays => exact ⟨rfl, rfl, rfl⟩
  | enters => exact ⟨loadScreen_ui _ _, rfl, rfl⟩

theorem Entered.placed (h : Entered random packet enter d u)
    (hplaced : Placed d.app.currAppState d.ui) : Placed u.app.currAppState u.ui := by
  cases h with
  | stays => exact hplaced
  | enters => exact placed_loadScreen _ _

theorem mouseInterrupt_entered (h : d.mouseInterrupt random vbe packet enter answers = some next) :
    ∃ u, Entered random packet enter (d.notePress packet) u ∧
      u.mouseUpdate random vbe packet answers = some next := by
  obtain ⟨u, hu, h⟩ := Option.bind_eq_some_iff.mp h
  refine ⟨u, ?_, h⟩
  split at hu
  · rename_i hstart
    obtain ⟨app, happ, hmain, rfl⟩ := changeState_cases (by decide) hu
    exact .enters hstart.1 happ hmain
  · cases hu
    exact .stays ‹_›

theorem mouseUpdate_clicked (hplaced : Placed d.app.currAppState d.ui)
    (h : d.mouseUpdate random vbe packet answers = some next) :
    ∃ u cs, Clicked random vbe { d with ui := d.ui.moveCursor packet } cs u ∧
      (cs = [] ↔ ¬ ((d.ui.moveCursor packet).ValidClick packet ∧
        ∃ i, (d.ui.moveCursor packet).clicked i ≠ none)) ∧
      next = { u with ui := u.ui.pressButtons packet } := by
  obtain ⟨u, hu, rfl⟩ := Option.map_eq_some_iff.mp h
  split at hu
  · rename_i hvalid
    obtain ⟨cs, hcs, hnone⟩ := clickButtons_clicked (List.pairwise_lt_finRange _)
      (d := { d with ui := d.ui.moveCursor packet }) hplaced hu
    refine ⟨u, cs, hcs, hnone.trans ?_, rfl⟩
    simp only [List.mem_finRange, true_implies, hvalid, true_and, not_exists, not_not]
  · rename_i hvalid
    cases hu
    refine ⟨_, [], .done _, ?_, rfl⟩
    simp only [hvalid, false_and, not_false_iff]

theorem mainLoop_mouse (h : mainLoop random vbe d (.mouse packet enter answers) = some next) :
    Desk.mouseInterrupt random vbe packet enter answers { d with invoked := [] } = some next := by
  unfold mainLoop at h
  split at h
  · cases h
  · exact h

/-- What the other rounds do to the screen. -/
inductive Turn (d next : Desk) : Prop
  | stays (ui : next.ui = d.ui) (screen : next.app.currAppState = d.app.currAppState)
  | ends (ui : next.ui = d.ui) (main : d.app.currAppState = .mainState)
      (screen : next.app.currAppState = .endState)
  | home (ui : next.ui = { d.ui with buttons := next.ui.buttons })
      (other : d.app.currAppState ≠ .mainState) (screen : next.app.currAppState = .mainState)
      (placed : Placed .mainState next.ui)

theorem Turn.ui (h : Turn d next) : next.ui = { d.ui with buttons := next.ui.buttons } := by
  cases h with
  | stays ui => rw [ui]
  | ends ui => rw [ui]
  | home ui => exact ui

theorem Turn.placed (h : Turn d next) (hplaced : Placed d.app.currAppState d.ui)
    (hend : next.app.currAppState ≠ .endState) : Placed next.app.currAppState next.ui := by
  cases h with
  | stays ui screen =>
    rw [ui, screen]
    exact hplaced
  | ends ui main screen => exact absurd screen hend
  | home ui other screen placed =>
    rw [screen]
    exact placed

theorem turn_home (hother : d.app.currAppState ≠ .mainState)
    (h : d.changeState random .mainState outside = some next) :
    Turn d next ∧ next.pressScreen = d.pressScreen ∧ next.invoked = d.invoked := by
  obtain ⟨app, -, hmain, rfl⟩ := changeState_cases (by decide) h
  refine ⟨.home (loadScreen_ui _ _) hother hmain ?_, rfl, rfl⟩
  rw [← hmain]
  exact placed_loadScreen _ _

theorem turn_keyboard (h : d.keyboardScancodeHandler random outside = some next) :
    Turn d next ∧ next.pressScreen = d.pressScreen ∧ next.invoked = d.invoked := by
  unfold Desk.keyboardScancodeHandler at h
  simp only at h
  split at h
  · split at h
    · split at h
      · rename_i hmain
        obtain ⟨app, happ, rfl⟩ := Option.map_eq_some_iff.mp h
        exact ⟨.ends rfl hmain (changeState_screen happ).1, rfl, rfl⟩
      · exact turn_home ‹_› h
    · cases h
      exact ⟨.stays rfl rfl, rfl, rfl⟩
  split at h
  · cases h
    exact ⟨.stays rfl rfl, rfl, rfl⟩
  split at h
  · rename_i hstart
    exact turn_home (by rw [hstart]; decide) h
  split at h
  · obtain ⟨app, happ, rfl⟩ := Option.map_eq_some_iff.mp h
    exact ⟨.stays rfl (handler_screen happ), rfl, rfl⟩
  · cases h
    exact ⟨.stays rfl rfl, rfl, rfl⟩

theorem serialInterrupt_screen {app app' : App} {input : Serial.UartInput}
    (h : app.serialInterrupt random input = some app') : app'.currAppState = app.currAppState := by
  by_cases hrace : app.currAppState = .raceState
  · rw [hrace]
    exact (serialInterrupt_cases hrace h).1
  · cases (if_pos hrace).symm.trans h
    rfl

theorem mainLoop_turn {e : Input} (he : e.packet = none) (h : mainLoop random vbe d e = some next) :
    Turn d next ∧ next.pressScreen = d.pressScreen ∧ next.invoked = [] := by
  unfold mainLoop at h
  split at h
  · cases h
  cases e with
  | mouse => cases he
  | keyboard byte outside =>
    simp only at h
    split at h
    · obtain ⟨hturn, hpress, hinvoked⟩ := turn_keyboard h
      refine ⟨?_, hpress, hinvoked⟩
      cases hturn with
      | stays ui screen => exact .stays ui screen
      | ends ui main screen => exact .ends ui main screen
      | home ui other screen placed => exact .home ui other screen placed
    · cases h
      exact ⟨.stays rfl rfl, rfl, rfl⟩
  | timer =>
    cases h
    exact ⟨.stays rfl (timerInterrupt_screen d.app), rfl, rfl⟩
  | serial input =>
    obtain ⟨app, happ, rfl⟩ := Option.map_eq_some_iff.mp h
    exact ⟨.stays rfl (serialInterrupt_screen happ), rfl, rfl⟩
  | kernel answers =>
    cases h
    exact ⟨.stays rfl rfl, rfl, rfl⟩

end Rounds

end WriteWise.MouseUpdate
