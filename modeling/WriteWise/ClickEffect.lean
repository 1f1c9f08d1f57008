import WriteWise.Clicks

namespace WriteWise.ClickEffect

open Library.Runs Graphics Mouse Typing Program Video Ui Application MouseUpdate Clicks

variable {random : UInt32 → Nat → Nat} {vbe : MinixMode → ModeInfo} {d u next : Desk}

section Places

def callbacksAt (screen : AppState) (places : List (Fin maxAmountOfButtons)) : List Callback :=
  places.filterMap fun i =>
    ((buttonsOf screen).find? fun p => p.2 = i.1).map fun p => p.1.onClick

theorem one_place : ∀ screen, ∀ p ∈ buttonsOf screen,
    ((buttonsOf screen).find? fun q => q.2 = p.2) = some p := by
  intro screen
  cases screen <;> decide +kernel

theorem callbacksAt_cons (screen : AppState) (i : Fin maxAmountOfButtons)
    (places : List (Fin maxAmountOfButtons)) :
    (callbacksAt screen places).Sublist (callbacksAt screen (i :: places)) := by
  apply List.Sublist.filterMap
  exact List.sublist_cons_self i places

/-- No button of the screen loads one. -/
def Still (screen : AppState) : Prop := ∀ p ∈ buttonsOf screen, p.1.onClick.loads = none

theorem still_training : Still .trainingState := by
  unfold Still
  decide +kernel

theorem still_race : Still .raceState := by
  unfold Still
  decide +kernel

theorem clickButtons_places {answers : Fin maxAmountOfButtons → Outside}
    {places : List (Fin maxAmountOfButtons)} (hstill : Still d.app.currAppState)
    (hplaced : Placed d.app.currAppState d.ui)
    (h : d.clickButtons random vbe answers places = some next) :
    ∃ cs, next.invoked = d.invoked ++ cs ∧
      cs.Sublist (callbacksAt d.app.currAppState places) := by
  induction places generalizing d with
  | nil =>
    cases h
    exact ⟨[], (List.append_nil _).symm, List.nil_sublist _⟩
  | cons i places ih =>
    rw [Desk.clickButtons] at h
    cases hb : d.ui.clicked i with
    | none =>
      rw [hb] at h
      obtain ⟨cs, hcs, hsub⟩ := ih hstill hplaced h
      exact ⟨cs, hcs, hsub.trans (callbacksAt_cons _ i places)⟩
    | some b =>
      rw [hb] at h
      obtain ⟨v, hv, h⟩ := Option.bind_eq_some_iff.mp h
      obtain ⟨u, hu, rfl⟩ := Option.map_eq_some_iff.mp hv
      have hmem : (b, i.1) ∈ buttonsOf d.app.currAppState :=
        mem_buttonsOf (hplaced i b (clicked_eq_some.mp hb).1)
      obtain ⟨hui, hscreen⟩ := (onClick_called hu).same (hstill _ hmem)
      obtain ⟨cs, hcs, hsub⟩ := ih (d := { u with invoked := d.invoked ++ [b.onClick] })
        (by rw [hscreen]; exact hstill) (by rw [hui, hscreen]; exact hplaced) h
      have hfirst : callbacksAt d.app.currAppState (i :: places) =
          b.onClick :: callbacksAt d.app.currAppState places := by
        rw [callbacksAt, List.filterMap_cons, one_place _ _ hmem]
        rfl
      refine ⟨b.onClick :: cs, ?_, ?_⟩
      · rw [hcs, List.append_assoc, List.singleton_append]
      · rw [hfirst]
        rw [hscreen] at hsub
        exact hsub.cons_cons _

theorem callbacksAt_training :
    callbacksAt .trainingState (List.finRange maxAmountOfButtons) = [.button .trainingReset] := by
  decide +kernel

theorem callbacksAt_race : callbacksAt .raceState (List.finRange maxAmountOfButtons) =
    [.button .raceReady, .button .raceReset] := by
  decide +kernel

theorem mouseUpdate_places {packet : Packet} {answers : Fin maxAmountOfButtons → Outside}
    (hstill : Still d.app.currAppState) (hplaced : Placed d.app.currAppState d.ui)
    (h : d.mouseUpdate random vbe packet answers = some next) :
    ∃ cs, next.invoked = d.invoked ++ cs ∧
      cs.Sublist (callbacksAt d.app.currAppState (List.finRange maxAmountOfButtons)) := by
  obtain ⟨v, hv, rfl⟩ := Option.map_eq_some_iff.mp h
  split at hv
  · have hcs := clickButtons_places (d := { d with ui := d.ui.moveCursor packet }) hstill hplaced hv
    exact hcs
  · cases hv
    exact ⟨[], (List.append_nil _).symm, List.nil_sublist _⟩

end Places

section Effects

variable {c : Callback} {cs : List Callback}

/-- The program is left as it is, or as one of the called callbacks leaves it. -/
def ActsOnce (random : UInt32 → Nat → Nat) (vbe : MinixMode → ModeInfo) (d : Desk)
    (cs : List Callback) (app : App) : Prop :=
  app = d.app ∨ ∃ c ∈ cs, ∃ outside v, Called random vbe outside d c v ∧ app = v.app

theorem actsOnce_nil (h : Clicked random vbe d [] next) : ActsOnce random vbe d [] next.app := by
  cases h
  exact .inl rfl

theorem actsOnce_singleton (h : Clicked random vbe d [c] next) :
    ActsOnce random vbe d [c] next.app := by
  cases h with
  | last outside call => exact .inr ⟨c, List.mem_singleton_self c, outside, _, call, rfl⟩
  | more outside call screen stays rest =>
    cases rest
    exact .inr ⟨c, List.mem_singleton_self c, outside, _, call, rfl⟩

theorem called_raceReady {outside : Outside}
    (h : Called random vbe outside d (.button .raceReady) next) :
    next.app = d.app.raceReadyButton outside.now := by
  cases h with
  | screen loads => cases loads
  | stays loads does => exact (Option.some.inj does).symm
  | theme loads => cases loads

theorem called_raceReset {outside : Outside}
    (h : Called random vbe outside d (.button .raceReset) next) :
    next.app = d.app.raceResetButton := by
  cases h with
  | screen loads => cases loads
  | stays loads does => exact (Option.some.inj does).symm
  | theme loads => cases loads

theorem raceButtons_once (app : App) (now : UInt64) :
    (app.raceReadyButton now).raceResetButton = app.raceReadyButton now ∨
      (app.raceReadyButton now).raceResetButton = app.raceResetButton := by
  by_cases hs : app.typingInfo.status = .unready
  · left
    obtain ⟨seed, port, hready⟩ := raceReadyButton_frame app now
    rw [hready]
    refine if_neg fun hf => ?_
    cases hs.symm.trans hf
  · right
    rw [App.raceReadyButton, if_neg hs]

theorem actsOnce_race (h : Clicked random vbe d [.button .raceReady, .button .raceReset] next) :
    ActsOnce random vbe d [.button .raceReady, .button .raceReset] next.app := by
  cases h with
  | more outside call screen stays rest =>
    rename_i u
    cases rest with
    | last outside' call' screen' loads' => exact absurd rfl loads'
    | more outside' call' screen' stays' rest' =>
      rename_i v
      cases rest'
      have hready := called_raceReady call
      have hreset := called_raceReset call'
      simp only at hreset ⊢
      rw [hready] at hreset
      obtain hb | hb := raceButtons_once d.app outside.now
      · exact .inr ⟨_, List.mem_cons_self, outside, u, call, (hreset.trans hb).trans hready.symm⟩
      · have hsame : d.app.raceResetButton.currAppState = d.app.currAppState :=
          (RaceSteps.raceResetButton_change d.app outside.now).1
        exact .inr ⟨_, List.mem_cons_of_mem _ List.mem_cons_self, outside, _,
          .stays rfl rfl hsame, hreset.trans hb⟩

theorem actsOnce_loads (h : Clicked random vbe d cs next) (hloads : ∀ c ∈ cs, c.loads ≠ none) :
    ActsOnce random vbe d cs next.app := by
  cases cs with
  | nil => exact actsOnce_nil h
  | cons c cs =>
    obtain rfl : cs = [] := h.ends (List.nil_append (c :: cs)).symm (hloads c List.mem_cons_self)
    exact actsOnce_singleton h

theorem actsOnce_still (h : Clicked random vbe d cs next)
    (hcs : cs.Sublist [.button .raceReady, .button .raceReset]) :
    ActsOnce random vbe d cs next.app := by
  obtain rfl | rfl | rfl | rfl : cs = [] ∨ cs = [.button .raceReady] ∨
      cs = [.button .raceReset] ∨ cs = [.button .raceReady, .button .raceReset] := by
    obtain hcs | ⟨rest, rfl, hrest⟩ := List.sublist_cons_iff.mp hcs
    · obtain rfl | rfl := List.sublist_singleton.mp hcs
      · exact .inl rfl
      · exact .inr (.inr (.inl rfl))
    · obtain rfl | rfl := List.sublist_singleton.mp hrest
      · exact .inr (.inl rfl)
      · exact .inr (.inr (.inr rfl))
  · exact actsOnce_nil h
  · exact actsOnce_singleton h
  · exact actsOnce_singleton h
  · exact actsOnce_race h

theorem called_race {outside : Outside} (h : Called random vbe outside d c next)
    (hscreen : c.screen = .raceState)
    (hstatus : d.app.typingInfo.status = .ready ∨ d.app.typingInfo.status = .typing) :
    next.app = d.app := by
  have hunready : d.app.typingInfo.status ≠ .unready := by
    obtain hs | hs := hstatus <;> rw [hs] <;> decide
  have hfinished : d.app.typingInfo.status ≠ .finished := by
    obtain hs | hs := hstatus <;> rw [hs] <;> decide
  cases c with
  | button b =>
    cases b with
    | raceReady =>
      rw [called_raceReady h]
      exact if_neg hunready
    | raceReset =>
      rw [called_raceReset h]
      exact if_neg hfinished
    | _ => cases hscreen
  | _ => cases hscreen

theorem loads_of_screen (htraining : c.screen ≠ .trainingState) (hrace : c.screen ≠ .raceState) :
    c.loads ≠ none := by
  cases c with
  | button b =>
    cases b with
    | mainTraining | mainRace | mainInstructions | mainSettings => exact nofun
    | trainingReset => exact absurd rfl htraining
    | raceReady | raceReset => exact absurd rfl hrace
  | resolution => exact nofun
  | settingsButtonDarkTheme | settingsButtonLightTheme => exact nofun

end Effects

section Rounds

variable {packet : Packet} {enter : Outside} {answers : Fin maxAmountOfButtons → Outside}

theorem mouseUpdate_once (hplaced : Placed d.app.currAppState d.ui) (hempty : d.invoked = [])
    (h : d.mouseUpdate random vbe packet answers = some next) :
    ActsOnce random vbe { d with ui := d.ui.moveCursor packet } next.invoked next.app := by
  obtain ⟨v, cs, hcs, -, rfl⟩ := mouseUpdate_clicked hplaced h
  have hinvoked : v.invoked = cs := by
    have hv := hcs.invoked.1
    rwa [hempty, List.nil_append] at hv
  simp only
  rw [hinvoked]
  have hplaces (hstill : Still d.app.currAppState) :
      cs.Sublist (callbacksAt d.app.currAppState (List.finRange maxAmountOfButtons)) := by
    obtain ⟨cs', hcs', hsub⟩ := mouseUpdate_places hstill hplaced h
    rw [hempty, List.nil_append] at hcs'
    rwa [← hinvoked.symm.trans hcs'] at hsub
  by_cases htraining : d.app.currAppState = .trainingState
  · rw [htraining, callbacksAt_training] at hplaces
    obtain rfl | rfl := List.sublist_singleton.mp (hplaces still_training)
    · exact actsOnce_nil hcs
    · exact actsOnce_singleton hcs
  by_cases hrace : d.app.currAppState = .raceState
  · rw [hrace, callbacksAt_race] at hplaces
    exact actsOnce_still hcs (hplaces still_race)
  · refine actsOnce_loads hcs fun c hc => ?_
    have hscreen := hcs.screen c hc
    exact loads_of_screen (by rw [hscreen]; exact htraining) (by rw [hscreen]; exact hrace)

/-- A packet of the mouse has the effect of one button at most, also where two buttons are at the
same place, and none at all on a race that counts down or runs. -/
theorem one_action (dictionary : List Word) {es : List Input}
    (h : run (mainLoop random vbe) (startUp vbe dictionary) es = some d)
    (he : mainLoop random vbe d (.mouse packet enter answers) = some next) :
    (∃ u, Entered random packet enter (Desk.notePress packet { d with invoked := [] }) u ∧
      ActsOnce random vbe { u with ui := u.ui.moveCursor packet } next.invoked next.app) ∧
    (d.app.currAppState = .raceState →
      d.app.typingInfo.status = .ready ∨ d.app.typingInfo.status = .typing →
        next.app = d.app) := by
  have htracks := reachable_tracks h
  have hplaced := htracks.placed (not_end he)
  obtain ⟨u, hentered, hu⟩ := mouseInterrupt_entered (mainLoop_mouse he)
  have hempty : u.invoked = [] := hentered.info.2.2
  have honce := mouseUpdate_once (hentered.placed hplaced) hempty hu
  refine ⟨⟨u, hentered, honce⟩, fun hrace hstatus => ?_⟩
  have happ : u.app = d.app := by
    cases hentered with
    | stays => rfl
    | enters hstart => cases hrace.symm.trans hstart
  obtain hsame | ⟨c, hc, outside, v, hcall, hv⟩ := honce
  · exact hsame.trans happ
  have hscreen := (pointed hplaced htracks.idle rfl he).invoked c hc
  have hstatus' : u.app.typingInfo.status = .ready ∨ u.app.typingInfo.status = .typing := by
    rw [happ]
    exact hstatus
  exact hv.trans ((called_race hcall (hscreen.trans hrace) hstatus').trans happ)

/-- On to the race screen, where the left button goes down at the place of both buttons. -/
def toRace : List Input :=
  [.mouse { rb := true } {} fun _ => {},
    .mouse { lb := true, deltaX := 100, deltaY := -100 } {} fun _ => {},
    .mouse {} {} fun _ => {},
    .mouse { lb := true, deltaX := 100, deltaY := -150 } {} fun _ => {}]

theorem one_action_race : ∃ d next,
    run (mainLoop (fun _ _ => 0) trueColor) (startUp trueColor []) toRace = some d ∧
      mainLoop (fun _ _ => 0) trueColor d (.mouse {} {} fun _ => {}) = some next ∧
      next.invoked = [.button .raceReady, .button .raceReset] ∧
      ∃ u, Entered (fun _ _ => 0) {} {} (Desk.notePress {} { d with invoked := [] }) u ∧
        ActsOnce (fun _ _ => 0) trueColor { u with ui := u.ui.moveCursor {} } next.invoked
          next.app := by
  obtain ⟨next, hnext⟩ := Option.isSome_iff_exists.mp (by decide +kernel : (run
    (mainLoop (fun _ _ => 0) trueColor) (startUp trueColor [])
      (toRace ++ [.mouse {} {} fun _ => {}])).isSome = true)
  have hlast : ∀ d ∈ run (mainLoop (fun _ _ => 0) trueColor) (startUp trueColor [])
      (toRace ++ [.mouse {} {} fun _ => {}]),
      d.invoked = [.button .raceReady, .button .raceReset] := by
    decide +kernel
  obtain ⟨d, hd, he⟩ := run_concat_some hnext
  exact ⟨d, next, hd, he, hlast next hnext, (one_action [] hd he).1⟩

end Rounds

end WriteWise.ClickEffect
