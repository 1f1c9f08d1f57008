import WriteWise.ProjRefinement

namespace WriteWise.Notification

open Library.Runs Library.Progress TextGeneration Graphics Mouse Scancode Serial Typing Program Data
  RaceSteps Video ScreenFit Ui Application Display Screens Rtc Frames Proj Rendering ProjRefinement

/-- What a notification brings: its interrupts, with what the drivers read in each, and the answers
of the kernel to what is sent. -/
structure Interrupts where
  answers : List (Option UInt8) := []
  timer : Option Registers := none
  mouse : Option (KbcInput × Surroundings × (Fin maxAmountOfButtons → Surroundings)) := none
  keyboard : Option (KbcInput × Surroundings) := none
  serial : Option UartInput := none

/-- What `driver_receive` gives. -/
inductive Message
  | failed
  | foreign
  | hardware (interrupts : Interrupts)

structure Machine where
  station : Station
  mouse : Driver := {}

def Stopped (st : Station) : Prop := st.app.currAppState = .endState ∨ st.failed = true

instance : DecidablePred Stopped := fun _ => inferInstanceAs (Decidable (_ ∨ _))

section Code

variable (random : UInt32 → Nat → Nat) (vbe : MinixMode → ModeInfo)

def branch {α : Type} (interrupt : Option α) (handler : α → Station → Option Station)
    (st : Station) : Option Station :=
  match interrupt with
  | none => some st
  | some a => handler a st

def mousePacket (n : Interrupts) (d : Driver) : Driver × Option Packet :=
  match n.mouse with
  | none => (d, none)
  | some (input, _, _) => Mouse.interrupt d input

def mouseBranch (n : Interrupts) (packet : Option Packet) (st : Station) : Option Station :=
  branch n.mouse (fun (_, enter, outside) st =>
    branch packet (fun packet st => st.mouseInterrupt random vbe packet enter outside) st) st

def keyboardBranch (n : Interrupts) (st : Station) : Option Station :=
  branch n.keyboard (fun (input, outside) st =>
    let r := keyboardIh (readKBCOutput input false) st.app.keyboard
    let st := { st with app := { st.app with keyboard := r.1 } }
    if r.2 then st.keyboardScancodeHandler random outside else some st) st

def serialBranch (n : Interrupts) (st : Station) : Option Station :=
  branch n.serial (fun input st =>
    (st.app.serialInterrupt random input).map fun app => { st with app := app }) st

/-- A round of the main loop of `proj_main_loop`. The program returns at once when the screen
cannot be drawn; its state is looked at between two rounds only. -/
def round (m : Machine) (message : Message) : Option Machine :=
  if Stopped m.station then none
  else match message with
    | .failed | .foreign => some m
    | .hardware n =>
      let st := { m.station with app := { m.station.app with
        port := { m.station.app.port with answers := n.answers } } }
      (branch n.timer Station.timerInterrupt st).bind fun st =>
      if st.failed then some { m with station := st }
      else
        let r := mousePacket n m.mouse
        ((mouseBranch random vbe n r.2 st).bind fun st =>
          (keyboardBranch random n st).bind (serialBranch random n)).map fun st =>
            { station := st, mouse := r.1 }

end Code

section Inputs

/-- The rounds of one interrupt each that a notification stands for. -/
def Interrupts.inputs (n : Interrupts) (packet : Option Packet) : List Proj.Input :=
  .kernel n.answers :: (n.timer.map Proj.Input.timer).toList ++
    (n.mouse.bind fun (_, enter, outside) =>
      packet.map fun packet => Proj.Input.mouse packet enter outside).toList ++
    (n.keyboard.map fun (input, outside) =>
      Proj.Input.keyboard (readKBCOutput input false) outside).toList ++
    (n.serial.map Proj.Input.serial).toList

def inputs : Driver → List Message → List Proj.Input
  | _, [] => []
  | d, .failed :: messages => inputs d messages
  | d, .foreign :: messages => inputs d messages
  | d, .hardware n :: messages =>
    let r := mousePacket n d
    n.inputs r.2 ++ inputs r.1 messages

end Inputs

section Running

variable {random : UInt32 → Nat → Nat} {vbe : MinixMode → ModeInfo} {outside : Surroundings}
  {st : Station}

theorem running_course {st' : Station} (hst : ¬ Stopped st) (h : SameCourse st st') :
    ¬ Stopped st' := by
  unfold Stopped
  rw [h.app, h.failed]
  exact hst

theorem running_loadSettings (hst : ¬ Stopped st) :
    Ensures (fun st' => ¬ Stopped st') st.loadSettings :=
  (load_course _).map fun _ h => running_course hst h

theorem running_changeState (hst : ¬ Stopped st) {newState : AppState}
    (hnew : newState ≠ .endState) :
    Ensures (fun st' => ¬ Stopped st') (st.changeState random newState outside) := by
  have hscreen : Ensures (fun app : App => app.currAppState = newState)
      (st.app.changeState random newState outside.now) := fun app h => (changeState_screen h).1
  refine hscreen.bind fun app happ => ?_
  have hrunning : ¬ Stopped { st with app := app } := by
    rintro (hend | hfailed)
    · exact hnew (happ.symm.trans hend)
    · exact hst (.inr hfailed)
  rw [if_neg hnew]
  exact loadScreen_course.map fun _ h => running_course hrunning h

theorem running_withApp (hst : ¬ Stopped st) {app : App}
    (hscreen : app.currAppState = st.app.currAppState) : ¬ Stopped { st with app := app } := by
  rintro (hend | hfailed)
  · exact hst (.inl (hscreen.symm.trans hend))
  · exact hst (.inr hfailed)

theorem running_onClick (hst : ¬ Stopped st) (c : Callback) :
    Ensures (fun st' => ¬ Stopped st') (st.onClick random vbe c outside) := by
  cases c with
  | button b =>
    cases b with
    | trainingReset =>
      have hscreen : Ensures (fun app : App => app.currAppState = st.app.currAppState)
          (st.app.trainingButtonReset random outside.now) := by
        intro app h
        obtain ⟨t, -, rfl⟩ := Option.map_eq_some_iff.mp h
        rfl
      exact hscreen.map fun app happ => running_withApp hst happ
    | raceReady => exact .pure (running_withApp hst (raceReadyButton_screen _ _))
    | raceReset => exact .pure (running_withApp hst (raceResetButton_screen _))
    | _ => exact running_changeState hst (by decide)
  | resolution b =>
    have hmode : ¬ Stopped (st.exitUI.setMinixMode vbe b.mode outside).initUI := by
      unfold Station.setMinixMode
      simp only
      split
      · exact hst
      · exact hst
    exact running_loadSettings hmode
  | settingsButtonDarkTheme | settingsButtonLightTheme => exact running_loadSettings hst

theorem running_clickButtons (hst : ¬ Stopped st) (outside : Fin maxAmountOfButtons → Surroundings)
    (places : List (Fin maxAmountOfButtons)) :
    Ensures (fun st' => ¬ Stopped st') (st.clickButtons random vbe outside places) := by
  induction places generalizing st with
  | nil => exact .pure hst
  | cons i rest ih =>
    rw [Station.clickButtons]
    split
    · exact ih hst
    · exact (running_onClick hst _).bind fun _ h => ih h

theorem running_mouseInterrupt (hst : ¬ Stopped st) (packet : Packet) (enter : Surroundings)
    (outside : Fin maxAmountOfButtons → Surroundings) :
    Ensures (fun st' => ¬ Stopped st') (st.mouseInterrupt random vbe packet enter outside) := by
  have henter : Ensures (fun st' => ¬ Stopped st')
      (if st.app.currAppState = .startState ∧ (packet.lb = true ∨ packet.rb = true) then
        st.changeState random .mainState enter else some st) := by
    apply Ensures.ite
    · exact fun _ => running_changeState hst (by decide)
    · exact fun _ => .pure hst
  refine henter.bind fun st₁ h₁ => ?_
  have hmove : ¬ Stopped { st₁ with ui := st₁.ui.moveCursor packet } := h₁
  refine Ensures.map (P := fun st' => ¬ Stopped st') ?_ fun _ h => h
  apply Ensures.ite
  · exact fun _ => running_clickButtons hmove outside _
  · exact fun _ => .pure hmove

theorem running_timerInterrupt (hst : ¬ Stopped st) (rtcIN : Registers) :
    Ensures (fun st' => st'.app.currAppState ≠ .endState) (st.timerInterrupt rtcIN) := by
  have hend : st.app.timerInterrupt.currAppState ≠ .endState := by
    rw [timerInterrupt_screen]
    exact fun h => hst (.inl h)
  have hrtc : Ensures (fun st' : Station => st'.app.currAppState ≠ .endState)
      (Station.rtcUpdate rtcIN { st with app := st.app.timerInterrupt }) := by
    unfold Station.rtcUpdate
    apply Ensures.ite
    · intro _ st' h
      obtain ⟨_, -, rfl⟩ := Option.map_eq_some_iff.mp h
      exact hend
    · exact fun _ => .pure hend
  refine hrtc.bind fun st₁ h₁ => ?_
  have hcount : Ensures (fun st' : Station => st'.app.currAppState ≠ .endState)
      st₁.countdownText := by
    unfold Station.countdownText
    apply Ensures.ite
    · intro _ st' h
      obtain ⟨_, -, rfl⟩ := Option.map_eq_some_iff.mp h
      exact h₁
    · exact fun _ => .pure h₁
  refine hcount.bind fun st₂ h₂ => ?_
  refine drawScreen_course.map fun r hr => ?_
  simp only
  rw [hr.app]
  exact h₂

end Running

section Refinement

variable {random : UInt32 → Nat → Nat} {vbe : MinixMode → ModeInfo} {st : Station}

theorem until_one {e : Proj.Input} (hst : ¬ Stopped st) :
    runUntil (Proj.mainLoop random vbe) Stopped st [e] = Proj.mainLoop random vbe st e := by
  rw [runUntil, if_neg hst]
  exact Option.bind_fun_some _

theorem until_timer (hst : ¬ Stopped st) (timer : Option Registers) :
    runUntil (Proj.mainLoop random vbe) Stopped st (timer.map Proj.Input.timer).toList =
      branch timer Station.timerInterrupt st := by
  cases timer with
  | none => rfl
  | some rtcIN => exact (until_one hst).trans (if_neg hst)

theorem until_mouse (hst : ¬ Stopped st) (n : Interrupts) (packet : Option Packet) :
    runUntil (Proj.mainLoop random vbe) Stopped st
        (n.mouse.bind fun (_, enter, outside) =>
          packet.map fun packet => Proj.Input.mouse packet enter outside).toList =
      mouseBranch random vbe n packet st := by
  unfold mouseBranch
  cases n.mouse with
  | none => rfl
  | some mouse =>
    cases packet with
    | none => rfl
    | some packet => exact (until_one hst).trans (if_neg hst)

theorem running_mouseBranch (hst : ¬ Stopped st) (n : Interrupts) (packet : Option Packet) :
    Ensures (fun st' => ¬ Stopped st') (mouseBranch random vbe n packet st) := by
  unfold mouseBranch
  cases n.mouse with
  | none => exact .pure hst
  | some mouse =>
    cases packet with
    | none => exact .pure hst
    | some packet => exact running_mouseInterrupt hst packet _ _

theorem until_keyboard (hst : ¬ Stopped st) (n : Interrupts) :
    runUntil (Proj.mainLoop random vbe) Stopped st
        (n.keyboard.map fun (input, outside) =>
          Proj.Input.keyboard (readKBCOutput input false) outside).toList =
      keyboardBranch random n st := by
  unfold keyboardBranch
  cases n.keyboard with
  | none => rfl
  | some keyboard => exact (until_one hst).trans (if_neg hst)

theorem failed_keyboardBranch (hst : st.failed = false) (n : Interrupts) :
    Ensures (fun st' => st'.failed = false) (keyboardBranch random n st) := by
  have hchange : ∀ {st : Station} {newState : AppState} {outside : Surroundings},
      st.failed = false → Ensures (fun st' : Station => st'.failed = false)
        (st.changeState random newState outside) := by
    intro st newState outside hst
    have happ : Ensures (fun _ : App => True)
        (st.app.changeState random newState outside.now) := fun _ _ => trivial
    refine happ.bind fun app _ => ?_
    apply Ensures.ite
    · exact fun _ => .pure hst
    · exact fun _ => loadScreen_course.map fun _ h => h.failed.trans hst
  unfold keyboardBranch
  cases n.keyboard with
  | none => exact .pure hst
  | some keyboard =>
    apply Ensures.ite
    · intro _
      unfold Station.keyboardScancodeHandler
      apply Ensures.ite
      · intro _
        apply Ensures.ite
        · intro _
          split
          · exact hchange hst
          · exact hchange hst
        · exact fun _ => .pure hst
      intro _
      apply Ensures.ite
      · exact fun _ => .pure hst
      intro _
      apply Ensures.ite
      · exact fun _ => hchange hst
      intro _
      apply Ensures.ite
      · intro _ st' h
        obtain ⟨_, -, rfl⟩ := Option.map_eq_some_iff.mp h
        exact hst
      · exact fun _ => .pure hst
    · exact fun _ => .pure hst

theorem until_serial (hst : st.failed = false) (n : Interrupts) :
    runUntil (Proj.mainLoop random vbe) Stopped st (n.serial.map Proj.Input.serial).toList =
      serialBranch random n st := by
  unfold serialBranch
  cases n.serial with
  | none => rfl
  | some input =>
    by_cases hend : st.app.currAppState = .endState
    · have hstop : Stopped st := .inl hend
      rw [runUntil_final hstop]
      have hserial : st.app.serialInterrupt random input = some st.app :=
        if_pos (by rw [hend]; decide)
      change some st = (st.app.serialInterrupt random input).map fun app => { st with app := app }
      rw [hserial]
      rfl
    · have hrunning : ¬ Stopped st := by
        rintro (h | h)
        · exact hend h
        · cases hst.symm.trans h
      exact (until_one hrunning).trans (if_neg hrunning)

/-- A round is the rounds of its interrupts, up to where the program stops. -/
theorem round_until {m : Machine} (hm : ¬ Stopped m.station) (n : Interrupts) :
    (round random vbe m (.hardware n)).map Machine.station =
        runUntil (Proj.mainLoop random vbe) Stopped m.station (n.inputs (mousePacket n m.mouse).2) ∧
      ∀ m', round random vbe m (.hardware n) = some m' → ¬ Stopped m'.station →
        m'.mouse = (mousePacket n m.mouse).1 := by
  obtain ⟨st, d⟩ := m
  obtain ⟨first, hfirst⟩ : ∃ first : Station, first = { st with app := { st.app with
      port := { st.app.port with answers := n.answers } } } := ⟨_, rfl⟩
  have hrunning : ¬ Stopped first := by
    rw [hfirst]
    exact hm
  have hround : round random vbe ⟨st, d⟩ (.hardware n) =
      (branch n.timer Station.timerInterrupt first).bind fun st =>
        if st.failed then some ⟨st, d⟩
        else ((mouseBranch random vbe n (mousePacket n d).2 st).bind fun st =>
          (keyboardBranch random n st).bind (serialBranch random n)).map fun st =>
            ⟨st, (mousePacket n d).1⟩ := by
    rw [hfirst]
    exact if_neg hm
  have hkernel : ∀ es, runUntil (Proj.mainLoop random vbe) Stopped st (.kernel n.answers :: es) =
      runUntil (Proj.mainLoop random vbe) Stopped first es := by
    intro es
    have hstep : Proj.mainLoop random vbe st (.kernel n.answers) = some first := by
      rw [hfirst]
      exact if_neg hm
    rw [runUntil, if_neg hm, hstep, Option.bind_some]
  have hinputs : runUntil (Proj.mainLoop random vbe) Stopped st
      (n.inputs (mousePacket n d).2) =
        (((branch n.timer Station.timerInterrupt first).bind fun st =>
          runUntil (Proj.mainLoop random vbe) Stopped st
            (n.mouse.bind fun (_, enter, outside) =>
              (mousePacket n d).2.map fun packet =>
                Proj.Input.mouse packet enter outside).toList).bind fun st =>
          runUntil (Proj.mainLoop random vbe) Stopped st
            (n.keyboard.map fun (input, outside) =>
              Proj.Input.keyboard (readKBCOutput input false) outside).toList).bind fun st =>
          runUntil (Proj.mainLoop random vbe) Stopped st
            (n.serial.map Proj.Input.serial).toList := by
    rw [Interrupts.inputs, runUntil_append, runUntil_append, runUntil_append, hkernel,
      until_timer hrunning]
  have htimer : Ensures (fun st' : Station => st'.app.currAppState ≠ .endState)
      (branch n.timer Station.timerInterrupt first) := by
    cases n.timer with
    | none => exact .pure fun hend => hrunning (.inl hend)
    | some rtcIN => exact running_timerInterrupt hrunning rtcIN
  simp only at hround hinputs ⊢
  rw [hround, hinputs]
  cases hst₁ : branch n.timer Station.timerInterrupt first with
  | none => exact ⟨rfl, fun m' hm' => by cases hm'⟩
  | some st₁ =>
    have hend₁ := htimer st₁ hst₁
    simp only [Option.bind_some]
    cases hfailed : st₁.failed with
    | true =>
      have hstop : Stopped st₁ := .inr hfailed
      rw [runUntil_final hstop, Option.bind_some, runUntil_final hstop, Option.bind_some,
        runUntil_final hstop]
      refine ⟨rfl, fun m' hm' hrun => ?_⟩
      cases hm'
      exact absurd hstop hrun
    | false =>
      have hrun₁ : ¬ Stopped st₁ := by
        rintro (h | h)
        · exact hend₁ h
        · cases hfailed.symm.trans h
      rw [until_mouse hrun₁, if_neg Bool.false_ne_true]
      refine ⟨?_, fun m' hm' _ => ?_⟩
      swap
      · obtain ⟨_, -, rfl⟩ := Option.map_eq_some_iff.mp hm'
        rfl
      have hsame : (Machine.station ∘ fun st : Station => (⟨st, (mousePacket n d).1⟩ : Machine)) =
          id := rfl
      rw [Option.map_map, hsame, Option.map_id, id]
      cases hst₂ : mouseBranch random vbe n (mousePacket n d).2 st₁ with
      | none => rfl
      | some st₂ =>
        have hrun₂ := running_mouseBranch hrun₁ n _ st₂ hst₂
        have hfailed₂ : st₂.failed = false := by
          cases h : st₂.failed with
          | false => rfl
          | true => exact absurd (.inr h) hrun₂
        rw [Option.bind_some, Option.bind_some, until_keyboard hrun₂]
        cases hst₃ : keyboardBranch random n st₂ with
        | none => rfl
        | some st₃ => exact (until_serial (failed_keyboardBranch hfailed₂ n st₃ hst₃) n).symm

theorem until_rounds (m : Machine) (messages : List Message) :
    (runUntil (round random vbe) (fun m => Stopped m.station) m messages).map Machine.station =
      runUntil (Proj.mainLoop random vbe) Stopped m.station (inputs m.mouse messages) := by
  induction messages generalizing m with
  | nil => rfl
  | cons message messages ih =>
    by_cases hm : Stopped m.station
    · have hsame : runUntil (round random vbe) (fun m => Stopped m.station) m
          (message :: messages) = some m := if_pos hm
      rw [hsame, runUntil_final hm]
      rfl
    rw [runUntil, if_neg hm]
    cases message with
    | failed | foreign =>
      have hround : ∀ message, message = .failed ∨ message = .foreign →
          round random vbe m message = some m := by
        rintro message (rfl | rfl)
        · exact if_neg hm
        · exact if_neg hm
      rw [hround _ (by simp), Option.bind_some]
      exact ih m
    | hardware n =>
      obtain ⟨hstation, hmouse⟩ := @round_until random vbe m hm n
      rw [inputs, runUntil_append, ← hstation]
      cases hround : round random vbe m (.hardware n) with
      | none => rfl
      | some m' =>
        rw [Option.bind_some, Option.map_some, Option.bind_some, ih m']
        by_cases hm' : Stopped m'.station
        · rw [runUntil_final hm', runUntil_final hm']
        · rw [hmouse m' hround hm']

end Refinement

section Runs

variable {random : UInt32 → Nat → Nat} {vbe : MinixMode → ModeInfo}

def CleanMessage : Message → Prop
  | .hardware n => ∀ mouse ∈ n.mouse, ∀ i, Clean (mouse.2.2 i).platform
  | _ => True

theorem clean_inputs {messages : List Message} (hclean : ∀ message ∈ messages, CleanMessage message)
    (d : Driver) : ∀ e ∈ inputs d messages, CleanInput e := by
  induction messages generalizing d with
  | nil => simp [inputs]
  | cons message messages ih =>
    have hrest := ih fun message hmem => hclean message (List.mem_cons_of_mem _ hmem)
    cases message with
    | failed | foreign => exact hrest d
    | hardware n =>
      intro e he
      obtain he | he := List.mem_append.mp he
      · have hmouse : ∀ mouse ∈ n.mouse, ∀ i, Clean (mouse.2.2 i).platform :=
          hclean _ List.mem_cons_self
        cases e with
        | mouse packet enter outside =>
          simp only [Interrupts.inputs, List.mem_append, List.mem_cons, Option.mem_toList,
            Option.map_eq_some_iff, Option.bind_eq_some_iff] at he
          obtain (((h | ⟨_, _, h⟩) | ⟨mouse, hmem, packet', _, h⟩) | ⟨_, _, h⟩) | ⟨_, _, h⟩ := he
          · cases h
          · cases h
          · cases h
            exact hmouse mouse hmem
          · cases h
          · cases h
        | _ => trivial
      · exact hrest _ e he

/-- The program proper: whatever it is notified of, with how many interrupts at once, it goes on
until it is left and draws every frame, and it is in a state to which the same interrupts lead it
one by one. -/
theorem notified_until_end (hs : Supported vbe) {file : List UInt8} {old d : Dictionary}
    (hload : loadDictionary (some file) old = some (d, false)) (hne : file ≠ [])
    (hfile : file.length < 2 ^ 27) (hwords : ∀ w ∈ wordsOf d, Short w)
    (hrandom : ∀ seed i, random seed i < Ending.firstTooFar) (clock : Clock)
    (outside : Surroundings) {messages : List Message}
    (hclean : ∀ message ∈ messages, CleanMessage message) :
    ∃ st m, Proj.startUp vbe (wordsOf d) clock outside = some st ∧
      runUntil (round random vbe) (fun m => Stopped m.station) ⟨st, {}⟩ messages = some m ∧
      m.station.failed = false ∧ ∃ es, es <+: inputs {} messages ∧
        run (Proj.mainLoop random vbe) st es = some m.station ∧
        (m.station.app.currAppState ≠ .endState → es = inputs {} messages) := by
  obtain ⟨st, hst, hproceeds, hfine⟩ := @proj_runs_until_end random vbe file old d hload hne hfile
    hwords hrandom hs clock outside (inputs {} messages) (clean_inputs hclean {})
  have hstopped : Proceeds (Proj.mainLoop random vbe) Stopped st (inputs {} messages) :=
    hproceeds.mono fun _ hend => .inl hend
  obtain ⟨st', hst'⟩ := hstopped.until
  have hrounds := @until_rounds random vbe ⟨st, {}⟩ messages
  simp only at hrounds
  rw [hst'] at hrounds
  obtain ⟨m, hm, rfl⟩ := Option.map_eq_some_iff.mp hrounds
  obtain ⟨es, hes, hrun, hall⟩ := runUntil_prefix hst'
  have hfailed := hfine es hes _ hrun
  refine ⟨st, m, hst, hm, hfailed, es, hes, hrun, fun hend => hall.resolve_right ?_⟩
  rintro (h | h)
  · exact hend h
  · cases hfailed.symm.trans h

/-- The first notification has the interrupts of the timer and the keyboard, and a byte of the mouse
comes where one of the keyboard is expected. -/
def twoInterrupts : Interrupts where
  timer := some fun _ => none
  keyboard := some (⟨fun _ => some (fullOutBuffer ||| mouseBit), some breakEsc⟩, {})

theorem notified_until_end_letter : ∃ d st m,
    Proj.startUp trueColor (wordsOf d) {} {} = some st ∧
      runUntil (round (fun _ _ => 0) trueColor) (fun m => Stopped m.station) ⟨st, {}⟩
        [.failed, .hardware twoInterrupts] = some m ∧
      m.station.failed = false ∧ ∃ es, es <+: inputs {} [.failed, .hardware twoInterrupts] ∧
        run (Proj.mainLoop (fun _ _ => 0) trueColor) st es = some m.station ∧
        (m.station.app.currAppState ≠ .endState →
          es = inputs {} [.failed, .hardware twoInterrupts]) := by
  obtain ⟨d, hload, hwords⟩ := letter_loaded
  exact ⟨d, notified_until_end supported_trueColor hload (by decide) (by decide) hwords
    (fun _ _ => by decide) {} {} (by simp [CleanMessage, twoInterrupts])⟩

end Runs

end WriteWise.Notification
