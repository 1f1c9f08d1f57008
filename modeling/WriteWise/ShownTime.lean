import WriteWise.ProjRefinement

namespace WriteWise.ShownTime

open Library.Loops Library.Runs Library.Progress TextGeneration Graphics Mouse Scancode Serial Typing
  Program Video ScreenFit Ui Application Display Screens Rtc Frames Proj ProjRefinement

section Ticks

variable {random : UInt32 → Nat → Nat} {app : App} {n : Nat}

abbrev Ticks (n : Nat) : Option App → Prop := Ensures fun app => app.timerCounter = n

theorem ticks_generateText (h : app.timerCounter = n) (wordAmmount : Nat) (seed : UInt32) :
    Ticks n (app.generateText random wordAmmount seed) := by
  intro next hnext
  obtain ⟨t, -, rfl⟩ := Option.map_eq_some_iff.mp hnext
  exact h

theorem ticks_checkIfReady (h : app.timerCounter = n) : Ticks n (app.checkIfReady random) := by
  unfold App.checkIfReady
  apply Ensures.ite
  · exact fun _ => (ticks_generateText h _ _).map fun _ hs => hs
  · exact fun _ => .pure h

theorem ticks_handleAck (h : app.timerCounter = n) (byte : UInt8) :
    Ticks n (app.handleAck random byte) := by
  unfold App.handleAck
  apply Ensures.ite
  · intro _
    refine Ensures.map (P := fun app => App.timerCounter app = n) ?_ fun _ hs => hs
    apply Ensures.ite
    · exact fun _ => .pure h
    intro _
    apply Ensures.ite
    · exact fun _ => ticks_checkIfReady h
    intro _
    apply Ensures.ite
    · exact fun _ => .pure h
    · exact fun _ => .pure h
  · exact fun _ => .pure h

theorem ticks_handleControl (h : app.timerCounter = n) (byte : UInt8) :
    Ticks n (app.handleControl random byte) := by
  have hwon : (app.handleWon byte).timerCounter = n := by
    unfold App.handleWon
    split
    · exact h
    · exact h
  have hexit : ((app.handleWon byte).handleExit byte).timerCounter = n := by
    unfold App.handleExit
    split
    · exact hwon
    · exact hwon
  unfold App.handleControl
  apply Ensures.ite
  · exact fun _ => .pure h
  intro _
  apply Ensures.ite
  · exact fun _ => .pure h
  · exact fun _ => ticks_handleAck hexit byte

theorem ticks_handleMessage (h : app.timerCounter = n) (m : Message) :
    Ticks n (app.handleMessage random m) := by
  cases m with
  | ulong receivedULong =>
    refine Ensures.map (P := fun app => App.timerCounter app = n) ?_ fun _ hs => hs
    apply Ensures.ite
    · intro _
      have hseed : App.timerCounter { app with
          racingInfo := { app.racingInfo with seedYou := receivedULong } } = n := h
      exact (ticks_checkIfReady hseed).map fun _ hs => hs
    · exact fun _ => .pure h
  | control byte => exact ticks_handleControl h byte
  | _ => exact .pure h

theorem ticks_serialInterrupt (h : app.timerCounter = n) (input : UartInput) :
    Ticks n (app.serialInterrupt random input) := by
  unfold App.serialInterrupt
  apply Ensures.ite
  · exact fun _ => .pure h
  · intro _
    have hport : App.timerCounter { app with
        port := { app.port with decoder := (serialSwitch input app.port.decoder).1 } } = n := h
    simp only
    split
    · exact .pure hport
    · exact ticks_handleMessage hport _

theorem ticks_changeState (h : app.timerCounter = n) (newState : AppState) (now : UInt64) :
    Ticks n (app.changeState random newState now) := by
  have hexit : (if app.currAppState = .raceState then app.call serialPortSendExit
      else app).timerCounter = n := by
    split
    · exact h
    · exact h
  have hscreen : App.timerCounter { (if app.currAppState = .raceState then
      app.call serialPortSendExit else app) with currAppState := newState } = n := hexit
  unfold App.changeState
  cases newState with
  | trainingState => exact ticks_generateText hscreen _ _
  | _ => exact .pure hexit

theorem ticks_typingInputHandler (h : app.timerCounter = n) (isRace : Bool) :
    Ticks n (app.typingInputHandler isRace) := by
  have hstart : (if !isRace ∧ app.typingInfo.status = .ready then app.startTyping
      else app).timerCounter = n := by
    split
    · exact h
    · exact h
  unfold App.typingInputHandler
  simp only
  generalize (if !isRace ∧ app.typingInfo.status = .ready then app.startTyping else app) = started
    at hstart
  apply Ensures.ite
  · intro _
    apply Ensures.ite
    · intro _ next hnext
      obtain ⟨t, -, rfl⟩ := Option.map_eq_some_iff.mp hnext
      exact hstart
    intro _
    apply Ensures.ite
    · intro _ next hnext
      obtain ⟨t, -, rfl⟩ := Option.map_eq_some_iff.mp hnext
      split
      · split
        · exact hstart
        · exact hstart
      · exact hstart
    · exact fun _ => .pure hstart
  · exact fun _ => .pure hstart

theorem ticks_raceReadyButton (h : app.timerCounter = n) (now : UInt64) :
    (app.raceReadyButton now).timerCounter = n := by
  unfold App.raceReadyButton
  split
  · split
    · exact h
    · exact h
  · exact h

theorem ticks_raceResetButton (h : app.timerCounter = n) :
    app.raceResetButton.timerCounter = n := by
  unfold App.raceResetButton
  split
  · exact h
  · exact h

end Ticks

section Clock

variable {random : UInt32 → Nat → Nat} {vbe : MinixMode → ModeInfo} {outside : Surroundings}
  {st : Station} {clock : Clock} {n : Nat}

def told (st : Station) : Clock × Nat := (st.clock, st.app.timerCounter)

abbrev Tells (t : Clock × Nat) : Option Station → Prop := Ensures fun st => told st = t

theorem told_withApp {t : Clock × Nat} (ht : told st = t) {app : App}
    (h : app.timerCounter = st.app.timerCounter) : told { st with app := app } = t := by
  rw [← ht, told, told, h]

theorem tells_map {t : Clock × Nat} (ht : told st = t) {r : Option App}
    (h : Ticks st.app.timerCounter r) : Tells t (r.map fun app => { st with app := app }) :=
  h.map fun _ hs => told_withApp ht hs

theorem told_setMinixMode (mode : MinixMode) :
    told (st.setMinixMode vbe mode outside) = told st := by
  unfold Station.setMinixMode
  simp only
  split
  · rfl
  · rfl

variable {t : Clock × Nat}

theorem told_course {st' : Station} (ht : told st = t) (h : SameCourse st st') :
    told st' = t := by
  rw [← ht, told, told, h.app, h.clock]

theorem tells_loadSettings (ht : told st = t) : Tells t st.loadSettings :=
  (load_course _).map fun _ h => told_course ht h

theorem tells_changeState (ht : told st = t) (newState : AppState) :
    Tells t (st.changeState random newState outside) := by
  have hticks : Ticks st.app.timerCounter (st.app.changeState random newState outside.now) :=
    ticks_changeState rfl newState outside.now
  refine hticks.bind fun app happ => ?_
  have htold : told { st with app := app } = t := told_withApp ht happ
  apply Ensures.ite
  · exact fun _ => .pure htold
  · exact fun _ => loadScreen_course.map fun _ h => told_course htold h

theorem tells_onClick (ht : told st = t) (c : Callback) :
    Tells t (st.onClick random vbe c outside) := by
  cases c with
  | button b =>
    cases b with
    | mainTraining => exact tells_changeState ht .trainingState
    | mainRace => exact tells_changeState ht .raceState
    | mainInstructions => exact tells_changeState ht .instructionsState
    | mainSettings => exact tells_changeState ht .settingsState
    | trainingReset => exact tells_map ht (ticks_generateText rfl 25 _)
    | raceReady => exact .pure (told_withApp ht (ticks_raceReadyButton rfl _))
    | raceReset => exact .pure (told_withApp ht (ticks_raceResetButton rfl))
  | resolution b =>
    have hmode : told (st.exitUI.setMinixMode vbe b.mode outside).initUI = t :=
      (told_setMinixMode b.mode).trans ht
    exact tells_loadSettings hmode
  | settingsButtonDarkTheme | settingsButtonLightTheme => exact tells_loadSettings ht

theorem tells_clickButtons (ht : told st = t) (outside : Fin maxAmountOfButtons → Surroundings)
    (places : List (Fin maxAmountOfButtons)) :
    Tells t (st.clickButtons random vbe outside places) := by
  induction places generalizing st with
  | nil => exact .pure ht
  | cons i rest ih =>
    rw [Station.clickButtons]
    split
    · exact ih ht
    · exact (tells_onClick ht _).bind fun _ h => ih h

theorem tells_mouseUpdate (ht : told st = t) (packet : Packet)
    (outside : Fin maxAmountOfButtons → Surroundings) :
    Tells t (st.mouseUpdate random vbe packet outside) := by
  have hmove : told { st with ui := st.ui.moveCursor packet } = t := ht
  refine Ensures.map (P := fun st => told st = t) ?_ fun _ h => h
  apply Ensures.ite
  · exact fun _ => tells_clickButtons hmove outside _
  · exact fun _ => .pure hmove

theorem tells_mouseInterrupt (ht : told st = t) (packet : Packet) (enter : Surroundings)
    (outside : Fin maxAmountOfButtons → Surroundings) :
    Tells t (st.mouseInterrupt random vbe packet enter outside) := by
  refine Ensures.bind (P := fun st => told st = t) ?_ fun _ h => tells_mouseUpdate h packet outside
  apply Ensures.ite
  · exact fun _ => tells_changeState ht .mainState
  · exact fun _ => .pure ht

theorem tells_keyboardScancodeHandler (ht : told st = t) :
    Tells t (st.keyboardScancodeHandler random outside) := by
  unfold Station.keyboardScancodeHandler
  apply Ensures.ite
  · intro _
    apply Ensures.ite
    · intro _
      split
      · exact tells_changeState ht .endState
      · exact tells_changeState ht .mainState
    · exact fun _ => .pure ht
  intro _
  apply Ensures.ite
  · exact fun _ => .pure ht
  intro _
  apply Ensures.ite
  · exact fun _ => tells_changeState ht .mainState
  intro _
  apply Ensures.ite
  · exact fun _ => tells_map ht (ticks_typingInputHandler rfl _)
  · exact fun _ => .pure ht

theorem told_mainLoop {e : Proj.Input} {st' : Station} (he : ∀ rtcIN, e ≠ .timer rtcIN)
    (h : Proj.mainLoop random vbe st e = some st') : told st' = told st := by
  suffices htells : Tells (told st) (Proj.mainLoop random vbe st e) from htells st' h
  unfold Proj.mainLoop
  apply Ensures.ite
  · exact fun _ => .none
  intro _
  cases e with
  | mouse packet enter outside => exact tells_mouseInterrupt rfl packet enter outside
  | keyboard byte outside =>
    have hkey : told { st with app := { st.app with
        keyboard := (keyboardIh byte st.app.keyboard).1 } } = told st := rfl
    apply Ensures.ite
    · exact fun _ => tells_keyboardScancodeHandler hkey
    · exact fun _ => .pure hkey
  | timer rtcIN => exact absurd rfl (he rtcIN)
  | serial input => exact tells_map rfl (ticks_serialInterrupt rfl input)
  | kernel answers => exact .pure rfl

theorem timerInterrupt_timerCounter (app : App) :
    app.timerInterrupt.timerCounter = app.timerCounter + 1 := by
  unfold App.timerInterrupt
  simp only
  split
  · exact tick_timerCounter app
  · exact tick_timerCounter app

theorem told_timer {rtcIN : Registers} {st' : Station}
    (h : Proj.mainLoop random vbe st (.timer rtcIN) = some st') :
    st'.app.timerCounter = st.app.timerCounter + 1 ∧
      if (st.app.timerCounter + 1) % frameRate = 0 then
        ∃ failed, Rtc.rtcUpdate rtcIN st.clock = some (st'.clock, failed)
      else st'.clock = st.clock := by
  unfold Proj.mainLoop at h
  split at h
  · cases h
  obtain ⟨st₁, h₁, h⟩ := Option.bind_eq_some_iff.mp h
  obtain ⟨st₂, h₂, h⟩ := Option.bind_eq_some_iff.mp h
  obtain ⟨r, h₃, rfl⟩ := Option.map_eq_some_iff.mp h
  have htold : told st₂ = told st₁ := by
    unfold Station.countdownText at h₂
    split at h₂
    · obtain ⟨_, -, rfl⟩ := Option.map_eq_some_iff.mp h₂
      rfl
    · cases h₂
      rfl
  have hdrawn : told r.1 = told st₁ := told_course htold (drawScreen_course r h₃)
  have hclock : r.1.clock = st₁.clock := congrArg Prod.fst hdrawn
  have hticks : r.1.app.timerCounter = st₁.app.timerCounter := congrArg Prod.snd hdrawn
  have hcount := timerInterrupt_timerCounter st.app
  unfold Station.rtcUpdate at h₁
  simp only [hcount] at h₁
  simp only [hclock, hticks]
  split at h₁
  · obtain ⟨c, hc, rfl⟩ := Option.map_eq_some_iff.mp h₁
    rw [if_pos ‹_›]
    exact ⟨hcount, c.2, hc⟩
  · cases h₁
    rw [if_neg ‹_›]
    exact ⟨hcount, rfl⟩

end Clock

section Runs

/-- What the registers show at each tick of a run. -/
def timers (es : List Proj.Input) : List Registers :=
  es.filterMap fun
    | .timer rtcIN => some rtcIN
    | _ => none

/-- A tick of a full second at which the clock is not updating. -/
structure ReadAt (rs : List Registers) (k : Nat) : Prop where
  pos : 0 < k
  second : k % frameRate = 0
  idle : ∃ rtcIN, rs[k - 1]? = some rtcIN ∧ rtcIsUpdating rtcIN = false

structure LastRead (rs : List Registers) (k : Nat) : Prop where
  read : k = 0 ∨ ReadAt rs k
  last : ∀ j, ReadAt rs j → j ≤ k

variable {rs : List Registers} {rtcIN : Registers} {j k : Nat}

theorem ReadAt.le (h : ReadAt rs k) : k ≤ rs.length := by
  obtain ⟨hpos, -, rtcIN, hget, -⟩ := h
  have hlt := (List.getElem?_eq_some_iff.mp hget).1
  omega

theorem ReadAt.snoc (h : ReadAt rs k) (rtcIN : Registers) : ReadAt (rs ++ [rtcIN]) k := by
  obtain ⟨hpos, hsecond, r, hget, hidle⟩ := h
  have hlt := (List.getElem?_eq_some_iff.mp hget).1
  exact ⟨hpos, hsecond, r, (List.getElem?_append_left hlt).trans hget, hidle⟩

theorem readAt_snoc_iff : ReadAt (rs ++ [rtcIN]) k ↔ ReadAt rs k ∨
    k = rs.length + 1 ∧ k % frameRate = 0 ∧ rtcIsUpdating rtcIN = false := by
  constructor
  · rintro ⟨hpos, hsecond, r, hget, hidle⟩
    by_cases hlt : k - 1 < rs.length
    · rw [List.getElem?_append_left hlt] at hget
      exact .inl ⟨hpos, hsecond, r, hget, hidle⟩
    · have hle := (List.getElem?_eq_some_iff.mp hget).1
      rw [List.length_append, List.length_singleton] at hle
      have hk : k - 1 = rs.length := by omega
      rw [hk, List.getElem?_concat_length] at hget
      cases hget
      exact .inr ⟨by omega, hsecond, hidle⟩
  · rintro (h | ⟨rfl, hsecond, hidle⟩)
    · exact h.snoc rtcIN
    · refine ⟨Nat.succ_pos _, hsecond, rtcIN, ?_, hidle⟩
      rw [Nat.add_sub_cancel, List.getElem?_concat_length]

theorem LastRead.stays (h : LastRead rs k)
    (hnot : ¬ ((rs.length + 1) % frameRate = 0 ∧ rtcIsUpdating rtcIN = false)) :
    LastRead (rs ++ [rtcIN]) k := by
  refine ⟨h.read.imp_right fun hread => hread.snoc rtcIN, fun j hj => ?_⟩
  obtain hj | ⟨rfl, hj⟩ := readAt_snoc_iff.mp hj
  · exact h.last j hj
  · exact absurd hj hnot

theorem lastRead_now (hsecond : (rs.length + 1) % frameRate = 0)
    (hidle : rtcIsUpdating rtcIN = false) : LastRead (rs ++ [rtcIN]) (rs.length + 1) := by
  refine ⟨.inr (readAt_snoc_iff.mpr (.inr ⟨rfl, hsecond, hidle⟩)), fun j hj => ?_⟩
  have hle := hj.le
  rwa [List.length_append] at hle

theorem LastRead.fresh (h : LastRead rs k) (hidle : ∀ rtcIN ∈ rs, rtcIsUpdating rtcIN = false) :
    rs.length < k + frameRate := by
  by_contra hle
  have hframe : frameRate = 60 := rfl
  have hk : k % frameRate = 0 := by
    obtain rfl | hread := h.read
    · rfl
    · exact hread.second
  have hlt : k + frameRate - 1 < rs.length := by omega
  have hsecond : (k + frameRate) % frameRate = 0 := by rw [Nat.add_mod_right, hk]
  have hnext := h.last (k + frameRate) ⟨by omega, hsecond, rs[k + frameRate - 1],
    List.getElem?_eq_getElem hlt, hidle _ (List.getElem_mem hlt)⟩
  omega

variable {random : UInt32 → Nat → Nat} {vbe : MinixMode → ModeInfo} {dictionary : List Word}
  {outside : Surroundings} {es : List Proj.Input} {clock : Clock} {regB : UInt8}
  {start : Registers} {time : Nat → RtcInfo} {st : Station}

/-- The clock reports the time of every tick. -/
def Timed (isBinary : Bool) (time : Nat → RtcInfo) (rs : List Registers) : Prop :=
  ∀ k rtcIN, rs[k]? = some rtcIN → rtcIsUpdating rtcIN = false →
    Reports isBinary (time (k + 1)) rtcIN

theorem Timed.left {isBinary : Bool} {rs' : List Registers}
    (h : Timed isBinary time (rs ++ rs')) : Timed isBinary time rs := by
  intro k rtcIN hk
  refine h k rtcIN ((List.getElem?_append_left ?_).trans hk)
  exact (List.getElem?_eq_some_iff.mp hk).1

/-- What a clock tells after every run. -/
theorem told_run (htime : ∀ k, TwoDigits (time k))
    (htimed : Timed clock.isRtcBinary time (timers es)) (hzero : clock.rtcInfo = time 0)
    {first : Station} (hfirst : told first = (clock, 0))
    (h : run (Proj.mainLoop random vbe) first es = some st) :
    st.app.timerCounter = (timers es).length ∧
      ∃ k, LastRead (timers es) k ∧ st.clock = ⟨clock.isRtcBinary, time k⟩ := by
  revert htimed
  refine history (I := fun es st => Timed clock.isRtcBinary time (timers es) →
    st.app.timerCounter = (timers es).length ∧
      ∃ k, LastRead (timers es) k ∧ st.clock = ⟨clock.isRtcBinary, time k⟩) ?_ ?_ h
  · intro fs s e s' ih he htimed
    have happend : timers (fs ++ [e]) = timers fs ++ timers [e] := List.filterMap_append
    rw [happend] at htimed ⊢
    obtain ⟨hticks, k, hk, hclock⟩ := ih htimed.left
    by_cases htimer : ∃ rtcIN, e = .timer rtcIN
    · obtain ⟨rtcIN, rfl⟩ := htimer
      obtain ⟨hticks', hread⟩ := told_timer he
      have hone : timers [Proj.Input.timer rtcIN] = [rtcIN] := rfl
      rw [hone] at htimed ⊢
      refine ⟨by rw [hticks', hticks, List.length_append, List.length_singleton], ?_⟩
      rw [hticks] at hread
      split at hread
      · rename_i hsecond
        obtain ⟨failed, hread⟩ := hread
        cases hidle : rtcIsUpdating rtcIN with
        | false =>
          have hreports := htimed (timers fs).length rtcIN List.getElem?_concat_length hidle
          rw [hclock, rtcUpdate_reports hreports (htime _) hidle] at hread
          obtain ⟨hnow, -⟩ := Prod.ext_iff.mp (Option.some.inj hread)
          exact ⟨_, lastRead_now hsecond hidle, hnow.symm⟩
        | true =>
          rw [Rtc.rtcUpdate, if_pos hidle] at hread
          obtain ⟨hsame, -⟩ := Prod.ext_iff.mp (Option.some.inj hread)
          exact ⟨k, hk.stays fun hnow => by simp [hidle] at hnow, hsame.symm.trans hclock⟩
      · rename_i hnot
        exact ⟨k, hk.stays fun hnow => hnot hnow.1, hread.trans hclock⟩
    · have htold := told_mainLoop (fun rtcIN he => htimer ⟨rtcIN, he⟩) he
      have hnone : timers [e] = [] := by
        cases e with
        | timer rtcIN => exact absurd ⟨rtcIN, rfl⟩ htimer
        | _ => rfl
      rw [hnone, List.append_nil]
      exact ⟨(congrArg Prod.snd htold).trans hticks, k, hk, (congrArg Prod.fst htold).trans hclock⟩
  · intro _
    refine ⟨congrArg Prod.snd hfirst, 0, ⟨.inl rfl, fun j hj => ?_⟩, ?_⟩
    · exact hj.le
    · rw [← hzero]
      exact congrArg Prod.fst hfirst

theorem told_startUp (h : Proj.startUp vbe dictionary clock outside = some st) :
    told st = (clock, 0) := by
  obtain ⟨r, hr, rfl⟩ := Option.map_eq_some_iff.mp h
  have hmode : told (Station.setMinixMode vbe .vbe600pDc { outside with platform := {} }
      { app := initial dictionary, clock := clock }).initUI = (clock, 0) :=
    told_setMinixMode .vbe600pDc
  have htold : told r.1 = (clock, 0) := told_course hmode (loadScreen_course r hr)
  exact htold

/-- Where the real time clock can be read, the program shows the time of the last full second, and
it can be read off the screen. -/
theorem shown_time (htime : ∀ k, TwoDigits (time k)) (hregB : start rtcRegisterB = some regB)
    (hstart : Reports (regB &&& rtcDM ≠ 0) (time 0) start)
    (hinit : rtcInit start {} = some (clock, false))
    (htimed : Timed (regB &&& rtcDM ≠ 0) time (timers es))
    (h : ((Proj.startUp vbe dictionary clock outside).bind fun st =>
      run (Proj.mainLoop random vbe) st es) = some st) :
    ∃ k, LastRead (timers es) k ∧ readTime (realTime st.scene.rtcInfo) = time k ∧
      ((∀ rtcIN ∈ timers es, rtcIsUpdating rtcIN = false) → (timers es).length < k + frameRate) := by
  have hclock : clock = ⟨decide (regB &&& rtcDM ≠ 0), time 0⟩ := by
    rw [rtcInit, hregB] at hinit
    simp only at hinit
    cases hidle : rtcIsUpdating start with
    | false =>
      rw [rtcUpdate_reports hstart (htime 0) hidle] at hinit
      obtain ⟨hread, -⟩ := Prod.ext_iff.mp (Option.some.inj hinit)
      exact hread.symm
    | true =>
      rw [Rtc.rtcUpdate, if_pos hidle] at hinit
      cases hinit
  obtain ⟨first, hfirst, hrun⟩ := Option.bind_eq_some_iff.mp h
  subst hclock
  obtain ⟨-, k, hk, hclock⟩ := told_run htime htimed rfl (told_startUp hfirst) hrun
  refine ⟨k, hk, ?_, hk.fresh⟩
  have hinfo : st.scene.rtcInfo = time k := congrArg Clock.rtcInfo hclock
  rw [hinfo]
  exact readTime_realTime (htime k)

def secondAt (k : Nat) : UInt8 := UInt8.ofNat (k / frameRate % 60)

def noon (k : Nat) : Registers := fun reg =>
  if reg = rtcRegisterA ∨ reg = rtcRegisterB then some 0
  else if reg = rtcSeconds then some (encode false (secondAt k))
  else some 18

def noonTime (k : Nat) : RtcInfo := ⟨secondAt k, 12, 12, 12, 12, 12⟩

theorem noonTime_twoDigits (k : Nat) : TwoDigits (noonTime k) := by
  have htwelve : (12 : UInt8) < 100 := by decide
  refine ⟨?_, htwelve, htwelve, htwelve, htwelve, htwelve⟩
  have hlt : k / frameRate % 60 < 60 := Nat.mod_lt _ (by decide)
  change UInt8.ofNat (k / frameRate % 60) < 100
  rw [UInt8.lt_iff_toNat_lt, UInt8.toNat_ofNat_of_lt' (hlt.trans (by decide))]
  exact hlt.trans (by decide)

theorem noon_reports (k : Nat) : Reports false (noonTime k) (noon k) := by
  have hother : ∀ {reg : UInt8}, ¬ (reg = rtcRegisterA ∨ reg = rtcRegisterB) →
      reg ≠ rtcSeconds → noon k reg = some (encode false 12) := by
    intro reg hreg hsecond
    rw [noon, if_neg hreg, if_neg hsecond]
    decide
  refine ⟨?_, hother (by decide) (by decide), hother (by decide) (by decide),
    hother (by decide) (by decide), hother (by decide) (by decide), hother (by decide) (by decide)⟩
  rw [noon, if_neg (by decide), if_pos rfl]
  rfl

def noonTicks : List Proj.Input := (List.range 90).map fun k => .timer (noon (k + 1))

theorem timed_noonTicks : Timed false noonTime (timers noonTicks) := by
  intro k rtcIN hk hidle
  have htimers : timers noonTicks = (List.range 90).map fun k => noon (k + 1) := rfl
  rw [htimers, List.getElem?_map] at hk
  obtain ⟨j, hj, rfl⟩ := Option.map_eq_some_iff.mp hk
  obtain ⟨hlt, rfl⟩ := List.getElem?_eq_some_iff.mp hj
  rw [List.getElem_range]
  exact noon_reports (k + 1)

theorem shown_time_noon : ∃ st,
    ((Proj.startUp trueColor [] ⟨false, noonTime 0⟩ {}).bind fun st =>
      run (Proj.mainLoop (fun _ _ => 0) trueColor) st noonTicks) = some st ∧
    ∃ k, LastRead (timers noonTicks) k ∧ readTime (realTime st.scene.rtcInfo) = noonTime k ∧
      ((∀ rtcIN ∈ timers noonTicks, rtcIsUpdating rtcIN = false) →
        (timers noonTicks).length < k + frameRate) := by
  have hdict : ∀ w ∈ ([] : List Word), Short w := by simp
  have hclean : ∀ e ∈ noonTicks, CleanInput e := by simp [noonTicks, CleanInput]
  have hrefines := @tracked_run (fun _ _ => 0) _ _ supported_trueColor hdict ⟨false, noonTime 0⟩ {}
    noonTicks hclean
  obtain ⟨d, hd⟩ := Option.isSome_iff_exists.mp (by decide +kernel : (run
    (Application.mainLoop (fun _ _ => 0) trueColor) (Application.startUp trueColor [])
      (noonTicks.map eraseInput)).isSome = true)
  rw [hd] at hrefines
  cases hst : (Proj.startUp trueColor [] ⟨false, noonTime 0⟩ {}).bind fun st =>
      run (Proj.mainLoop (fun _ _ => 0) trueColor) st noonTicks with
  | none =>
    rw [hst] at hrefines
    cases hrefines
  | some st =>
    exact ⟨st, rfl, @shown_time _ _ _ _ _ _ 0 (noon 0) noonTime _ noonTime_twoDigits rfl
      (noon_reports 0) rfl timed_noonTicks hst⟩

end Runs

end WriteWise.ShownTime
