import WriteWise.Library.Signal
import WriteWise.MouseUpdate

namespace WriteWise.Clicks

open Library.Runs Library.Signal Graphics Mouse Typing Program Video Ui Application MouseUpdate

def leftButton (e : Input) : Option Bool := e.packet.map Packet.lb

/-- A packet releases the left button where it has gone down, and a button of the screen is
there. -/
def Releases (d : Desk) (e : Input) : Prop :=
  match e.packet with
  | none => False
  | some packet => (d.ui.moveCursor packet).ValidClick packet ∧
    ∃ i, (d.ui.moveCursor packet).clicked i ≠ none

instance (d : Desk) (e : Input) : Decidable (Releases d e) := by
  unfold Releases
  split <;> infer_instance

/-- Such a packet finds the screen on which the left button has gone down. -/
def Fresh (d : Desk) (e : Input) : Prop := Releases d e → d.pressScreen = d.app.currAppState

instance (d : Desk) (e : Input) : Decidable (Fresh d e) := inferInstanceAs (Decidable (_ → _))

variable (random : UInt32 → Nat → Nat) (vbe : MinixMode → ModeInfo) (s : Desk)

/-- With the last of the events the left button goes up, and the screen of the callback has been
shown from the packet on with which it has gone down. -/
def Stays (es : List Input) (c : Callback) : Prop :=
  ∃ before press held release, es = before ++ press :: held ++ [release] ∧
    Rise leftButton before press held ∧ level leftButton es = false ∧
    During (mainLoop random vbe) s before (press :: held) fun d => d.app.currAppState = c.screen

/-- Where the left button has gone down, and what has been shown since. -/
def Held (es : List Input) (d : Desk) : Prop :=
  ∃ before press held, es = before ++ press :: held ∧ Rise leftButton before press held ∧
    (∀ u, run (mainLoop random vbe) s before = some u → u.app.currAppState = d.pressScreen) ∧
    (During (mainLoop random vbe) s before (press :: held)
        (fun u => u.app.currAppState = d.pressScreen) ∨
      d.app.currAppState = .endState ∨
      d.app.currAppState = .mainState ∧ d.pressScreen ≠ .mainState)

/-- What a run knows about the left button. -/
structure Tracks (es : List Input) (d : Desk) : Prop where
  reached : run (mainLoop random vbe) s es = some d
  left : d.ui.moreMouseInfo.leftPressed = level leftButton es
  placed : d.app.currAppState ≠ .endState → Placed d.app.currAppState d.ui
  idle : d.app.currAppState = .startState → d.ui.moreMouseInfo.leftPressed = false
  held : d.ui.moreMouseInfo.leftPressed = true → Held random vbe s es d

variable {random} {vbe} {s} {d next : Desk} {es : List Input} {e : Input}

theorem not_end (h : mainLoop random vbe d e = some next) : d.app.currAppState ≠ .endState := by
  intro hend
  unfold mainLoop at h
  rw [if_pos hend] at h
  cases h

/-- A round with a packet: which callbacks are called, and what is noted. -/
structure Pointed (d : Desk) (packet : Packet) (next : Desk) : Prop where
  left : next.ui.moreMouseInfo.leftPressed = packet.lb
  press : next.pressScreen = (d.notePress packet).pressScreen
  placed : Placed next.app.currAppState next.ui
  down : packet.lb = true → d.app.currAppState ≠ .startState ∧
    next.app.currAppState = d.app.currAppState ∨ d.app.currAppState = .startState ∧
      next.app.currAppState = .mainState
  invoked : ∀ c ∈ next.invoked, c.screen = d.app.currAppState
  called : next.invoked = [] ↔ ¬ ((d.ui.moveCursor packet).ValidClick packet ∧
    ∃ i, (d.ui.moveCursor packet).clicked i ≠ none)
  last : ∀ as c bs, next.invoked = as ++ c :: bs → c.loads ≠ none → bs = []

theorem not_valid {packet : Packet} {ui : UiState Callback}
    (h : ui.moreMouseInfo.leftPressed = false ∨ packet.lb = true) :
    ¬ (ui.moveCursor packet).ValidClick packet := by
  rintro ⟨⟨hleft, hlb⟩, -⟩
  obtain h | h := h
  · cases h.symm.trans hleft
  · cases h.symm.trans hlb

theorem packet_mouse {packet : Packet} (he : e.packet = some packet) :
    ∃ enter answers, e = .mouse packet enter answers := by
  cases e with
  | mouse p enter answers =>
    cases he
    exact ⟨enter, answers, rfl⟩
  | _ => cases he

theorem pointed {packet : Packet} (hplaced : Placed d.app.currAppState d.ui)
    (hidle : d.app.currAppState = .startState → d.ui.moreMouseInfo.leftPressed = false)
    (he : e.packet = some packet) (h : mainLoop random vbe d e = some next) :
    Pointed d packet next := by
  obtain ⟨enter, answers, rfl⟩ := packet_mouse he
  obtain ⟨u, hentered, h⟩ := mouseInterrupt_entered (mainLoop_mouse h)
  obtain ⟨v, cs, hcs, hnone, rfl⟩ := mouseUpdate_clicked (hentered.placed hplaced) h
  have hplaced' := hcs.placed (hentered.placed hplaced)
  obtain ⟨hinvoked, hpress⟩ := hcs.invoked
  obtain ⟨hui, hpress', hinvoked'⟩ := hentered.info
  have hcs' : v.invoked = cs := by
    rw [hinvoked, hinvoked']
    rfl
  have hdown (hlb : packet.lb = true) : v.app.currAppState = u.app.currAppState := by
    obtain rfl := hnone.mpr fun hv => not_valid (.inr hlb) hv.1
    cases hcs
    rfl
  have hstart (hs : d.app.currAppState = .startState) : v.invoked = [] ∧
      v.app.currAppState = u.app.currAppState := by
    have hleft : u.ui.moreMouseInfo.leftPressed = false := by
      rw [hui]
      exact hidle hs
    obtain rfl := hnone.mpr fun hv => not_valid (.inl hleft) hv.1
    cases hcs
    exact ⟨hcs', rfl⟩
  have hlast : ∀ as c bs, v.invoked = as ++ c :: bs → c.loads ≠ none → bs = [] :=
    fun as c bs hv hc => hcs.ends (hcs'.symm.trans hv) hc
  cases hentered with
  | stays hstay =>
    refine ⟨rfl, hpress.trans hpress', hplaced', fun hlb => ?_, ?_, ?_, hlast⟩
    · exact .inl ⟨fun hs => hstay ⟨hs, .inl hlb⟩, hdown hlb⟩
    · intro c hc
      exact hcs.screen c (hcs' ▸ hc)
    · rw [← hcs'] at hnone
      exact hnone
  | enters hs does hmain =>
    obtain ⟨hnil, hv⟩ := hstart hs
    refine ⟨rfl, hpress.trans hpress', hplaced', fun _ => .inr ⟨hs, hv.trans hmain⟩, ?_, ?_, hlast⟩
    · rw [hnil]
      exact fun c hc => absurd hc List.not_mem_nil
    · exact ⟨fun _ hvalid => not_valid (.inl (hidle hs)) hvalid.1, fun _ => hnil⟩

theorem Held.concat (h : Held random vbe s es d)
    (hreached : run (mainLoop random vbe) s es = some d)
    (he : mainLoop random vbe d e = some next) (hlevel : level leftButton (es ++ [e]) = true)
    (hpress : next.pressScreen = d.pressScreen)
    (hturn : next.app.currAppState = d.app.currAppState ∨ next.app.currAppState = .endState ∨
      next.app.currAppState = .mainState ∧ d.app.currAppState ≠ .mainState) :
    Held random vbe s (es ++ [e]) next := by
  obtain ⟨before, press, held, rfl, hrise, hfound, hshown⟩ := h
  have hrun : run (mainLoop random vbe) s (before ++ press :: held ++ [e]) = some next :=
    run_snoc hreached he
  refine ⟨before, press, held ++ [e], by simp, hrise.concat hlevel, ?_, ?_⟩
  · rw [hpress]
    exact hfound
  rw [hpress]
  obtain hshown | hend | ⟨hmain, hne⟩ := hshown
  · obtain hsame | hends | ⟨hhome, hother⟩ := hturn
    · exact .inl (hshown.concat hrun (hsame.trans (hshown.last hreached)))
    · exact .inr (.inl hends)
    · exact .inr (.inr ⟨hhome, fun hm => hother ((hshown.last hreached).trans hm)⟩)
  · exact absurd hend (not_end he)
  · obtain hsame | hends | ⟨-, hother⟩ := hturn
    · exact .inr (.inr ⟨hsame.trans hmain, hne⟩)
    · exact .inr (.inl hends)
    · exact absurd hmain hother

theorem Held.start (hreached : run (mainLoop random vbe) s es = some d)
    (he : mainLoop random vbe d e = some next) (hlow : level leftButton es = false)
    (hdown : leftButton e = some true) (hpress : next.pressScreen = d.app.currAppState)
    (hturn : next.app.currAppState = d.app.currAppState ∨ d.app.currAppState = .startState ∧
      next.app.currAppState = .mainState) : Held random vbe s (es ++ [e]) next := by
  have hrun : run (mainLoop random vbe) s (es ++ [e]) = some next :=
    run_snoc hreached he
  refine ⟨es, e, [], rfl, .start hlow hdown, fun u hu => ?_, ?_⟩
  · obtain rfl := Option.some.inj (hreached.symm.trans hu)
    exact hpress.symm
  rw [hpress]
  obtain hsame | ⟨hs, hmain⟩ := hturn
  · have hfirst : During (mainLoop random vbe) s es []
        fun u => u.app.currAppState = d.app.currAppState := .start hreached rfl
    refine .inl (hfirst.concat (t := next) ?_ hsame)
    rwa [List.append_nil]
  · exact .inr (.inr ⟨hmain, by rw [hs]; decide⟩)

theorem Tracks.other (h : Tracks random vbe s es d) (hp : e.packet = none)
    (he : mainLoop random vbe d e = some next) : Tracks random vbe s (es ++ [e]) next := by
  obtain ⟨hturn, hpress, -⟩ := mainLoop_turn hp he
  have hlevel : level leftButton (es ++ [e]) = level leftButton es := by
    rw [level_concat, leftButton, hp]
    rfl
  have hinfo : next.ui.moreMouseInfo = d.ui.moreMouseInfo := by
    rw [hturn.ui]
  have hleft : next.ui.moreMouseInfo.leftPressed = level leftButton (es ++ [e]) := by
    rw [hinfo, hlevel]
    exact h.left
  refine ⟨run_snoc h.reached he, hleft, hturn.placed (h.placed (not_end he)), fun hs => ?_,
    fun hl => ?_⟩
  · rw [hinfo]
    cases hturn with
    | stays ui screen => exact h.idle (screen.symm.trans hs)
    | ends ui main screen => cases screen.symm.trans hs
    | home ui other screen => cases screen.symm.trans hs
  · refine (h.held (hinfo ▸ hl)).concat h.reached he (hleft.symm.trans hl) hpress ?_
    cases hturn with
    | stays ui screen => exact .inl screen
    | ends ui main screen => exact .inr (.inl screen)
    | home ui other screen => exact .inr (.inr ⟨screen, other⟩)

theorem Tracks.mouse (h : Tracks random vbe s es d) {packet : Packet}
    (hp : e.packet = some packet) (he : mainLoop random vbe d e = some next) :
    Tracks random vbe s (es ++ [e]) next := by
  have hpoint := pointed (h.placed (not_end he)) h.idle hp he
  have hlevel : level leftButton (es ++ [e]) = packet.lb := by
    rw [level_concat, leftButton, hp]
    rfl
  refine ⟨run_snoc h.reached he, hpoint.left.trans hlevel.symm, fun _ => hpoint.placed,
    fun hs => ?_, fun hl => ?_⟩
  · rw [hpoint.left]
    cases hlb : packet.lb with
    | false => rfl
    | true =>
      obtain ⟨hne, hsame⟩ | ⟨-, hmain⟩ := hpoint.down hlb
      · exact absurd (hsame.symm.trans hs) hne
      · cases hmain.symm.trans hs
  · have hlb : packet.lb = true := hpoint.left.symm.trans hl
    cases hold : d.ui.moreMouseInfo.leftPressed with
    | false =>
      have hpress : next.pressScreen = d.app.currAppState :=
        hpoint.press.trans (if_pos ⟨hold, hlb⟩)
      have hdown : leftButton e = some true := by
        rw [leftButton, hp, Option.map_some, hlb]
      exact .start h.reached he (h.left.symm.trans hold) hdown hpress
        ((hpoint.down hlb).imp_left And.right)
    | true =>
      have hpress : next.pressScreen = d.pressScreen :=
        hpoint.press.trans (if_neg fun hc => by cases hold.symm.trans hc.1)
      refine (h.held hold).concat h.reached he (hlevel.trans hlb) hpress ?_
      obtain ⟨-, hsame⟩ | ⟨hs, -⟩ := hpoint.down hlb
      · exact .inl hsame
      · cases hold.symm.trans (h.idle hs)

theorem Tracks.concat (h : Tracks random vbe s es d) (he : mainLoop random vbe d e = some next) :
    Tracks random vbe s (es ++ [e]) next := by
  cases hp : e.packet with
  | none => exact h.other hp he
  | some packet => exact h.mouse hp he

theorem tracks_startUp (dictionary : List Word) :
    Tracks random vbe (startUp vbe dictionary) [] (startUp vbe dictionary) := by
  refine ⟨rfl, ?_, fun _ => placed_loadScreen _ _, fun _ => ?_, fun h => ?_⟩
  · rw [startUp, loadScreen_ui]
    rfl
  · rw [startUp, loadScreen_ui]
    rfl
  · rw [startUp, loadScreen_ui] at h
    cases h

theorem reachable_tracks {dictionary : List Word}
    (h : run (mainLoop random vbe) (startUp vbe dictionary) es = some d) :
    Tracks random vbe (startUp vbe dictionary) es d :=
  history (fun _ _ _ _ ht he => ht.concat he) (tracks_startUp dictionary) h

theorem releases_iff {packet : Packet} (he : e.packet = some packet) :
    Releases d e ↔ (d.ui.moveCursor packet).ValidClick packet ∧
      ∃ i, (d.ui.moveCursor packet).clicked i ≠ none := by
  unfold Releases
  rw [he]

theorem Tracks.called (h : Tracks random vbe s es d) {packet : Packet}
    (hp : e.packet = some packet) (he : mainLoop random vbe d e = some next) :
    next.invoked ≠ [] ↔ Releases d e := by
  rw [Ne, (pointed (h.placed (not_end he)) h.idle hp he).called, not_not, releases_iff hp]

/-- The left button has gone down only once, so the screen of the press is the one that is noted. -/
theorem Tracks.fresh_of_stays (h : Tracks random vbe s es d) {packet : Packet}
    (hp : e.packet = some packet) (he : mainLoop random vbe d e = some next)
    (hstays : ∀ c ∈ next.invoked, Stays random vbe s (es ++ [e]) c) : Fresh d e := by
  intro hr
  obtain ⟨c, hc⟩ := List.exists_mem_of_ne_nil _ ((h.called hp he).mpr hr)
  obtain ⟨before, press, held, release, hes, hrise, -, hshown⟩ := hstays c hc
  obtain ⟨before', press', held', hes', hrise', hfound, -⟩ :=
    h.held ((releases_iff hp).mp hr).1.1.1
  have hsplit := (List.append_inj' hes rfl).1
  obtain ⟨rfl, -, -⟩ := hrise.unique hrise' (hsplit.symm.trans hes')
  obtain ⟨u, hu⟩ := run_prefix h.reached ⟨_, hes'.symm⟩
  have hscreen := (pointed (h.placed (not_end he)) h.idle hp he).invoked c hc
  exact (hfound u hu).symm.trans ((hshown.first hu).trans hscreen)

/-- There is no way back to the screen of the press while the left button is down. -/
theorem Tracks.stays_of_fresh (h : Tracks random vbe s es d) {packet : Packet}
    (hp : e.packet = some packet) (he : mainLoop random vbe d e = some next) (hfresh : Fresh d e) :
    ∀ c ∈ next.invoked, Stays random vbe s (es ++ [e]) c := by
  intro c hc
  have hr := (h.called hp he).mp (List.ne_nil_of_mem hc)
  have hsame := hfresh hr
  obtain ⟨⟨hleft, hlb⟩, -⟩ := ((releases_iff hp).mp hr).1
  obtain ⟨before, press, held, hes, hrise, -, hshown⟩ := h.held hleft
  have hlevel : level leftButton (es ++ [e]) = false := by
    rw [level_concat, leftButton, hp, Option.map_some, hlb]
    rfl
  refine ⟨before, press, held, e, by rw [hes], hrise, hlevel, ?_⟩
  rw [(pointed (h.placed (not_end he)) h.idle hp he).invoked c hc, ← hsame]
  obtain hshown | hend | ⟨hmain, hne⟩ := hshown
  · exact hshown
  · exact absurd hend (not_end he)
  · exact absurd (hsame.trans hmain) hne

theorem Tracks.stays_iff (h : Tracks random vbe s es d) (he : mainLoop random vbe d e = some next) :
    (∀ c ∈ next.invoked, Stays random vbe s (es ++ [e]) c) ↔ Fresh d e := by
  cases hp : e.packet with
  | none =>
    have hnil := (mainLoop_turn hp he).2.2
    rw [hnil]
    refine ⟨fun _ hr => ?_, fun _ c hc => absurd hc List.not_mem_nil⟩
    unfold Releases at hr
    rw [hp] at hr
    exact hr.elim
  | some packet => exact ⟨h.fresh_of_stays hp he, h.stays_of_fresh hp he⟩

theorem Tracks.last (h : Tracks random vbe s es d) (he : mainLoop random vbe d e = some next)
    {as bs : List Callback} {c : Callback} (hinvoked : next.invoked = as ++ c :: bs)
    (hloads : c.loads ≠ none) : bs = [] := by
  cases hp : e.packet with
  | none =>
    have hnil := (mainLoop_turn hp he).2.2
    rw [hnil] at hinvoked
    simp at hinvoked
  | some packet =>
    exact (pointed (h.placed (not_end he)) h.idle hp he).last as c bs hinvoked hloads

/-- In a run the callbacks stay on the screen that was shown while the left button was down
exactly if each release that clicks finds the screen of its press. Nothing is ever called behind a
callback that loads a screen. -/
theorem clicks_stay_iff (random : UInt32 → Nat → Nat) (vbe : MinixMode → ModeInfo)
    (dictionary : List Word) {es : List Input} {last : Desk}
    (h : run (mainLoop random vbe) (startUp vbe dictionary) es = some last) :
    ((∀ earlier, earlier <+: es → ∀ d,
        run (mainLoop random vbe) (startUp vbe dictionary) earlier = some d →
          ∀ c ∈ d.invoked, Stays random vbe (startUp vbe dictionary) earlier c) ↔
      Guarded (mainLoop random vbe) Fresh (startUp vbe dictionary) es) ∧
    ∀ earlier, earlier <+: es → ∀ d,
      run (mainLoop random vbe) (startUp vbe dictionary) earlier = some d →
        ∀ as c bs, d.invoked = as ++ c :: bs → c.loads ≠ none → bs = [] := by
  refine ⟨?_, fun earlier hes d hd as c bs hinvoked hloads => ?_⟩
  · rw [guarded_iff]
    refine ⟨fun hstays fs e hfs t ht => ?_, fun hfresh earlier hes d hd => ?_⟩
    · obtain ⟨u, hu⟩ := run_prefix h hfs
      obtain ⟨t', ht', he⟩ := run_concat_some hu
      obtain rfl := Option.some.inj (ht.symm.trans ht')
      exact ((reachable_tracks ht).stays_iff he).mp (hstays _ hfs u hu)
    · cases earlier using List.reverseRecOn with
      | nil =>
        cases hd
        exact fun c hc => absurd hc List.not_mem_nil
      | append_singleton fs e =>
        obtain ⟨t, ht, he⟩ := run_concat_some hd
        exact ((reachable_tracks ht).stays_iff he).mpr (hfresh fs e hes t ht)
  · cases earlier using List.reverseRecOn with
    | nil =>
      cases hd
      simp [startUp, Desk.loadScreen] at hinvoked
    | append_singleton fs e =>
      obtain ⟨t, ht, he⟩ := run_concat_some hd
      exact (reachable_tracks ht).last he hinvoked hloads

/-- The right button leaves the start screen, and the left one goes down on a button. -/
def rightThenLeft : List Input :=
  [.mouse { rb := true } {} fun _ => {},
    .mouse { lb := true, deltaX := 100, deltaY := -180 } {} fun _ => {},
    .mouse {} {} fun _ => {}]

theorem clicks_stay_iff_main : ∃ d,
    run (mainLoop (fun _ _ => 0) trueColor) (startUp trueColor []) rightThenLeft = some d ∧
      d.invoked = [.button .mainInstructions] ∧ d.app.currAppState = .instructionsState ∧
      Stays (fun _ _ => 0) trueColor (startUp trueColor []) rightThenLeft
        (.button .mainInstructions) := by
  obtain ⟨d, hd⟩ := Option.isSome_iff_exists.mp (by decide +kernel : (run
    (mainLoop (fun _ _ => 0) trueColor) (startUp trueColor []) rightThenLeft).isSome = true)
  have hlast : ∀ d ∈ run (mainLoop (fun _ _ => 0) trueColor) (startUp trueColor []) rightThenLeft,
      d.invoked = [.button .mainInstructions] ∧ d.app.currAppState = .instructionsState := by
    decide +kernel
  obtain ⟨hinvoked, hscreen⟩ := hlast d hd
  refine ⟨d, hd, hinvoked, hscreen, ?_⟩
  exact (clicks_stay_iff (fun _ _ => 0) trueColor [] hd).1.mpr (by decide +kernel) rightThenLeft
    List.prefix_rfl d hd _ (by rw [hinvoked]; exact List.mem_singleton_self _)

/-- The left button itself leaves the start screen, at a place where the main screen has a
button. -/
def leftOnly : Input := .mouse { lb := true, deltaX := 100, deltaY := -180 } {} fun _ => {}

theorem start_press_clicks : ∃ d,
    run (mainLoop (fun _ _ => 0) trueColor) (startUp trueColor [])
      [leftOnly, .mouse {} {} fun _ => {}] = some d ∧
      ∃ c ∈ d.invoked, ¬ Stays (fun _ _ => 0) trueColor (startUp trueColor [])
        [leftOnly, .mouse {} {} fun _ => {}] c := by
  obtain ⟨d, hd⟩ := Option.isSome_iff_exists.mp (by decide +kernel : (run
    (mainLoop (fun _ _ => 0) trueColor) (startUp trueColor [])
      [leftOnly, .mouse {} {} fun _ => {}]).isSome = true)
  obtain ⟨t, ht, he⟩ : ∃ t,
      run (mainLoop (fun _ _ => 0) trueColor) (startUp trueColor []) [leftOnly] = some t ∧
        mainLoop (fun _ _ => 0) trueColor t (.mouse {} {} fun _ => {}) = some d :=
    run_concat_some hd
  have hstale : ∀ t ∈ run (mainLoop (fun _ _ => 0) trueColor) (startUp trueColor []) [leftOnly],
      ¬ Fresh t (.mouse {} {} fun _ => {}) := by
    decide +kernel
  have hcross := mt ((reachable_tracks ht).stays_iff he).mp (hstale t ht)
  push Not at hcross
  exact ⟨d, hd, hcross⟩

end WriteWise.Clicks
