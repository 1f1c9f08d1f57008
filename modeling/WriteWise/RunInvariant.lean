import WriteWise.Library.Runs
import WriteWise.Steps
import WriteWise.TypingSession

namespace WriteWise.RunInvariant

open Library.Runs Scancode Serial Typing TypingSession Program Steps

def Complete (t : TypingInfo) : Prop := t.typedChars = t.generatedTextSize ∧ t.wrongChars = 0

instance (t : TypingInfo) : Decidable (Complete t) := by
  unfold Complete
  infer_instance

/-- No counter moves by more than one, so that none has wrapped around. -/
structure CountersMove (t u : TypingInfo) : Prop where
  cursor : Nat.dist t.typingCursor u.typingCursor ≤ 1
  typedChars : Nat.dist t.typedChars u.typedChars ≤ 1
  wrong : Nat.dist t.wrongChars u.wrongChars ≤ 1
  total : Nat.dist t.totalWrongChars u.totalWrongChars ≤ 1

theorem CountersMove.refl (t : TypingInfo) : CountersMove t t := by
  constructor <;> simp

theorem dist_succ (n : Nat) {b : Nat} (hb : b ≤ 1) : Nat.dist n (n + b) ≤ 1 := by
  rw [Nat.dist_eq_sub_of_le (Nat.le_add_right n b)]
  omega

theorem ite_le_one (p : Prop) [Decidable p] : (if p then 1 else 0) ≤ 1 := by
  split <;> omega

theorem move_typeChar {t u : TypingInfo} {g s : List UInt8} {m : List Bool} {c : UInt8}
    {mark : Bool} (h : Session t g s m) (hc : u.typingCursor = t.typingCursor + 1)
    (hu : Session u g (s.set t.typingCursor c) (m.set t.typingCursor mark)) :
    CountersMove t u := by
  refine ⟨?_, ?_, ?_, ?_⟩
  · rw [hc]
    exact dist_succ _ le_rfl
  · rw [hu.typedChars, hc, h.typedChars]
    exact dist_succ _ le_rfl
  · rw [hu.wrong, hc, wrongBelow_succ, wrongBelow_set, h.wrong]
    exact dist_succ _ (ite_le_one _)
  · rw [hu.total, hc, mistakesBelow_succ, mistakesBelow_set, h.total]
    exact dist_succ _ (ite_le_one _)

theorem move_eraseChar {t u : TypingInfo} {g s : List UInt8} {m : List Bool}
    (h : Session t g s m) (hc : u.typingCursor = t.typingCursor - 1)
    (hu : Session u g (s.set (t.typingCursor - 1) 0) m) : CountersMove t u := by
  obtain h0 | hpos := Nat.eq_zero_or_pos t.typingCursor
  · refine ⟨?_, ?_, ?_, ?_⟩
    · simp [hc, h0]
    · simp [hu.typedChars, h.typedChars, hc, h0]
    · simp [hu.wrong, h.wrong, hc, h0, wrongBelow]
    · simp [hu.total, h.total, hc, h0]
  · obtain ⟨k, hk⟩ := Nat.exists_eq_succ_of_ne_zero hpos.ne'
    rw [hk, Nat.succ_sub_one] at hc hu
    refine ⟨?_, ?_, ?_, ?_⟩
    · rw [hc, hk, Nat.dist_comm]
      exact dist_succ _ le_rfl
    · rw [hu.typedChars, hc, h.typedChars, hk, Nat.dist_comm]
      exact dist_succ _ le_rfl
    · rw [hu.wrong, hc, wrongBelow_set, h.wrong, hk, wrongBelow_succ, Nat.dist_comm]
      exact dist_succ _ (ite_le_one _)
    · rw [hu.total, hc, h.total, hk, mistakesBelow_succ, Nat.dist_comm]
      exact dist_succ _ (ite_le_one _)

theorem eraseChar_incomplete {t u : TypingInfo} {g s : List UInt8} {m : List Bool}
    (h : Session t g s m) (hc : u.typingCursor = t.typingCursor - 1)
    (hu : Session u g (s.set (t.typingCursor - 1) 0) m) (hpos : 0 < t.typingCursor) :
    ¬ Complete u := by
  intro hcomp
  have hle := h.cursor
  have heq := hcomp.1
  rw [hu.typedChars, hc, hu.size] at heq
  omega

def finish (isRace : Bool) (app : App) : App :=
  if isRace then app.endTyping.endRace else app.endTyping

theorem handler_running {app : App} (hs : app.typingInfo.status = .typing) (isRace : Bool) :
    app.typingInputHandler isRace =
      if app.keyboard.scancode = backspaceScancode then
        (eraseChar app.typingInfo).map fun u => { app with typingInfo := u }
      else if app.typingInfo.typingCursor < app.typingInfo.generatedTextSize then
        (typeChar (getCharFromMakecode app.keyboard app.keyboard.scancode) app.typingInfo).map
          fun u => if Complete u then finish isRace { app with typingInfo := u }
            else { app with typingInfo := u }
      else some app := by
  have hr : ¬ ((!isRace) = true ∧ app.typingInfo.status = .ready) := by
    rw [hs]
    exact fun hr => nomatch hr.2
  unfold App.typingInputHandler
  simp only
  rw [if_neg hr]
  exact if_pos hs

/-- In a started test the handler changes the buffers by at most one key, and ends
the test exactly when that key has completed it. -/
theorem handler_typing (app : App) {g s : List UInt8} {m : List Bool}
    (hs : app.typingInfo.status = .typing) (h : Session app.typingInfo g s m) (isRace : Bool) :
    ∃ u s' m', Session u g s' m' ∧ u.status = .typing ∧ u.acc = app.typingInfo.acc ∧
      CountersMove app.typingInfo u ∧
      ((app.typingInputHandler isRace = some { app with typingInfo := u } ∧
          (u = app.typingInfo ∨ ¬ Complete u)) ∨
        (app.typingInputHandler isRace = some (finish isRace { app with typingInfo := u }) ∧
          Complete u)) := by
  rw [handler_running hs]
  by_cases hb : app.keyboard.scancode = backspaceScancode
  · obtain ⟨u, hu, hst, hacc, hc, hsess⟩ := h.eraseChar
    refine ⟨u, _, m, hsess, hst.trans hs, hacc, move_eraseChar h hc hsess, .inl ⟨?_, ?_⟩⟩
    · rw [if_pos hb, hu]
      rfl
    · obtain h0 | hpos := Nat.eq_zero_or_pos app.typingInfo.typingCursor
      · rw [Typing.eraseChar, if_pos h0] at hu
        exact .inl (Option.some.inj hu).symm
      · exact .inr (eraseChar_incomplete h hc hsess hpos)
  · rw [if_neg hb]
    by_cases hlt : app.typingInfo.typingCursor < app.typingInfo.generatedTextSize
    · rw [if_pos hlt]
      rw [h.size] at hlt
      have hu : ∃ u s' m', Session u g s' m' ∧ u.status = .typing ∧ u.acc = app.typingInfo.acc ∧
          CountersMove app.typingInfo u ∧
          Typing.typeChar (getCharFromMakecode app.keyboard app.keyboard.scancode)
            app.typingInfo = some u := by
        by_cases hc : 0 < (getCharFromMakecode app.keyboard app.keyboard.scancode).toInt8
        · obtain ⟨u, hu, hst, hacc, hcur, mark, -, hsess⟩ := h.typeChar hlt hc
          exact ⟨u, _, _, hsess, hst.trans hs, hacc, move_typeChar h hcur hsess, hu⟩
        · exact ⟨_, s, m, h, hs, rfl, .refl _, if_neg hc⟩
      obtain ⟨u, s', m', hsess, hst, hacc, hmove, hu⟩ := hu
      refine ⟨u, s', m', hsess, hst, hacc, hmove, ?_⟩
      rw [hu, Option.map_some]
      by_cases hcomp : Complete u
      · exact .inr ⟨congrArg some (if_pos hcomp), hcomp⟩
      · exact .inl ⟨congrArg some (if_neg hcomp), .inr hcomp⟩
    · rw [if_neg hlt]
      exact ⟨_, s, m, h, hs, rfl, .refl _, .inl ⟨rfl, .inl rfl⟩⟩

/-- Outside a started test only the training mode does something: it starts the test. -/
theorem handler_start {app : App} (hs : app.typingInfo.status = .ready) :
    app.typingInputHandler false = app.startTyping.typingInputHandler false := by
  have hst : app.startTyping.typingInfo.status = .typing := rfl
  simp [App.typingInputHandler, hs, hst]

theorem handler_idle {app : App} {isRace : Bool} (hs : app.typingInfo.status ≠ .typing)
    (hr : isRace = true ∨ app.typingInfo.status ≠ .ready) :
    app.typingInputHandler isRace = some app := by
  have hn : ¬ ((!isRace) = true ∧ app.typingInfo.status = .ready) := by
    rintro ⟨h1, h2⟩
    obtain rfl | hr := hr
    · cases h1
    · exact hr h2
  simp only [App.typingInputHandler, if_neg hn, if_neg hs]

@[simp] theorem finish_typingInfo (isRace : Bool) (app : App) :
    (finish isRace app).typingInfo = Typing.endTyping app.timerCounter app.typingInfo := by
  cases isRace <;> rfl

theorem countersMove_startTyping (now : Nat) {t u : TypingInfo}
    (h : CountersMove (startTyping now t) u) : CountersMove t u :=
  ⟨h.cursor, h.typedChars, h.wrong, h.total⟩

theorem handler_typing_valid {app : App} (h : Valid app.typingInfo)
    (hs : app.typingInfo.status = .typing) (isRace : Bool) :
    ∃ next, app.typingInputHandler isRace = some next ∧ Valid next.typingInfo ∧
      CountersMove app.typingInfo next.typingInfo := by
  obtain ⟨g, s, m, hsess⟩ := h.session (by rw [hs]; decide)
  obtain ⟨u, s', m', hu, hst, hacc, hmove, hr⟩ := handler_typing app hs hsess isRace
  have huv : Valid u := by
    refine ⟨fun hc => ?_, fun _ => ⟨g, s', m', hu⟩, hacc ▸ h.acc⟩
    rw [hst] at hc
    cases hc
  obtain ⟨hr, -⟩ | ⟨hr, -⟩ := hr
  · exact ⟨_, hr, huv, hmove⟩
  · refine ⟨_, hr, ?_, ?_⟩
    · rw [finish_typingInfo]
      exact huv.endTyping (by rw [hst]; decide) _
    · rw [finish_typingInfo]
      exact ⟨hmove.cursor, hmove.typedChars, hmove.wrong, hmove.total⟩

/-- On a valid state the handler never follows a null pointer or leaves a buffer. -/
theorem handler_valid (app : App) (h : Valid app.typingInfo) (isRace : Bool) :
    ∃ next, app.typingInputHandler isRace = some next ∧ Valid next.typingInfo ∧
      CountersMove app.typingInfo next.typingInfo := by
  by_cases hs : app.typingInfo.status = .typing
  · exact handler_typing_valid h hs isRace
  · by_cases hr : isRace = true ∨ app.typingInfo.status ≠ .ready
    · exact ⟨app, handler_idle hs hr, h, .refl _⟩
    · obtain ⟨hi, hready⟩ : isRace = false ∧ app.typingInfo.status = .ready := by
        simpa using hr
      subst hi
      obtain ⟨next, hn, hv, hm⟩ := handler_typing_valid
        (show Valid app.startTyping.typingInfo from h.start hready _) rfl false
      exact ⟨next, (handler_start hready).trans hn, hv, countersMove_startTyping _ hm⟩

section Calls

variable (random : UInt32 → Nat → Nat)

/-- Everything by which the program reaches `typingInfo`, in any order and on any screen. -/
inductive Call
  | event (e : Event)
  | changeState (newState : AppState) (now : UInt64)
  | generateText (wordAmmount : Nat) (seed : UInt32)
  | resetTypingInfo
  | resetRacingInfo
  | timerInterrupt
  | serialInterrupt (input : UartInput)
  | controlByte (byte : UInt8)
  | typingInputHandler (isRace : Bool) (keyboard : Keyboard)

def call (app : App) : Call → Option App
  | .event e => step random app e
  | .changeState newState now => app.changeState random newState now
  | .generateText wordAmmount seed => app.generateText random wordAmmount seed
  | .resetTypingInfo => some app.resetTypingInfo
  | .resetRacingInfo => some app.resetRacingInfo
  | .timerInterrupt => some app.timerInterrupt
  | .serialInterrupt input => app.serialInterrupt random input
  | .controlByte byte => app.handleControl random byte
  | .typingInputHandler isRace keyboard =>
    App.typingInputHandler isRace { app with keyboard := keyboard }

variable {random} {app next : App}

/-- What every function of the program keeps: a valid session and the dictionary. -/
structure Keeps (app next : App) : Prop where
  valid : Valid app.typingInfo → Valid next.typingInfo
  dictionary : next.dictionary = app.dictionary

theorem Keeps.trans {a b c : App} (hab : Keeps a b) (hbc : Keeps b c) : Keeps a c :=
  ⟨fun h => hbc.valid (hab.valid h), hbc.dictionary.trans hab.dictionary⟩

theorem Keeps.refl (app : App) : Keeps app app := ⟨id, rfl⟩

theorem Keeps.of_eq {a a' b : App} (h : Keeps a' b) (ht : a'.typingInfo = a.typingInfo)
    (hd : a'.dictionary = a.dictionary) : Keeps a b :=
  ⟨fun hv => h.valid (ht ▸ hv), h.dictionary.trans hd⟩

theorem keeps_generateText {n : Nat} {seed : UInt32}
    (hr : app.generateText random n seed = some next) : Keeps app next := by
  obtain ⟨t, ht, rfl⟩ := Option.map_eq_some_iff.mp hr
  exact ⟨fun _ => .generate ht, rfl⟩

theorem keeps_checkIfReady (hr : app.checkIfReady random = some next) : Keeps app next := by
  unfold App.checkIfReady at hr
  split at hr
  · obtain ⟨u, hu, rfl⟩ := Option.map_eq_some_iff.mp hr
    exact (keeps_generateText hu).trans ⟨id, rfl⟩
  · cases hr
    exact .refl _

theorem keeps_halfSecond (app : App) : Keeps app app.halfSecond := by
  unfold App.halfSecond
  split
  · exact ⟨fun h => h.update _, rfl⟩
  · exact .refl _

theorem keeps_countdown (app : App) : Keeps app app.countdown := by
  unfold App.countdown
  split
  · rename_i hs
    simp only
    split
    · exact ⟨fun h => h.start hs _, rfl⟩
    · exact .refl _
  · exact .refl _

theorem keeps_timerInterrupt (app : App) : Keeps app app.timerInterrupt := by
  have ht : Keeps app app.tick := by
    have hc : Keeps app { app with timerCounter := app.timerCounter + 1 } := ⟨id, rfl⟩
    unfold App.tick
    simp only
    split
    · exact hc.trans (keeps_halfSecond _)
    split
    · exact hc.trans ((keeps_halfSecond _).trans (keeps_countdown _))
    · exact hc
  unfold App.timerInterrupt
  simp only
  split
  · exact ht.trans ⟨id, rfl⟩
  · exact ht

theorem keeps_handleWon (byte : UInt8) (app : App) : Keeps app (app.handleWon byte) := by
  unfold App.handleWon
  split
  · rename_i hs
    exact ⟨fun h => h.endTyping (by rw [hs.1]; decide) _, rfl⟩
  · exact .refl _

theorem keeps_handleExit (byte : UInt8) (app : App) : Keeps app (app.handleExit byte) := by
  unfold App.handleExit
  split
  · exact ⟨fun _ => .reset, rfl⟩
  · exact .refl _

theorem keeps_handleAck {byte : UInt8} (hr : app.handleAck random byte = some next) :
    Keeps app next := by
  obtain ⟨-, rfl⟩ | ⟨-, u, hu, rfl⟩ := handleAck_step hr
  · exact .refl _
  · refine Keeps.trans (b := u) ?_ ⟨id, rfl⟩
    cases hu with
    | ack => exact .refl _
    | readyAck hc => exact (keeps_checkIfReady hc).of_eq rfl rfl
    | nreadyAck => exact ⟨id, rfl⟩
    | other => exact ⟨id, rfl⟩

theorem keeps_handleControl {byte : UInt8} (hr : app.handleControl random byte = some next) :
    Keeps app next := by
  unfold App.handleControl at hr
  split at hr
  · cases hr
    exact ⟨id, rfl⟩
  split at hr
  · cases hr
    exact ⟨id, rfl⟩
  · exact (keeps_handleWon byte app).trans ((keeps_handleExit byte _).trans (keeps_handleAck hr))

theorem keeps_handleMessage {m : Message} (hr : app.handleMessage random m = some next) :
    Keeps app next := by
  unfold App.handleMessage at hr
  split at hr
  · obtain ⟨u, hu, rfl⟩ := Option.map_eq_some_iff.mp hr
    refine Keeps.trans (b := u) ?_ ⟨id, rfl⟩
    split at hu
    · obtain ⟨v, hv, rfl⟩ := Option.map_eq_some_iff.mp hu
      refine Keeps.trans (b := v) ?_ ⟨id, rfl⟩
      exact (keeps_checkIfReady hv).of_eq rfl rfl
    · cases hu
      exact .refl _
  · exact keeps_handleControl hr
  · cases hr
    exact ⟨id, rfl⟩

theorem keeps_serialInterrupt {input : UartInput}
    (hr : app.serialInterrupt random input = some next) : Keeps app next := by
  unfold App.serialInterrupt at hr
  split at hr
  · cases hr
    exact .refl _
  simp only at hr
  split at hr
  · cases hr
    exact ⟨id, rfl⟩
  · exact (keeps_handleMessage hr).of_eq rfl rfl

theorem keeps_changeState {newState : AppState} {now : UInt64}
    (hr : app.changeState random newState now = some next) : Keeps app next := by
  unfold App.changeState at hr
  have hexit : Keeps app (if app.currAppState = .raceState then app.call serialPortSendExit
      else app) := by
    split
    · exact ⟨id, rfl⟩
    · exact .refl _
  refine hexit.trans ?_
  simp only at hr
  cases newState with
  | trainingState => exact (keeps_generateText hr).of_eq rfl rfl
  | raceState =>
    cases hr
    exact ⟨fun _ => .reset, rfl⟩
  | _ =>
    cases hr
    exact ⟨id, rfl⟩

theorem keeps_typingInputHandler {isRace : Bool}
    (hr : app.typingInputHandler isRace = some next) : Keeps app next := by
  refine ⟨fun h => ?_, ?_⟩
  · obtain ⟨u, hu, hv, -⟩ := handler_valid app h isRace
    cases hu.symm.trans hr
    exact hv
  · obtain ⟨t, rfl⟩ | ⟨-, t, rfl⟩ := handler_frame hr
    · rfl
    · rfl

theorem keeps_raceReadyButton (now : UInt64) (app : App) : Keeps app (app.raceReadyButton now) := by
  unfold App.raceReadyButton
  split
  · split
    · exact ⟨id, rfl⟩
    · exact ⟨id, rfl⟩
  · exact .refl _

theorem keeps_raceResetButton (app : App) : Keeps app app.raceResetButton := by
  unfold App.raceResetButton
  split
  · exact ⟨fun _ => .reset, rfl⟩
  · exact .refl _

theorem keeps_step {e : Event} (hr : step random app e = some next) : Keeps app next := by
  cases round_of_step hr with
  | timer does =>
    subst does
    exact keeps_timerInterrupt app
  | serial input does => exact keeps_serialInterrupt does
  | screen keyboard newState now home does => exact (keeps_changeState does).of_eq rfl rfl
  | typing byte now keyboard does => exact (keeps_typingInputHandler does).of_eq rfl rfl
  | ready now screen does =>
    subst does
    exact keeps_raceReadyButton now app
  | reset now screen does =>
    subst does
    exact keeps_raceResetButton app
  | training now screen does => exact keeps_generateText does
  | idle keyboard does =>
    subst does
    exact ⟨id, rfl⟩
  | kernel answers does =>
    subst does
    exact ⟨id, rfl⟩

theorem keeps_call {c : Call} (hr : call random app c = some next) : Keeps app next := by
  cases c with
  | event e => exact keeps_step hr
  | changeState newState now => exact keeps_changeState hr
  | generateText n seed => exact keeps_generateText hr
  | resetTypingInfo =>
    cases hr
    exact ⟨fun _ => .reset, rfl⟩
  | resetRacingInfo =>
    cases hr
    exact ⟨id, rfl⟩
  | timerInterrupt =>
    cases hr
    exact keeps_timerInterrupt app
  | serialInterrupt input => exact keeps_serialInterrupt hr
  | controlByte byte => exact keeps_handleControl hr
  | typingInputHandler isRace keyboard => exact (keeps_typingInputHandler hr).of_eq rfl rfl

theorem keeps_run {cs : List Call} (hr : run (call random) app cs = some next) :
    Keeps app next :=
  @invariant _ _ _ (fun _ _ => True) (Keeps app) (fun _ _ _ hk _ hc => hk.trans (keeps_call hc))
    _ _ _ (.refl app) (guarded_of_forall (fun _ _ _ => trivial) _) hr

theorem keeps_runEvents {es : List Event} (hr : run (step random) app es = some next) :
    Keeps app next :=
  @invariant _ _ _ (fun _ _ => True) (Keeps app) (fun _ _ _ hk _ hc => hk.trans (keeps_step hc))
    _ _ _ (.refl app) (guarded_of_forall (fun _ _ _ => trivial) _) hr

/-- A test in a reachable state has a session. -/
theorem reachable_session {dictionary : List Word} {es : List Event}
    (hr : run (step random) (initial dictionary) es = some app)
    (hs : app.typingInfo.status ≠ .unready) : ∃ g s m, Session app.typingInfo g s m := by
  have hvalid : Valid app.typingInfo := (keeps_runEvents hr).valid .reset
  exact hvalid.session hs

theorem acc_calc_valid {t : TypingInfo} (h : Valid t) :
    0 ≤ (calcTypingStatus t).acc ∧ (calcTypingStatus t).acc ≤ 100 := by
  by_cases hs : t.status = .unready
  · have hz : t.typedChars = 0 := (h.cleared hs).typedChars
    simp [calcTypingStatus, hz]
  · obtain ⟨g, s, m, hsess⟩ := h.session hs
    exact hsess.acc_calc

/-- The typing session in every reachable state: buffers and counters agree, the
accuracy is a percentage, and the next key neither leaves a buffer nor makes a
counter wrap around. -/
theorem typing_session_invariant (dictionary : List Word) (cs : List Call) (app : App)
    (hr : run (call random) (initial dictionary) cs = some app) :
    (app.typingInfo.status = .unready → Cleared app.typingInfo) ∧
      (app.typingInfo.status ≠ .unready → ∃ g s m, Session app.typingInfo g s m) ∧
      (0 ≤ app.typingInfo.acc ∧ app.typingInfo.acc ≤ 100) ∧
      (0 ≤ (calcTypingStatus app.typingInfo).acc ∧ (calcTypingStatus app.typingInfo).acc ≤ 100) ∧
      ∀ isRace keyboard, ∃ next,
        App.typingInputHandler isRace { app with keyboard := keyboard } = some next ∧
          CountersMove app.typingInfo next.typingInfo := by
  have h : Valid app.typingInfo := (keeps_run hr).valid .reset
  refine ⟨h.cleared, h.session, h.acc, acc_calc_valid h, fun isRace keyboard => ?_⟩
  obtain ⟨next, hn, -, hm⟩ := handler_valid { app with keyboard := keyboard } h isRace
  exact ⟨next, hn, hm⟩

theorem typing_session_invariant_typed : ∃ g s m, Session
    ((run (call fun _ _ => 0) (initial [⟨[97], by decide⟩])
      [.generateText 1 5, .typingInputHandler false { scancode := 0x1E }]).getD {}).typingInfo
      g s m :=
  (@typing_session_invariant (fun _ _ => 0) [⟨[97], by decide⟩]
    [.generateText 1 5, .typingInputHandler false { scancode := 0x1E }] _
    (by decide +kernel)).2.1 (by decide +kernel)

end Calls

end WriteWise.RunInvariant
