import WriteWise.RaceLink
import WriteWise.RaceSteps

namespace WriteWise.LeaveRace

open Library.Runs Library.Framing Serial SerialStream Typing Program Steps RaceLink RaceSteps
  RunInvariant

open Library.Duplex hiding step

/-- What happens to one program, on the race screen or on another. -/
inductive Act
  | timer
  | keyboard (byte : Option UInt8) (now : UInt64)
  | mousePress (now : UInt64)
  | click (button : Button) (now : UInt64)
  | receive

def Act.event : Act → Option Event
  | .timer => some .timer
  | .keyboard byte now => some (.keyboard byte now)
  | .mousePress now => some (.mousePress now)
  | .click button now => some (.click button now)
  | .receive => none

variable (random : UInt32 → Nat → Nat)

def act (n : Race) (a : Act) : Option Race :=
  match a.event with
  | some e => react (fun app => step random app e) n
  | none =>
    match n.inn with
    | [] => none
    | b :: bs => react (fun app => step random app (.serial (fresh b))) { n with inn := bs }

/-- The far player stays on the race screen, and the near one does not return to it. -/
def Stays (n : Race) (e : Side × Act) : Prop :=
  ∀ n', Library.Duplex.step (act random) n e = some n' → n'.far.currAppState = .raceState ∧
    (n.near.currAppState ≠ .raceState → n'.near.currAppState ≠ .raceState)

instance (n : Race) (e : Side × Act) : Decidable (Stays random n e) :=
  match h : Library.Duplex.step (act random) n e with
  | none => .isTrue fun n' hn' => by cases h.symm.trans hn'
  | some m => decidable_of_iff (m.far.currAppState = .raceState ∧
      (n.near.currAppState ≠ .raceState → m.near.currAppState ≠ .raceState))
      ⟨fun hm n' hn' => by cases h.symm.trans hn'; exact hm, fun hm => hm m h⟩

/-- On a port that does not fail the program transmits these messages as a whole. -/
structure Speaks (ms : List Message) (app next : App) : Prop where
  valid : ∀ m ∈ ms, m.Valid
  answers : next.port.answers = []
  decoder : next.port.decoder = app.port.decoder
  out : thrBytes next.port.out = thrBytes app.port.out ++ ms.flatMap encode

namespace Speaks

variable {ms ms' : List Message} {a b c : App}

theorem silent {app next : App} (ha : app.port.answers = []) (hp : next.port = app.port) :
    Speaks [] app next :=
  ⟨nofun, hp ▸ ha, by rw [hp], by rw [hp]; exact (List.append_nil _).symm⟩

theorem trans (h : Speaks ms a b) (h' : Speaks ms' b c) : Speaks (ms ++ ms') a c := by
  refine ⟨fun m hm => ?_, h'.answers, h'.decoder.trans h.decoder, ?_⟩
  · obtain hm | hm := List.mem_append.mp hm
    · exact h.valid m hm
    · exact h'.valid m hm
  · rw [h'.out, h.out, List.flatMap_append, List.append_assoc]

theorem after_silent (h : Speaks [] a b) (h' : Speaks ms b c) : Speaks ms a c := h.trans h'

theorem before_silent (h : Speaks ms a b) (h' : Speaks [] b c) : Speaks ms a c := by
  have ht := h.trans h'
  rwa [List.append_nil] at ht

theorem of_port (h : Speaks ms b c) (hp : b.port = a.port) : Speaks ms a c :=
  ⟨h.valid, h.answers, hp ▸ h.decoder, hp ▸ h.out⟩

end Speaks

section Functions

variable {random} {app next : App} (ha : app.port.answers = [])

include ha

theorem speaks_clearFIFO : Speaks [] app (app.call serialPortClearFIFO) := by
  refine ⟨nofun, ?_, ?_, ?_⟩
  all_goals rw [call_port, clearFIFO_reliable ha]
  · exact ha
  · rfl
  · exact thrBytes_append ..

theorem speaks_sendByte {byte : UInt8} (hb : ¬ IsTypeTag byte) :
    Speaks [.control byte] app (app.call (serialPortSendByte byte)) := by
  refine ⟨fun m hm => ?_, ?_, ?_, ?_⟩
  · rw [List.mem_singleton.mp hm]
    exact hb
  all_goals rw [call_port, sendByte_reliable ha]
  · exact ha
  · rfl
  · exact thrBytes_append ..

theorem speaks_answer {byte : UInt8} (hb : ¬ IsTypeTag byte) : Speaks [.control byte] app
    (app.call fun p => serialPortSendByte byte (serialPortClearFIFO p).1) := by
  refine ⟨fun m hm => ?_, ?_, ?_, ?_⟩
  · rw [List.mem_singleton.mp hm]
    exact hb
  all_goals rw [call_port, clear_sendByte_reliable ha]
  · exact ha
  · rfl
  · exact thrBytes_append ..

theorem speaks_sendULong (seed : UInt64) (now : Nat) :
    Speaks [.ulong seed] app (app.call (serialPortSendULong seed now)) := by
  refine ⟨fun m hm => ?_, ?_, ?_, ?_⟩
  · rw [List.mem_singleton.mp hm]
    trivial
  all_goals rw [call_port, serialPortSendULong, sendValue_reliable ha]
  · exact ha
  · rfl
  · change thrBytes (app.port.out ++ _) = _
    rw [thrBytes_append, thrBytes_map_thr]
    simp [encode]

omit ha in
theorem speaks_press (byte : UInt8) (hb : ¬ IsTypeTag byte) (ha : app.port.answers = []) :
    Speaks [.control byte] app (app.call fun p => serialPortSendByte byte
      { p with waitingAckSerialPort := true }) := by
  have hw : ({ app.port with waitingAckSerialPort := true } : Port).answers = [] := ha
  refine ⟨fun m hm => ?_, ?_, ?_, ?_⟩
  · rw [List.mem_singleton.mp hm]
    exact hb
  all_goals rw [call_port, sendByte_reliable hw]
  · exact ha
  · rfl
  · exact thrBytes_append ..

theorem speaks_checkIfReady (h : app.checkIfReady random = some next) : Speaks [] app next := by
  obtain rfl | ⟨t, seed, startTime, rfl⟩ := checkIfReady_frame h
  · exact .silent ha rfl
  · exact .silent ha rfl

theorem speaks_handleAck {byte : UInt8} (h : app.handleAck random byte = some next) :
    Speaks [] app next := by
  obtain ⟨-, rfl⟩ | ⟨-, u, hu, rfl⟩ := handleAck_step h
  · exact .silent ha rfl
  have hs : Speaks [] app u := by
    cases hu with
    | ack => exact .silent ha rfl
    | readyAck hc =>
      refine (speaks_checkIfReady ?_ hc).of_port rfl
      exact ha
    | nreadyAck => exact .silent ha rfl
    | other => exact speaks_clearFIFO ha
  exact ⟨hs.valid, hs.answers, hs.decoder, hs.out⟩

theorem speaks_handleControl {byte : UInt8} (h : app.handleControl random byte = some next) :
    ∃ ms, Speaks ms app next := by
  unfold App.handleControl at h
  split at h
  · cases h
    refine ⟨_, (speaks_answer ?_ (show ¬ IsTypeTag infoReadyAck by decide)).of_port rfl⟩
    exact ha
  split at h
  · cases h
    refine ⟨_, (speaks_answer ?_ (show ¬ IsTypeTag infoNReadyAck by decide)).of_port rfl⟩
    exact ha
  · have hp : ((app.handleWon byte).handleExit byte).port = app.port := by
      rw [handleExit_port, handleWon_port]
    exact ⟨_, (speaks_handleAck (hp ▸ ha) h).of_port hp⟩

theorem speaks_handleMessage {m : Message} (h : app.handleMessage random m = some next) :
    ∃ ms, Speaks ms app next := by
  cases m with
  | ulong seed =>
    obtain ⟨u, hu, rfl⟩ := Option.map_eq_some_iff.mp h
    have hs : Speaks [] app u := by
      split at hu
      · obtain ⟨v, hv, rfl⟩ := Option.map_eq_some_iff.mp hu
        have hv' : Speaks [] app v := by
          refine (speaks_checkIfReady ?_ hv).of_port rfl
          exact ha
        exact ⟨hv'.valid, hv'.answers, hv'.decoder, hv'.out⟩
      · cases hu
        exact .silent ha rfl
    exact ⟨_, hs.after_silent (speaks_answer hs.answers (by decide))⟩
  | control byte => exact speaks_handleControl ha h
  | _ =>
    cases h
    exact ⟨_, speaks_answer ha (by decide)⟩

theorem speaks_timerInterrupt : Speaks [] app app.timerInterrupt := by
  have ht : Speaks [] app app.tick := .silent ha (tick_port app)
  unfold App.timerInterrupt
  simp only
  split
  · exact ht.after_silent (speaks_clearFIFO ht.answers)
  · exact ht

theorem speaks_changeState {newState : AppState} {now : UInt64}
    (h : app.changeState random newState now = some next) :
    Speaks (if app.currAppState = .raceState then [.control infoExit] else []) app next := by
  unfold App.changeState at h
  simp only at h
  have hexit : Speaks (if app.currAppState = .raceState then [.control infoExit] else []) app
      (if app.currAppState = .raceState then app.call serialPortSendExit else app) := by
    split
    · exact speaks_sendByte ha (by decide)
    · exact .silent ha rfl
  refine hexit.before_silent ?_
  have ha' := hexit.answers
  cases newState with
  | trainingState =>
    obtain ⟨t, -, rfl⟩ := Option.map_eq_some_iff.mp h
    exact .silent ha' rfl
  | raceState =>
    cases h
    refine Speaks.of_port (speaks_clearFIFO ?_) rfl
    exact ha'
  | _ =>
    cases h
    exact .silent ha' rfl

theorem speaks_typingInputHandler {isRace : Bool} (h : app.typingInputHandler isRace = some next) :
    ∃ ms, Speaks ms app next ∧ (isRace = false → ms = []) := by
  obtain ⟨t, rfl⟩ | ⟨hrace, t, rfl⟩ := handler_frame h
  · exact ⟨[], .silent ha rfl, fun _ => rfl⟩
  · refine ⟨[.control infoWon], Speaks.of_port (speaks_sendByte ?_ (by decide)) rfl, fun hr => ?_⟩
    · exact ha
    · cases hrace.symm.trans hr

theorem speaks_raceReadyButton (now : UInt64) : ∃ ms, Speaks ms app (app.raceReadyButton now) := by
  unfold App.raceReadyButton
  split
  · split
    · exact ⟨_, speaks_press infoNReady (by decide) ha⟩
    · have h1 : Speaks [.control infoReady] app (App.call serialPortSendReady { app with
          racingInfo := { app.racingInfo with seedMe := now } }) := by
        refine (speaks_press infoReady (by decide) ?_).of_port rfl
        exact ha
      exact ⟨_, h1.trans (speaks_sendULong h1.answers _ _)⟩
  · exact ⟨[], .silent ha rfl⟩

/-- A round of the main loop without a byte: leaving the race screen transmits that the
player has left, and off the race screen nothing is transmitted. -/
theorem speaks_event {a : Act} {e : Event} (he : a.event = some e)
    (h : step random app e = some next) : ∃ ms, Speaks ms app next ∧
      (app.currAppState = .raceState → next.currAppState ≠ .raceState →
        ms = [.control infoExit]) ∧
      (app.currAppState ≠ .raceState → next.currAppState ≠ .raceState → ms = []) := by
  have hquiet {ms : List Message} (hm : Speaks ms app next)
      (hs : next.currAppState = app.currAppState) (hn : app.currAppState ≠ .raceState → ms = []) :
      ∃ ms, Speaks ms app next ∧ (app.currAppState = .raceState →
        next.currAppState ≠ .raceState → ms = [.control infoExit]) ∧
        (app.currAppState ≠ .raceState → next.currAppState ≠ .raceState → ms = []) :=
    ⟨ms, hm, fun h1 h2 => absurd (hs.trans h1) h2, fun h1 _ => hn h1⟩
  have hchange {b : App} {newState : AppState} {now : UInt64}
      (h : b.changeState random newState now = some next) (hb : b.port = app.port)
      (hbs : b.currAppState = app.currAppState) :
      ∃ ms, Speaks ms app next ∧ (app.currAppState = .raceState →
        next.currAppState ≠ .raceState → ms = [.control infoExit]) ∧
        (app.currAppState ≠ .raceState → next.currAppState ≠ .raceState → ms = []) := by
    have hm := (speaks_changeState (hb ▸ ha) h).of_port hb
    rw [hbs] at hm
    exact ⟨_, hm, fun h1 _ => if_pos h1, fun h1 _ => if_neg h1⟩
  cases round_of_step h with
  | timer does =>
    subst does
    exact hquiet (speaks_timerInterrupt ha) (timerInterrupt_screen app) fun _ => rfl
  | serial input does => cases a <;> cases he
  | screen keyboard newState now home does => exact hchange does rfl rfl
  | typing byte now keyboard does =>
    have hscreen := handler_screen does
    obtain ⟨ms, hm, hr⟩ := speaks_typingInputHandler (by exact ha) does
    exact hquiet (hm.of_port rfl) hscreen fun hn => hr (decide_eq_false hn)
  | ready now screen does =>
    subst does
    obtain ⟨ms, hm⟩ := speaks_raceReadyButton ha now
    exact hquiet hm (raceReadyButton_screen app now) fun hn => absurd screen hn
  | reset now screen does =>
    subst does
    refine hquiet (.silent ha ?_) (raceResetButton_change app now).1 fun _ => rfl
    unfold App.raceResetButton
    split
    · rfl
    · rfl
  | training now screen does =>
    obtain ⟨t, -, rfl⟩ := Option.map_eq_some_iff.mp does
    exact hquiet (.silent ha rfl) rfl fun _ => rfl
  | idle keyboard does =>
    subst does
    exact hquiet (.silent ha rfl) rfl fun _ => rfl
  | kernel answers does => cases a <;> cases he

end Functions

/-- No race is arranged, and no text is there. -/
structure Reset (app : App) : Prop where
  typingInfo : app.typingInfo = resetTypingInfo
  readyMe : app.racingInfo.readyMe = false
  readyYou : app.racingInfo.readyYou = false

section Bytes

variable {random} {app next : App}

/-- The message that the opponent has left leaves nothing of a race, whatever came before. -/
theorem reset_exit (h : app.handleControl random infoExit = some next) : Reset next := by
  have hw : app.handleWon infoExit = app := handleWon_skip app (by decide)
  have hx : app.handleExit infoExit = app.resetTypingInfo.resetRacingInfo := if_pos rfl
  unfold App.handleControl at h
  rw [if_neg fun hc => absurd hc.2 (by decide), if_neg fun hc => absurd hc.2 (by decide), hw, hx]
    at h
  obtain ⟨htyping, hracing⟩ := handleAck_frame h (by decide) (by decide)
  exact ⟨htyping, congrArg RacingInfo.readyMe hracing, congrArg RacingInfo.readyYou hracing⟩

theorem timerInterrupt_racingInfo (app : App) :
    app.timerInterrupt.racingInfo = app.racingInfo := by
  unfold App.timerInterrupt
  simp only
  split
  · exact tick_racingInfo app
  · exact tick_racingInfo app

theorem ready_event (hs : app.typingInfo.status = .unready) (hrace : app.currAppState = .raceState)
    {a : Act} {e : Event} (he : a.event = some e) (hstep : step random app e = some next)
    (hn : next.currAppState = .raceState) :
    next.racingInfo.readyMe = app.racingInfo.readyMe ∧
      next.racingInfo.readyYou = app.racingInfo.readyYou := by
  cases round_of_step hstep with
  | timer does =>
    subst does
    rw [timerInterrupt_racingInfo]
    exact ⟨rfl, rfl⟩
  | serial input does => cases a <;> cases he
  | screen keyboard newState now home does =>
    obtain rfl := home hrace
    cases (changeState_screen does).1.symm.trans hn
  | typing byte now keyboard does =>
    have hidle : App.typingInputHandler (app.currAppState = .raceState)
        { app with keyboard := keyboard } = some { app with keyboard := keyboard } := by
      refine handler_idle ?_ (.inl (decide_eq_true hrace))
      change app.typingInfo.status ≠ .typing
      rw [hs]
      decide
    cases hidle.symm.trans does
    exact ⟨rfl, rfl⟩
  | ready now screen does =>
    subst does
    obtain ⟨seed, port, h⟩ := raceReadyButton_frame app now
    rw [h]
    exact ⟨rfl, rfl⟩
  | reset now screen does =>
    subst does
    rw [App.raceResetButton, if_neg (by rw [hs]; decide)]
    exact ⟨rfl, rfl⟩
  | training now screen does => cases hrace.symm.trans screen
  | idle keyboard does =>
    subst does
    exact ⟨rfl, rfl⟩
  | kernel answers does => cases a <;> cases he

/-- Without a byte of the opponent the player cannot bring the race back. -/
theorem reset_event (h : Reset app) (hrace : app.currAppState = .raceState) {a : Act} {e : Event}
    (he : a.event = some e) (hstep : step random app e = some next)
    (hn : next.currAppState = .raceState) : Reset next := by
  have hunready : app.typingInfo.status = .unready := by
    rw [h.typingInfo]
    rfl
  have ht : next.typingInfo = resetTypingInfo := by
    obtain ⟨-, hq⟩ | ⟨-, hc⟩ := step_change hrace hstep
    · exact hq.typingInfo.trans h.typingInfo
    cases hc with
    | launch input m hi =>
      subst hi
      cases a <;> cases he
    | reset _ ht => exact ht
    | start _ hs => cases hunready.symm.trans hs.before
    | progress hp => cases hunready.symm.trans hp.before
    | quiet hq => exact hq.typingInfo.trans h.typingInfo
  obtain ⟨hme, hyou⟩ := ready_event hunready hrace he hstep hn
  exact ⟨ht, hme.trans h.readyMe, hyou.trans h.readyYou⟩

theorem speaks_serial (hrace : app.currAppState = .raceState) (ha : app.port.answers = [])
    {b : UInt8} (h : step random app (.serial (fresh b)) = some next) :
    next.currAppState = .raceState ∧ next.port.answers = [] ∧
      next.port.decoder = (accept app.port.decoder b).1 ∧
      ∃ ms : List Message, (∀ m ∈ ms, m.Valid) ∧
        thrBytes next.port.out = thrBytes app.port.out ++ ms.flatMap encode := by
  rw [step_serial hrace] at h
  refine ⟨(serialInterrupt_cases hrace h).1, ?_⟩
  unfold App.serialInterrupt at h
  rw [if_neg fun hn => hn hrace] at h
  simp only at h
  split at h
  · cases h
    exact ⟨ha, rfl, [], nofun, (List.append_nil _).symm⟩
  · obtain ⟨ms, hm⟩ := speaks_handleMessage (by exact ha) h
    exact ⟨hm.answers, hm.decoder, ms, hm.valid, hm.out⟩

theorem reset_serial (hrace : app.currAppState = .raceState) (hd : Idle app.port.decoder)
    (h : step random app (.serial (fresh infoExit)) = some next) : Reset next := by
  have ha : serialSwitch (fresh infoExit) app.port.decoder = _ := accept_control hd (by decide)
  rw [step_serial hrace, App.serialInterrupt, if_neg fun hn => hn hrace, ha] at h
  exact reset_exit h

theorem step_off (hrace : app.currAppState ≠ .raceState) {input : UartInput}
    (h : step random app (.serial input) = some next) : next = app := by
  unfold Program.step at h
  split at h
  · cases h
  · cases (if_pos hrace).symm.trans h
    rfl

end Bytes

/-- The two programs as seen from the one that is going to leave: the other one is there, and
waits for a message where the bytes on their way end. After the player has left, the last
of these bytes says so, or it has been read. -/
structure Inv (n : Race) : Prop where
  nearAnswers : n.near.port.answers = []
  farAnswers : n.far.port.answers = []
  nearOut : n.near.port.out = []
  farOut : n.far.port.out = []
  screen : n.far.currAppState = .raceState
  racing : n.near.currAppState = .raceState → Idle (receive accept n.far.port.decoder n.out).1
  left : n.near.currAppState ≠ .raceState →
    (∃ bs, n.out = bs ++ [infoExit] ∧ Idle (receive accept n.far.port.decoder bs).1) ∨
      (n.out = [] ∧ Reset n.far)

theorem inv_start {n : Race} (h : Start n) : Inv n := by
  refine ⟨h.near.answers, h.far.answers, h.near.out, h.far.out, h.far.screen, fun _ => ?_,
    fun hn => absurd h.near.screen hn⟩
  rw [h.out]
  exact h.far.decoder

variable {random} {n n' : Race} {a : Act}

theorem Inv.near (h : Inv n) (hs : n.near.currAppState ≠ .raceState →
    n'.near.currAppState ≠ .raceState) (hn : act random n a = some n') : Inv n' := by
  unfold act at hn
  cases he : a.event with
  | some e =>
    rw [he] at hn
    obtain ⟨app, happ, rfl⟩ := Option.map_eq_some_iff.mp hn
    obtain ⟨ms, hm, hleave, hoff⟩ := speaks_event h.nearAnswers he happ
    have hout : thrBytes app.port.out = ms.flatMap encode := by
      rw [hm.out, h.nearOut]
      rfl
    refine ⟨hm.answers, h.farAnswers, rfl, h.farOut, h.screen, fun hr => ?_, fun hl => ?_⟩
    · have hrace : n.near.currAppState = .raceState := by
        by_contra hc
        exact hs hc hr
      rw [hout, receive_append]
      exact (encode_framed.stream (h.racing hrace) ms hm.valid).1
    · rw [hout]
      by_cases hrace : n.near.currAppState = .raceState
      · rw [hleave hrace hl]
        exact .inl ⟨n.out, rfl, h.racing hrace⟩
      · rw [hoff hrace hl, List.flatMap_nil, List.append_nil]
        exact h.left hrace
  | none =>
    rw [he] at hn
    simp only at hn
    split at hn
    · cases hn
    obtain ⟨app, happ, rfl⟩ := Option.map_eq_some_iff.mp hn
    by_cases hrace : n.near.currAppState = .raceState
    · obtain ⟨hscreen, hans, -, ms, hvalid, hout⟩ := speaks_serial hrace h.nearAnswers happ
      rw [h.nearOut] at hout
      refine ⟨hans, h.farAnswers, rfl, h.farOut, h.screen, fun _ => ?_, fun hl => absurd hscreen hl⟩
      rw [hout, receive_append]
      exact (encode_framed.stream (h.racing hrace) ms hvalid).1
    · cases step_off hrace happ
      refine ⟨h.nearAnswers, h.farAnswers, rfl, h.farOut, h.screen, fun hr => absurd hr hrace,
        fun _ => ?_⟩
      rw [h.nearOut]
      change (∃ bs, n.out ++ [] = _ ∧ _) ∨ n.out ++ [] = [] ∧ _
      rw [List.append_nil]
      exact h.left hrace

theorem Inv.far (h : Inv n) (hscreen : n'.near.currAppState = .raceState)
    (hn : act random n.swap a = some n') : Inv n'.swap := by
  unfold act at hn
  cases he : a.event with
  | some e =>
    rw [he] at hn
    obtain ⟨app, happ, rfl⟩ := Option.map_eq_some_iff.mp hn
    obtain ⟨ms, hm, -, -⟩ := speaks_event h.farAnswers he happ
    refine ⟨h.nearAnswers, hm.answers, h.nearOut, rfl, hscreen, fun hr => ?_, fun hl => ?_⟩
    · change Idle (receive accept app.port.decoder n.out).1
      rw [hm.decoder]
      exact h.racing hr
    · obtain ⟨bs, hout, hi⟩ | ⟨hout, hreset⟩ := h.left hl
      · refine .inl ⟨bs, hout, ?_⟩
        change Idle (receive accept app.port.decoder bs).1
        rw [hm.decoder]
        exact hi
      · obtain ⟨ht, hme, hyou⟩ := reset_event hreset h.screen he happ hscreen
        exact .inr ⟨hout, ht, hme, hyou⟩
  | none =>
    rw [he] at hn
    simp only [swap_inn] at hn
    split at hn
    · cases hn
    rename_i b bs hout
    obtain ⟨app, happ, rfl⟩ := Option.map_eq_some_iff.mp hn
    obtain ⟨-, hans, hdec, -⟩ := speaks_serial h.screen h.farAnswers happ
    refine ⟨h.nearAnswers, hans, h.nearOut, rfl, hscreen, fun hr => ?_, fun hl => ?_⟩
    · have hi := h.racing hr
      rw [hout] at hi
      change Idle (receive accept app.port.decoder bs).1
      rw [hdec]
      exact hi
    · obtain ⟨cs, hcs, hi⟩ | ⟨hnil, -⟩ := h.left hl
      swap
      · cases hout.symm.trans hnil
      rw [hout] at hcs
      cases cs with
      | nil =>
        obtain ⟨rfl, rfl⟩ := List.cons.inj hcs
        obtain ⟨ht, hme, hyou⟩ := reset_serial h.screen hi happ
        exact .inr ⟨rfl, ht, hme, hyou⟩
      | cons c cs =>
        obtain ⟨rfl, rfl⟩ := List.cons.inj hcs
        refine .inl ⟨cs, rfl, ?_⟩
        change Idle (receive accept app.port.decoder cs).1
        rw [hdec]
        exact hi

/-- Whatever both players do until one of them leaves the race, and whatever the other one
does then: once everything the leaving player sent has been read, nothing of a race is left. -/
theorem leaving_resets_opponent (hn : Start n) {es : List (Side × Act)}
    (hes : Guarded (Library.Duplex.step (act random)) (Stays random) n es)
    (hr : run (Library.Duplex.step (act random)) n es = some n')
    (hleft : n'.near.currAppState ≠ .raceState) (hread : n'.out = []) :
    n'.far.typingInfo.status = .unready ∧ n'.far.racingInfo.readyMe = false ∧
      n'.far.racingInfo.readyYou = false ∧ n'.far.typingInfo.generatedText = none := by
  have hinv : Inv n' := by
    refine invariant (I := Inv) (fun m e m' hm hstays hstep => ?_) (inv_start hn) hes hr
    obtain ⟨hscreen, hreturn⟩ := hstays m' hstep
    obtain ⟨side, a⟩ := e
    obtain ⟨d, hd, rfl⟩ := Option.map_eq_some_iff.mp hstep
    cases side with
    | left => exact hm.near hreturn hd
    | right => exact hm.far hscreen hd
  obtain ⟨bs, hout, -⟩ | ⟨-, hreset⟩ := hinv.left hleft
  · rw [hread] at hout
    exact absurd hout.symm (List.append_ne_nil_of_right_ne_nil bs (List.cons_ne_nil _ _))
  · rw [hreset.typingInfo]
    exact ⟨rfl, hreset.readyMe, hreset.readyYou, rfl⟩

def otherReads (k : Nat) : List (Side × Act) := List.replicate k (.right, .receive)

/-- One player is ready, the other one too, and the first leaves before the countdown. -/
def leavingRun : List (Side × Act) :=
  (.left, .click .raceReady 5) :: otherReads 10 ++ (.right, .click .raceReady 7) ::
    (.left, .keyboard (some Scancode.breakEsc) 0) :: otherReads 1

def leftAlone : Race :=
  (run (Library.Duplex.step (act noRandom)) (duel oneWord) leavingRun).getD (duel oneWord)

theorem leaving_resets_opponent_once : leftAlone.far.racingInfo.readyYou = false := by
  have hstays : Guarded (Library.Duplex.step (act noRandom)) (Stays noRandom) (duel oneWord)
      leavingRun := by decide +kernel
  have hrun : run (Library.Duplex.step (act noRandom)) (duel oneWord) leavingRun =
      some leftAlone := by decide +kernel
  have hleft : leftAlone.near.currAppState ≠ .raceState := by decide +kernel
  have hread : leftAlone.out = [] := by decide +kernel
  exact (leaving_resets_opponent (start_duel oneWord) hstays hrun hleft hread).2.2.1

end WriteWise.LeaveRace
