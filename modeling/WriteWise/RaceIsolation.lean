import WriteWise.RaceRelation
import WriteWise.Sending

namespace WriteWise.RaceIsolation

open Library Library.Runs Scancode Serial SerialStream Sending Typing Program Steps RaceRelation

/-- What an earlier session can leave behind: no frame is cut off, no answer is
waited for, and no announced seed is missing. -/
structure Settled (app : App) : Prop where
  decoder : Idle app.port.decoder
  waitingAck : app.port.waitingAckSerialPort = false
  waitingForSeed : app.waitingForSeed = false

theorem Settled.of_eq {a b : App} (h : Settled a) (hp : b.port = a.port)
    (hs : b.waitingForSeed = a.waitingForSeed) : Settled b := by
  refine ⟨?_, ?_, hs.trans h.waitingForSeed⟩
  · rw [hp]
    exact h.decoder
  · rw [hp]
    exact h.waitingAck

def raceRelevant (app : App) : RacingInfo × TypingInfo × Bool × Bool × UInt8 × Nat :=
  (app.racingInfo, app.typingInfo, app.waitingForSeed, app.port.waitingAckSerialPort,
    app.port.decoder.receivingSerialPort, app.port.decoder.indexSerialPort)

section Entry

variable (random : UInt32 → Nat → Nat)

/-- A program that has not been on the race screen yet. -/
def FirstVisit (dictionary : List Word) (app : App) : Prop :=
  ∃ es, Guarded (Program.step random) (fun a _ => a.currAppState ≠ .raceState)
    (initial dictionary) es ∧ run (Program.step random) (initial dictionary) es = some app ∧
      app.currAppState ≠ .raceState

/-- The race that `s` enters does not differ from the one that `f` enters: neither
at its start nor after any later events does anything tell the two apart. -/
def Isolated (s f : App) (now : UInt64) : Prop :=
  ∃ x y, s.changeState random .raceState now = some x ∧
    f.changeState random .raceState now = some y ∧ raceRelevant x = raceRelevant y ∧
      ∀ later, (∀ e ∈ later, Smooth e) →
        Option.Rel (SameRace s.timerCounter f.timerCounter x.port.out y.port.out)
          (run (Program.step random) x later) (run (Program.step random) y later)

def entered (app : App) : App :=
  { app with
    currAppState := .raceState
    typingInfo := {}
    racingInfo := {}
    port := app.port.writes
      ((if app.currAppState = .raceState then [.thr infoExit] else []) ++ [.fcr fcrClear]) }

variable {random} {app next f : App}

theorem changeState_entered (h : app.port.answers = []) (now : UInt64) :
    app.changeState random .raceState now = some (entered app) := by
  have hx : (app.port.writes [.thr infoExit]).answers = [] := h
  unfold App.changeState entered
  simp only [App.resetTypingInfo, App.resetRacingInfo]
  split
  · simp only [App.call, serialPortSendExit, sendByte_reliable h, clearFIFO_reliable hx,
      writes_writes]
    rfl
  · simp only [App.call, clearFIFO_reliable h]
    rfl

theorem raceRelevant_entered (hs : Settled app) :
    raceRelevant (entered app) = ({}, {}, false, false, infoAck, 0) := by
  have h1 : app.waitingForSeed = false := hs.waitingForSeed
  have h2 : app.port.waitingAckSerialPort = false := hs.waitingAck
  have h3 : app.port.decoder.receivingSerialPort = infoAck := hs.decoder.1
  have h4 : app.port.decoder.indexSerialPort = 0 := hs.decoder.2
  simp only [raceRelevant, entered, Port.writes, h1, h2, h3, h4]

theorem sameRace_entered (hs : Settled app) (hf : Settled f) (hkey : f.keyboard = app.keyboard)
    (hdict : f.dictionary = app.dictionary) (hsr : app.port.answers = [])
    (hfr : f.port.answers = []) :
    SameRace app.timerCounter f.timerCounter (entered app).port.out (entered f).port.out
      (entered app) (entered f) where
  screen := rfl
  test := .refl _ _ fun hc => hc.elim nofun nofun
  readyMe := rfl
  readyYou := rfl
  seedMe := rfl
  seedYou := rfl
  won := rfl
  startTime := .inl rfl
  countdown := fun _ hr => nomatch hr
  waitingForSeed := hf.waitingForSeed.trans hs.waitingForSeed.symm
  decoder := by
    refine ⟨hf.decoder.1.trans hs.decoder.1.symm, hf.decoder.2.trans hs.decoder.2.symm, ?_⟩
    simp only [entered, Port.writes, hs.decoder.2, List.take_zero]
  waitingAck := hf.waitingAck.trans hs.waitingAck.symm
  ackStart := fun hw => hw.elim (fun hw => absurd (hs.waitingAck.symm.trans hw) nofun) nofun
  reliable := ⟨hsr, hfr⟩
  sent := ⟨[], (List.append_nil _).symm, (List.append_nil _).symm⟩
  clock := Nat.add_comm _ _
  keyboard := hkey
  dictionary := hdict

theorem Settled.of_sends {bytes : List UInt8} {f : Port → Port × Bool} (h : Settled app)
    (hs : Sends bytes app.port (f app.port).1) : Settled (app.call f) := by
  refine ⟨?_, hs.waitingAck.trans h.waitingAck, h.waitingForSeed⟩
  rw [call_port, hs.decoder]
  exact h.decoder

theorem Settled.sendByte (h : Settled app) (byte : UInt8) :
    Settled (app.call (serialPortSendByte byte)) :=
  h.of_sends (sendByte_sends app.port byte)

theorem Settled.clearFIFO (h : Settled app) : Settled (app.call serialPortClearFIFO) :=
  h.of_sends (clearFIFO_sends app.port)

theorem Settled.generateText (h : Settled app) {n : Nat} {seed : UInt32}
    (hr : app.generateText random n seed = some next) : Settled next := by
  obtain ⟨t, -, rfl⟩ := Option.map_eq_some_iff.mp hr
  exact h.of_eq rfl rfl

theorem Settled.changeState (h : Settled app) {newState : AppState} {now : UInt64}
    (hr : app.changeState random newState now = some next) : Settled next := by
  have hexit : Settled (if app.currAppState = .raceState then app.call serialPortSendExit
      else app) := by
    split
    · exact h.sendByte infoExit
    · exact h
  unfold App.changeState at hr
  simp only at hr
  generalize (if app.currAppState = .raceState then app.call serialPortSendExit else app) = app'
    at hexit hr
  cases newState with
  | trainingState =>
    have hto : Settled { app' with currAppState := .trainingState } := hexit.of_eq rfl rfl
    exact hto.generateText hr
  | raceState =>
    cases hr
    exact hexit.clearFIFO.of_eq rfl rfl
  | _ =>
    cases hr
    exact hexit.of_eq rfl rfl

theorem Settled.timerInterrupt (h : Settled app) : Settled app.timerInterrupt := by
  have htick : Settled app.tick := h.of_eq (tick_port app) (tick_waitingForSeed app)
  unfold App.timerInterrupt
  simp only
  split
  · exact htick.clearFIFO
  · exact htick

theorem Settled.typingInputHandler (h : Settled app) {isRace : Bool}
    (hr : app.typingInputHandler isRace = some next) : Settled next := by
  obtain ⟨t, rfl⟩ | ⟨-, t, rfl⟩ := handler_frame hr
  · exact h.of_eq rfl rfl
  · exact (h.sendByte infoWon).of_eq rfl rfl

/-- Only the race screen leaves something behind. -/
theorem Settled.step (h : Settled app) (hx : app.currAppState ≠ .raceState) {e : Event}
    (hr : Program.step random app e = some next) : Settled next := by
  cases round_of_step hr with
  | timer does =>
    subst does
    exact h.timerInterrupt
  | serial input does =>
    cases (if_pos hx).symm.trans does
    exact h
  | screen keyboard newState now home does =>
    have hk : Settled { app with keyboard := keyboard } := h.of_eq rfl rfl
    exact hk.changeState does
  | typing byte now keyboard does =>
    have hk : Settled { app with keyboard := keyboard } := h.of_eq rfl rfl
    exact hk.typingInputHandler does
  | ready now screen does => exact absurd screen hx
  | reset now screen does => exact absurd screen hx
  | training now screen does => exact h.generateText does
  | idle keyboard does =>
    subst does
    exact h.of_eq rfl rfl
  | kernel answers does =>
    subst does
    exact ⟨h.decoder, h.waitingAck, h.waitingForSeed⟩

theorem FirstVisit.settled {dictionary : List Word} (h : FirstVisit random dictionary f) :
    Settled f := by
  obtain ⟨es, hg, hr, -⟩ := h
  exact invariant (I := Settled) (fun _ _ _ hs hx hr => hs.step hx hr)
    ⟨⟨rfl, rfl⟩, rfl, rfl⟩ hg hr

/-- A race is isolated from all that came before exactly when nothing was left
behind. The keyboard is the same for both programs, as it is for both races. -/
theorem isolated_iff_settled {dictionary : List Word} {es : List Event} {s : App}
    (hs : run (Program.step random) (initial dictionary) es = some s)
    (hf : FirstVisit random dictionary f) (hkey : f.keyboard = s.keyboard)
    (hsr : s.port.answers = []) (hfr : f.port.answers = []) (now : UInt64) :
    Isolated random s f now ↔ Settled s := by
  have hfs := hf.settled
  have hdict : f.dictionary = s.dictionary := by
    obtain ⟨fs, -, hfr, -⟩ := hf
    rw [(RunInvariant.keeps_runEvents hs).dictionary, (RunInvariant.keeps_runEvents hfr).dictionary]
  rw [Isolated, changeState_entered hsr, changeState_entered hfr]
  constructor
  · rintro ⟨x, y, hx, hy, he, -⟩
    cases hx
    cases hy
    rw [raceRelevant_entered hfs] at he
    simp only [raceRelevant, Prod.mk.injEq] at he
    obtain ⟨-, -, h1, h2, h3, h4⟩ := he
    exact ⟨⟨h3, h4⟩, h2, h1⟩
  · intro hset
    refine ⟨_, _, rfl, rfl, ?_, fun later hl => ?_⟩
    · rw [raceRelevant_entered hset, raceRelevant_entered hfs]
    · exact run_related (fun _ _ _ h he => h.step he)
        (sameRace_entered hset hfs hkey hdict hsr hfr) hl

end Entry

section Visitors

def noRandom : UInt32 → Nat → Nat := fun _ _ => 0

def newcomer : App :=
  (run (Program.step noRandom) (initial []) [.keyboard (some breakEsc) 0]).getD {}

def visitor (bs : List UInt8) : App :=
  (run (Program.step noRandom) (initial [])
    ([.mousePress 0, .click .mainRace 0] ++ bs.map (fun b => .serial (fresh b)) ++
      [.keyboard (some breakEsc) 0])).getD {}

theorem newcomer_firstVisit : FirstVisit noRandom [] newcomer :=
  ⟨[.keyboard (some breakEsc) 0], ⟨nofun, fun _ _ => trivial⟩, by decide +kernel, by decide +kernel⟩

theorem isolated_iff_settled_visitor : Isolated noRandom (visitor []) newcomer 0 :=
  (@isolated_iff_settled noRandom newcomer []
    [.mousePress 0, .click .mainRace 0, .keyboard (some breakEsc) 0] (visitor [])
    (by decide +kernel) newcomer_firstVisit (by decide +kernel) (by decide +kernel)
    (by decide +kernel) 0).mpr
    ⟨⟨by decide +kernel, by decide +kernel⟩, by decide +kernel, by decide +kernel⟩

/-- The tag of a seed was the last byte of the race before: the next race loses the `READY`
of the opponent, which a first race answers. -/
theorem cut_off_frame_not_isolated :
    run (Program.step noRandom) (initial []) [.mousePress 0, .click .mainRace 0,
        .serial (fresh infoULong), .keyboard (some breakEsc) 0] = some (visitor [infoULong]) ∧
      FirstVisit noRandom [] newcomer ∧ newcomer.keyboard = (visitor [infoULong]).keyboard ∧
      ¬ Isolated noRandom (visitor [infoULong]) newcomer 0 ∧
      ((entered (visitor [infoULong])).serialInterrupt noRandom (fresh infoReady)).map
        (fun a => (a.racingInfo.readyYou, thrBytes a.port.out)) = some (false, [infoExit]) ∧
      ((entered newcomer).serialInterrupt noRandom (fresh infoReady)).map
        (fun a => (a.racingInfo.readyYou, thrBytes a.port.out)) = some (true, [infoReadyAck]) := by
  refine ⟨by decide +kernel, newcomer_firstVisit, by decide +kernel, ?_, by decide +kernel,
    by decide +kernel⟩
  rintro ⟨x, y, hx, hy, he, -⟩
  rw [changeState_entered (by decide +kernel)] at hx hy
  cases hx
  cases hy
  exact absurd he (by decide +kernel)

end Visitors

end WriteWise.RaceIsolation
