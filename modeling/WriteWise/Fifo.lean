import WriteWise.Library.Buffering
import WriteWise.RaceLink
import WriteWise.Steps

namespace WriteWise.Fifo

open Library.Buffering Library.Duplex Library.Runs Scancode Serial SerialStream Typing Program
open Steps (handleAck_step)
open RaceLink (noRandom oneWord)

/-- Two programs on the race screen, each with the FIFO of its UART. -/
abbrev Line := Link App (Pipe UInt8)

/-- What happens to one program. A byte arrives in its FIFO, or an interrupt reads one. -/
inductive Act
  | raceReady (now : UInt64)
  | raceReset
  | timer
  | key (keyboard : Keyboard)
  | arrive
  | interrupt

/-- The register writes of the near program take effect: its bytes go on the wire,
and `FCR_CLEAR` empties its own FIFO. -/
def transmit (n : Line) (app : App) : Line :=
  { n with
    near := { app with port := { app.port with out := [] } }
    out := n.out.send (thrBytes app.port.out)
    inn := if .fcr fcrClear ∈ app.port.out then n.inn.clear else n.inn }

def act (random : UInt32 → Nat → Nat) (n : Line) : Act → Option Line
  | .raceReady now => some (transmit n (n.near.raceReadyButton now))
  | .raceReset => some (transmit n n.near.raceResetButton)
  | .timer => some (transmit n n.near.timerInterrupt)
  | .key keyboard =>
    (App.typingInputHandler true { n.near with keyboard := keyboard }).map (transmit n)
  | .arrive => n.inn.arrive.map fun c => { n with inn := c }
  | .interrupt => n.inn.next.bind fun (b, c) =>
    (n.near.serialInterrupt random (fresh b)).map (transmit { n with inn := c })

/-- Nothing is lost in either direction. -/
def Intact (n : Line) : Prop := n.out.Intact ∧ n.inn.Intact

instance (n : Line) : Decidable (Intact n) := by
  unfold Intact
  infer_instance

/-- The messages on which the program clears its FIFO: a complete value, a `READY` or
`NREADY` that it answers, and whatever ends the wait for an acknowledgement without being one. -/
def ClearsOn (app : App) : Message → Prop
  | .control byte =>
    app.typingInfo.status = .unready ∧ (byte = infoReady ∨ byte = infoNReady) ∨
      app.port.waitingAckSerialPort = true ∧ byte ≠ infoAck ∧ byte ≠ infoReadyAck ∧
        byte ≠ infoNReadyAck
  | _ => True

instance (app : App) (m : Message) : Decidable (ClearsOn app m) := by
  cases m <;> dsimp only [ClearsOn] <;> infer_instance

/-- The acknowledgement is late at the coming tick. -/
def LateNow (app : App) : Prop :=
  app.port.waitingAckSerialPort = true ∧
    ackTimeout * frameRate < ulongSub (app.timerCounter + 1) app.port.waitingAckStartTime

instance (app : App) : Decidable (LateNow app) := by
  unfold LateNow
  infer_instance

/-- The next kernel call of a sending function succeeds. -/
def Succeeds (p : Port) : Prop := p.answers.head? ≠ some none

instance (p : Port) : Decidable (Succeeds p) := by
  unfold Succeeds
  infer_instance

/-- A clear meets bytes in the FIFO that are not read. -/
def Hits (n : Line) : Act → Prop
  | .timer => LateNow n.near ∧ Succeeds n.near.port ∧ n.inn.buffer ≠ []
  | .interrupt =>
    ∃ b ∈ n.inn.buffer.head?, ∃ m ∈ (accept n.near.port.decoder b).2,
      ClearsOn n.near m ∧ Succeeds n.near.port ∧ n.inn.buffer.tail ≠ []
  | _ => False

instance (n : Line) (a : Act) : Decidable (Hits n a) := by
  cases a <;> dsimp only [Hits] <;> infer_instance

section Ports

variable {w : UInt8} (p : Port)

theorem out_kernelCall : p.kernelCall.2.out = p.out := by
  unfold Port.kernelCall
  split <;> rfl

theorem fcr_sendAttempts (attempts : Nat) (byte : UInt8) :
    .fcr w ∈ (sendAttempts attempts byte p).1.out ↔ .fcr w ∈ p.out := by
  induction attempts generalizing p with
  | zero => rfl
  | succ attempts ih =>
    have hout := out_kernelCall p
    rw [sendAttempts]
    split
    · rename_i q hq
      rw [← hout, hq]
    rename_i status q hq
    rw [hq] at hout
    split
    · have hout' := out_kernelCall q
      split
      · rename_i r hr
        rw [← hout, ← hout', hr]
      · rename_i r hr
        rw [hr] at hout'
        simp only [Port.write, List.mem_append, List.mem_singleton, reduceCtorEq, or_false]
        rw [hout', hout]
    · rw [ih, hout]

theorem fcr_sendByte (byte : UInt8) :
    .fcr w ∈ (serialPortSendByte byte p).1.out ↔ .fcr w ∈ p.out :=
  fcr_sendAttempts p maxAttemptsUart byte

theorem fcr_sendBytes (bs : List UInt8) :
    .fcr w ∈ (serialPortSendBytes bs p).1.out ↔ .fcr w ∈ p.out := by
  induction bs generalizing p with
  | nil => rfl
  | cons b bs ih =>
    have hb := fcr_sendByte (w := w) p b
    rw [serialPortSendBytes]
    split
    · rename_i q hq
      rw [← hb, hq]
    · rename_i q hq
      rw [ih, ← hb, hq]

theorem fcr_sendULong (value : UInt64) (now : Nat) :
    .fcr w ∈ (serialPortSendULong value now p).1.out ↔ .fcr w ∈ p.out := by
  have hbs := fcr_sendBytes (w := w) p (infoULong :: Library.LittleEndian.encode 8 value.toNat)
  rw [serialPortSendULong, serialPortSendValue]
  split
  · rename_i q hq
    rw [← hbs, hq]
  · rename_i q hq
    rw [← hbs, hq]

theorem fcr_clearFIFO :
    .fcr fcrClear ∈ (serialPortClearFIFO p).1.out ↔ .fcr fcrClear ∈ p.out ∨ Succeeds p := by
  unfold serialPortClearFIFO Port.kernelCall Succeeds
  match p.answers with
  | [] => simp [Port.write]
  | none :: _ => simp
  | some _ :: _ => simp [Port.write]

end Ports

/-- What a function of the program keeps, when it clears the FIFO just under `C`. -/
structure Clears (C : Prop) (app next : App) : Prop where
  screen : next.currAppState = app.currAppState
  clears : .fcr fcrClear ∈ next.port.out ↔ .fcr fcrClear ∈ app.port.out ∨ C

section Functions

variable {random : UInt32 → Nat → Nat} {app next : App} {C : Prop}

theorem Clears.silent (hc : next.currAppState = app.currAppState)
    (hp : .fcr fcrClear ∈ next.port.out ↔ .fcr fcrClear ∈ app.port.out) (hC : ¬ C) :
    Clears C app next :=
  ⟨hc, by rw [hp, or_iff_left hC]⟩

theorem port_checkIfReady (hr : app.checkIfReady random = some next) :
    next.currAppState = app.currAppState ∧ next.port = app.port := by
  obtain rfl | ⟨t, seed, startTime, rfl⟩ := checkIfReady_frame hr
  · exact ⟨rfl, rfl⟩
  · exact ⟨rfl, rfl⟩

theorem clears_handleAck {byte : UInt8} (hr : app.handleAck random byte = some next) :
    Clears ((app.port.waitingAckSerialPort = true ∧ byte ≠ infoAck ∧ byte ≠ infoReadyAck ∧
      byte ≠ infoNReadyAck) ∧ Succeeds app.port) app next := by
  obtain ⟨hw, rfl⟩ | ⟨hw, u, hu, rfl⟩ := handleAck_step hr
  · exact .silent rfl .rfl fun hc => absurd (hw.symm.trans hc.1.1) (by decide)
  cases hu with
  | ack => exact .silent rfl .rfl fun hc => hc.1.2.1 rfl
  | readyAck hu =>
    obtain ⟨hc, hp⟩ := port_checkIfReady hu
    refine .silent hc ?_ fun hc => hc.1.2.2.1 rfl
    rw [hp]
  | nreadyAck => exact .silent rfl .rfl fun hc => hc.1.2.2.2 rfl
  | other h1 h2 h3 =>
    refine ⟨rfl, (fcr_clearFIFO app.port).trans (or_congr .rfl ?_)⟩
    exact (and_iff_right ⟨hw, h1, h2, h3⟩).symm

theorem clears_handleControl {byte : UInt8} (hr : app.handleControl random byte = some next) :
    Clears (ClearsOn app (.control byte) ∧ Succeeds app.port) app next := by
  have hanswer {a : App} (b : UInt8) (hc : a.currAppState = app.currAppState)
      (hp : a.port = app.port) (hb : ClearsOn app (.control byte)) :
      Clears (ClearsOn app (.control byte) ∧ Succeeds app.port) app
        (a.call fun p => serialPortSendByte b (serialPortClearFIFO p).1) := by
    refine ⟨hc, (fcr_sendByte _ b).trans ((fcr_clearFIFO a.port).trans ?_)⟩
    rw [hp, and_iff_right hb]
  unfold App.handleControl at hr
  split at hr
  · rename_i h
    cases hr
    exact hanswer infoReadyAck rfl rfl (.inl ⟨h.1, .inl h.2⟩)
  rename_i h1
  split at hr
  · rename_i h
    cases hr
    exact hanswer infoNReadyAck rfl rfl (.inl ⟨h.1, .inr h.2⟩)
  rename_i h2
  have hframe : ((app.handleWon byte).handleExit byte).port = app.port ∧
      ((app.handleWon byte).handleExit byte).currAppState = app.currAppState := by
    unfold App.handleExit App.handleWon
    split <;> split <;> exact ⟨rfl, rfl⟩
  obtain ⟨hp, hc⟩ := hframe
  have hack := clears_handleAck hr
  rw [hp] at hack
  refine ⟨hack.screen.trans hc, ?_⟩
  rw [hack.clears, hp, ClearsOn, or_iff_right (a := _ ∧ (_ ∨ _))]
  rintro ⟨hs, hb | hb⟩
  · exact h1 ⟨hs, hb⟩
  · exact h2 ⟨hs, hb⟩

theorem clears_handleMessage {m : Message} (hr : app.handleMessage random m = some next) :
    Clears (ClearsOn app m ∧ Succeeds app.port) app next := by
  have hack {a : App} (hc : a.currAppState = app.currAppState) (hp : a.port = app.port) :
      Clears (True ∧ Succeeds app.port) app (a.call serialPortSendAck) := by
    refine ⟨hc, (fcr_sendByte _ infoAck).trans ((fcr_clearFIFO a.port).trans ?_)⟩
    rw [hp, and_iff_right trivial]
  cases m with
  | ulong value =>
    obtain ⟨u, hu, rfl⟩ := Option.map_eq_some_iff.mp hr
    split at hu
    · obtain ⟨v, hv, rfl⟩ := Option.map_eq_some_iff.mp hu
      obtain ⟨hc, hp⟩ := port_checkIfReady hv
      exact hack (a := { v with waitingForSeed := false }) hc hp
    · cases hu
      exact hack rfl rfl
  | control byte => exact clears_handleControl hr
  | _ =>
    cases hr
    exact hack rfl rfl

theorem clears_serialInterrupt (hc : app.currAppState = .raceState) {b : UInt8}
    (hr : app.serialInterrupt random (fresh b) = some next) :
    Clears (∃ m ∈ (accept app.port.decoder b).2, ClearsOn app m ∧ Succeeds app.port) app next := by
  rw [App.serialInterrupt, if_neg (fun h => h hc)] at hr
  simp only at hr
  cases hm : (accept app.port.decoder b).2 with
  | none =>
    rw [show (serialSwitch (fresh b) app.port.decoder).2 = none from hm] at hr
    cases hr
    exact .silent rfl .rfl nofun
  | some m =>
    rw [show (serialSwitch (fresh b) app.port.decoder).2 = some m from hm] at hr
    have hmess := clears_handleMessage hr
    refine ⟨hmess.screen, hmess.clears.trans (or_congr .rfl ?_)⟩
    simp only [Option.mem_some_iff, exists_eq_left']
    exact .rfl

theorem clears_timerInterrupt (app : App) :
    Clears (LateNow app ∧ Succeeds app.port) app app.timerInterrupt := by
  have hiff : app.tick.AckLate ↔ LateNow app := by
    rw [App.AckLate, LateNow, tick_port, tick_timerCounter]
  unfold App.timerInterrupt
  simp only
  split
  · rename_i hlate
    refine ⟨tick_currAppState app, (fcr_clearFIFO app.tick.port).trans ?_⟩
    rw [tick_port, and_iff_right (hiff.mp hlate)]
  · rename_i hlate
    refine .silent (tick_currAppState app) ?_ fun hx => hlate (hiff.mpr hx.1)
    rw [tick_port]

theorem clears_raceReadyButton (app : App) (now : UInt64) :
    Clears False app (app.raceReadyButton now) := by
  unfold App.raceReadyButton
  split
  · split
    · exact .silent rfl (fcr_sendByte _ infoNReady) id
    · exact .silent rfl ((fcr_sendULong _ now _).trans (fcr_sendByte _ infoReady)) id
  · exact .silent rfl .rfl id

theorem clears_raceResetButton (app : App) : Clears False app app.raceResetButton := by
  unfold App.raceResetButton
  split <;> exact .silent rfl .rfl id

theorem clears_typingInputHandler (hr : App.typingInputHandler true app = some next) :
    Clears False app next := by
  obtain ⟨t, rfl⟩ | ⟨-, t, rfl⟩ := handler_frame hr
  · exact .silent rfl .rfl id
  · exact .silent rfl (fcr_sendByte _ infoWon) id

end Functions

section Runs

variable {random : UInt32 → Nat → Nat} {n n' : Line}

/-- A program on the race screen, whose register writes have all taken effect. -/
structure Peer (app : App) : Prop where
  screen : app.currAppState = .raceState
  out : app.port.out = []

/-- Both programs are on the race screen, and nothing is lost so far. -/
structure Inv (n : Line) : Prop where
  near : Peer n.near
  far : Peer n.far
  intact : Intact n

theorem Inv.swap (h : Inv n) : Inv n.swap := ⟨h.far, h.near, h.intact.symm⟩

theorem transmit_peer {C : Prop} {a app : App} (h : Peer a) (hc : Clears C a app) :
    Peer (transmit n app).near :=
  ⟨hc.screen.trans h.screen, rfl⟩

theorem transmit_intact {C : Prop} {a app : App} (h : Peer a) (hi : Intact n)
    (hc : Clears C a app) : Intact (transmit n app) ↔ ¬ (C ∧ n.inn.buffer ≠ []) := by
  have hiff : .fcr fcrClear ∈ app.port.out ↔ C := by
    rw [hc.clears, h.out]
    exact or_iff_right List.not_mem_nil
  unfold Intact transmit
  simp only [intact_send, hi.1, true_and]
  split
  · rename_i hclear
    rw [intact_clear hi.2]
    simp [hiff.mp hclear]
  · rename_i hclear
    exact iff_of_true hi.2 fun hx => hclear (hiff.mpr hx.1)

/-- A step loses something just if a clear meets unread bytes. -/
theorem act_intact (h : Inv n) {a : Act} (hn : act random n a = some n') :
    Peer n'.near ∧ n'.far = n.far ∧ (Intact n' ↔ ¬ Hits n a) := by
  obtain ⟨hp, hf, hi⟩ := h
  have hnot {C : Prop} {P : Prop} (hC : ¬ C) (hP : ¬ P) (Q : Prop) : ¬ (C ∧ Q) ↔ ¬ P :=
    iff_of_true (fun hx => hC hx.1) hP
  cases a with
  | raceReady now =>
    cases hn
    have hc := clears_raceReadyButton n.near now
    exact ⟨transmit_peer hp hc, rfl, (transmit_intact hp hi hc).trans (hnot id id _)⟩
  | raceReset =>
    cases hn
    have hc := clears_raceResetButton n.near
    exact ⟨transmit_peer hp hc, rfl, (transmit_intact hp hi hc).trans (hnot id id _)⟩
  | timer =>
    cases hn
    have hc := clears_timerInterrupt n.near
    exact ⟨transmit_peer hp hc, rfl, (transmit_intact hp hi hc).trans (not_congr and_assoc)⟩
  | key keyboard =>
    obtain ⟨app, happ, rfl⟩ := Option.map_eq_some_iff.mp hn
    have hp' : Peer { n.near with keyboard := keyboard } := ⟨hp.screen, hp.out⟩
    have hc := clears_typingInputHandler happ
    exact ⟨transmit_peer hp' hc, rfl, (transmit_intact hp' hi hc).trans (hnot id id _)⟩
  | arrive =>
    obtain ⟨c, hc, rfl⟩ := Option.map_eq_some_iff.mp hn
    exact ⟨hp, rfl, iff_of_true ⟨hi.1, (intact_arrive hc).mpr hi.2⟩ id⟩
  | interrupt =>
    obtain ⟨⟨b, c⟩, hnext, hn⟩ := Option.bind_eq_some_iff.mp hn
    obtain ⟨app, happ, rfl⟩ := Option.map_eq_some_iff.mp hn
    obtain ⟨hint, hbuf⟩ := intact_next hnext
    have hc := clears_serialInterrupt hp.screen happ
    refine ⟨transmit_peer hp hc, rfl, ?_⟩
    rw [transmit_intact (n := { n with inn := c }) hp ⟨hi.1, hint.mpr hi.2⟩ hc, Hits, hbuf]
    simp

theorem Inv.act (h : Inv n) {a : Act} (ha : ¬ Hits n a) (hn : act random n a = some n') :
    Inv n' := by
  obtain ⟨hp, hf, hi⟩ := act_intact h hn
  exact ⟨hp, hf ▸ h.far, hi.mpr ha⟩

theorem Intact.swap (h : Intact n) : Intact n.swap := ⟨h.2, h.1⟩

theorem guarded_of_intact {es : List (Side × Act)} (h : Inv n)
    (hr : (run (step (Fifo.act random)) n es).isSome = true)
    (hi : ∀ fs, fs <+: es → ∀ n', run (step (Fifo.act random)) n fs = some n' → Intact n') :
    Guarded (step (Fifo.act random)) (Seen fun n a => ¬ Hits n a) n es := by
  induction es generalizing n with
  | nil => trivial
  | cons e es ih =>
    obtain ⟨n', hn'⟩ := Option.isSome_iff_exists.mp hr
    obtain ⟨t, ht, hrest⟩ := run_cons_some hn'
    have hone : Intact t := hi [e] ⟨es, rfl⟩ t (by rw [run, ht]; rfl)
    obtain ⟨side, a⟩ := e
    obtain ⟨d, hd, rfl⟩ := Option.map_eq_some_iff.mp ht
    have hguard : ¬ Hits (n.view side) a ∧ Inv (d.view side) := by
      cases side with
      | left =>
        have hhit := (act_intact h hd).2.2.mp hone
        exact ⟨hhit, h.act hhit hd⟩
      | right =>
        have hhit := (act_intact h.swap hd).2.2.mp hone.swap
        exact ⟨hhit, (h.swap.act hhit hd).swap⟩
    refine ⟨hguard.1, fun t' ht' => ?_⟩
    cases ht.symm.trans ht'
    refine ih hguard.2 (by rw [hrest]; rfl) fun fs hfs n' hn' => ?_
    refine hi _ (List.cons_prefix_cons.mpr ⟨rfl, hfs⟩) n' ?_
    rw [run, ht]
    exact hn'

/-- No byte is lost in a run just if no clear of it meets unread bytes. -/
theorem no_byte_lost_iff (h : Inv n) {es : List (Side × Act)}
    (hr : (run (step (act random)) n es).isSome = true) :
    (∀ fs, fs <+: es → ∀ n', run (step (act random)) n fs = some n' → Intact n') ↔
      Guarded (step (act random)) (Seen fun n a => ¬ Hits n a) n es := by
  refine ⟨guarded_of_intact h hr, fun hg fs hfs n' hn' => ?_⟩
  exact (Library.Duplex.invariant (I := Inv) (fun _ => Inv.swap)
    (fun _ _ _ hi ha hn => hi.act ha hn) h (hg.earlier hfs) hn').intact

end Runs

section Lines

def quietLine : Line :=
  ⟨{ currAppState := .raceState, dictionary := oneWord },
    { currAppState := .raceState, dictionary := oneWord }, {}, {}⟩

theorem inv_quietLine : Inv quietLine :=
  have hpeer : Peer { currAppState := .raceState, dictionary := oneWord } := ⟨rfl, rfl⟩
  ⟨hpeer, hpeer, rfl, rfl⟩

/-- The next `k` bytes for one program arrive, each of them read at once. -/
def promptly (side : Side) (k : Nat) : List (Side × Act) :=
  (List.replicate k [(side, .arrive), (side, .interrupt)]).flatten

/-- The left player presses Ready, and every byte is read before the next one comes. -/
def promptRun : List (Side × Act) :=
  [(.left, .raceReady 5)] ++ promptly .right 10 ++ promptly .left 2

theorem no_byte_lost_iff_prompt :
    Intact ((run (step (act noRandom)) quietLine promptRun).getD quietLine) :=
  (@no_byte_lost_iff noRandom quietLine inv_quietLine promptRun (by decide +kernel)).mpr
    (by decide +kernel) promptRun List.prefix_rfl _ (by decide +kernel)

/-- The seed has arrived behind the `READY` when the right program answers the latter. -/
def lateRun : List (Side × Act) :=
  [(.left, .raceReady 5)] ++ List.replicate 10 (.right, .arrive) ++ [(.right, .interrupt)]

theorem answer_clears_seed : Inv quietLine ∧
    ∃ n, run (step (act noRandom)) quietLine lateRun = some n ∧
      n.out.sent = [infoReady, infoULong, 5, 0, 0, 0, 0, 0, 0, 0] ∧
      n.out.read = [infoReady] ∧ n.out.buffer = [] ∧ n.out.wire = [] ∧ ¬ Intact n :=
  ⟨inv_quietLine, (run (step (act noRandom)) quietLine lateRun).getD quietLine,
    by decide +kernel, by decide +kernel, by decide +kernel, by decide +kernel, by decide +kernel,
    by decide +kernel⟩

end Lines

end WriteWise.Fifo
