import WriteWise.RunningRace
import WriteWise.Sending

namespace WriteWise.FailedRead

open Library.Runs Serial Typing Program RaceSteps Sending

def readByte (input : UartInput) : Option UInt8 :=
  input.lsr.bind fun status =>
    if status &&& lsrOverrunError ≠ 0 ∨ status &&& lsrParityError ≠ 0 ∨
        status &&& lsrFramingError ≠ 0 ∨ status &&& lsrDataReady = 0 then none
    else input.rbr

/-- IIR is read, and reports that data has come. -/
def DataAvailable (input : UartInput) : Prop :=
  ∃ iir, input.iir = some iir ∧ iir &&& iirNoInterruptPending = 0 ∧
    iir &&& iirInterruptPendingInfo = iirReceivedDataAvailable

/-- The receiver is between two messages, where IIR is looked at first. -/
def InControl (d : Decoder) : Prop := ¬ IsTypeTag d.receivingSerialPort

/-- An access to the UART fails or finds nothing: no byte is delivered. -/
def NoByte (input : UartInput) (d : Decoder) : Prop :=
  readByte input = none ∨ InControl d ∧ ¬ DataAvailable input

/-- What a failed read must leave as it was. -/
structure Inert (app next : App) : Prop where
  receiving : next.port.decoder.receivingSerialPort = app.port.decoder.receivingSerialPort
  index : next.port.decoder.indexSerialPort = app.port.decoder.indexSerialPort
  bits : next.port.decoder.bitsSerialPort = app.port.decoder.bitsSerialPort
  racingInfo : next.racingInfo = app.racingInfo
  typingInfo : next.typingInfo = app.typingInfo
  waitingForSeed : next.waitingForSeed = app.waitingForSeed
  waitingAck : next.port.waitingAckSerialPort = app.port.waitingAckSerialPort
  sent : thrBytes next.port.out = thrBytes app.port.out

/-- Handling the control byte changes nothing and sends nothing. -/
def Spent (app : App) (byte : UInt8) : Prop :=
  if app.typingInfo.status = .unready ∧ byte = infoReady then
    app.racingInfo.readyYou = true ∧ app.waitingForSeed = true ∧
      ¬ GoesOut 1 app.port.answers.tail
  else if app.typingInfo.status = .unready ∧ byte = infoNReady then
    app.racingInfo.readyYou = false ∧ ¬ GoesOut 1 app.port.answers.tail
  else
    ¬ (app.typingInfo.status = .typing ∧ byte = infoWon) ∧
      (byte = infoExit → app.typingInfo = resetTypingInfo ∧ app.racingInfo = {}) ∧
      app.port.waitingAckSerialPort = false

/-- Where the byte before is taken up again, it is one without a further effect. -/
def Harmless (app : App) (input : UartInput) : Prop :=
  InControl app.port.decoder →
    (input.iir = none → Spent app app.port.decoder.serialPortByte) ∧
    (DataAvailable input → readByte input = none →
      ¬ IsTypeTag app.port.decoder.serialPortByte)

theorem serialPortReadByte_eq (input : UartInput) (d : Decoder) :
    serialPortReadByte input d = match readByte input with
      | none => (d, true)
      | some b => ({ d with serialPortByte := b }, false) := by
  unfold serialPortReadByte readByte
  cases input.lsr with
  | none => rfl
  | some status =>
    simp only [Option.bind_some]
    split
    · simp [*]
    split
    · simp [*]
    split
    · simp [*]
    split
    · simp [*]
    cases hr : input.rbr with
    | none => simp [*]
    | some b => simp [*]

theorem readValue_none {input : UartInput} (h : readByte input = none) (width : Nat)
    (d : Decoder) : serialPortReadValue width input d = (d, none) := by
  simp only [serialPortReadValue, serialPortReadByte_eq, h]

theorem serialSwitch_value {input : UartInput} (h : readByte input = none) {d : Decoder}
    (hd : ¬ InControl d) : serialSwitch input d = (d, none) := by
  have hd' : IsTypeTag d.receivingSerialPort := not_not.mp hd
  obtain ht | ht | ht | ht | ht | ht := hd' <;>
    simp +decide [serialSwitch, ht, serialPortReadULong, serialPortReadLong, serialPortReadUInt,
      serialPortReadInt, serialPortReadFloat, serialPortReadDouble, readValue_none h]

theorem serialSwitch_control {input : UartInput} {d : Decoder} (hd : InControl d) :
    serialSwitch input d = match serialPortIh input d with
      | (d, true) => (d, some (.control d.serialPortByte))
      | (d, false) => (d, none) := by
  unfold InControl IsTypeTag at hd
  simp only [not_or] at hd
  obtain ⟨hulong, huint, hfloat, hlong, hint, hdouble⟩ := hd
  unfold serialSwitch
  refine (if_neg hulong).trans ?_
  refine (if_neg hlong).trans ?_
  refine (if_neg huint).trans ?_
  refine (if_neg hint).trans ?_
  refine (if_neg hfloat).trans ?_
  exact if_neg hdouble

theorem ih_noData {input : UartInput} {v : UInt8} (hv : input.iir = some v)
    (h : ¬ DataAvailable input) (d : Decoder) : serialPortIh input d = (d, false) := by
  unfold serialPortIh
  simp only [hv]
  split
  · rfl
  split
  · rfl
  · exact absurd ⟨v, hv, not_not.mp ‹_›, not_not.mp ‹_›⟩ h

/-- Where the byte itself cannot be read, the byte before may pass for a type tag. -/
theorem ih_failed {input : UartInput} (h : DataAvailable input) (hr : readByte input = none)
    (d : Decoder) : serialPortIh input d =
      if IsTypeTag d.serialPortByte then ({ d with receivingSerialPort := d.serialPortByte }, false)
      else (d, false) := by
  obtain ⟨v, hv, hn, hi⟩ := h
  simp only [serialPortIh, hv, hn, hi, serialPortReadByte_eq, hr, ne_eq, not_true_eq_false,
    if_false, Bool.not_true]

theorem ih_iir_failed {input : UartInput} (h : input.iir = none) (d : Decoder) :
    serialPortIh input d = (d, true) := by
  simp only [serialPortIh, h]

theorem Inert.refl (app : App) : Inert app app := ⟨rfl, rfl, rfl, rfl, rfl, rfl, rfl, rfl⟩

section Control

variable {random : UInt32 → Nat → Nat} {app next : App}

theorem inert_answer {b : UInt8} {r : RacingInfo} {w : Bool} :
    Inert app (App.call (fun p => serialPortSendByte b (serialPortClearFIFO p).1)
      { app with racingInfo := r, waitingForSeed := w }) ↔
      r = app.racingInfo ∧ w = app.waitingForSeed ∧ ¬ GoesOut 1 app.port.answers.tail := by
  obtain ⟨hd, hw, -, ho⟩ := clear_sendByte_sends app.port b
  rw [← clear_sendByte_goesOut app.port b, Bool.not_eq_false]
  constructor
  · intro h
    refine ⟨h.racingInfo, h.waitingForSeed, ?_⟩
    have hsent := h.sent
    rw [call_port, ho] at hsent
    by_contra hn
    rw [if_neg hn] at hsent
    simp at hsent
  · rintro ⟨rfl, rfl, hr⟩
    rw [if_pos hr, List.append_nil] at ho
    exact ⟨congrArg _ hd, congrArg _ hd, congrArg _ hd, rfl, rfl, rfl, hw, ho⟩

theorem handleAck_waitingAck {byte : UInt8} (h : app.handleAck random byte = some next) :
    next.port.waitingAckSerialPort = false := by
  obtain ⟨hw, rfl⟩ | ⟨-, u, -, rfl⟩ := Steps.handleAck_step h
  · exact hw
  · rfl

theorem handleAck_idle {byte : UInt8} (h : app.port.waitingAckSerialPort = false) :
    app.handleAck random byte = some app :=
  if_neg (by rw [h]; decide)

theorem inert_wonExit (byte : UInt8) : Inert app ((app.handleWon byte).handleExit byte) ↔
    ¬ (app.typingInfo.status = .typing ∧ byte = infoWon) ∧
      (byte = infoExit → app.typingInfo = resetTypingInfo ∧ app.racingInfo = {}) := by
  by_cases hwon : app.typingInfo.status = .typing ∧ byte = infoWon
  · obtain ⟨hs, rfl⟩ := hwon
    have hw : app.handleWon infoWon = _ := if_pos ⟨hs, rfl⟩
    rw [handleExit_skip _ (by decide), hw]
    refine ⟨fun h => ?_, fun h => absurd ⟨hs, rfl⟩ h.1⟩
    have hst := congrArg TypingInfo.status h.typingInfo
    cases hst.trans hs
  have hw : app.handleWon byte = app := if_neg hwon
  rw [hw]
  by_cases hexit : byte = infoExit
  · have hx : app.handleExit byte = app.resetTypingInfo.resetRacingInfo := if_pos hexit
    rw [hx]
    refine ⟨fun h => ⟨hwon, fun _ => ⟨h.typingInfo.symm, h.racingInfo.symm⟩⟩, fun h => ?_⟩
    obtain ⟨ht, hr⟩ := h.2 hexit
    exact ⟨rfl, rfl, rfl, hr.symm, ht.symm, rfl, rfl, rfl⟩
  · rw [handleExit_skip app hexit]
    exact ⟨fun _ => ⟨hwon, fun hc => absurd hc hexit⟩, fun _ => .refl app⟩

theorem handleControl_inert_iff (byte : UInt8) :
    (∃ next, app.handleControl random byte = some next ∧ Inert app next) ↔ Spent app byte := by
  unfold App.handleControl Spent
  split
  · simp only [Option.some.injEq, exists_eq_left']
    refine inert_answer.trans
      ⟨fun ⟨h1, h2, h3⟩ => ⟨?_, h2.symm, h3⟩, fun ⟨h1, h2, h3⟩ => ⟨?_, h2.symm, h3⟩⟩
    · exact (congrArg RacingInfo.readyYou h1).symm
    · rw [← h1]
  split
  · simp only [Option.some.injEq, exists_eq_left']
    refine (inert_answer (w := app.waitingForSeed)).trans
      ⟨fun ⟨h1, _, h3⟩ => ⟨?_, h3⟩, fun ⟨h1, h3⟩ => ⟨?_, rfl, h3⟩⟩
    · exact (congrArg RacingInfo.readyYou h1).symm
    · rw [← h1]
  have hport : ((app.handleWon byte).handleExit byte).port = app.port :=
    (handleExit_port _ _).trans (handleWon_port _ _)
  rw [← and_assoc, ← inert_wonExit]
  constructor
  · rintro ⟨next, hn, hi⟩
    have hw := hi.waitingAck.symm.trans (handleAck_waitingAck hn)
    rw [handleAck_idle (by rw [hport, hw])] at hn
    cases hn
    exact ⟨hi, hw⟩
  · rintro ⟨hi, hw⟩
    exact ⟨_, handleAck_idle (by rw [hport, hw]), hi⟩

theorem step_none {input : UartInput} (hrace : app.currAppState = .raceState) {d : Decoder}
    (hs : serialSwitch input app.port.decoder = (d, none)) :
    step random app (.serial input) = some { app with port := { app.port with decoder := d } } := by
  rw [step_serial hrace, App.serialInterrupt, if_neg (fun hn => hn hrace), hs]

theorem step_message {input : UartInput} (hrace : app.currAppState = .raceState) {d : Decoder}
    {m : Message} (hs : serialSwitch input app.port.decoder = (d, some m)) :
    step random app (.serial input) =
      App.handleMessage random m { app with port := { app.port with decoder := d } } := by
  rw [step_serial hrace, App.serialInterrupt, if_neg (fun hn => hn hrace), hs]

/-- A failed read is without effect exactly when it takes up nothing of the byte before. -/
theorem failed_inert_iff {input : UartInput} (hrace : app.currAppState = .raceState)
    (hno : NoByte input app.port.decoder) :
    (∃ next, step random app (.serial input) = some next ∧ Inert app next) ↔
      Harmless app input := by
  by_cases hd : InControl app.port.decoder
  swap
  · have hr : readByte input = none := hno.resolve_right fun h => hd h.1
    rw [step_none hrace (serialSwitch_value hr hd)]
    exact ⟨fun _ h => absurd h hd, fun _ => ⟨app, rfl, .refl app⟩⟩
  have hs : serialSwitch input app.port.decoder = _ := serialSwitch_control hd
  cases hv : input.iir with
  | none =>
    rw [ih_iir_failed hv] at hs
    have hna : ¬ DataAvailable input := fun ⟨v, h, _⟩ => nomatch hv.symm.trans h
    rw [step_message hrace hs]
    refine (handleControl_inert_iff _).trans ⟨fun h _ => ⟨fun _ => h, fun ha => absurd ha hna⟩,
      fun h => (h hd).1 hv⟩
  | some v =>
    have hsome : input.iir ≠ none := by
      rw [hv]
      nofun
    by_cases ha : DataAvailable input
    · have hr : readByte input = none := hno.resolve_right fun h => h.2 ha
      rw [ih_failed ha hr] at hs
      by_cases ht : IsTypeTag app.port.decoder.serialPortByte
      · rw [if_pos ht] at hs
        rw [step_none hrace hs]
        refine ⟨?_, fun h => absurd ht ((h hd).2 ha hr)⟩
        rintro ⟨next, hn, hi⟩
        cases hn
        exact absurd (hi.receiving ▸ ht) hd
      · rw [if_neg ht] at hs
        rw [step_none hrace hs]
        exact ⟨fun _ _ => ⟨fun hc => absurd hc hsome, fun _ _ => ht⟩,
          fun _ => ⟨app, rfl, .refl app⟩⟩
    · rw [ih_noData hv ha] at hs
      rw [step_none hrace hs]
      exact ⟨fun _ _ => ⟨fun hc => absurd hc hsome, fun hc => absurd hc ha⟩,
        fun _ => ⟨app, rfl, .refl app⟩⟩

/-- The control byte that an interrupt reads from RBR. -/
def ReadsControl (input : UartInput) (d : Decoder) (byte : UInt8) : Prop :=
  InControl d ∧ DataAvailable input ∧ readByte input = some byte ∧ ¬ IsTypeTag byte

variable (random) in
/-- A read that fails is without effect, and a control byte that is read is handled in its
interrupt and in no other. -/
structure ReadsOnce (app : App) (input : UartInput) : Prop where
  inert : NoByte input app.port.decoder →
    ∃ next, step random app (.serial input) = some next ∧ Inert app next
  handled : ∀ byte, ReadsControl input app.port.decoder byte →
    received app input = some (.control byte)
  only : ∀ byte, received app input = some (.control byte) →
    NoByte input app.port.decoder ∨ ReadsControl input app.port.decoder byte

theorem ih_read {input : UartInput} (ha : DataAvailable input) {b : UInt8}
    (hr : readByte input = some b) (d : Decoder) : serialPortIh input d =
      if IsTypeTag b then ({ d with serialPortByte := b, receivingSerialPort := b }, false)
      else ({ d with serialPortByte := b }, true) := by
  obtain ⟨v, hv, hn, hi⟩ := ha
  simp only [serialPortIh, hv, hn, hi, serialPortReadByte_eq, hr, ne_eq, not_true_eq_false,
    if_false, Bool.not_false]

theorem value_ne_control {input : UartInput} {d : Decoder} (hd : ¬ InControl d) (byte : UInt8) :
    (serialSwitch input d).2 ≠ some (.control byte) := by
  have hd' : IsTypeTag d.receivingSerialPort := not_not.mp hd
  intro h
  obtain ht | ht | ht | ht | ht | ht := hd'
  all_goals
    simp +decide only [serialSwitch, ht, if_true, if_false] at h
    obtain ⟨v, -, hv⟩ := Option.map_eq_some_iff.mp h
    cases hv

theorem received_control_iff {input : UartInput} {byte : UInt8}
    (hno : ¬ NoByte input app.port.decoder) :
    received app input = some (.control byte) ↔ ReadsControl input app.port.decoder byte := by
  by_cases hd : InControl app.port.decoder
  swap
  · exact ⟨fun h => absurd h (value_ne_control hd byte), fun h => absurd h.1 hd⟩
  have ha : DataAvailable input := by
    by_contra hn
    exact hno (.inr ⟨hd, hn⟩)
  obtain ⟨b, hr⟩ := Option.ne_none_iff_exists'.mp fun hn => hno (.inl hn)
  rw [received, serialSwitch_control hd, ih_read ha hr]
  by_cases ht : IsTypeTag b
  · rw [if_pos ht]
    exact ⟨nofun, fun h => absurd (Option.some.inj (hr.symm.trans h.2.2.1) ▸ ht) h.2.2.2⟩
  · rw [if_neg ht]
    constructor
    · intro h
      cases h
      exact ⟨hd, ha, hr, ht⟩
    · intro h
      rw [Option.some.inj (hr.symm.trans h.2.2.1)]

theorem readsOnce_iff {input : UartInput} (hrace : app.currAppState = .raceState) :
    ReadsOnce random app input ↔ (NoByte input app.port.decoder → Harmless app input) := by
  refine ⟨fun h hno => (failed_inert_iff hrace hno).mp (h.inert hno), fun h => ⟨fun hno =>
    (failed_inert_iff hrace hno).mpr (h hno), fun byte hb => ?_, fun byte hb => ?_⟩⟩
  · refine (received_control_iff fun hno => ?_).mpr hb
    obtain hr | hr := hno
    · cases hr.symm.trans hb.2.2.1
    · exact hr.2 hb.2.1
  · by_cases hno : NoByte input app.port.decoder
    · exact .inl hno
    · exact .inr ((received_control_iff hno).mp hb)

end Control

/-- Over every run failed reads are without effect, and every control byte that is read is
acted upon once, exactly when each failed read takes up no byte that still has an effect. -/
theorem reads_once_iff (random : UInt32 → Nat → Nat) (dictionary : List Word) (es : List Event) :
    Guarded (step random) (fun app e => ∀ input, e = .serial input →
      app.currAppState = .raceState → ReadsOnce random app input) (initial dictionary) es ↔
    Guarded (step random) (fun app e => ∀ input, e = .serial input →
      app.currAppState = .raceState → NoByte input app.port.decoder → Harmless app input)
      (initial dictionary) es :=
  ⟨Guarded.mono fun _ _ h input he hrace => (readsOnce_iff hrace).mp (h input he hrace),
    Guarded.mono fun _ _ h input he hrace => (readsOnce_iff hrace).mpr (h input he hrace)⟩

def readyRead : App :=
  RunningRace.after ([.mousePress 0, .click .mainRace 0] ++ RunningRace.arrive [infoReady])

/-- The next read of IIR fails, and the program answers a second time. -/
theorem failed_iir_answers_again :
    run (step fun _ _ => 0) (initial [⟨[97], by decide⟩])
        ([.mousePress 0, .click .mainRace 0] ++ RunningRace.arrive [infoReady]) =
      some readyRead ∧ readyRead.currAppState = .raceState ∧
    thrBytes readyRead.port.out = [infoReadyAck] ∧
    ((step (fun _ _ => 0) readyRead (.serial ⟨none, none, none⟩)).map fun app =>
      thrBytes app.port.out) = some [infoReadyAck, infoReadyAck] := by
  decide +kernel

end WriteWise.FailedRead
