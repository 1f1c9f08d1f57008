import WriteWise.AbortedSend
import WriteWise.FailedRead

namespace WriteWise.FrameCursor

open Library Library.Runs Scancode Serial SerialStream Typing Program Steps RaceSteps
open Sending AbortedSend FailedRead

/-- A round of the main loop, or a change of the screen or a send at any time. -/
inductive Happening
  | event (e : Event)
  | screen (newState : AppState)
  | send (m : Message) (now : Nat)

def frameWidth (tag : UInt8) : Nat :=
  if tag = infoUInt ∨ tag = infoInt ∨ tag = infoFloat then 4 else 8

/-- The cursor is inside the frame that is read, and at its start between frames. -/
def InFrame (d : Decoder) : Prop :=
  if IsTypeTag d.receivingSerialPort then d.indexSerialPort < frameWidth d.receivingSerialPort
  else d.indexSerialPort = 0

/-- The bytes that have been read since the decoder last was in control mode, on the race screen. -/
def readSince (app : App) (since : List UInt8) : Happening → List UInt8
  | .event (.serial input) =>
    if app.currAppState ≠ .raceState then since
    else if IsTypeTag app.port.decoder.receivingSerialPort then since ++ (readByte input).toList
    else []
  | _ => since

section Machine

variable (random : UInt32 → Nat → Nat)

def happen (app : App) : Happening → Option App
  | .event e => step random app e
  | .screen newState => some { app with currAppState := newState }
  | .send m now => some (app.call (sendMessage m now))

def watch (s : App × List UInt8) (h : Happening) : Option (App × List UInt8) :=
  (happen random s.1 h).map fun next => (next, readSince s.1 s.2 h)

end Machine

section Frame

variable {random : UInt32 → Nat → Nat} {app next : App}

theorem decoder_sendByte (b : UInt8) (p : Port) : (serialPortSendByte b p).1.decoder = p.decoder :=
  (sendByte_sends p b).decoder

theorem decoder_clearFIFO (p : Port) : (serialPortClearFIFO p).1.decoder = p.decoder :=
  (clearFIFO_sends p).decoder

theorem decoder_answer (b : UInt8) (p : Port) :
    (serialPortSendByte b (serialPortClearFIFO p).1).1.decoder = p.decoder :=
  (clear_sendByte_sends p b).decoder

theorem decoder_sendValue (tag : UInt8) (width n now : Nat) (p : Port) :
    (serialPortSendValue tag width n now p).1.decoder = p.decoder := by
  obtain ⟨-, k, -, h⟩ | ⟨-, q, h, he⟩ := sendValue_sends p tag width n now
  · exact h.decoder
  · rw [he]
    exact h.decoder

theorem decoder_sendMessage (m : Message) (now : Nat) (p : Port) :
    (sendMessage m now p).1.decoder = p.decoder := by
  cases m with
  | control b => exact decoder_sendByte b p
  | _ => exact decoder_sendValue _ _ _ _ p

theorem decoder_checkIfReady (h : app.checkIfReady random = some next) :
    next.port.decoder = app.port.decoder := by
  obtain rfl | ⟨t, seed, startTime, rfl⟩ := checkIfReady_frame h
  · rfl
  · rfl

theorem decoder_handleAck {byte : UInt8} (h : app.handleAck random byte = some next) :
    next.port.decoder = app.port.decoder := by
  obtain ⟨-, rfl⟩ | ⟨-, u, hu, rfl⟩ := handleAck_step h
  · rfl
  cases hu with
  | ack => rfl
  | readyAck hc => exact (decoder_checkIfReady hc).trans rfl
  | nreadyAck => rfl
  | other => exact decoder_clearFIFO app.port

theorem decoder_handleControl {byte : UInt8} (h : app.handleControl random byte = some next) :
    next.port.decoder = app.port.decoder := by
  unfold App.handleControl at h
  split at h
  · cases h
    exact decoder_answer infoReadyAck app.port
  split at h
  · cases h
    exact decoder_answer infoNReadyAck app.port
  · rw [decoder_handleAck h, handleExit_port, handleWon_port]

theorem decoder_handleMessage {m : Message} (h : app.handleMessage random m = some next) :
    next.port.decoder = app.port.decoder := by
  cases m with
  | ulong seed =>
    obtain ⟨u, hu, rfl⟩ := Option.map_eq_some_iff.mp h
    refine (decoder_answer infoAck u.port).trans ?_
    split at hu
    · obtain ⟨v, hv, rfl⟩ := Option.map_eq_some_iff.mp hu
      exact (decoder_checkIfReady hv).trans rfl
    · cases hu
      rfl
  | control byte => exact decoder_handleControl h
  | _ =>
    cases h
    exact decoder_answer infoAck app.port

theorem decoder_changeState {newState : AppState} {now : UInt64}
    (h : app.changeState random newState now = some next) :
    next.port.decoder = app.port.decoder := by
  have hexit : (if app.currAppState = .raceState then app.call serialPortSendExit
      else app).port.decoder = app.port.decoder := by
    split
    · exact decoder_sendByte infoExit app.port
    · rfl
  unfold App.changeState at h
  simp only at h
  refine Eq.trans ?_ hexit
  cases newState with
  | trainingState =>
    obtain ⟨t, -, rfl⟩ := Option.map_eq_some_iff.mp h
    rfl
  | raceState =>
    cases h
    exact decoder_clearFIFO _
  | _ =>
    cases h
    rfl

theorem decoder_raceReadyButton (now : UInt64) :
    (app.raceReadyButton now).port.decoder = app.port.decoder := by
  unfold App.raceReadyButton
  split
  · split
    · exact decoder_sendByte infoNReady _
    · exact (decoder_sendValue infoULong 8 _ _ _).trans (decoder_sendByte infoReady _)
  · rfl

theorem decoder_timerInterrupt : app.timerInterrupt.port.decoder = app.port.decoder := by
  unfold App.timerInterrupt
  simp only
  split
  · rw [call_port, decoder_clearFIFO, tick_port]
  · rw [tick_port]

theorem decoder_step {e : Event} (h : step random app e = some next)
    (he : ∀ input, e ≠ .serial input) : next.port.decoder = app.port.decoder := by
  cases round_of_step h with
  | timer does => rw [does, decoder_timerInterrupt]
  | serial input => exact absurd rfl (he input)
  | screen keyboard newState now home does => exact (decoder_changeState does).trans rfl
  | typing byte now keyboard does =>
    obtain ⟨t, rfl⟩ | ⟨-, t, rfl⟩ := handler_frame does
    · rfl
    · exact decoder_sendByte infoWon _
  | ready now screen does => rw [does, decoder_raceReadyButton]
  | reset now screen does =>
    rw [does, App.raceResetButton]
    split
    · rfl
    · rfl
  | training now screen does =>
    obtain ⟨t, -, rfl⟩ := Option.map_eq_some_iff.mp does
    rfl
  | idle keyboard does => rw [does]
  | kernel answers does => rw [does]

theorem decoder_serialInterrupt {input : UartInput} (hrace : app.currAppState = .raceState)
    (h : app.serialInterrupt random input = some next) :
    next.port.decoder = (serialSwitch input app.port.decoder).1 := by
  rw [App.serialInterrupt, if_neg (fun hn => hn hrace)] at h
  simp only at h
  split at h
  · cases h
    rfl
  · exact (decoder_handleMessage h).trans rfl

end Frame

section Frames

variable {d : Decoder}

theorem frameWidth_pos (tag : UInt8) : 0 < frameWidth tag := by
  unfold frameWidth
  split
  · decide
  · decide

theorem frameWidth_le (tag : UInt8) : frameWidth tag ≤ 8 := by
  unfold frameWidth
  split
  · decide
  · decide

theorem switch_value (hd : IsTypeTag d.receivingSerialPort) : ∃ value : Nat → Message,
    (∀ input, serialSwitch input d =
      (serialPortReadValue (frameWidth d.receivingSerialPort) input d).map id
        (Option.map value)) ∧
    ∀ bs, bs.length = frameWidth d.receivingSerialPort →
      encode (value (LittleEndian.decode bs)) = d.receivingSerialPort :: bs := by
  obtain h | h | h | h | h | h := hd
  · refine ⟨fun n => .ulong (UInt64.ofNat n), fun input => ?_, fun bs hbs => ?_⟩
    · simp +decide only [serialSwitch, serialPortReadULong, h, if_true, if_false, map_map_value]
      rfl
    · rw [h] at hbs ⊢
      exact congrArg _ (encode_word hbs)
  · refine ⟨fun n => .uint (UInt32.ofNat n), fun input => ?_, fun bs hbs => ?_⟩
    · simp +decide only [serialSwitch, serialPortReadUInt, h, if_true, if_false, map_map_value]
      rfl
    · rw [h] at hbs ⊢
      exact congrArg _ (encode_halfWord hbs)
  · refine ⟨fun n => .float (UInt32.ofNat n), fun input => ?_, fun bs hbs => ?_⟩
    · simp +decide only [serialSwitch, serialPortReadFloat, h, if_true, if_false, map_map_value]
      rfl
    · rw [h] at hbs ⊢
      exact congrArg _ (encode_halfWord hbs)
  · refine ⟨fun n => .long (UInt64.ofNat n).toInt64, fun input => ?_, fun bs hbs => ?_⟩
    · simp +decide only [serialSwitch, serialPortReadLong, h, if_true, if_false, map_map_value]
      rfl
    · rw [h] at hbs ⊢
      exact congrArg _ (encode_word hbs)
  · refine ⟨fun n => .int (UInt32.ofNat n).toInt32, fun input => ?_, fun bs hbs => ?_⟩
    · simp +decide only [serialSwitch, serialPortReadInt, h, if_true, if_false, map_map_value]
      rfl
    · rw [h] at hbs ⊢
      exact congrArg _ (encode_halfWord hbs)
  · refine ⟨fun n => .double (UInt64.ofNat n), fun input => ?_, fun bs hbs => ?_⟩
    · simp +decide only [serialSwitch, serialPortReadDouble, h, if_true, if_false, map_map_value]
      rfl
    · rw [h] at hbs ⊢
      exact congrArg _ (encode_word hbs)

theorem switch_control (hd : ¬ IsTypeTag d.receivingSerialPort) (input : UartInput) :
    (serialSwitch input d).1.indexSerialPort = d.indexSerialPort ∧
      (serialSwitch input d).1.bitsSerialPort = d.bitsSerialPort := by
  have hread : (serialPortReadByte input d).1.indexSerialPort = d.indexSerialPort ∧
      (serialPortReadByte input d).1.bitsSerialPort = d.bitsSerialPort := by
    rw [serialPortReadByte_eq]
    split
    · exact ⟨rfl, rfl⟩
    · exact ⟨rfl, rfl⟩
  have hih : (serialPortIh input d).1.indexSerialPort = d.indexSerialPort ∧
      (serialPortIh input d).1.bitsSerialPort = d.bitsSerialPort := by
    unfold serialPortIh
    split
    · exact ⟨rfl, rfl⟩
    split
    · exact ⟨rfl, rfl⟩
    split
    · exact ⟨rfl, rfl⟩
    simp only
    split
    · exact hread
    · exact hread
  rw [serialSwitch_control hd]
  split
  · rename_i heq
    rw [heq] at hih
    exact hih
  · rename_i heq
    rw [heq] at hih
    exact hih

/-- The buffer up to the cursor holds the bytes of the frame in progress. -/
structure Reads (d : Decoder) (since : List UInt8) : Prop where
  control : ¬ IsTypeTag d.receivingSerialPort → d.indexSerialPort = 0
  index : IsTypeTag d.receivingSerialPort → d.indexSerialPort = since.length
  inside : IsTypeTag d.receivingSerialPort → since.length < frameWidth d.receivingSerialPort
  bytes : IsTypeTag d.receivingSerialPort → d.bitsSerialPort.toList.take since.length = since

theorem Reads.inFrame {since : List UInt8} (h : Reads d since) : InFrame d := by
  unfold InFrame
  split
  · rename_i htag
    rw [h.index htag]
    exact h.inside htag
  · exact h.control ‹_›

theorem switch_read {since : List UInt8} (h : Reads d since)
    (htag : IsTypeTag d.receivingSerialPort) {input : UartInput} {b : UInt8}
    (hb : readByte input = some b) :
    (serialSwitch input d).1.bitsSerialPort = d.bitsSerialPort.setIfInBounds since.length b ∧
      ((since.length + 1 < frameWidth d.receivingSerialPort ∧
        (serialSwitch input d).1.receivingSerialPort = d.receivingSerialPort ∧
        (serialSwitch input d).1.indexSerialPort = since.length + 1 ∧
        (serialSwitch input d).2 = none) ∨
      (since.length + 1 = frameWidth d.receivingSerialPort ∧
        (serialSwitch input d).1.receivingSerialPort = infoAck ∧
        (serialSwitch input d).1.indexSerialPort = 0 ∧
        ∃ m, (serialSwitch input d).2 = some m ∧
          encode m = d.receivingSerialPort :: (since ++ [b]))) := by
  obtain ⟨value, hswitch, hvalue⟩ := switch_value htag
  have hinside := h.inside htag
  have hwidth := frameWidth_le d.receivingSerialPort
  rw [hswitch, serialPortReadValue, serialPortReadByte_eq, hb]
  simp only [h.index htag]
  split
  · exact ⟨rfl, .inl ⟨‹_›, rfl, rfl, rfl⟩⟩
  · rename_i hlast
    have hend : since.length + 1 = frameWidth d.receivingSerialPort := by omega
    have htake : (d.bitsSerialPort.toList.set since.length b).take
        (frameWidth d.receivingSerialPort) = since ++ [b] := by
      rw [← hend, take_set_succ _ (by rw [Vector.length_toList]; omega), h.bytes htag]
    refine ⟨rfl, .inr ⟨hend, rfl, rfl, _, rfl, ?_⟩⟩
    rw [Vector.toList_setIfInBounds, htake, hvalue _ (by rw [List.length_append]; exact hend)]

theorem Reads.switch {since : List UInt8} (h : Reads d since) (input : UartInput) :
    Reads (serialSwitch input d).1
      (if IsTypeTag d.receivingSerialPort then since ++ (readByte input).toList else []) := by
  by_cases htag : IsTypeTag d.receivingSerialPort
  · rw [if_pos htag]
    cases hb : readByte input with
    | none =>
      rw [serialSwitch_value hb (not_not.mpr htag), Option.toList_none, List.append_nil]
      exact h
    | some b =>
      have hlen : (since ++ [b]).length = since.length + 1 := List.length_append
      obtain ⟨hbits, ⟨hlt, hrecv, hindex, -⟩ | ⟨-, hrecv, hindex, -⟩⟩ := switch_read h htag hb
      · have htag' : IsTypeTag (serialSwitch input d).1.receivingSerialPort := by rwa [hrecv]
        refine ⟨fun hn => absurd htag' hn, fun _ => ?_, fun _ => ?_, fun _ => ?_⟩
        · rw [hindex, Option.toList_some, hlen]
        · rw [hrecv, Option.toList_some, hlen]
          exact hlt
        · have hwidth := frameWidth_le d.receivingSerialPort
          rw [hbits, Option.toList_some, hlen, Vector.toList_setIfInBounds,
            take_set_succ _ (by rw [Vector.length_toList]; omega), h.bytes htag]
      · have hn : ¬ IsTypeTag (serialSwitch input d).1.receivingSerialPort := by
          rw [hrecv]
          decide
        exact ⟨fun _ => hindex, fun ht => absurd ht hn, fun ht => absurd ht hn,
          fun ht => absurd ht hn⟩
  · rw [if_neg htag]
    have hindex : (serialSwitch input d).1.indexSerialPort = 0 :=
      (switch_control htag input).1.trans (h.control htag)
    exact ⟨fun _ => hindex, fun _ => hindex, fun _ => frameWidth_pos _, fun _ => rfl⟩

theorem Reads.index_lt {since : List UInt8} (h : Reads d since) : d.indexSerialPort < 8 := by
  by_cases htag : IsTypeTag d.receivingSerialPort
  · rw [h.index htag]
    exact (h.inside htag).trans_le (frameWidth_le d.receivingSerialPort)
  · rw [h.control htag]
    exact Nat.succ_pos 7

/-- The buffer is written at the cursor or not at all. -/
theorem Reads.bits {since : List UInt8} (h : Reads d since) (input : UartInput) :
    (serialSwitch input d).1.bitsSerialPort = d.bitsSerialPort ∨
      ∃ b, readByte input = some b ∧ (serialSwitch input d).1.bitsSerialPort =
        d.bitsSerialPort.set d.indexSerialPort b h.index_lt := by
  by_cases htag : IsTypeTag d.receivingSerialPort
  · cases hb : readByte input with
    | none => exact .inl (by rw [serialSwitch_value hb (not_not.mpr htag)])
    | some b =>
      refine .inr ⟨b, rfl, ?_⟩
      rw [(switch_read h htag hb).1, ← h.index htag]
      apply Vector.toList_inj.mp
      rw [Vector.toList_setIfInBounds, Vector.toList_set]
  · exact .inl (switch_control htag input).2

/-- A value is delivered at the last byte of its frame, and is made of the bytes of it. -/
theorem Reads.completes {since : List UInt8} (h : Reads d since)
    (htag : IsTypeTag d.receivingSerialPort) {input : UartInput} {m : Message}
    (hm : (serialSwitch input d).2 = some m) :
    ∃ b, readByte input = some b ∧
      (since ++ [b]).length = frameWidth d.receivingSerialPort ∧
      encode m = d.receivingSerialPort :: (since ++ [b]) := by
  cases hb : readByte input with
  | none =>
    rw [serialSwitch_value hb (not_not.mpr htag)] at hm
    cases hm
  | some b =>
    obtain ⟨-, ⟨-, -, -, hn⟩ | ⟨hend, -, -, m', hm', henc⟩⟩ := switch_read h htag hb
    · rw [hn] at hm
      cases hm
    · rw [hm'] at hm
      cases hm
      exact ⟨b, rfl, List.length_append.trans hend, henc⟩

end Frames

section Run

variable {random : UInt32 → Nat → Nat} {app next : App} {since : List UInt8}

theorem reads_event {e : Event} (h : Reads app.port.decoder since)
    (hs : step random app e = some next) :
    Reads next.port.decoder (readSince app since (.event e)) := by
  cases e with
  | serial input =>
    have hserial : app.serialInterrupt random input = some next := by
      rw [step] at hs
      split at hs
      · cases hs
      · exact hs
    by_cases hrace : app.currAppState = .raceState
    · simp only [readSince, hrace, ne_eq, not_true_eq_false, if_false]
      rw [decoder_serialInterrupt hrace hserial]
      exact h.switch input
    · rw [App.serialInterrupt, if_pos hrace] at hserial
      cases hserial
      simp only [readSince, ne_eq, hrace, not_false_eq_true, if_true]
      exact h
  | _ =>
    rw [decoder_step hs (by simp)]
    exact h

/-- No happening takes the cursor out of its frame. -/
theorem reads_happening {s t : App × List UInt8} {e : Happening} (h : Reads s.1.port.decoder s.2)
    (hs : watch random s e = some t) : Reads t.1.port.decoder t.2 := by
  obtain ⟨next, hnext, rfl⟩ := Option.map_eq_some_iff.mp hs
  cases e with
  | event e => exact reads_event h hnext
  | screen newState =>
    cases hnext
    exact h
  | send m now =>
    cases hnext
    simp only [readSince, call_port, decoder_sendMessage]
    exact h

theorem reads_run {words : List Word} {hs : List Happening}
    (hr : run (watch random) (initial words, []) hs = some (app, since)) :
    Reads app.port.decoder since := by
  have hinitial : Reads (initial words).port.decoder [] :=
    ⟨fun _ => rfl, fun _ => rfl, fun _ => frameWidth_pos _, fun _ => rfl⟩
  exact invariant (P := fun _ _ => True) (I := fun s => Reads s.1.port.decoder s.2)
    (fun s e t h _ hs => reads_happening h hs) hinitial
    (guarded_of_forall (fun _ _ _ => trivial) _) hr

/-- In every reachable state the cursor is inside its frame, so that the buffer is
written in range and every value is made of the bytes read for it. -/
theorem cursor_in_frame {words : List Word} {hs : List Happening}
    (hr : run (watch random) (initial words, []) hs = some (app, since)) :
    InFrame app.port.decoder ∧
      (∃ hi : app.port.decoder.indexSerialPort < 8, ∀ input,
        (serialSwitch input app.port.decoder).1.bitsSerialPort =
            app.port.decoder.bitsSerialPort ∨
          ∃ b, readByte input = some b ∧
            (serialSwitch input app.port.decoder).1.bitsSerialPort =
              app.port.decoder.bitsSerialPort.set app.port.decoder.indexSerialPort b hi) ∧
      (IsTypeTag app.port.decoder.receivingSerialPort → ∀ input m,
        (serialSwitch input app.port.decoder).2 = some m →
          ∃ b, readByte input = some b ∧
            (since ++ [b]).length = frameWidth app.port.decoder.receivingSerialPort ∧
            encode m = app.port.decoder.receivingSerialPort :: (since ++ [b])) := by
  have h := reads_run hr
  exact ⟨h.inFrame, ⟨h.index_lt, h.bits⟩, fun htag _ _ hm => h.completes htag hm⟩

/-- The screen is left after the first byte of the seed and entered again, and a read fails
before the second byte comes. -/
def detour : List Happening :=
  [.screen .raceState, .event (.serial (fresh infoULong)), .event (.serial (fresh 0x11)),
    .screen .mainState, .event (.serial (fresh 0x33)), .send (.control infoReady) 7,
    .screen .raceState, .event (.serial ⟨none, none, none⟩), .event (.serial (fresh 0x22))]

theorem cursor_in_frame_detour : ∃ app : App,
    run (watch fun _ _ => 0) (initial [], []) detour = some (app, [0x11, 0x22]) ∧
      InFrame app.port.decoder := by
  obtain ⟨app, happ⟩ : ∃ app : App,
      run (watch fun _ _ => 0) (initial [], []) detour = some (app, [0x11, 0x22]) := ⟨_, rfl⟩
  exact ⟨app, happ, (cursor_in_frame happ).1⟩

end Run

end WriteWise.FrameCursor
