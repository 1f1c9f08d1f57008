import WriteWise.Serial

namespace WriteWise.SerialStream

open Library Library.Framing Serial

/-- The UART reports and delivers the byte without an error. The bits of IIR and
LSR that the driver does not look at are arbitrary. -/
structure Delivers (input : UartInput) (b : UInt8) : Prop where
  iir : ∃ v, input.iir = some v ∧ v &&& iirNoInterruptPending = 0 ∧
    v &&& iirInterruptPendingInfo = iirReceivedDataAvailable
  lsr : ∃ v, input.lsr = some v ∧ v &&& lsrOverrunError = 0 ∧ v &&& lsrParityError = 0 ∧
    v &&& lsrFramingError = 0 ∧ v &&& lsrDataReady ≠ 0
  rbr : input.rbr = some b

def fresh (b : UInt8) : UartInput :=
  ⟨some iirReceivedDataAvailable, some lsrDataReady, some b⟩

theorem fresh_delivers (b : UInt8) : Delivers (fresh b) b :=
  ⟨⟨_, rfl, by decide, by decide⟩, ⟨_, rfl, by decide, by decide, by decide, by decide⟩, rfl⟩

theorem readByte_delivers {input : UartInput} {b : UInt8} (h : Delivers input b) (d : Decoder) :
    serialPortReadByte input d = ({ d with serialPortByte := b }, false) := by
  obtain ⟨v, hv, ho, hp, hf, hr⟩ := h.lsr
  simp only [serialPortReadByte, hv, ho, hp, hf, hr, h.rbr, ne_eq, not_true_eq_false, if_false]

theorem ih_delivers {input : UartInput} {b : UInt8} (h : Delivers input b) (d : Decoder) :
    serialPortIh input d =
      if IsTypeTag b then ({ d with serialPortByte := b, receivingSerialPort := b }, false)
      else ({ d with serialPortByte := b }, true) := by
  obtain ⟨v, hv, hn, hi⟩ := h.iir
  simp only [serialPortIh, hv, hn, hi, readByte_delivers h, ne_eq, not_true_eq_false, if_false,
    Bool.not_false]

def accept (d : Decoder) (b : UInt8) : Decoder × Option Message := serialSwitch (fresh b) d

theorem serialSwitch_delivers {input : UartInput} {b : UInt8} (h : Delivers input b)
    (d : Decoder) : serialSwitch input d = accept d b := by
  have hb := fresh_delivers b
  simp only [accept, serialSwitch, serialPortReadULong, serialPortReadLong, serialPortReadUInt,
    serialPortReadInt, serialPortReadFloat, serialPortReadDouble, serialPortReadValue,
    readByte_delivers h, readByte_delivers hb, ih_delivers h, ih_delivers hb]

def Idle (d : Decoder) : Prop := d.receivingSerialPort = infoAck ∧ d.indexSerialPort = 0

theorem accept_tag {d : Decoder} (hd : Idle d) {b : UInt8} (hb : IsTypeTag b) :
    accept d b = ({ d with serialPortByte := b, receivingSerialPort := b }, none) := by
  simp +decide [accept, serialSwitch, hd.1, ih_delivers (fresh_delivers b), hb]

theorem accept_control {d : Decoder} (hd : Idle d) {b : UInt8} (hb : ¬ IsTypeTag b) :
    accept d b = ({ d with serialPortByte := b }, some (.control b)) := by
  simp +decide [accept, serialSwitch, hd.1, ih_delivers (fresh_delivers b), hb]

def Collects (tag : UInt8) (width : Nat) (value : Nat → Message) : Prop :=
  ∀ d b, d.receivingSerialPort = tag →
    accept d b = (serialPortReadValue width (fresh b) d).map id (Option.map value)

theorem map_map_value {α : Type} (f : Nat → α) (g : α → Message) (r : Decoder × Option Nat) :
    (r.map id (Option.map f)).map id (Option.map g) = r.map id (Option.map fun n => g (f n)) := by
  obtain ⟨d, _ | n⟩ := r <;> rfl

theorem collects_ulong : Collects infoULong 8 fun n => .ulong (UInt64.ofNat n) := by
  intro d b hd
  simp +decide only [accept, serialSwitch, hd, serialPortReadULong, if_true, if_false,
    map_map_value]

theorem collects_long : Collects infoLong 8 fun n => .long (UInt64.ofNat n).toInt64 := by
  intro d b hd
  simp +decide only [accept, serialSwitch, hd, serialPortReadLong, if_true, if_false,
    map_map_value]

theorem collects_uint : Collects infoUInt 4 fun n => .uint (UInt32.ofNat n) := by
  intro d b hd
  simp +decide only [accept, serialSwitch, hd, serialPortReadUInt, if_true, if_false,
    map_map_value]

theorem collects_int : Collects infoInt 4 fun n => .int (UInt32.ofNat n).toInt32 := by
  intro d b hd
  simp +decide only [accept, serialSwitch, hd, serialPortReadInt, if_true, if_false,
    map_map_value]

theorem collects_float : Collects infoFloat 4 fun n => .float (UInt32.ofNat n) := by
  intro d b hd
  simp +decide only [accept, serialSwitch, hd, serialPortReadFloat, if_true, if_false,
    map_map_value]

theorem collects_double : Collects infoDouble 8 fun n => .double (UInt64.ofNat n) := by
  intro d b hd
  simp +decide only [accept, serialSwitch, hd, serialPortReadDouble, if_true, if_false,
    map_map_value]

theorem take_set_succ {α : Type} (l : List α) {i : Nat} (hi : i < l.length) (b : α) :
    (l.set i b).take (i + 1) = l.take i ++ [b] := by
  rw [List.take_succ_eq_append_getElem (by simpa using hi), List.getElem_set_self,
    List.take_set_of_le (le_refl i)]

theorem receive_value {tag : UInt8} {width : Nat} {value : Nat → Message}
    (hc : Collects tag width value) (hw : width ≤ 8) (l : List UInt8) (hl : l ≠ []) (d : Decoder)
    (ht : d.receivingSerialPort = tag) (hi : d.indexSerialPort + l.length = width) :
    Idle (receive accept d l).1 ∧ (receive accept d l).2 =
      [value (LittleEndian.decode (d.bitsSerialPort.toList.take d.indexSerialPort ++ l))] := by
  induction l generalizing d with
  | nil => exact absurd rfl hl
  | cons b l ih =>
    have hlt : d.indexSerialPort < d.bitsSerialPort.toList.length := by
      simp only [List.length_cons, Vector.length_toList] at *
      omega
    have ha := hc d b ht
    simp only [serialPortReadValue, readByte_delivers (fresh_delivers b)] at ha
    by_cases hn : l = []
    · subst hn
      have hd : ¬ d.indexSerialPort + 1 < width := by
        simp only [List.length_cons, List.length_nil] at hi
        omega
      have htake : (d.bitsSerialPort.toList.set d.indexSerialPort b).take width =
          d.bitsSerialPort.toList.take d.indexSerialPort ++ [b] := by
        rw [← hi]
        exact take_set_succ _ hlt b
      rw [if_neg hd] at ha
      simp only [receive, ha, Prod.map, id, Option.map_some, Option.toList_some,
        List.append_nil, Vector.toList_setIfInBounds, htake]
      exact ⟨⟨rfl, rfl⟩, trivial⟩
    · have hpos : 0 < l.length := List.length_pos_iff.mpr hn
      have hd : d.indexSerialPort + 1 < width := by
        simp only [List.length_cons] at hi
        omega
      rw [if_pos hd] at ha
      have hindex : (accept d b).1.indexSerialPort + l.length = width := by
        rw [ha, ← hi, List.length_cons]
        exact Nat.add_right_comm d.indexSerialPort 1 l.length
      have h := ih hn (accept d b).1 (by rw [ha]; exact ht) hindex
      simp only [receive]
      rw [ha] at h ⊢
      simpa only [Prod.map, id, Option.map_none, Option.toList_none, List.nil_append,
        Vector.toList_setIfInBounds, take_set_succ _ hlt b, List.append_assoc,
        List.singleton_append] using h

theorem receive_frame {tag : UInt8} {width : Nat} {value : Nat → Message}
    (hc : Collects tag width value) (htag : IsTypeTag tag) (hw : width ≤ 8) (hpos : 0 < width)
    {n : Nat} (hn : n < 256 ^ width) {d : Decoder} (hd : Idle d) :
    Idle (receive accept d (tag :: LittleEndian.encode width n)).1 ∧
      (receive accept d (tag :: LittleEndian.encode width n)).2 = [value n] := by
  have hl : LittleEndian.encode width n ≠ [] := by
    rw [← List.length_pos_iff, LittleEndian.length_encode]
    exact hpos
  have h := receive_value hc hw _ hl { d with serialPortByte := tag, receivingSerialPort := tag }
    rfl (by simp [hd.2])
  simp only [receive, accept_tag hd htag, Option.toList_none, List.nil_append]
  simpa only [hd.2, List.take_zero, List.nil_append, LittleEndian.decode_encode width n hn] using h

def encode : Message → List UInt8
  | .ulong v => infoULong :: LittleEndian.encode 8 v.toNat
  | .long v => infoLong :: LittleEndian.encode 8 v.toUInt64.toNat
  | .uint v => infoUInt :: LittleEndian.encode 4 v.toNat
  | .int v => infoInt :: LittleEndian.encode 4 v.toUInt32.toNat
  | .float v => infoFloat :: LittleEndian.encode 4 v.toNat
  | .double v => infoDouble :: LittleEndian.encode 8 v.toNat
  | .control b => [b]

theorem receive_word {tag : UInt8} {value : Nat → Message} (hc : Collects tag 8 value)
    (htag : IsTypeTag tag) (v : UInt64) {d : Decoder} (hd : Idle d) :
    Idle (receive accept d (tag :: LittleEndian.encode 8 v.toNat)).1 ∧
      (receive accept d (tag :: LittleEndian.encode 8 v.toNat)).2 = [value v.toNat] :=
  receive_frame hc htag (by decide) (by decide) (UInt64.toNat_lt v) hd

theorem receive_halfWord {tag : UInt8} {value : Nat → Message} (hc : Collects tag 4 value)
    (htag : IsTypeTag tag) (v : UInt32) {d : Decoder} (hd : Idle d) :
    Idle (receive accept d (tag :: LittleEndian.encode 4 v.toNat)).1 ∧
      (receive accept d (tag :: LittleEndian.encode 4 v.toNat)).2 = [value v.toNat] :=
  receive_frame hc htag (by decide) (by decide) (UInt32.toNat_lt v) hd

theorem encode_framed : Framed accept Idle encode Message.Valid := by
  intro d m hd hm
  cases m with
  | ulong v => simpa [encode] using receive_word collects_ulong (by decide) v hd
  | long v => simpa [encode] using receive_word collects_long (by decide) v.toUInt64 hd
  | uint v => simpa [encode] using receive_halfWord collects_uint (by decide) v hd
  | int v => simpa [encode] using receive_halfWord collects_int (by decide) v.toUInt32 hd
  | float v => simpa [encode] using receive_halfWord collects_float (by decide) v hd
  | double v => simpa [encode] using receive_word collects_double (by decide) v hd
  | control b =>
    simp only [encode, receive, accept_control hd hm, Option.toList_some, List.append_nil]
    exact ⟨hd, trivial⟩

/-- Transmit a message by the function of the driver for its kind. A control
byte goes out through `serialPortSendByte`. -/
def send (m : Message) (now : Nat) (p : Port) : Port :=
  match m with
  | .ulong v => (serialPortSendULong v now p).1
  | .long v => (serialPortSendLong v now p).1
  | .uint v => (serialPortSendUInt v now p).1
  | .int v => (serialPortSendInt v now p).1
  | .float v => (serialPortSendFloat v now p).1
  | .double v => (serialPortSendDouble v now p).1
  | .control b => (serialPortSendByte b p).1

def sendAll : List (Message × Nat) → Port → Port
  | [], p => p
  | (m, now) :: ms, p => sendAll ms (send m now p)

theorem send_reliable {p : Port} (h : p.answers = []) (m : Message) (now : Nat) :
    (send m now p).answers = [] ∧
      thrBytes (send m now p).out = thrBytes p.out ++ encode m := by
  cases m with
  | control b =>
    simp only [send, sendByte_reliable h, Port.writes, thrBytes_append]
    exact ⟨h, rfl⟩
  | _ =>
    simp only [send, serialPortSendULong, serialPortSendLong, serialPortSendUInt, serialPortSendInt,
      serialPortSendFloat, serialPortSendDouble, sendValue_reliable h, Port.writes,
      thrBytes_append, thrBytes_map_thr]
    exact ⟨h, rfl⟩

theorem sendAll_reliable {p : Port} (h : p.answers = []) (ms : List (Message × Nat)) :
    thrBytes (sendAll ms p).out = thrBytes p.out ++ (ms.map Prod.fst).flatMap encode := by
  induction ms generalizing p with
  | nil => simp [sendAll]
  | cons m ms ih =>
    obtain ⟨ha, ho⟩ := send_reliable h m.1 m.2
    simp only [sendAll, ih ha, ho, List.map_cons, List.flatMap_cons, List.append_assoc]

theorem receive_delivers {inputs : List UartInput} {bs : List UInt8}
    (h : List.Forall₂ Delivers inputs bs) (d : Decoder) :
    receive (fun d input => serialSwitch input d) d inputs = receive accept d bs := by
  induction h generalizing d with
  | nil => rfl
  | cons hb _ ih => simp only [receive, serialSwitch_delivers hb, ih]

/-- Whatever one peer sends, the main loop of the other recognises: the same
messages, each once and in order, whatever bytes the values consist of. -/
theorem stream_round_trip (ms : List (Message × Nat)) (hms : ∀ m ∈ ms, m.1.Valid)
    (p : Port) (hp : p.answers = []) (hout : p.out = []) (inputs : List UartInput)
    (hin : List.Forall₂ Delivers inputs (thrBytes (sendAll ms p).out))
    (d : Decoder) (hd : Idle d) :
    Idle (receive (fun d input => serialSwitch input d) d inputs).1 ∧
      (receive (fun d input => serialSwitch input d) d inputs).2 = ms.map Prod.fst := by
  have hb : thrBytes (sendAll ms p).out = (ms.map Prod.fst).flatMap encode := by
    rw [sendAll_reliable hp, hout]
    rfl
  rw [hb] at hin
  rw [receive_delivers hin]
  refine encode_framed.stream hd _ fun m hm => ?_
  obtain ⟨x, hx, rfl⟩ := List.mem_map.mp hm
  exact hms x hx

theorem stream_round_trip_seed :
    (receive (fun d input => serialSwitch input d) {}
      ((thrBytes (sendAll [(.control infoReady, 7), (.ulong 0xF8F2, 7)] {}).out).map fresh)).2 =
        [.control infoReady, .ulong 0xF8F2] :=
  (stream_round_trip [(.control infoReady, 7), (.ulong 0xF8F2, 7)]
    (by
      intro m hm
      obtain rfl | hm := List.mem_cons.mp hm
      · exact (by decide : ¬ IsTypeTag infoReady)
      · obtain rfl := List.mem_singleton.mp hm
        trivial)
    {} rfl rfl _
    (List.forall₂_map_left_iff.mpr (List.forall₂_same.mpr fun b _ => fresh_delivers b))
    {} ⟨rfl, rfl⟩).2

end WriteWise.SerialStream
