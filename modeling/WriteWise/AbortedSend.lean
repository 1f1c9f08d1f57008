import WriteWise.Library.Runs
import WriteWise.Sending
import WriteWise.SerialStream

namespace WriteWise.AbortedSend

open Library Library.Runs Library.Framing Serial SerialStream Sending

/-- The functions of the driver that transmit a message, with what they return. -/
def sendMessage (m : Message) (now : Nat) (p : Port) : Port × Bool :=
  match m with
  | .ulong v => serialPortSendULong v now p
  | .long v => serialPortSendLong v now p
  | .uint v => serialPortSendUInt v now p
  | .int v => serialPortSendInt v now p
  | .float v => serialPortSendFloat v now p
  | .double v => serialPortSendDouble v now p
  | .control b => serialPortSendByte b p

def IsValue : Message → Prop
  | .control _ => False
  | _ => True

/-- One after the other these sends return no error. -/
def Succeed : List (Message × Nat) → Port → Prop
  | [], _ => True
  | (m, now) :: ms, p => (sendMessage m now p).2 = false ∧ Succeed ms (send m now p)

instance decidableSucceed : ∀ ms p, Decidable (Succeed ms p)
  | [], _ => .isTrue trivial
  | (m, now) :: ms, p =>
    have : Decidable (Succeed ms (send m now p)) := decidableSucceed ms _
    inferInstanceAs (Decidable (_ ∧ _))

theorem send_eq (m : Message) (now : Nat) (p : Port) : send m now p = (sendMessage m now p).1 := by
  cases m <;> rfl

theorem sendMessage_ok {m : Message} {now : Nat} {p : Port}
    (h : (sendMessage m now p).2 = false) :
    thrBytes (sendMessage m now p).1.out = thrBytes p.out ++ encode m := by
  have hvalue {tag : UInt8} {width n : Nat}
      (h : (serialPortSendValue tag width n now p).2 = false) :
      thrBytes (serialPortSendValue tag width n now p).1.out =
        thrBytes p.out ++ tag :: LittleEndian.encode width n := by
    obtain ⟨hr, -⟩ | ⟨-, q, hq, he⟩ := sendValue_sends p tag width n now
    · cases hr.symm.trans h
    · rw [he]
      exact hq.out
  cases m with
  | control b =>
    have hs := sendByte_sends p b
    have hr : (serialPortSendByte b p).2 = false := h
    rw [hr] at hs
    exact hs.out
  | _ => exact hvalue h

/-- A value send that returns an error has put the beginning of the frame on the line. -/
theorem sendMessage_cut {m : Message} (hm : IsValue m) {now : Nat} {p : Port}
    (h : (sendMessage m now p).2 = true) :
    ∃ bs, bs <+: encode m ∧ bs.length < (encode m).length ∧
      thrBytes (sendMessage m now p).1.out = thrBytes p.out ++ bs := by
  have hvalue {tag : UInt8} {width n : Nat}
      (h : (serialPortSendValue tag width n now p).2 = true) :
      ∃ bs, bs <+: tag :: LittleEndian.encode width n ∧
        bs.length < (tag :: LittleEndian.encode width n).length ∧
        thrBytes (serialPortSendValue tag width n now p).1.out = thrBytes p.out ++ bs := by
    obtain ⟨-, k, hk, hs⟩ | ⟨hr, -⟩ := sendValue_sends p tag width n now
    · refine ⟨_, List.take_prefix k _, ?_, hs.out⟩
      rw [List.length_take, List.length_cons, LittleEndian.length_encode]
      omega
    · cases hr.symm.trans h
  cases m with
  | control b => exact absurd hm id
  | _ => exact hvalue h

theorem send_extends (m : Message) (now : Nat) (p : Port) :
    ∃ bs, thrBytes (send m now p).out = thrBytes p.out ++ bs := by
  rw [send_eq]
  cases hr : (sendMessage m now p).2 with
  | false => exact ⟨_, sendMessage_ok hr⟩
  | true =>
    by_cases hm : IsValue m
    · obtain ⟨bs, -, -, hout⟩ := sendMessage_cut hm hr
      exact ⟨bs, hout⟩
    · cases m with
      | control b => exact ⟨_, (sendByte_sends p b).out⟩
      | _ => exact absurd trivial hm

theorem sendAll_append (ms ns : List (Message × Nat)) (p : Port) :
    sendAll (ms ++ ns) p = sendAll ns (sendAll ms p) := by
  induction ms generalizing p with
  | nil => rfl
  | cons m ms ih => exact ih (send m.1 m.2 p)

theorem sendAll_extends (ms : List (Message × Nat)) (p : Port) :
    ∃ bs, thrBytes (sendAll ms p).out = thrBytes p.out ++ bs := by
  induction ms generalizing p with
  | nil => exact ⟨[], (List.append_nil _).symm⟩
  | cons m ms ih =>
    obtain ⟨cs, hcs⟩ := ih (send m.1 m.2 p)
    obtain ⟨bs, hbs⟩ := send_extends m.1 m.2 p
    exact ⟨bs ++ cs, by rw [sendAll, hcs, hbs, List.append_assoc]⟩

theorem sendAll_succeed {ms : List (Message × Nat)} {p : Port} (h : Succeed ms p) :
    thrBytes (sendAll ms p).out = thrBytes p.out ++ (ms.map Prod.fst).flatMap encode := by
  induction ms generalizing p with
  | nil => simp [sendAll]
  | cons m ms ih =>
    have hok := sendMessage_ok h.1
    rw [← send_eq] at hok
    rw [sendAll, ih h.2, hok, List.map_cons, List.flatMap_cons, List.append_assoc]

theorem encode_word {bs : List UInt8} (h : bs.length = 8) :
    LittleEndian.encode 8 (UInt64.ofNat (LittleEndian.decode bs)).toNat = bs := by
  have hlt := LittleEndian.decode_lt bs
  rw [h] at hlt
  rw [UInt64.toNat_ofNat_of_lt' hlt, ← h, LittleEndian.encode_decode]

theorem encode_halfWord {bs : List UInt8} (h : bs.length = 4) :
    LittleEndian.encode 4 (UInt32.ofNat (LittleEndian.decode bs)).toNat = bs := by
  have hlt := LittleEndian.decode_lt bs
  rw [h] at hlt
  rw [UInt32.toNat_ofNat_of_lt' hlt, ← h, LittleEndian.encode_decode]

theorem frame_exists {m : Message} (hm : IsValue m) {tag : UInt8} {payload bs : List UInt8}
    (he : encode m = tag :: payload) (hlen : bs.length = payload.length) :
    ∃ m', IsValue m' ∧ encode m' = tag :: bs := by
  cases m with
  | control b => exact absurd hm id
  | ulong v =>
    obtain ⟨rfl, rfl⟩ := List.cons.inj he
    exact ⟨.ulong (UInt64.ofNat (LittleEndian.decode bs)), trivial,
      congrArg _ (encode_word (by simpa using hlen))⟩
  | double v =>
    obtain ⟨rfl, rfl⟩ := List.cons.inj he
    exact ⟨.double (UInt64.ofNat (LittleEndian.decode bs)), trivial,
      congrArg _ (encode_word (by simpa using hlen))⟩
  | long v =>
    obtain ⟨rfl, rfl⟩ := List.cons.inj he
    exact ⟨.long (UInt64.ofNat (LittleEndian.decode bs)).toInt64, trivial,
      congrArg _ (encode_word (by simpa using hlen))⟩
  | uint v =>
    obtain ⟨rfl, rfl⟩ := List.cons.inj he
    exact ⟨.uint (UInt32.ofNat (LittleEndian.decode bs)), trivial,
      congrArg _ (encode_halfWord (by simpa using hlen))⟩
  | float v =>
    obtain ⟨rfl, rfl⟩ := List.cons.inj he
    exact ⟨.float (UInt32.ofNat (LittleEndian.decode bs)), trivial,
      congrArg _ (encode_halfWord (by simpa using hlen))⟩
  | int v =>
    obtain ⟨rfl, rfl⟩ := List.cons.inj he
    exact ⟨.int (UInt32.ofNat (LittleEndian.decode bs)).toInt32, trivial,
      congrArg _ (encode_halfWord (by simpa using hlen))⟩

theorem frame_completed {m : Message} (hm : IsValue m) {sent rest : List UInt8}
    (hs : sent <+: encode m) (hne : sent ≠ [])
    (hlen : sent.length + rest.length = (encode m).length) :
    ∃ m', IsValue m' ∧ encode m' = sent ++ rest := by
  obtain ⟨more, he⟩ := hs
  cases sent with
  | nil => exact absurd rfl hne
  | cons tag bs =>
    refine frame_exists hm he.symm ?_
    change (bs ++ rest).length = (bs ++ more).length
    rw [← he] at hlen
    simp only [List.length_append, List.length_cons] at hlen ⊢
    omega

theorem IsValue.valid {m : Message} (h : IsValue m) : m.Valid := by
  cases m with
  | control b => exact absurd h id
  | _ => trivial

theorem receive_part {tag : UInt8} {width : Nat} {value : Nat → Message}
    (hc : Collects tag width value) (l : List UInt8) (d : Decoder)
    (ht : d.receivingSerialPort = tag) (hi : d.indexSerialPort + l.length < width) :
    (receive accept d l).1.receivingSerialPort = tag ∧ (receive accept d l).2 = [] := by
  induction l generalizing d with
  | nil => exact ⟨ht, rfl⟩
  | cons b l ih =>
    rw [List.length_cons] at hi
    have ha := hc d b ht
    simp only [serialPortReadValue, readByte_delivers (fresh_delivers b)] at ha
    rw [if_pos (show d.indexSerialPort + 1 < width by omega)] at ha
    have h := ih (accept d b).1 (by rw [ha]; exact ht)
      (show (accept d b).1.indexSerialPort + l.length < width by
        rw [ha]
        change d.indexSerialPort + 1 + l.length < width
        omega)
    refine ⟨h.1, ?_⟩
    rw [receive, h.2, ha]
    rfl

theorem frame_incomplete {m : Message} (hm : IsValue m) {sent more : List UInt8}
    (hs : sent <+: encode m) (hne : sent ≠ []) (hlen : (sent ++ more).length < (encode m).length)
    {d : Decoder} (hd : Idle d) :
    ¬ Idle (receive accept d (sent ++ more)).1 ∧ (receive accept d (sent ++ more)).2 = [] := by
  obtain ⟨after, he⟩ := hs
  cases sent with
  | nil => exact absurd rfl hne
  | cons tag sent =>
  rw [List.cons_append] at hlen ⊢
  generalize sent ++ more = bs at hlen ⊢
  have hpart {width : Nat} {value : Nat → Message} (hc : Collects tag width value)
      (ht : IsTypeTag tag) (hw : (tag :: bs).length < width + 1) :
      ¬ Idle (receive accept d (tag :: bs)).1 ∧ (receive accept d (tag :: bs)).2 = [] := by
    have hl : bs.length < width := by
      rw [List.length_cons] at hw
      omega
    obtain ⟨hr, hn⟩ := receive_part hc bs
      { d with serialPortByte := tag, receivingSerialPort := tag } rfl (by
        change d.indexSerialPort + bs.length < width
        rw [hd.2]
        omega)
    simp only [receive, accept_tag hd ht, Option.toList_none, List.nil_append]
    refine ⟨fun hi => ?_, hn⟩
    have hack : tag = infoAck := hr.symm.trans hi.1
    subst hack
    exact absurd ht (by decide)
  have hwidth {t : UInt8} {width n : Nat} (he' : encode m = t :: LittleEndian.encode width n) :
      tag = t ∧ (tag :: bs).length < width + 1 := by
    rw [he'] at he hlen
    refine ⟨(List.cons.inj he).1, ?_⟩
    simpa using hlen
  cases m with
  | control b => exact absurd hm id
  | ulong v =>
    obtain ⟨rfl, hw⟩ := hwidth rfl
    exact hpart collects_ulong (by decide) hw
  | long v =>
    obtain ⟨rfl, hw⟩ := hwidth rfl
    exact hpart collects_long (by decide) hw
  | uint v =>
    obtain ⟨rfl, hw⟩ := hwidth rfl
    exact hpart collects_uint (by decide) hw
  | int v =>
    obtain ⟨rfl, hw⟩ := hwidth rfl
    exact hpart collects_int (by decide) hw
  | float v =>
    obtain ⟨rfl, hw⟩ := hwidth rfl
    exact hpart collects_float (by decide) hw
  | double v =>
    obtain ⟨rfl, hw⟩ := hwidth rfl
    exact hpart collects_double (by decide) hw

/-- A frame that was cut off is completed by the bytes behind it, and then the receiver goes
on as an idle one. -/
theorem receive_rest {m : Message} (hm : IsValue m) {sent rest : List UInt8}
    (hs : sent <+: encode m) (hne : sent ≠ [])
    (hlen : sent.length + rest.length = (encode m).length) {d : Decoder} (hd : Idle d) :
    ∃ m', IsValue m' ∧ encode m' = sent ++ rest ∧ Idle (receive accept d (sent ++ rest)).1 ∧
      ∀ tail, (receive accept d (sent ++ rest ++ tail)).2 =
        m' :: (receive accept (receive accept d (sent ++ rest)).1 tail).2 := by
  obtain ⟨m', hm', he⟩ := frame_completed hm hs hne hlen
  obtain ⟨hi, hrec⟩ := encode_framed d m' hd hm'.valid
  rw [he] at hi hrec
  refine ⟨m', hm', he, hi, fun tail => ?_⟩
  rw [receive_append, hrec, List.singleton_append]

/-- After a value send that was cut off, the receiver takes exactly as many of the next
bytes as the frame still lacks for the rest of it. It recognises nothing before, one value
made of these bytes then, and after them whatever an idle receiver recognises: where these
bytes end with a message, each of the messages behind it up to the next send that fails. -/
theorem aborted_send_takes_rest {m : Message} (hm : IsValue m) {now : Nat} {p : Port}
    (herr : (sendMessage m now p).2 = true) {sent : List UInt8}
    (hsent : thrBytes (sendMessage m now p).1.out = thrBytes p.out ++ sent) (hne : sent ≠ [])
    (later : List (Message × Nat)) {d : Decoder} (hd : Idle d) :
    ∃ line, thrBytes (sendAll later (sendMessage m now p).1).out = thrBytes p.out ++ line ∧
      sent.length < (encode m).length ∧
      (line.length < (encode m).length →
        ¬ Idle (receive accept d line).1 ∧ (receive accept d line).2 = []) ∧
      (∀ rest tail, line = sent ++ rest ++ tail →
        sent.length + rest.length = (encode m).length → ∃ m', IsValue m' ∧
          encode m' = sent ++ rest ∧ Idle (receive accept d (sent ++ rest)).1 ∧
          (receive accept d line).2 =
            m' :: (receive accept (receive accept d (sent ++ rest)).1 tail).2) ∧
      ∀ ms ns ls frame, later = ms ++ ns ++ ls →
        thrBytes (sendAll ms (sendMessage m now p).1).out = thrBytes p.out ++ frame →
        frame.length = (encode m).length → Succeed ns (sendAll ms (sendMessage m now p).1) →
        (∀ x ∈ ns, x.1.Valid) →
        ∃ m' e tail, IsValue m' ∧ encode m' = frame ∧ Idle e ∧
          line = frame ++ (ns.map Prod.fst).flatMap encode ++ tail ∧
          (receive accept d line).2 = m' :: ns.map Prod.fst ++ (receive accept e tail).2 := by
  obtain ⟨bs, hs, hlt, hout⟩ := sendMessage_cut hm herr
  obtain rfl : sent = bs := List.append_cancel_left (hsent.symm.trans hout)
  obtain ⟨more, hmore⟩ := sendAll_extends later (sendMessage m now p).1
  refine ⟨sent ++ more, ?_, hlt, fun hl => ?_, ?_, ?_⟩
  · rw [hmore, hsent, List.append_assoc]
  · exact frame_incomplete hm hs hne hl hd
  · intro rest tail hline hlen
    obtain ⟨m', hm', he, hi, hrec⟩ := receive_rest hm hs hne hlen hd
    rw [hline]
    exact ⟨m', hm', he, hi, hrec tail⟩
  · rintro ms ns ls frame rfl hframe hlen hns hvalid
    obtain ⟨rest, hrest⟩ := sendAll_extends ms (sendMessage m now p).1
    obtain ⟨tail, htail⟩ := sendAll_extends ls (sendAll (ms ++ ns) (sendMessage m now p).1)
    obtain rfl : frame = sent ++ rest := by
      rw [hrest, hsent, List.append_assoc] at hframe
      exact (List.append_cancel_left hframe).symm
    rw [List.length_append] at hlen
    obtain ⟨m', hm', he, hi, hrec⟩ := receive_rest hm hs hne hlen hd
    obtain ⟨hi', hrec'⟩ := encode_framed.stream hi (ns.map Prod.fst) fun x hx => by
      obtain ⟨y, hy, rfl⟩ := List.mem_map.mp hx
      exact hvalid y hy
    have hline : sent ++ more = sent ++ rest ++ ((ns.map Prod.fst).flatMap encode ++ tail) := by
      rw [sendAll_append, sendAll_append] at hmore
      rw [sendAll_append] at htail
      rw [htail, sendAll_succeed hns, hrest] at hmore
      simpa only [List.append_assoc, List.append_cancel_left_eq, eq_comm] using hmore
    refine ⟨m', _, tail, hm', he, hi', ?_, ?_⟩
    · rw [hline]
      simp only [List.append_assoc]
    · rw [hline, hrec, receive_append, hrec', List.cons_append]

def failing : Port := { answers := [some lsrThrEmpty, some 0, none] }

/-- Eight messages that take the place of the payload, and one behind them. -/
def afterwards : List (Message × Nat) :=
  (List.replicate 4 [(.control infoReady, 0), (.control infoNReady, 0)]).flatten ++ [(.uint 7, 0)]

theorem aborted_send_takes_rest_afterwards : ∃ m' e tail, Idle e ∧
    (receive accept {}
      (thrBytes (sendAll afterwards (sendMessage (.ulong 5) 0 failing).1).out)).2 =
        m' :: .uint 7 :: (receive accept e tail).2 := by
  obtain ⟨line, hline, -, -, -, hms⟩ :=
    @aborted_send_takes_rest (.ulong 5) trivial 0 failing (by decide +kernel) [infoULong]
      (by decide +kernel) (by decide) afterwards {} ⟨rfl, rfl⟩
  obtain ⟨m', e, tail, -, -, he, -, hrec⟩ := hms (afterwards.take 8) [(.uint 7, 0)] [] _ rfl
    (show _ = [] ++ _ from rfl) (by decide +kernel) (by decide +kernel) (fun x hx => by
      rw [List.mem_singleton.mp hx]
      trivial)
  refine ⟨m', e, tail, he, ?_⟩
  rw [hline]
  exact hrec

/-- The byte that the player is ready is taken for the payload of a seed that was cut off. -/
theorem ready_taken_for_payload :
    (sendMessage (.ulong 5) 0 failing).2 = true ∧
      thrBytes (sendMessage (.ulong 5) 0 failing).1.out = [infoULong] ∧
      Succeed [(.control infoReady, 0)] (sendMessage (.ulong 5) 0 failing).1 ∧
      (receive accept {} (thrBytes (sendAll [(.control infoReady, 0)]
        (sendMessage (.ulong 5) 0 failing).1).out)).2 = [] := by
  decide +kernel

end WriteWise.AbortedSend
