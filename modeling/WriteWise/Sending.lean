import WriteWise.Serial

namespace WriteWise.Sending

open Library Serial

/-- From one state of the port to another exactly these bytes are transmitted, and
nothing that the receiving side or the wait for an acknowledgement uses changes. -/
structure Sends (bytes : List UInt8) (p q : Port) : Prop where
  decoder : q.decoder = p.decoder
  waitingAck : q.waitingAckSerialPort = p.waitingAckSerialPort
  startTime : q.waitingAckStartTime = p.waitingAckStartTime
  out : thrBytes q.out = thrBytes p.out ++ bytes

namespace Sends

variable {bs cs : List UInt8} {p q r : Port}

theorem refl (p : Port) : Sends [] p p := ⟨rfl, rfl, rfl, (List.append_nil _).symm⟩

theorem trans (h : Sends bs p q) (h' : Sends cs q r) : Sends (bs ++ cs) p r :=
  ⟨h'.decoder.trans h.decoder, h'.waitingAck.trans h.waitingAck, h'.startTime.trans h.startTime,
    by rw [h'.out, h.out, List.append_assoc]⟩

theorem trans_nil (h : Sends [] p q) (h' : Sends cs q r) : Sends cs p r := h.trans h'

end Sends

/-- Whether these answers of the kernel let a byte out within so many attempts, and the
answers that are left then. -/
def attempt : Nat → List (Option UInt8) → Bool × List (Option UInt8)
  | 0, as => (false, as)
  | _ + 1, [] => (true, [])
  | _ + 1, none :: as => (false, as)
  | n + 1, some status :: as =>
    if status &&& lsrThrEmpty ≠ 0 then
      match as with
      | [] => (true, [])
      | a :: as => (a.isSome, as)
    else attempt n as

def GoesOut : Nat → List (Option UInt8) → Prop
  | 0, _ => True
  | n + 1, as => (attempt maxAttemptsUart as).1 = true ∧ GoesOut n (attempt maxAttemptsUart as).2

instance decidableGoesOut : ∀ n as, Decidable (GoesOut n as)
  | 0, _ => .isTrue trivial
  | n + 1, as =>
    have : Decidable (GoesOut n (attempt maxAttemptsUart as).2) := decidableGoesOut n _
    inferInstanceAs (Decidable (_ ∧ _))

variable (p : Port)

theorem kernelCall_sends : Sends [] p p.kernelCall.2 := by
  unfold Port.kernelCall
  split
  · exact .refl p
  · exact ⟨rfl, rfl, rfl, (List.append_nil _).symm⟩

theorem write_thr_sends (b : UInt8) : Sends [b] p (p.write (.thr b)) :=
  ⟨rfl, rfl, rfl, thrBytes_append ..⟩

theorem write_fcr_sends (b : UInt8) : Sends [] p (p.write (.fcr b)) :=
  ⟨rfl, rfl, rfl, thrBytes_append ..⟩

theorem sendAttempts_sends (attempts : Nat) (b : UInt8) :
    Sends (if (sendAttempts attempts b p).2 = true then [] else [b]) p
      (sendAttempts attempts b p).1 := by
  induction attempts generalizing p with
  | zero => exact .refl p
  | succ attempts ih =>
    have h1 := kernelCall_sends p
    rw [sendAttempts]
    split
    · rename_i q hq
      rw [hq] at h1
      exact h1
    rename_i status q hq
    rw [hq] at h1
    split
    · have h2 := kernelCall_sends q
      split
      · rename_i r hr
        rw [hr] at h2
        exact h1.trans h2
      · rename_i r hr
        rw [hr] at h2
        exact h1.trans_nil (h2.trans_nil (write_thr_sends r b))
    · exact h1.trans_nil (ih q)

theorem sendByte_sends (b : UInt8) :
    Sends (if (serialPortSendByte b p).2 = true then [] else [b]) p (serialPortSendByte b p).1 :=
  sendAttempts_sends p maxAttemptsUart b

theorem clearFIFO_sends : Sends [] p (serialPortClearFIFO p).1 := by
  have h := kernelCall_sends p
  unfold serialPortClearFIFO
  split
  · rename_i q hq
    rw [hq] at h
    exact h
  · rename_i v q hq
    rw [hq] at h
    exact h.trans_nil (write_fcr_sends q fcrClear)

theorem clear_sendByte_sends (b : UInt8) :
    Sends (if (serialPortSendByte b (serialPortClearFIFO p).1).2 = true then [] else [b]) p
      (serialPortSendByte b (serialPortClearFIFO p).1).1 :=
  (clearFIFO_sends p).trans_nil (sendByte_sends _ b)

theorem sendBytes_sends (bs : List UInt8) : ∃ k, Sends (bs.take k) p (serialPortSendBytes bs p).1 ∧
    ((serialPortSendBytes bs p).2 = true → k < bs.length) ∧
    ((serialPortSendBytes bs p).2 = false → k = bs.length) := by
  induction bs generalizing p with
  | nil => exact ⟨0, .refl p, fun hr => Bool.noConfusion hr, fun _ => rfl⟩
  | cons b bs ih =>
    have h := sendByte_sends p b
    rw [serialPortSendBytes]
    split
    · rename_i q hq
      rw [hq] at h
      exact ⟨0, h, fun _ => Nat.succ_pos _, fun hr => Bool.noConfusion hr⟩
    · rename_i q hq
      rw [hq] at h
      obtain ⟨k, hk, herr, hok⟩ := ih q
      exact ⟨k + 1, h.trans hk, fun hr => Nat.succ_lt_succ (herr hr),
        fun hr => congrArg (· + 1) (hok hr)⟩

/-- A value goes out whole, and is then waited for, or is cut off and not waited for. -/
theorem sendValue_sends (tag : UInt8) (width n now : Nat) :
    ((serialPortSendValue tag width n now p).2 = true ∧
      ∃ k ≤ width, Sends ((tag :: LittleEndian.encode width n).take k) p
        (serialPortSendValue tag width n now p).1) ∨
    ((serialPortSendValue tag width n now p).2 = false ∧ ∃ q,
      Sends (tag :: LittleEndian.encode width n) p q ∧
        (serialPortSendValue tag width n now p).1 =
          { q with waitingAckStartTime := now, waitingAckSerialPort := true }) := by
  obtain ⟨k, hk, herr, hok⟩ := sendBytes_sends p (tag :: LittleEndian.encode width n)
  unfold serialPortSendValue
  split
  · rename_i q hq
    rw [hq] at hk herr
    have hlt := herr rfl
    rw [List.length_cons, LittleEndian.length_encode] at hlt
    exact .inl ⟨rfl, k, Nat.le_of_lt_succ hlt, hk⟩
  · rename_i q hq
    rw [hq] at hk hok
    rw [hok rfl, List.take_length] at hk
    exact .inr ⟨rfl, q, hk, rfl⟩

theorem sendAttempts_attempt (attempts : Nat) (b : UInt8) :
    (sendAttempts attempts b p).2 = !(attempt attempts p.answers).1 ∧
      (sendAttempts attempts b p).1.answers = (attempt attempts p.answers).2 := by
  induction attempts generalizing p with
  | zero => exact ⟨rfl, rfl⟩
  | succ attempts ih =>
    rw [sendAttempts, Port.kernelCall]
    cases ha : p.answers with
    | nil =>
      simp only [Port.kernelCall, ha]
      rw [if_pos (by decide)]
      exact ⟨rfl, ha⟩
    | cons a as =>
      cases a with
      | none => exact ⟨rfl, rfl⟩
      | some status =>
        simp only [Port.kernelCall, attempt]
        split
        · cases as with
          | nil => exact ⟨rfl, rfl⟩
          | cons a as =>
            cases a with
            | none => exact ⟨rfl, rfl⟩
            | some v => exact ⟨rfl, rfl⟩
        · exact ih { p with answers := as }

theorem sendByte_attempt (b : UInt8) :
    (serialPortSendByte b p).2 = !(attempt maxAttemptsUart p.answers).1 ∧
      (serialPortSendByte b p).1.answers = (attempt maxAttemptsUart p.answers).2 :=
  sendAttempts_attempt p maxAttemptsUart b

theorem sendBytes_goesOut (bs : List UInt8) :
    (serialPortSendBytes bs p).2 = false ↔ GoesOut bs.length p.answers := by
  induction bs generalizing p with
  | nil => exact ⟨fun _ => trivial, fun _ => rfl⟩
  | cons b bs ih =>
    obtain ⟨herr, hleft⟩ := sendByte_attempt p b
    rw [serialPortSendBytes, List.length_cons, GoesOut, ← hleft, ← Bool.not_eq_false', ← herr]
    split
    · rename_i q hq
      rw [hq]
      exact ⟨fun h => Bool.noConfusion h, fun h => h.1⟩
    · rename_i q hq
      rw [hq]
      exact (ih q).trans ⟨fun h => ⟨rfl, h⟩, fun h => h.2⟩

theorem sendValue_goesOut (tag : UInt8) (width n now : Nat) :
    (serialPortSendValue tag width n now p).2 = false ↔ GoesOut (width + 1) p.answers := by
  have h := sendBytes_goesOut p (tag :: LittleEndian.encode width n)
  rw [List.length_cons, LittleEndian.length_encode] at h
  rw [← h, serialPortSendValue]
  split
  · rename_i q hq
    rw [hq]
  · rename_i q hq
    rw [hq]

theorem sendByte_goesOut (b : UInt8) :
    (serialPortSendByte b p).2 = false ↔ GoesOut 1 p.answers := by
  rw [(sendByte_attempt p b).1, Bool.not_eq_false']
  exact ⟨fun h => ⟨h, trivial⟩, fun h => h.1⟩

/-- The answers clear the FIFO with a kernel call of their own. -/
theorem clear_sendByte_goesOut (b : UInt8) :
    (serialPortSendByte b (serialPortClearFIFO p).1).2 = false ↔ GoesOut 1 p.answers.tail := by
  have hleft : (serialPortClearFIFO p).1.answers = p.answers.tail := by
    unfold serialPortClearFIFO Port.kernelCall
    cases ha : p.answers with
    | nil => exact ha
    | cons a as =>
      cases a with
      | none => rfl
      | some v => rfl
  rw [sendByte_goesOut, hleft]

end WriteWise.Sending
