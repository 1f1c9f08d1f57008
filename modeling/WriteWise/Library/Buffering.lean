import Mathlib

namespace WriteWise.Library.Buffering

/-- One direction of a line, in the order of the receiver: what it has read, what
waits in its buffer, what is on the wire, and all that was ever sent. -/
structure Pipe (β : Type) where
  read : List β := []
  buffer : List β := []
  wire : List β := []
  sent : List β := []
  deriving DecidableEq

variable {β : Type}

def Pipe.send (c : Pipe β) (bs : List β) : Pipe β :=
  { c with wire := c.wire ++ bs, sent := c.sent ++ bs }

def Pipe.arrive (c : Pipe β) : Option (Pipe β) :=
  match c.wire with
  | [] => none
  | b :: bs => some { c with buffer := c.buffer ++ [b], wire := bs }

def Pipe.next (c : Pipe β) : Option (β × Pipe β) :=
  match c.buffer with
  | [] => none
  | b :: bs => some (b, { c with read := c.read ++ [b], buffer := bs })

def Pipe.clear (c : Pipe β) : Pipe β := { c with buffer := [] }

/-- Nothing of what was sent is lost, repeated or out of order. -/
def Pipe.Intact (c : Pipe β) : Prop := c.read ++ c.buffer ++ c.wire = c.sent

instance [DecidableEq β] (c : Pipe β) : Decidable c.Intact := by
  unfold Pipe.Intact
  infer_instance

theorem intact_send {c : Pipe β} (bs : List β) : (c.send bs).Intact ↔ c.Intact := by
  simp only [Pipe.Intact, Pipe.send, ← List.append_assoc, List.append_left_inj]

theorem intact_arrive {c d : Pipe β} (h : c.arrive = some d) : d.Intact ↔ c.Intact := by
  unfold Pipe.arrive at h
  split at h
  · cases h
  · rename_i b bs hw
    cases h
    simp only [Pipe.Intact, hw, List.append_assoc, List.singleton_append]

theorem intact_next {c d : Pipe β} {b : β} (h : c.next = some (b, d)) :
    (d.Intact ↔ c.Intact) ∧ c.buffer = b :: d.buffer := by
  unfold Pipe.next at h
  split at h
  · cases h
  · rename_i b' bs hb
    cases h
    refine ⟨?_, hb⟩
    simp only [Pipe.Intact, hb, List.append_assoc, List.cons_append, List.nil_append]

theorem intact_clear {c : Pipe β} (h : c.Intact) : c.clear.Intact ↔ c.buffer = [] := by
  constructor
  · intro hc
    have hlen := congrArg List.length (hc.trans h.symm)
    simp only [Pipe.clear, List.length_append, List.length_nil] at hlen
    exact List.length_eq_zero_iff.mp (by omega)
  · intro hb
    rw [Pipe.Intact, Pipe.clear, ← hb]
    exact h

end WriteWise.Library.Buffering
