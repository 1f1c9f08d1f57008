import Mathlib

namespace WriteWise.Library.LineEditor

variable {α : Type}

/-- A line that is edited at its end, and the symbols ever added to it, each with
the position at which it was added. -/
structure Editor (α : Type) where
  line : List α := []
  added : List (Nat × α) := []

def Editor.append (bound : Nat) (c : α) (e : Editor α) : Editor α :=
  if e.line.length < bound then
    { line := e.line ++ [c], added := e.added ++ [(e.line.length, c)] }
  else e

def Editor.erase (e : Editor α) : Editor α := { e with line := e.line.dropLast }

/-- Some symbol that was ever added at the position is not the wanted one. -/
def Editor.Mistyped (wanted : List α) (e : Editor α) (i : Nat) : Prop :=
  ∃ p ∈ e.added, p.1 = i ∧ wanted[i]? ≠ some p.2

instance [DecidableEq α] (wanted : List α) (e : Editor α) :
    DecidablePred (e.Mistyped wanted) := fun i => by
  unfold Editor.Mistyped
  infer_instance

variable {wanted : List α} {e : Editor α} {bound : Nat} {c : α}

theorem append_of_lt (h : e.line.length < bound) : e.append bound c =
    { line := e.line ++ [c], added := e.added ++ [(e.line.length, c)] } := if_pos h

theorem append_of_le (h : bound ≤ e.line.length) : e.append bound c = e := if_neg (not_lt.mpr h)

@[simp] theorem mistyped_erase (i : Nat) : e.erase.Mistyped wanted i ↔ e.Mistyped wanted i := .rfl

theorem mistyped_append (h : e.line.length < bound) (i : Nat) :
    (e.append bound c).Mistyped wanted i ↔
      e.Mistyped wanted i ∨ i = e.line.length ∧ wanted[i]? ≠ some c := by
  rw [append_of_lt h]
  simp only [Editor.Mistyped, List.mem_append, List.mem_singleton, or_and_right, exists_or,
    exists_eq_left]
  exact or_congr .rfl (and_congr eq_comm .rfl)

end WriteWise.Library.LineEditor
