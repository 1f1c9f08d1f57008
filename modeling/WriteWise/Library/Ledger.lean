import Mathlib

namespace WriteWise.Library.Ledger

variable {ρ : Type}

/-- A call that acquires or releases a resource, and whether it has succeeded. -/
inductive Entry (ρ : Type)
  | acquire (r : ρ) (done : Bool)
  | release (r : ρ) (done : Bool)
  deriving DecidableEq, Repr

/-- The release of all that has been acquired has been attempted. -/
def Settled (ledger : List (Entry ρ)) : Prop :=
  ∀ r, .acquire r true ∈ ledger → ∃ done, .release r done ∈ ledger

/-- The resources whose release is attempted when one that fails ends the rest. -/
def attempts (done : ρ → Bool) : List ρ → List ρ
  | [] => []
  | r :: rs => if done r then r :: attempts done rs else [r]

theorem attempts_all {done : ρ → Bool} {rs : List ρ} (hrs : rs.Nodup) :
    (∀ r ∈ rs, r ∈ attempts done rs) ↔ ∀ r ∈ rs.dropLast, done r = true := by
  induction rs with
  | nil => exact ⟨fun _ r h => absurd h List.not_mem_nil, fun _ r h => h⟩
  | cons x rs ih =>
    obtain ⟨hx, hnodup⟩ := List.nodup_cons.mp hrs
    have hfirst : x ∈ attempts done (x :: rs) := by
      rw [attempts]
      split
      · exact List.mem_cons_self
      · exact List.mem_cons_self
    cases rs with
    | nil =>
      refine ⟨fun _ r h => absurd h List.not_mem_nil, fun _ r h => ?_⟩
      rw [List.mem_singleton.mp h]
      exact hfirst
    | cons y rs =>
      rw [List.dropLast_cons_cons]
      by_cases hdone : done x = true
      · have hiff : (∀ r ∈ x :: y :: rs, r ∈ attempts done (x :: y :: rs)) ↔
            ∀ r ∈ y :: rs, r ∈ attempts done (y :: rs) := by
          rw [attempts, if_pos hdone]
          refine ⟨fun h r hr => ?_, fun h r hr => ?_⟩
          · exact (List.mem_cons.mp (h r (List.mem_cons_of_mem x hr))).resolve_left
              fun he => hx (he ▸ hr)
          · obtain rfl | hr := List.mem_cons.mp hr
            · exact List.mem_cons_self
            · exact List.mem_cons_of_mem x (h r hr)
        rw [hiff, ih hnodup]
        exact ⟨fun h r hr => (List.mem_cons.mp hr).elim (fun he => he ▸ hdone) (h r),
          fun h r hr => h r (List.mem_cons_of_mem x hr)⟩
      · refine ⟨fun h => ?_, fun h => absurd (h x List.mem_cons_self) hdone⟩
        have hy := h y (List.mem_cons_of_mem x List.mem_cons_self)
        rw [attempts, if_neg hdone] at hy
        exact absurd (List.mem_singleton.mp hy ▸ List.mem_cons_self) hx

section Settled

variable {ledger : List (Entry ρ)}

theorem not_settled {r : ρ} (h : .acquire r true ∈ ledger)
    (hrelease : ∀ done, .release r done ∉ ledger) : ¬ Settled ledger := by
  intro hs
  obtain ⟨done, hdone⟩ := hs r h
  exact hrelease done hdone

/-- What has been acquired is settled by the attempts that follow exactly if they reach it. -/
theorem settled_append_iff (hledger : ∀ r done, .release r done ∉ ledger) (done : ρ → Bool)
    (rs : List ρ) : Settled (ledger ++ rs.map fun r => .release r (done r)) ↔
      ∀ r, .acquire r true ∈ ledger → r ∈ rs := by
  have hacquire (r : ρ) : .acquire r true ∈ ledger ++ rs.map (fun r => .release r (done r)) ↔
      .acquire r true ∈ ledger := by
    simp
  have hrelease (r : ρ) : (∃ d, .release r d ∈ ledger ++ rs.map fun r => .release r (done r)) ↔
      r ∈ rs := by
    simp [hledger]
  unfold Settled
  simp only [hacquire, hrelease]

end Settled

end WriteWise.Library.Ledger
