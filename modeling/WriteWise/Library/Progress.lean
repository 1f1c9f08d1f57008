import WriteWise.Library.Runs

namespace WriteWise.Library.Progress

open Runs

variable {σ τ ε : Type}

def Gives (P : σ → Prop) (r : Option σ) : Prop := ∃ s, r = some s ∧ P s

namespace Gives

variable {P : σ → Prop} {Q : τ → Prop} {r : Option σ}

theorem pure {s : σ} (h : P s) : Gives P (some s) := ⟨s, rfl, h⟩

theorem bind {f : σ → Option τ} (h : Gives P r) (hf : ∀ s, P s → Gives Q (f s)) :
    Gives Q (r.bind f) := by
  obtain ⟨s, rfl, hs⟩ := h
  exact hf s hs

theorem map {f : σ → τ} (h : Gives P r) (hf : ∀ s, P s → Q (f s)) : Gives Q (r.map f) := by
  obtain ⟨s, rfl, hs⟩ := h
  exact ⟨f s, rfl, hf s hs⟩

theorem ite {p : Prop} [Decidable p] {r' : Option σ} (h : p → Gives P r)
    (h' : ¬ p → Gives P r') : Gives P (if p then r else r') := by
  split
  · exact h ‹_›
  · exact h' ‹_›

end Gives

def Ensures (P : σ → Prop) (r : Option σ) : Prop := ∀ s, r = some s → P s

namespace Ensures

variable {P : σ → Prop} {Q : τ → Prop} {r : Option σ}

theorem pure {s : σ} (h : P s) : Ensures P (some s) := by
  intro t ht
  obtain rfl := Option.some.inj ht
  exact h

theorem none : Ensures P none := by
  rintro t ⟨⟩

theorem bind {f : σ → Option τ} (h : Ensures P r) (hf : ∀ s, P s → Ensures Q (f s)) :
    Ensures Q (r.bind f) := by
  intro t ht
  obtain ⟨s, hs, ht⟩ := Option.bind_eq_some_iff.mp ht
  exact hf s (h s hs) t ht

theorem map {f : σ → τ} (h : Ensures P r) (hf : ∀ s, P s → Q (f s)) : Ensures Q (r.map f) := by
  intro t ht
  obtain ⟨s, hs, rfl⟩ := Option.map_eq_some_iff.mp ht
  exact hf s (h s hs)

theorem ite {p : Prop} [Decidable p] {r' : Option σ} (h : p → Ensures P r)
    (h' : ¬ p → Ensures P r') : Ensures P (if p then r else r') := by
  split
  · exact h ‹_›
  · exact h' ‹_›

end Ensures

/-- The run goes all its way, or stops in a final state. -/
def Proceeds (step : σ → ε → Option σ) (Final : σ → Prop) (s : σ) (es : List ε) : Prop :=
  (∃ t, run step s es = some t) ∨ ∃ fs t, fs <+: es ∧ run step s fs = some t ∧ Final t

theorem Proceeds.cons {step : σ → ε → Option σ} {Final : σ → Prop} {s t : σ} {e : ε}
    {es : List ε} (ht : step s e = some t) (h : Proceeds step Final t es) :
    Proceeds step Final s (e :: es) := by
  obtain ⟨u, hu⟩ | ⟨fs, u, hfs, hu, hfinal⟩ := h
  · exact .inl ⟨u, (run_cons ht es).trans hu⟩
  · exact .inr ⟨e :: fs, u, List.cons_prefix_cons.mpr ⟨rfl, hfs⟩, (run_cons ht fs).trans hu, hfinal⟩

theorem Proceeds.mono {step : σ → ε → Option σ} {Final Final' : σ → Prop} {s : σ} {es : List ε}
    (h : Proceeds step Final s es) (hfinal : ∀ s, Final s → Final' s) :
    Proceeds step Final' s es := by
  obtain h | ⟨fs, t, hfs, ht, hend⟩ := h
  · exact .inl h
  · exact .inr ⟨fs, t, hfs, ht, hfinal t hend⟩

/-- The progress rule: where an invariant gives every state that is not final a next one, and
holds there again, no run stops before it is final. -/
theorem progress {step : σ → ε → Option σ} {I Final : σ → Prop} {P : ε → Prop}
    (hstep : ∀ s e, I s → P e → ¬ Final s → Gives I (step s e)) {s : σ} (hs : I s) {es : List ε}
    (hes : ∀ e ∈ es, P e) : Proceeds step Final s es := by
  induction es generalizing s with
  | nil => exact .inl ⟨s, rfl⟩
  | cons e es ih =>
    by_cases hfinal : Final s
    · exact .inr ⟨[], s, List.nil_prefix, rfl, hfinal⟩
    · obtain ⟨t, ht, hI⟩ := hstep s e hs (hes e List.mem_cons_self) hfinal
      exact .cons ht (ih hI fun f hf => hes f (List.mem_cons_of_mem e hf))

section Until

variable {step : σ → ε → Option σ} {Final : σ → Prop} [DecidablePred Final]

def runUntil (step : σ → ε → Option σ) (Final : σ → Prop) [DecidablePred Final] :
    σ → List ε → Option σ
  | s, [] => some s
  | s, e :: es => if Final s then some s else (step s e).bind fun t => runUntil step Final t es

theorem runUntil_final {s : σ} (h : Final s) (es : List ε) : runUntil step Final s es = some s := by
  cases es with
  | nil => rfl
  | cons e es => exact if_pos h

theorem runUntil_append (s : σ) (es fs : List ε) : runUntil step Final s (es ++ fs) =
    (runUntil step Final s es).bind fun t => runUntil step Final t fs := by
  induction es generalizing s with
  | nil => rfl
  | cons e es ih =>
    rw [List.cons_append, runUntil, runUntil]
    split
    · rename_i hfinal
      rw [Option.bind_some, runUntil_final hfinal]
    · rw [Option.bind_assoc]
      exact Option.bind_congr fun t _ => ih t

theorem runUntil_prefix {s t : σ} {es : List ε} (h : runUntil step Final s es = some t) :
    ∃ fs, fs <+: es ∧ run step s fs = some t ∧ (fs = es ∨ Final t) := by
  induction es generalizing s with
  | nil => exact ⟨[], List.prefix_rfl, h, .inl rfl⟩
  | cons e es ih =>
    rw [runUntil] at h
    split at h
    · rename_i hfinal
      cases h
      exact ⟨[], List.nil_prefix, rfl, .inr hfinal⟩
    · obtain ⟨u, hu, h⟩ := Option.bind_eq_some_iff.mp h
      obtain ⟨fs, hfs, hrun, hall⟩ := ih h
      refine ⟨e :: fs, List.cons_prefix_cons.mpr ⟨rfl, hfs⟩, (run_cons hu fs).trans hrun, ?_⟩
      exact hall.imp_left fun hfs => congrArg (List.cons e) hfs

theorem Proceeds.until {s : σ} {es : List ε} (h : Proceeds step Final s es) :
    ∃ t, runUntil step Final s es = some t := by
  induction es generalizing s with
  | nil => exact ⟨s, rfl⟩
  | cons e es ih =>
    rw [runUntil]
    split
    · exact ⟨s, rfl⟩
    rename_i hnot
    obtain ⟨t, ht⟩ | ⟨fs, t, hfs, ht, hfinal⟩ := h
    · obtain ⟨u, hu, hrun⟩ := run_cons_some ht
      rw [hu, Option.bind_some]
      exact ih (.inl ⟨t, hrun⟩)
    · cases fs with
      | nil =>
        cases ht
        exact absurd hfinal hnot
      | cons f fs =>
        obtain ⟨rfl, htail⟩ := List.cons_prefix_cons.mp hfs
        obtain ⟨u, hu, hrun⟩ := run_cons_some ht
        rw [hu, Option.bind_some]
        exact ih (.inr ⟨fs, t, htail, hrun, hfinal⟩)

end Until

theorem run_map {ι : Type} (step : σ → ε → Option σ) (f : ι → ε) (s : σ) (xs : List ι) :
    run step s (xs.map f) = run (fun t x => step t (f x)) s xs := by
  induction xs generalizing s with
  | nil => rfl
  | cons x xs ih => exact Option.bind_congr fun t _ => ih t

theorem rel_mono {R S : σ → τ → Prop} {r : Option σ} {r' : Option τ} (h : Option.Rel R r r')
    (hRS : ∀ s t, R s t → S s t) : Option.Rel S r r' := by
  cases h with
  | none => exact .none
  | some h => exact .some (hRS _ _ h)

end WriteWise.Library.Progress
