import Mathlib

namespace WriteWise.Library.Runs

variable {σ ε τ : Type}

/-- Run a partial step function along a list of events. The run is undefined
as soon as one of its steps is. -/
def run (step : σ → ε → Option σ) : σ → List ε → Option σ
  | s, [] => some s
  | s, e :: es => (step s e).bind fun t => run step t es

theorem run_append (step : σ → ε → Option σ) (s : σ) (es fs : List ε) :
    run step s (es ++ fs) = (run step s es).bind fun t => run step t fs := by
  induction es generalizing s with
  | nil => rfl
  | cons e es ih =>
    simp only [List.cons_append, run, Option.bind_assoc]
    exact Option.bind_congr fun t _ => ih t

theorem run_concat (step : σ → ε → Option σ) (s : σ) (es : List ε) (e : ε) :
    run step s (es ++ [e]) = (run step s es).bind fun t => step t e := by
  rw [run_append]
  exact Option.bind_congr fun t _ => by simp [run]

theorem run_snoc {step : σ → ε → Option σ} {s t u : σ} {es : List ε} {e : ε}
    (h : run step s es = some t) (he : step t e = some u) : run step s (es ++ [e]) = some u := by
  rw [run_concat, h, Option.bind_some, he]

theorem run_trans {step : σ → ε → Option σ} {s t u : σ} {es fs : List ε}
    (h : run step s es = some t) (hfs : run step t fs = some u) :
    run step s (es ++ fs) = some u := by
  rw [run_append, h, Option.bind_some, hfs]

theorem run_concat_some {step : σ → ε → Option σ} {s u : σ} {es : List ε} {e : ε}
    (h : run step s (es ++ [e]) = some u) : ∃ t, run step s es = some t ∧ step t e = some u := by
  rw [run_concat] at h
  exact Option.bind_eq_some_iff.mp h

theorem run_cons {step : σ → ε → Option σ} {s t : σ} {e : ε} (h : step s e = some t)
    (es : List ε) : run step s (e :: es) = run step t es := by
  rw [run, h, Option.bind_some]

theorem run_cons_some {step : σ → ε → Option σ} {s t : σ} {e : ε} {es : List ε}
    (h : run step s (e :: es) = some t) : ∃ u, step s e = some u ∧ run step u es = some t :=
  Option.bind_eq_some_iff.mp h

/-- Every step of the run meets the guard in the state it is taken from. -/
def Guarded (step : σ → ε → Option σ) (P : σ → ε → Prop) : σ → List ε → Prop
  | _, [] => True
  | s, e :: es => P s e ∧ ∀ t, step s e = some t → Guarded step P t es

instance decidableGuarded (step : σ → ε → Option σ) (P : σ → ε → Prop)
    [∀ s e, Decidable (P s e)] : ∀ s es, Decidable (Guarded step P s es)
  | _, [] => .isTrue trivial
  | s, e :: es =>
    match h : step s e with
    | none =>
      decidable_of_iff (P s e) ⟨fun hp => ⟨hp, fun t ht => by cases h.symm.trans ht⟩, And.left⟩
    | some t =>
      have : Decidable (Guarded step P t es) := decidableGuarded step P t es
      decidable_of_iff (P s e ∧ Guarded step P t es)
        ⟨fun hp => ⟨hp.1, fun u hu => by cases h.symm.trans hu; exact hp.2⟩,
          fun hp => ⟨hp.1, hp.2 t h⟩⟩

theorem Guarded.mono {step : σ → ε → Option σ} {P Q : σ → ε → Prop}
    (hPQ : ∀ s e, P s e → Q s e) {s : σ} {es : List ε} (h : Guarded step P s es) :
    Guarded step Q s es := by
  induction es generalizing s with
  | nil => trivial
  | cons e es ih => exact ⟨hPQ s e h.1, fun t ht => ih (h.2 t ht)⟩

theorem Guarded.earlier {step : σ → ε → Option σ} {P : σ → ε → Prop} {s : σ} {es fs : List ε}
    (h : Guarded step P s es) (hfs : fs <+: es) : Guarded step P s fs := by
  induction fs generalizing s es with
  | nil => trivial
  | cons f fs ih =>
    obtain ⟨gs, rfl⟩ := hfs
    exact ⟨h.1, fun t ht => ih (h.2 t ht) ⟨gs, rfl⟩⟩

theorem guarded_of_forall {step : σ → ε → Option σ} {P : σ → ε → Prop} {es : List ε}
    (h : ∀ s, ∀ e ∈ es, P s e) (s : σ) : Guarded step P s es := by
  induction es generalizing s with
  | nil => trivial
  | cons e es ih =>
    exact ⟨h s e (by simp), fun t _ => ih (fun u f hf => h u f (by simp [hf])) t⟩

theorem Guarded.and {step : σ → ε → Option σ} {P Q : σ → ε → Prop} {s : σ} {es : List ε}
    (hP : Guarded step P s es) (hQ : Guarded step Q s es) :
    Guarded step (fun t e => P t e ∧ Q t e) s es := by
  induction es generalizing s with
  | nil => trivial
  | cons e es ih => exact ⟨⟨hP.1, hQ.1⟩, fun t ht => ih (hP.2 t ht) (hQ.2 t ht)⟩

theorem Guarded.concat {step : σ → ε → Option σ} {P : σ → ε → Prop} {s : σ} {es : List ε} {e : ε}
    (h : Guarded step P s es) (he : ∀ t, run step s es = some t → P t e) :
    Guarded step P s (es ++ [e]) := by
  induction es generalizing s with
  | nil => exact ⟨he s rfl, fun _ _ => trivial⟩
  | cons f fs ih =>
    refine ⟨h.1, fun t ht => ih (h.2 t ht) fun u hu => he u ?_⟩
    simp only [run, ht, Option.bind_some, hu]

theorem guarded_iff {step : σ → ε → Option σ} {P : σ → ε → Prop} {s : σ} {es : List ε} :
    Guarded step P s es ↔
      ∀ fs e, fs ++ [e] <+: es → ∀ t, run step s fs = some t → P t e := by
  induction es generalizing s with
  | nil => exact ⟨fun _ fs e h => by simp at h, fun _ => trivial⟩
  | cons x es ih =>
    refine ⟨fun h fs e hfs t ht => ?_, fun h => ⟨?_, fun u hu => ?_⟩⟩
    · cases fs with
      | nil =>
        cases ht
        rw [(List.cons_prefix_cons.mp hfs).1]
        exact h.1
      | cons y fs =>
        obtain ⟨rfl, hfs'⟩ := List.cons_prefix_cons.mp hfs
        obtain ⟨u, hu, ht⟩ := run_cons_some ht
        exact ih.mp (h.2 u hu) fs e hfs' t ht
    · exact h [] x (List.cons_prefix_cons.mpr ⟨rfl, List.nil_prefix⟩) s rfl
    · refine ih.mpr fun fs e hfs t ht => ?_
      refine h (x :: fs) e (List.cons_prefix_cons.mpr ⟨rfl, hfs⟩) t ?_
      simp only [run, hu, Option.bind_some, ht]

theorem run_prefix {step : σ → ε → Option σ} {s t : σ} {es fs : List ε}
    (h : run step s es = some t) (hfs : fs <+: es) : ∃ u, run step s fs = some u := by
  obtain ⟨gs, rfl⟩ := hfs
  rw [run_append] at h
  obtain ⟨u, hu, -⟩ := Option.bind_eq_some_iff.mp h
  exact ⟨u, hu⟩

theorem run_commutes {step : σ → ε → Option σ} {f : σ → σ}
    (h : ∀ s e, step (f s) e = (step s e).map f) (s : σ) (es : List ε) :
    run step (f s) es = (run step s es).map f := by
  induction es generalizing s with
  | nil => rfl
  | cons e es ih =>
    simp only [run, h, Option.bind_map, Option.map_bind]
    exact Option.bind_congr fun t _ => ih t

theorem Guarded.commutes {step : σ → ε → Option σ} {f : σ → σ}
    (h : ∀ s e, step (f s) e = (step s e).map f) {P : σ → ε → Prop} {s : σ} {es : List ε}
    (hg : Guarded step P (f s) es) : Guarded step (fun t e => P (f t) e) s es := by
  induction es generalizing s with
  | nil => trivial
  | cons e es ih => exact ⟨hg.1, fun t ht => ih (hg.2 (f t) (by rw [h, ht, Option.map_some]))⟩

/-- The invariant rule: what guarded steps preserve holds after every guarded run. -/
theorem invariant {step : σ → ε → Option σ} {P : σ → ε → Prop} {I : σ → Prop}
    (hstep : ∀ s e t, I s → P s e → step s e = some t → I t) {s t : σ} {es : List ε}
    (hs : I s) (hg : Guarded step P s es) (hr : run step s es = some t) : I t := by
  induction es generalizing s with
  | nil =>
    cases hr
    exact hs
  | cons e es ih =>
    obtain ⟨u, hu, hr⟩ := run_cons_some hr
    exact ih (hstep s e u hs hg.1 hu) (hg.2 u hu) hr

/-- Where the guard says exactly when a step keeps the invariant, beside what every step keeps,
the runs that keep it throughout are the guarded ones. -/
theorem invariant_iff_guarded_along {step : σ → ε → Option σ} {P : σ → ε → Prop} {I J : σ → Prop}
    (hkeep : ∀ s e t, J s → step s e = some t → J t)
    (hstep : ∀ s e t, J s → I s → step s e = some t → (P s e ↔ I t)) {s t : σ} {es : List ε}
    (hJ : J s) (hI : I s) (hr : run step s es = some t) :
    (∀ fs, fs <+: es → ∀ u, run step s fs = some u → I u) ↔ Guarded step P s es := by
  have hall {fs : List ε} {u : σ} (hu : run step s fs = some u) : J u :=
    invariant (P := fun _ _ => True) (fun s e t hs _ => hkeep s e t hs) hJ
      (guarded_of_forall (fun _ _ _ => trivial) s) hu
  refine ⟨fun h => guarded_iff.mpr fun fs e hfs u hu => ?_, fun h fs hfs u hu => ?_⟩
  · obtain ⟨v, hv⟩ := run_prefix hr hfs
    obtain ⟨w, hw, he⟩ := run_concat_some hv
    obtain rfl := Option.some.inj (hu.symm.trans hw)
    exact (hstep u e v (hall hu) (h fs (.trans ⟨[e], rfl⟩ hfs) u hu) he).mpr (h _ hfs v hv)
  · exact (invariant (I := fun s => J s ∧ I s)
      (fun s e t hs hP hst => ⟨hkeep s e t hs.1 hst, (hstep s e t hs.1 hs.2 hst).mp hP⟩)
      ⟨hJ, hI⟩ (h.earlier hfs) hu).2

theorem guarded_history {step : σ → ε → Option σ} {P : σ → ε → Prop} {I : List ε → σ → Prop}
    (hstep : ∀ es t e u, I es t → P t e → step t e = some u → I (es ++ [e]) u) {s t : σ}
    {past es : List ε} (hs : I past s) (hg : Guarded step P s es) (hr : run step s es = some t) :
    I (past ++ es) t := by
  induction es generalizing s past with
  | nil =>
    cases hr
    rwa [List.append_nil]
  | cons e es ih =>
    obtain ⟨u, hu, hr⟩ := run_cons_some hr
    have h := ih (hstep past s e u hs hg.1 hu) (hg.2 u hu) hr
    rwa [List.append_assoc] at h

theorem history {step : σ → ε → Option σ} {I : List ε → σ → Prop} {s t : σ} {es : List ε}
    (hstep : ∀ es t e u, I es t → step t e = some u → I (es ++ [e]) u) (hs : I [] s)
    (hr : run step s es = some t) : I es t :=
  guarded_history (P := fun _ _ => True) (fun es t e u h _ => hstep es t e u h) hs
    (guarded_of_forall (fun _ _ _ => trivial) s) hr

theorem rel_map {α β : Type} {R : σ → τ → Prop} {S : α → β → Prop} {f : σ → α} {g : τ → β}
    (hfg : ∀ x y, R x y → S (f x) (g y)) {s : Option σ} {t : Option τ} (h : Option.Rel R s t) :
    Option.Rel S (s.map f) (t.map g) := by
  cases h with
  | none => exact .none
  | some h => exact .some (hfg _ _ h)

/-- Two runs over the same events stay related when each step keeps them
related, and neither stops before the other. -/
theorem run_related {step : σ → ε → Option σ} {step' : τ → ε → Option τ} {R : σ → τ → Prop}
    {P : ε → Prop}
    (hstep : ∀ s s' e, R s s' → P e → Option.Rel R (step s e) (step' s' e)) {s : σ} {s' : τ}
    (h : R s s') {es : List ε} (hes : ∀ e ∈ es, P e) :
    Option.Rel R (run step s es) (run step' s' es) := by
  induction es generalizing s s' with
  | nil => exact .some h
  | cons e es ih =>
    have hr := hstep s s' e h (hes e (by simp))
    have hes' : ∀ f ∈ es, P f := fun f hf => hes f (by simp [hf])
    simp only [run]
    cases hs : step s e with
    | none =>
      cases hs' : step' s' e with
      | none => exact .none
      | some t' => rw [hs, hs'] at hr; cases hr
    | some t =>
      cases hs' : step' s' e with
      | none => rw [hs, hs'] at hr; cases hr
      | some t' =>
        rw [hs, hs'] at hr
        cases hr with
        | some htt => exact ih htt hes'

end WriteWise.Library.Runs
