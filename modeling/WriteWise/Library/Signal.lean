import WriteWise.Library.Runs

namespace WriteWise.Library.Signal

open Runs

section Level

variable {ε : Type} (signal : ε → Option Bool)

/-- The level of a signal after events that may set it. It is low at first. -/
def level (es : List ε) : Bool := es.foldl (fun high e => (signal e).getD high) false

theorem level_concat (es : List ε) (e : ε) :
    level signal (es ++ [e]) = (signal e).getD (level signal es) := by
  rw [level, List.foldl_append]
  rfl

/-- The signal rises with an event and has stayed high since. -/
structure Rise (before : List ε) (rise : ε) (held : List ε) : Prop where
  low : level signal before = false
  high : ∀ fs, fs <+: held → level signal (before ++ rise :: fs) = true

variable {signal} {before before' held held' : List ε} {rise rise' e : ε}

theorem Rise.start (hlow : level signal before = false) (he : signal e = some true) :
    Rise signal before e [] := by
  refine ⟨hlow, fun fs hfs => ?_⟩
  rw [List.prefix_nil.mp hfs, level_concat, he]
  rfl

theorem Rise.concat (h : Rise signal before rise held)
    (he : level signal (before ++ rise :: held ++ [e]) = true) :
    Rise signal before rise (held ++ [e]) := by
  refine ⟨h.low, fun fs hfs => ?_⟩
  obtain rfl | hfs := List.prefix_concat_iff.mp hfs
  · rw [← List.cons_append, ← List.append_assoc]
    exact he
  · exact h.high fs hfs

theorem Rise.not_within (h : Rise signal before rise held) (h' : Rise signal before' rise' held')
    {as : List ε} (has : before' = before ++ as) (hheld : as <+: rise :: held) : as = [] := by
  cases as with
  | nil => rfl
  | cons a as =>
    obtain ⟨rfl, has'⟩ := List.cons_prefix_cons.mp hheld
    have hhigh := h.high as has'
    rw [← has, h'.low] at hhigh
    cases hhigh

theorem Rise.unique (h : Rise signal before rise held) (h' : Rise signal before' rise' held')
    (he : before ++ rise :: held = before' ++ rise' :: held') :
    before = before' ∧ rise = rise' ∧ held = held' := by
  have hbefore : before = before' := by
    obtain ⟨as, has, hrest⟩ | ⟨as, has, hrest⟩ := List.append_eq_append_iff.mp he
    · have hnil := h.not_within h' has ⟨_, hrest.symm⟩
      rw [has, hnil, List.append_nil]
    · have hnil := h'.not_within h has ⟨_, hrest.symm⟩
      rw [has, hnil, List.append_nil]
  subst hbefore
  obtain ⟨hrise, hheld⟩ := List.cons.inj (List.append_cancel_left he)
  exact ⟨rfl, hrise, hheld⟩

end Level

section During

variable {σ ε : Type} {step : σ → ε → Option σ} {s : σ} {before es : List ε} {P : σ → Prop}

/-- Some events come after others, and every state that the run goes through with them meets
the condition, also the one that they find. -/
def During (step : σ → ε → Option σ) (s : σ) (before es : List ε) (P : σ → Prop) : Prop :=
  ∀ fs, fs <+: es → ∀ t, run step s (before ++ fs) = some t → P t

theorem During.first (h : During step s before es P) {t : σ} (ht : run step s before = some t) :
    P t :=
  h [] List.nil_prefix t (by rwa [List.append_nil])

theorem During.last (h : During step s before es P) {t : σ}
    (ht : run step s (before ++ es) = some t) : P t :=
  h es List.prefix_rfl t ht

theorem During.start {t : σ} (ht : run step s before = some t) (hP : P t) :
    During step s before [] P := by
  intro fs hfs u hu
  rw [List.prefix_nil.mp hfs, List.append_nil] at hu
  obtain rfl := Option.some.inj (ht.symm.trans hu)
  exact hP

theorem During.concat (h : During step s before es P) {e : ε} {t : σ}
    (ht : run step s (before ++ es ++ [e]) = some t) (hP : P t) :
    During step s before (es ++ [e]) P := by
  intro fs hfs u hu
  obtain rfl | hfs := List.prefix_concat_iff.mp hfs
  · rw [← List.append_assoc] at hu
    obtain rfl := Option.some.inj (ht.symm.trans hu)
    exact hP
  · exact h fs hfs u hu

end During

end WriteWise.Library.Signal
