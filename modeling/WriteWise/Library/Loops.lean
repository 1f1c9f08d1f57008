import Mathlib

namespace WriteWise.Library.Loops

variable {σ ι : Type}

/-- What a C function leaves: the state, and whether it has returned an error.
There is none after undefined behaviour. -/
abbrev Result (σ : Type) := Option (σ × Bool)

/-- Go on with the rest of a function unless the first call in it has failed. -/
def proceed (first : Result σ) (rest : σ → Result σ) : Result σ :=
  first.bind fun r => if r.2 then some r else rest r.1

/-- A loop that stops at the first call that fails. -/
def each (body : ι → σ → Result σ) : List ι → σ → Result σ
  | [], s => some (s, false)
  | x :: xs, s => proceed (body x s) (each body xs)

@[simp] theorem proceed_done (s : σ) (rest : σ → Result σ) :
    proceed (some (s, false)) rest = rest s := rfl

@[simp] theorem proceed_failed (s : σ) (rest : σ → Result σ) :
    proceed (some (s, true)) rest = some (s, true) := rfl

theorem proceed_assoc (first : Result σ) (f g : σ → Result σ) :
    proceed (proceed first f) g = proceed first fun s => proceed (f s) g := by
  obtain _ | ⟨s, _ | _⟩ := first
  · rfl
  · rfl
  · rfl

theorem proceed_end (first : Result σ) : proceed first (fun s => some (s, false)) = first := by
  obtain _ | ⟨s, _ | _⟩ := first
  · rfl
  · rfl
  · rfl

theorem proceed_eq_done {first : Result σ} {rest : σ → Result σ} {s' : σ}
    (h : proceed first rest = some (s', false)) :
    ∃ s, first = some (s, false) ∧ rest s = some (s', false) := by
  obtain _ | ⟨s, _ | _⟩ := first
  · cases h
  · exact ⟨s, rfl, h⟩
  · cases h

theorem proceed_congr {first : Result σ} {rest rest' : σ → Result σ}
    (h : ∀ s, first = some (s, false) → rest s = rest' s) :
    proceed first rest = proceed first rest' := by
  obtain _ | ⟨s, _ | _⟩ := first
  · rfl
  · exact h s rfl
  · rfl

@[simp] theorem each_nil (body : ι → σ → Result σ) (s : σ) : each body [] s = some (s, false) := rfl

theorem each_cons (body : ι → σ → Result σ) (x : ι) (xs : List ι) (s : σ) :
    each body (x :: xs) s = proceed (body x s) (each body xs) := rfl

theorem each_singleton (body : ι → σ → Result σ) (x : ι) (s : σ) :
    each body [x] s = body x s := proceed_end _

theorem each_ite (body : ι → σ → Result σ) (p : Prop) [Decidable p] (x : ι) (s : σ) :
    each body (if p then [x] else []) s = if p then body x s else some (s, false) := by
  split
  · exact each_singleton body x s
  · rfl

theorem each_append (body : ι → σ → Result σ) (xs ys : List ι) (s : σ) :
    each body (xs ++ ys) s = proceed (each body xs s) (each body ys) := by
  induction xs generalizing s with
  | nil => rfl
  | cons x xs ih =>
    rw [List.cons_append, each_cons, each_cons, proceed_assoc]
    apply congrArg
    funext s
    exact ih s

/-- The body of a loop at whose undefined calls there is no argument. -/
def defined (body : ι → σ → Result σ) : Option ι → σ → Result σ
  | none, _ => none
  | some x, s => body x s

theorem each_defined_map (body : ι → σ → Result σ) (xs : List ι) (s : σ) :
    each (defined body) (xs.map some) s = each body xs s := by
  induction xs generalizing s with
  | nil => rfl
  | cons x xs ih =>
    rw [List.map_cons, each_cons, each_cons]
    apply congrArg
    funext s
    exact ih s

/-- A loop that is given more fuel ends as it did, if it ended. -/
def Extends (r r' : Result σ) : Prop := ∀ x, r = some x → r' = some x

namespace Extends

theorem refl (r : Result σ) : Extends r r := fun _ h => h

theorem bind {α : Type} (o : Option α) {f f' : α → Result σ} (h : ∀ a, Extends (f a) (f' a)) :
    Extends (o.bind f) (o.bind f') := by
  cases o with
  | none => exact .refl none
  | some a => exact h a

theorem proceed (first : Result σ) {rest rest' : σ → Result σ}
    (h : ∀ s, Extends (rest s) (rest' s)) : Extends (proceed first rest) (proceed first rest') := by
  refine bind first fun r => ?_
  split
  · exact .refl _
  · exact h r.1

theorem trans {r r' r'' : Result σ} (h : Extends r r') (h' : Extends r' r'') : Extends r r'' :=
  fun x hx => h' x (h x hx)

theorem first {r r' : Result σ} (h : Extends r r') (rest : σ → Result σ) :
    Extends (Loops.proceed r rest) (Loops.proceed r' rest) := by
  cases r with
  | none =>
    intro x hx
    cases hx
  | some a =>
    rw [h a rfl]
    exact .refl _

end Extends

/-- A call that is defined and ends in `P`, or in `Q` if it fails. -/
inductive Yields (P Q : σ → Prop) : Result σ → Prop
  | done {s : σ} (h : P s) : Yields P Q (some (s, false))
  | failed {s : σ} (h : Q s) : Yields P Q (some (s, true))

namespace Yields

variable {P P' Q Q' : σ → Prop} {r : Result σ}

theorem mono (h : Yields P Q r) (hP : ∀ s, P s → P' s) (hQ : ∀ s, Q s → Q' s) :
    Yields P' Q' r := by
  cases h with
  | done h => exact .done (hP _ h)
  | failed h => exact .failed (hQ _ h)

theorem proceed {rest : σ → Result σ} (h : Yields P Q r)
    (hrest : ∀ s, P s → Yields P' Q (rest s)) : Yields P' Q (proceed r rest) := by
  cases h with
  | done h => exact hrest _ h
  | failed h => exact .failed h

/-- The rule for loops: what each call preserves that does not fail. -/
theorem range {I : Nat → σ → Prop} {body : Nat → σ → Result σ} {n : Nat}
    (hbody : ∀ i < n, ∀ s, I i s → Yields (I (i + 1)) Q (body i s)) {s : σ} (h : I 0 s) :
    Yields (I n) Q (each body (List.range n) s) := by
  suffices hfrom : ∀ k i s, i + k = n → I i s → Yields (I n) Q (each body (List.range' i k) s) by
    rw [List.range_eq_range']
    exact hfrom n 0 s (Nat.zero_add n) h
  intro k
  induction k with
  | zero =>
    rintro i s rfl hi
    exact .done hi
  | succ k ih =>
    intro i s hik hi
    rw [List.range'_succ, each_cons]
    exact (hbody i (by omega) s hi).proceed fun t ht => ih (i + 1) t (by omega) ht

theorem each {body : ι → σ → Result σ} {xs : List ι}
    (hbody : ∀ x ∈ xs, ∀ s, P s → Yields P Q (body x s)) {s : σ} (h : P s) :
    Yields P Q (each body xs s) := by
  induction xs generalizing s with
  | nil => exact .done h
  | cons x xs ih =>
    exact (hbody x (by simp) s h).proceed fun t ht => ih (fun y hy => hbody y (by simp [hy])) ht

theorem done_of_not_failed (h : Yields P (fun _ => False) r) : ∃ s, r = some (s, false) ∧ P s := by
  cases h with
  | done h => exact ⟨_, rfl, h⟩
  | failed h => exact h.elim

end Yields

section Preservation

/-- A call that leaves a component of the state as it was, whether it fails or not. -/
def Preserves {α : Type} (component : σ → α) (f : σ → Result σ) : Prop :=
  ∀ s r, f s = some r → component r.1 = component s

namespace Preserves

variable {α : Type} {component : σ → α}

theorem done (failed : Bool) : Preserves component fun s => some (s, failed) := by
  intro s r h
  cases h
  rfl

theorem proceed {f g : σ → Result σ} (hf : Preserves component f) (hg : Preserves component g) :
    Preserves component fun s => Loops.proceed (f s) g := by
  intro s r h
  simp only at h
  cases hfs : f s with
  | none =>
    rw [hfs] at h
    cases h
  | some u =>
    obtain ⟨t, failed⟩ := u
    have ht := hf s _ hfs
    rw [hfs] at h
    cases failed with
    | false => exact (hg t r h).trans ht
    | true =>
      cases h
      exact ht

theorem each {body : ι → σ → Result σ} (h : ∀ x, Preserves component (body x)) (xs : List ι) :
    Preserves component (Loops.each body xs) := by
  induction xs with
  | nil => exact .done false
  | cons x xs ih => exact (h x).proceed ih

end Preserves

/-- Two calls that end alike, in states that are related. -/
inductive Related {τ : Type} (R : σ → τ → Prop) : Result σ → Result τ → Prop
  | undefined : Related R none none
  | ends {s : σ} {t : τ} (failed : Bool) (h : R s t) :
    Related R (some (s, failed)) (some (t, failed))

namespace Related

variable {τ : Type} {R : σ → τ → Prop} {r : Result σ} {r' : Result τ}

theorem proceed {rest : σ → Result σ} {rest' : τ → Result τ} (h : Related R r r')
    (hrest : ∀ s t, R s t → Related R (rest s) (rest' t)) :
    Related R (Loops.proceed r rest) (Loops.proceed r' rest') := by
  cases h with
  | undefined => exact .undefined
  | ends failed h =>
    cases failed with
    | false => exact hrest _ _ h
    | true => exact .ends true h

end Related

end Preservation

section ForByte

variable {cond : UInt8 → Prop} [DecidablePred cond] {body body' : UInt8 → σ → Result σ} {n : Nat}

/-- `for (uint8_t i = start; cond i; i++) body i`, with so much fuel. -/
def forByte (cond : UInt8 → Prop) [DecidablePred cond] (body : UInt8 → σ → Result σ) :
    Nat → UInt8 → σ → Result σ
  | 0, _, _ => none
  | fuel + 1, i, s =>
    if cond i then proceed (body i s) (forByte cond body fuel (i + 1)) else some (s, false)

theorem forByte_done (hn : n ≤ 255) (hcond : ∀ i : UInt8, cond i ↔ i.toNat < n) {fuel : Nat}
    (hfuel : n < fuel) (s : σ) :
    forByte cond body fuel 0 s = each (fun i => body (UInt8.ofNat i)) (List.range n) s := by
  suffices hfrom : ∀ k i fuel s, i + k = n → k < fuel → forByte cond body fuel (UInt8.ofNat i) s =
      each (fun i => body (UInt8.ofNat i)) (List.range' i k) s by
    rw [List.range_eq_range']
    exact hfrom n 0 fuel s (Nat.zero_add n) hfuel
  intro k
  induction k with
  | zero =>
    intro i fuel s hi hf
    obtain ⟨fuel, rfl⟩ := Nat.exists_eq_succ_of_ne_zero (Nat.ne_of_gt hf)
    have hstop : ¬ cond (UInt8.ofNat i) := by
      rw [hcond, UInt8.toNat_ofNat_of_lt' (by rw [UInt8.size]; omega)]
      omega
    rw [forByte, if_neg hstop, List.range'_zero, each_nil]
  | succ k ih =>
    intro i fuel s hi hf
    obtain ⟨fuel, rfl⟩ := Nat.exists_eq_succ_of_ne_zero (Nat.ne_of_gt (Nat.zero_lt_of_lt hf))
    have hgo : cond (UInt8.ofNat i) := by
      rw [hcond, UInt8.toNat_ofNat_of_lt' (by rw [UInt8.size]; omega)]
      omega
    rw [forByte, if_pos hgo, List.range'_succ, each_cons]
    apply congrArg
    funext t
    have hnext : UInt8.ofNat i + 1 = UInt8.ofNat (i + 1) := (UInt8.ofNat_add i 1).symm
    rw [hnext]
    exact ih (i + 1) fuel t (by omega) (Nat.lt_of_succ_lt_succ hf)

theorem Extends.forByte (hbody : ∀ i s, Extends (body i s) (body' i s)) {fuel fuel' : Nat}
    (hfuel : fuel ≤ fuel') (i : UInt8) (s : σ) :
    Extends (Loops.forByte cond body fuel i s) (Loops.forByte cond body' fuel' i s) := by
  induction fuel generalizing fuel' i s with
  | zero =>
    intro x hx
    cases hx
  | succ fuel ih =>
    obtain ⟨fuel', rfl⟩ := Nat.exists_eq_succ_of_ne_zero
      (Nat.ne_of_gt (Nat.zero_lt_of_lt (Nat.lt_of_succ_le hfuel)))
    rw [Loops.forByte, Loops.forByte]
    split
    · exact ((hbody i s).first _).trans
        (.proceed _ fun t => ih (Nat.le_of_succ_le_succ hfuel) (i + 1) t)
    · exact .refl _

theorem forByte_endless {I : σ → Prop} (hcond : ∀ i, cond i)
    (hbody : ∀ i s t failed, I s → body i s = some (t, failed) → failed = false ∧ I t)
    (fuel : Nat) (i : UInt8) {s : σ} (hs : I s) : forByte cond body fuel i s = none := by
  induction fuel generalizing i s with
  | zero => rfl
  | succ fuel ih =>
    rw [forByte, if_pos (hcond i)]
    cases hb : body i s with
    | none => rfl
    | some r =>
      obtain ⟨t, failed⟩ := r
      obtain ⟨rfl, ht⟩ := hbody i s t failed hs hb
      rw [proceed_done]
      exact ih (i + 1) ht

end ForByte

end WriteWise.Library.Loops
