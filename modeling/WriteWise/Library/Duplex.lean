import WriteWise.Library.Runs

namespace WriteWise.Library.Duplex

open Runs

inductive Side
  | left
  | right
  deriving DecidableEq, Repr

/-- Two parties and the two channels between them, seen from one of them: `out`
leads from the near party to the far one, `inn` back. -/
structure Link (σ κ : Type) where
  near : σ
  far : σ
  out : κ
  inn : κ
  deriving DecidableEq

variable {σ κ α : Type}

def Link.swap (d : Link σ κ) : Link σ κ := ⟨d.far, d.near, d.inn, d.out⟩

@[simp] theorem swap_near (d : Link σ κ) : d.swap.near = d.far := rfl

@[simp] theorem swap_far (d : Link σ κ) : d.swap.far = d.near := rfl

@[simp] theorem swap_out (d : Link σ κ) : d.swap.out = d.inn := rfl

@[simp] theorem swap_inn (d : Link σ κ) : d.swap.inn = d.out := rfl

@[simp] theorem swap_swap (d : Link σ κ) : d.swap.swap = d := rfl

def Link.view (d : Link σ κ) : Side → Link σ κ
  | .left => d
  | .right => d.swap

/-- A step of either party, from what one party does to a state that it sees as the near one. -/
def step (act : Link σ κ → α → Option (Link σ κ)) (d : Link σ κ) (e : Side × α) :
    Option (Link σ κ) :=
  (act (d.view e.1) e.2).map fun d' => d'.view e.1

/-- A guard on steps, from one on what the acting party sees. -/
def Seen (P : Link σ κ → α → Prop) (d : Link σ κ) (e : Side × α) : Prop := P (d.view e.1) e.2

instance (P : Link σ κ → α → Prop) [∀ d a, Decidable (P d a)] (d : Link σ κ) (e : Side × α) :
    Decidable (Seen P d e) :=
  inferInstanceAs (Decidable (P (d.view e.1) e.2))

@[simp] theorem view_view (d : Link σ κ) (s : Side) : (d.view s).view s = d := by
  cases s <;> rfl

/-- A symmetric invariant need only be checked for one party. -/
theorem invariant {act : Link σ κ → α → Option (Link σ κ)} {P : Link σ κ → α → Prop}
    {I : Link σ κ → Prop} (hsymm : ∀ d, I d → I d.swap)
    (hact : ∀ d a d', I d → P d a → act d a = some d' → I d') {d d' : Link σ κ}
    {es : List (Side × α)} (hd : I d) (hg : Guarded (step act) (Seen P) d es)
    (hr : run (step act) d es = some d') : I d' := by
  have hview : ∀ d s, I d → I (d.view s) := by
    intro d s h
    cases s with
    | left => exact h
    | right => exact hsymm d h
  apply Runs.invariant (fun d e d' hI hP hs => ?_) hd hg hr
  obtain ⟨d'', hd'', rfl⟩ := Option.map_eq_some_iff.mp hs
  exact hview _ _ (hact _ _ _ (hview _ _ hI) hP hd'')

end WriteWise.Library.Duplex
