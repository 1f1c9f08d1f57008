import Mathlib

namespace WriteWise.Library.Lines

variable {β : Type} (sep : β)

section Cut

variable [DecidableEq β]

/-- The first line with its terminator, and what comes behind it. -/
def cut : List β → List β × List β
  | [] => ([], [])
  | b :: bs => if b = sep then ([b], bs) else (b :: (cut bs).1, (cut bs).2)

def lines : List β → List (List β)
  | [] => []
  | b :: bs =>
    if b = sep then [b] :: lines bs
    else match lines bs with
      | [] => [[b]]
      | l :: ls => (b :: l) :: ls

theorem lines_eq_cut {bs : List β} (h : bs ≠ []) :
    lines sep bs = (cut sep bs).1 :: lines sep (cut sep bs).2 := by
  induction bs with
  | nil => exact absurd rfl h
  | cons b bs ih =>
    by_cases hb : b = sep
    · simp only [lines, cut, if_pos hb]
    · simp only [lines, cut, if_neg hb]
      by_cases hbs : bs = []
      · subst hbs
        rfl
      · rw [ih hbs]

end Cut

theorem intercalate_cons (w : List β) (ws : List (List β)) :
    [sep].intercalate (w :: ws) = w ++ ws.flatMap fun v => sep :: v := by
  induction ws generalizing w with
  | nil => simp
  | cons v ws ih =>
    rw [List.intercalate_cons_cons, ih v, List.flatMap_cons, List.append_assoc]
    rfl

end WriteWise.Library.Lines
