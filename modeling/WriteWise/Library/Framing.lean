import Mathlib

namespace WriteWise.Library.Framing

variable {D β μ : Type}

/-- Feed symbols to a receiver and collect the messages it recognises. -/
def receive (δ : D → β → D × Option μ) : D → List β → D × List μ
  | d, [] => (d, [])
  | d, b :: bs =>
    let r := receive δ (δ d b).1 bs
    (r.1, (δ d b).2.toList ++ r.2)

theorem receive_append (δ : D → β → D × Option μ) (d : D) (bs cs : List β) :
    receive δ d (bs ++ cs) =
      ((receive δ (receive δ d bs).1 cs).1,
        (receive δ d bs).2 ++ (receive δ (receive δ d bs).1 cs).2) := by
  induction bs generalizing d with
  | nil => rfl
  | cons b bs ih => simp only [List.cons_append, receive, ih, List.append_assoc]

/-- An encoding is framed for a receiver and a set of idle states when an idle
receiver recognises each encoded message, and nothing else, and is idle again. -/
def Framed (δ : D → β → D × Option μ) (Idle : D → Prop) (enc : μ → List β) (P : μ → Prop) :
    Prop :=
  ∀ d m, Idle d → P m → Idle (receive δ d (enc m)).1 ∧ (receive δ d (enc m)).2 = [m]

theorem Framed.stream {δ : D → β → D × Option μ} {Idle : D → Prop} {enc : μ → List β}
    {P : μ → Prop} (h : Framed δ Idle enc P) {d : D} (hd : Idle d) (ms : List μ)
    (hms : ∀ m ∈ ms, P m) :
    Idle (receive δ d (ms.flatMap enc)).1 ∧ (receive δ d (ms.flatMap enc)).2 = ms := by
  induction ms generalizing d with
  | nil => exact ⟨hd, rfl⟩
  | cons m ms ih =>
    obtain ⟨hi, hm⟩ := h d m hd (hms m (by simp))
    obtain ⟨hi', hms'⟩ := ih hi (fun n hn => hms n (by simp [hn]))
    rw [List.flatMap_cons, receive_append]
    exact ⟨hi', by simp only [hm, hms', List.singleton_append]⟩

def answers (δ : D → β → D × Option μ) : D → List β → List (Option μ)
  | _, [] => []
  | d, b :: bs => (δ d b).2 :: answers δ (δ d b).1 bs

theorem answers_append (δ : D → β → D × Option μ) (d : D) (bs cs : List β) :
    answers δ d (bs ++ cs) = answers δ d bs ++ answers δ (receive δ d bs).1 cs := by
  induction bs generalizing d with
  | nil => rfl
  | cons b bs ih => simp only [List.cons_append, answers, receive, ih]

/-- An idle receiver answers each encoded item as said, and is idle again. -/
def Timed {ι : Type} (δ : D → β → D × Option μ) (Idle : D → Prop) (enc : ι → List β)
    (said : ι → List (Option μ)) (P : ι → Prop) : Prop :=
  ∀ d x, Idle d → P x → Idle (receive δ d (enc x)).1 ∧ answers δ d (enc x) = said x

theorem Timed.stream {ι : Type} {δ : D → β → D × Option μ} {Idle : D → Prop} {enc : ι → List β}
    {said : ι → List (Option μ)} {P : ι → Prop} (h : Timed δ Idle enc said P) {d : D}
    (hd : Idle d) (xs : List ι) (hxs : ∀ x ∈ xs, P x) :
    answers δ d (xs.flatMap enc) = xs.flatMap said := by
  induction xs generalizing d with
  | nil => rfl
  | cons x xs ih =>
    obtain ⟨hi, hx⟩ := h d x hd (hxs x (by simp))
    rw [List.flatMap_cons, answers_append, hx, ih hi fun y hy => hxs y (by simp [hy])]
    rfl

end WriteWise.Library.Framing
