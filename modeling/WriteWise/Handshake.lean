import WriteWise.Library.Duplex
import WriteWise.Typing

namespace WriteWise.Handshake

open Library.Duplex Typing

/-- What the players tell each other. A bid is `READY` and the seed behind it. -/
inductive Note
  | bid (seed : UInt64)
  | nready
  | readyAck
  | nreadyAck
  | ack
  | won
  deriving DecidableEq, Repr

/-- A channel: what is on its way, after the seed of the bid that is half read. -/
structure Lane where
  pending : Option UInt64 := none
  notes : List Note := []
  deriving DecidableEq

/-- A player. `text` holds both seeds of the text that it generated last, and
`texts` counts the texts that it has generated. -/
structure Racer where
  status : TypingStatus := .unready
  readyMe : Bool := false
  readyYou : Bool := false
  seedMe : UInt64 := 0
  seedYou : UInt64 := 0
  waiting : Bool := false
  text : Option (UInt64 × UInt64) := none
  texts : Nat := 0
  deriving DecidableEq

abbrev Game := Link Racer Lane

def Racer.BothReady (r : Racer) : Prop :=
  r.readyMe = true ∧ r.readyYou = true ∧ r.seedMe ≠ 0 ∧ r.seedYou ≠ 0

instance (r : Racer) : Decidable r.BothReady := by
  unfold Racer.BothReady
  infer_instance

/-- When both are ready the text is generated, and the countdown begins. -/
def Racer.check (r : Racer) : Racer :=
  if r.BothReady then
    { r with status := .ready, text := some (r.seedMe, r.seedYou), texts := r.texts + 1 }
  else r

/-- What a player makes of a note, and what it answers. A player that has left
the status `unready` answers nothing. -/
def Racer.hear (r : Racer) : Note → Racer × List Note
  | .bid _ =>
    if r.status = .unready then ({ r with readyYou := true }, [.readyAck])
    else ({ r with waiting := false }, [])
  | .nready =>
    if r.status = .unready then ({ r with readyYou := false }, [.nreadyAck])
    else ({ r with waiting := false }, [])
  | .readyAck =>
    (if r.waiting then { Racer.check { r with readyMe := true } with waiting := false } else r, [])
  | .nreadyAck =>
    (if r.waiting then { r with readyMe := false, seedMe := 0, waiting := false } else r, [])
  | .ack => ({ r with waiting := false }, [])
  | .won =>
    ({ r with
      waiting := false
      status := if r.status = .typing then .finished else r.status }, [])

/-- A seed counts only for a player that is still `unready`. Every seed is acknowledged. -/
def Racer.hearSeed (r : Racer) (seed : UInt64) : Racer × List Note :=
  (if r.status = .unready then Racer.check { r with seedYou := seed } else r, [.ack])

/-- The Ready button, which says Unready once the player is ready. -/
def Racer.press (r : Racer) (seed : UInt64) : Racer × List Note :=
  if r.readyMe then ({ r with waiting := true }, [.nready])
  else ({ r with seedMe := seed, waiting := true }, [.bid seed])

def Note.seed : Note → Option UInt64
  | .bid seed => some seed
  | _ => none

def Lane.add (l : Lane) (notes : List Note) : Lane := { l with notes := l.notes ++ notes }

/-- The near player reads what comes next: the seed of a half-read bid, or a note. -/
def hear (g : Game) : Option Game :=
  match g.inn.pending, g.inn.notes with
  | some seed, notes =>
    some { g with
      near := (g.near.hearSeed seed).1
      inn := { pending := none, notes := notes }
      out := g.out.add (g.near.hearSeed seed).2 }
  | none, note :: notes =>
    some { g with
      near := (g.near.hear note).1
      inn := { pending := note.seed, notes := notes }
      out := g.out.add (g.near.hear note).2 }
  | none, [] => none

/-- The near player presses its button. -/
def press (seed : UInt64) (g : Game) : Game :=
  { g with near := (g.near.press seed).1, out := g.out.add (g.near.press seed).2 }

/-- What can happen to the near player without a press. -/
inductive Move (g : Game) : Game → Prop
  | idle : Move g g
  | hear (g' : Game) (h : hear g = some g') : Move g g'
  | start (h : g.near.status = .ready) :
    Move g { g with near := { g.near with status := .typing } }
  | win (h : g.near.status = .typing) :
    Move g { g with near := { g.near with status := .finished }, out := g.out.add [.won] }

@[simp] theorem add_pending (l : Lane) (notes : List Note) :
    (l.add notes).pending = l.pending := rfl

@[simp] theorem add_notes (l : Lane) (notes : List Note) :
    (l.add notes).notes = l.notes ++ notes := rfl

@[simp] theorem add_nil (l : Lane) : l.add [] = l := by
  rw [Lane.add, List.append_nil]

def Lane.bids (l : Lane) : List UInt64 := l.notes.filterMap Note.seed

@[simp] theorem bids_mk_cons (pending : Option UInt64) (note : Note) (notes : List Note) :
    Lane.bids ⟨pending, note :: notes⟩ = note.seed.toList ++ Lane.bids ⟨none, notes⟩ := by
  cases note <;> rfl

@[simp] theorem bids_add (l : Lane) (notes : List Note) :
    (l.add notes).bids = l.bids ++ notes.filterMap Note.seed := List.filterMap_append

def Lane.seeds (l : Lane) : List UInt64 := l.pending.toList ++ l.bids

@[simp] theorem seeds_add (l : Lane) (notes : List Note) :
    (l.add notes).seeds = l.seeds ++ notes.filterMap Note.seed := by
  rw [Lane.seeds, bids_add, ← List.append_assoc]
  rfl

theorem seeds_eq_nil {l : Lane} : l.seeds = [] ↔ l.pending = none ∧ l.bids = [] := by
  rw [Lane.seeds, List.append_eq_nil_iff, Option.toList_eq_nil_iff]

theorem check_cases (r : Racer) :
    (r.BothReady ∧ r.check =
      { r with status := .ready, text := some (r.seedMe, r.seedYou), texts := r.texts + 1 }) ∨
      (¬ r.BothReady ∧ r.check = r) := by
  by_cases h : r.BothReady
  · exact .inl ⟨h, if_pos h⟩
  · exact .inr ⟨h, if_neg h⟩

/-- What the near player does with what it hears, case by case. -/
inductive Hears (p : Racer) (out inn : Lane) : Racer → Lane → Lane → Prop
  | seed (v : UInt64) (hp : inn.pending = some v) (hs : p.status = .unready) :
    Hears p out inn (Racer.check { p with seedYou := v }) (out.add [.ack]) ⟨none, inn.notes⟩
  | lateSeed (v : UInt64) (hp : inn.pending = some v) (hs : p.status ≠ .unready) :
    Hears p out inn p (out.add [.ack]) ⟨none, inn.notes⟩
  | bid (v : UInt64) (rest : List Note) (hi : inn = ⟨none, .bid v :: rest⟩)
    (hs : p.status = .unready) :
    Hears p out inn { p with readyYou := true } (out.add [.readyAck]) ⟨some v, rest⟩
  | lateBid (v : UInt64) (rest : List Note) (hi : inn = ⟨none, .bid v :: rest⟩)
    (hs : p.status ≠ .unready) :
    Hears p out inn { p with waiting := false } out ⟨some v, rest⟩
  | nready (rest : List Note) (hi : inn = ⟨none, .nready :: rest⟩) (hs : p.status = .unready) :
    Hears p out inn { p with readyYou := false } (out.add [.nreadyAck]) ⟨none, rest⟩
  | lateNReady (rest : List Note) (hi : inn = ⟨none, .nready :: rest⟩)
    (hs : p.status ≠ .unready) :
    Hears p out inn { p with waiting := false } out ⟨none, rest⟩
  | readyAck (rest : List Note) (hi : inn = ⟨none, .readyAck :: rest⟩) (hw : p.waiting = true) :
    Hears p out inn { Racer.check { p with readyMe := true } with waiting := false } out
      ⟨none, rest⟩
  | lateReadyAck (rest : List Note) (hi : inn = ⟨none, .readyAck :: rest⟩)
    (hw : p.waiting = false) : Hears p out inn p out ⟨none, rest⟩
  | nreadyAck (rest : List Note) (hi : inn = ⟨none, .nreadyAck :: rest⟩) (hw : p.waiting = true) :
    Hears p out inn { p with readyMe := false, seedMe := 0, waiting := false } out ⟨none, rest⟩
  | lateNReadyAck (rest : List Note) (hi : inn = ⟨none, .nreadyAck :: rest⟩)
    (hw : p.waiting = false) : Hears p out inn p out ⟨none, rest⟩
  | ack (rest : List Note) (hi : inn = ⟨none, .ack :: rest⟩) :
    Hears p out inn { p with waiting := false } out ⟨none, rest⟩
  | won (rest : List Note) (hi : inn = ⟨none, .won :: rest⟩) (status : TypingStatus)
    (hs : status = p.status ∨ p.status = .typing ∧ status = .finished) :
    Hears p out inn { p with waiting := false, status := status } out ⟨none, rest⟩

theorem hears_of_hear {g g' : Game} (h : hear g = some g') :
    g'.far = g.far ∧ Hears g.near g.out g.inn g'.near g'.out g'.inn := by
  obtain ⟨p, q, out, ⟨pending, notes⟩⟩ := g
  cases pending with
  | some v =>
    cases h
    refine ⟨rfl, ?_⟩
    by_cases hs : p.status = .unready
    · simp only [Racer.hearSeed, if_pos hs]
      exact .seed v rfl hs
    · simp only [Racer.hearSeed, if_neg hs]
      exact .lateSeed v rfl hs
  | none =>
    cases notes with
    | nil => cases h
    | cons note rest =>
      cases h
      refine ⟨rfl, ?_⟩
      cases note with
      | bid v =>
        by_cases hs : p.status = .unready
        · simp only [Racer.hear, if_pos hs]
          exact .bid v rest rfl hs
        · simp only [Racer.hear, if_neg hs, add_nil]
          exact .lateBid v rest rfl hs
      | nready =>
        by_cases hs : p.status = .unready
        · simp only [Racer.hear, if_pos hs]
          exact .nready rest rfl hs
        · simp only [Racer.hear, if_neg hs, add_nil]
          exact .lateNReady rest rfl hs
      | readyAck =>
        by_cases hw : p.waiting = true
        · simp only [Racer.hear, if_pos hw, add_nil]
          exact .readyAck rest rfl hw
        · simp only [Racer.hear, if_neg hw, add_nil]
          exact .lateReadyAck rest rfl (by simpa using hw)
      | nreadyAck =>
        by_cases hw : p.waiting = true
        · simp only [Racer.hear, if_pos hw, add_nil]
          exact .nreadyAck rest rfl hw
        · simp only [Racer.hear, if_neg hw, add_nil]
          exact .lateNReadyAck rest rfl (by simpa using hw)
      | ack =>
        simp only [Racer.hear, add_nil]
        exact .ack rest rfl
      | won =>
        simp only [Racer.hear, add_nil]
        refine .won rest rfl _ ?_
        by_cases hs : p.status = .typing
        · exact .inr ⟨hs, if_pos hs⟩
        · exact .inl (if_neg hs)

section Check

variable (r : Racer)

@[simp] theorem check_readyMe : r.check.readyMe = r.readyMe := by
  obtain ⟨-, hc⟩ | ⟨-, hc⟩ := check_cases r <;> rw [hc]

@[simp] theorem check_readyYou : r.check.readyYou = r.readyYou := by
  obtain ⟨-, hc⟩ | ⟨-, hc⟩ := check_cases r <;> rw [hc]

@[simp] theorem check_seedMe : r.check.seedMe = r.seedMe := by
  obtain ⟨-, hc⟩ | ⟨-, hc⟩ := check_cases r <;> rw [hc]

@[simp] theorem check_seedYou : r.check.seedYou = r.seedYou := by
  obtain ⟨-, hc⟩ | ⟨-, hc⟩ := check_cases r <;> rw [hc]

@[simp] theorem check_waiting : r.check.waiting = r.waiting := by
  obtain ⟨-, hc⟩ | ⟨-, hc⟩ := check_cases r <;> rw [hc]

end Check

theorem check_unready {r : Racer} (h : r.check.status = .unready) :
    r.check = r ∧ r.status = .unready ∧ ¬ r.BothReady := by
  obtain ⟨-, hc⟩ | ⟨hb, hc⟩ := check_cases r
  · rw [hc] at h
    cases h
  · rw [hc] at h ⊢
    exact ⟨rfl, h, hb⟩

theorem Hears.unready {p p' : Racer} {out inn out' inn' : Lane}
    (h : Hears p out inn p' out' inn') (hs : p'.status = .unready) : p.status = .unready := by
  cases h with
  | seed v hp hu => exact hu
  | readyAck rest hi hw => exact (check_unready hs).2.1
  | won rest hi status hst =>
    obtain rfl | ⟨-, rfl⟩ := hst
    · exact hs
    · cases hs
  | _ => exact hs

theorem Hears.reads {p p' : Racer} {out inn out' inn' : Lane} (h : Hears p out inn p' out' inn') :
    (∀ note ∈ inn'.notes, note ∈ inn.notes) ∧ ∀ v ∈ inn'.seeds, v ∈ inn.seeds := by
  have hcons (note : Note) (rest : List Note) : (∀ n ∈ rest, n ∈ note :: rest) ∧
      ∀ v ∈ (⟨note.seed, rest⟩ : Lane).seeds, v ∈ (⟨none, note :: rest⟩ : Lane).seeds := by
    refine ⟨fun _ => List.mem_cons_of_mem _, ?_⟩
    cases note <;> simp [Lane.seeds, Note.seed, Lane.bids]
  cases h with
  | seed v hp hs | lateSeed v hp hs => exact ⟨fun _ => id, fun v hv => List.mem_append_right _ hv⟩
  | bid v rest hi hs | lateBid v rest hi hs =>
    subst hi
    exact hcons (.bid v) rest
  | nready rest hi hs | lateNReady rest hi hs =>
    subst hi
    exact hcons .nready rest
  | readyAck rest hi hw | lateReadyAck rest hi hw =>
    subst hi
    exact hcons .readyAck rest
  | nreadyAck rest hi hw | lateNReadyAck rest hi hw =>
    subst hi
    exact hcons .nreadyAck rest
  | ack rest hi =>
    subst hi
    exact hcons .ack rest
  | won rest hi status hs =>
    subst hi
    exact hcons .won rest

/-- Answers are no bids, and tell neither of a withdrawn bid nor of a win. -/
theorem Hears.writes {p p' : Racer} {out inn out' inn' : Lane} (h : Hears p out inn p' out' inn') :
    ∃ notes, out' = out.add notes ∧ notes.filterMap Note.seed = [] ∧ .nready ∉ notes ∧
      .won ∉ notes := by
  cases h with
  | seed v hp hs | lateSeed v hp hs => exact ⟨[.ack], rfl, rfl, by decide, by decide⟩
  | bid v rest hi hs => exact ⟨[.readyAck], rfl, rfl, by decide, by decide⟩
  | nready rest hi hs => exact ⟨[.nreadyAck], rfl, rfl, by decide, by decide⟩
  | _ => exact ⟨[], (add_nil out).symm, rfl, List.not_mem_nil, List.not_mem_nil⟩

end WriteWise.Handshake
