import Mathlib

namespace WriteWise.Library.Allocation

/-- A block has the number of its allocation. `none` is NULL. -/
abbrev Pointer := Option Nat

/-- The blocks that are allocated, and the first number that no block has had. -/
structure Heap where
  live : List Nat := []
  fresh : Nat := 0
  deriving DecidableEq

def malloc (h : Heap) : Heap × Pointer :=
  ({ live := h.fresh :: h.live, fresh := h.fresh + 1 }, some h.fresh)

def free (h : Heap) : Pointer → Option Heap
  | none => some h
  | some b => if b ∈ h.live then some { h with live := h.live.erase b } else none

def realloc (h : Heap) : Bool → Pointer → Option (Heap × Pointer)
  | true, p => (free h p).map malloc
  | false, none => some (malloc h)
  | false, some b => if b ∈ h.live then some (h, some b) else none

def freeAll (h : Heap) : List Pointer → Option Heap
  | [] => some h
  | p :: ps => (free h p).bind fun h => freeAll h ps

def mallocs (h : Heap) : Nat → Heap × List Pointer
  | 0 => (h, [])
  | n + 1 =>
    let r := mallocs (malloc h).1 n
    (r.1, (malloc h).2 :: r.2)

def blocks (ps : List Pointer) : List Nat := ps.reduceOption

/-- The blocks that are allocated are those that the pointers name, no two of them the same,
and those that nobody names any more. -/
structure Owns (h : Heap) (ps : List Pointer) (lost : List Nat) : Prop where
  perm : h.live.Perm (blocks ps ++ lost)
  nodup : h.live.Nodup
  old : ∀ b ∈ h.live, b < h.fresh

variable {h h' : Heap} {p : Pointer} {ps qs : List Pointer} {lost : List Nat}

@[simp] theorem blocks_nil : blocks [] = [] := rfl

@[simp] theorem blocks_none (ps : List Pointer) : blocks (none :: ps) = blocks ps := rfl

@[simp] theorem blocks_some (b : Nat) (ps : List Pointer) :
    blocks (some b :: ps) = b :: blocks ps := rfl

@[simp] theorem blocks_append (ps qs : List Pointer) : blocks (ps ++ qs) = blocks ps ++ blocks qs :=
  List.reduceOption_append ps qs

theorem blocks_perm (hp : ps.Perm qs) : (blocks ps).Perm (blocks qs) := by
  unfold blocks List.reduceOption
  exact hp.filterMap id

theorem Owns.reorder (ho : Owns h ps lost) (hp : (blocks ps).Perm (blocks qs)) : Owns h qs lost :=
  ⟨ho.perm.trans (hp.append_right lost), ho.nodup, ho.old⟩

theorem Owns.null (ho : Owns h (none :: ps) lost) : Owns h ps lost :=
  ⟨ho.perm, ho.nodup, ho.old⟩

theorem Owns.withNull (ho : Owns h ps lost) : Owns h (none :: ps) lost :=
  ⟨ho.perm, ho.nodup, ho.old⟩

@[simp] theorem blocks_replicate (n : Nat) : blocks (List.replicate n none) = [] := by
  induction n with
  | zero => rfl
  | succ n ih => rwa [List.replicate_succ, blocks_none]

theorem owns_empty (n : Nat) : Owns {} (List.replicate n none) [] := by
  refine ⟨?_, List.nodup_nil, nofun⟩
  rw [blocks_replicate]
  rfl

theorem Owns.malloc (ho : Owns h ps lost) : Owns (malloc h).1 ((malloc h).2 :: ps) lost where
  perm := ho.perm.cons h.fresh
  nodup := List.nodup_cons.mpr ⟨fun hb => absurd (ho.old _ hb) (Nat.lt_irrefl _), ho.nodup⟩
  old := by
    intro b hb
    obtain rfl | hb := List.mem_cons.mp hb
    · exact Nat.lt_succ_self _
    · exact Nat.lt_succ_of_lt (ho.old b hb)

theorem Owns.free (ho : Owns h (p :: ps) lost) : ∃ h', free h p = some h' ∧ Owns h' ps lost := by
  cases p with
  | none => exact ⟨h, rfl, ho.null⟩
  | some b =>
    have hmem : b ∈ h.live := ho.perm.mem_iff.mpr List.mem_cons_self
    refine ⟨{ h with live := h.live.erase b }, if_pos hmem, ?_, ho.nodup.erase b, ?_⟩
    · have he := ho.perm.erase b
      rwa [blocks_some, List.cons_append, List.erase_cons_head] at he
    · exact fun c hc => ho.old c (List.mem_of_mem_erase hc)

/-- Pointers that are overwritten or forgotten lose their blocks. -/
theorem Owns.loseAll (ho : Owns h (qs ++ ps) lost) : Owns h ps (blocks qs ++ lost) := by
  refine ⟨ho.perm.trans ?_, ho.nodup, ho.old⟩
  rw [blocks_append, ← List.append_assoc]
  exact List.perm_append_comm.append_right lost

theorem Owns.lose (ho : Owns h (p :: ps) lost) : Owns h ps (blocks [p] ++ lost) :=
  @Owns.loseAll h ps [p] lost ho

theorem Owns.realloc (ho : Owns h (p :: ps) lost) (moves : Bool) :
    ∃ r, realloc h moves p = some r ∧ Owns r.1 (r.2 :: ps) lost := by
  cases moves with
  | true =>
    obtain ⟨h', hf, ho'⟩ := ho.free
    refine ⟨Allocation.malloc h', ?_, ho'.malloc⟩
    rw [Allocation.realloc, hf, Option.map_some]
  | false =>
    cases p with
    | none => exact ⟨Allocation.malloc h, rfl, ho.null.malloc⟩
    | some b =>
      have hmem : b ∈ h.live := ho.perm.mem_iff.mpr List.mem_cons_self
      exact ⟨(h, some b), if_pos hmem, ho⟩

theorem Owns.freeAll (ho : Owns h (qs ++ ps) lost) :
    ∃ h', freeAll h qs = some h' ∧ Owns h' ps lost := by
  induction qs generalizing h with
  | nil => exact ⟨h, rfl, ho⟩
  | cons q qs ih =>
    obtain ⟨h', hf, ho'⟩ := Owns.free ho
    obtain ⟨h'', hf', ho''⟩ := ih ho'
    refine ⟨h'', ?_, ho''⟩
    rw [Allocation.freeAll, hf, Option.bind_some, hf']

theorem Owns.mallocs (ho : Owns h ps lost) (n : Nat) :
    Owns (mallocs h n).1 ((mallocs h n).2 ++ ps) lost := by
  induction n generalizing h ps with
  | zero => exact ho
  | succ n ih =>
    have hmid := ih ho.malloc
    exact hmid.reorder (blocks_perm List.perm_middle)

theorem length_blocks_mallocs (h : Heap) (n : Nat) : (blocks (mallocs h n).2).length = n := by
  induction n generalizing h with
  | zero => rfl
  | succ n ih => exact congrArg Nat.succ (ih (Allocation.malloc h).1)

theorem Owns.mem (ho : Owns h ps lost) {b : Nat} (hb : some b ∈ ps) : b ∈ h.live := by
  refine ho.perm.mem_iff.mpr (List.mem_append_left lost ?_)
  exact List.reduceOption_mem_iff.mpr hb

theorem Owns.free_twice {b : Nat} (ho : Owns h (some b :: ps) lost)
    (hf : Allocation.free h (some b) = some h') : Allocation.free h' (some b) = none := by
  have hmem : b ∈ h.live := ho.mem List.mem_cons_self
  rw [Allocation.free, if_pos hmem] at hf
  cases hf
  exact if_neg ho.nodup.not_mem_erase

theorem Owns.distinct (ho : Owns h ps lost) : (blocks ps).Nodup :=
  (List.nodup_append.mp (ho.perm.nodup_iff.mp ho.nodup)).1

theorem Owns.length (ho : Owns h ps lost) : h.live.length = (blocks ps).length + lost.length := by
  rw [ho.perm.length_eq, List.length_append]

end WriteWise.Library.Allocation
