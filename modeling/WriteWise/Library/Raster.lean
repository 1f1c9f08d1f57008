import Mathlib

namespace WriteWise.Library.Raster

variable {β : Type}

/-- Overwrite a part of a block. -/
def splice (block : List β) (i : Nat) (bytes : List β) : List β :=
  block.take i ++ bytes ++ block.drop (i + bytes.length)

theorem length_splice {block : List β} {i : Nat} {bytes : List β}
    (h : i + bytes.length ≤ block.length) : (splice block i bytes).length = block.length := by
  simp only [splice, List.length_append, List.length_take, List.length_drop]
  omega

theorem getElem?_splice {block : List β} {i : Nat} {bytes : List β}
    (h : i + bytes.length ≤ block.length) (k : Nat) : (splice block i bytes)[k]? =
      if i ≤ k ∧ k < i + bytes.length then bytes[k - i]? else block[k]? := by
  have hi : (block.take i).length = i := by
    rw [List.length_take]
    omega
  unfold splice
  obtain hk | hk := Nat.lt_or_ge k i
  · rw [if_neg (by omega), List.append_assoc, List.getElem?_append_left (by omega),
      List.getElem?_take_of_lt hk]
  · rw [List.append_assoc, List.getElem?_append_right (by omega), hi]
    obtain hk' | hk' := Nat.lt_or_ge (k - i) bytes.length
    · rw [if_pos (by omega), List.getElem?_append_left hk']
    · rw [if_neg (by omega), List.getElem?_append_right hk', List.getElem?_drop]
      congr 1
      omega

section Addressing

variable (width depth : Nat)

/-- Where byte `j` of a pixel lies in a picture that is stored row by row. -/
def offset (px py j : Nat) : Nat := (width * py + px) * depth + j

variable {width depth} {px py qx qy j k : Nat}

theorem digits_inj {b m n i i' : Nat} (hi : i < b) (hi' : i' < b) (h : b * m + i = b * n + i') :
    m = n ∧ i = i' := by
  have hb : 0 < b := by omega
  obtain ⟨hm, hr⟩ := (Nat.div_mod_unique hb).mpr ⟨Nat.add_comm i (b * m), hi⟩
  obtain ⟨hn, hr'⟩ := (Nat.div_mod_unique hb).mpr ⟨Nat.add_comm i' (b * n), hi'⟩
  rw [h] at hm hr
  exact ⟨hm.symm.trans hn, hr.symm.trans hr'⟩

theorem offset_inj (hp : px < width) (hq : qx < width) (hj : j < depth) (hk : k < depth)
    (h : offset width depth px py j = offset width depth qx qy k) : px = qx ∧ py = qy ∧ j = k := by
  rw [offset, offset, Nat.mul_comm _ depth, Nat.mul_comm _ depth] at h
  obtain ⟨hcell, hbyte⟩ := digits_inj hj hk h
  obtain ⟨hrow, hcol⟩ := digits_inj hp hq hcell
  exact ⟨hcol, hrow, hbyte⟩

theorem offset_lt {height : Nat} (hp : px < width) (hpy : py < height) (hj : j < depth) :
    offset width depth px py j < width * height * depth := by
  have hcell : width * py + px + 1 ≤ width * height := by
    calc width * py + px + 1 ≤ width * py + width := by omega
      _ = width * (py + 1) := by rw [Nat.mul_add, Nat.mul_one]
      _ ≤ width * height := Nat.mul_le_mul_left _ hpy
  calc offset width depth px py j < (width * py + px) * depth + depth := Nat.add_lt_add_left hj _
    _ = (width * py + px + 1) * depth := by rw [Nat.succ_mul]
    _ ≤ width * height * depth := Nat.mul_le_mul_right _ hcell

end Addressing

/-- Only bytes of the pixels in the area may have changed. -/
structure Confined (width depth : Nat) (area : Nat → Nat → Prop) (old new : List β) : Prop where
  length : new.length = old.length
  outside : ∀ k, (∀ px py j, area px py → j < depth → k ≠ offset width depth px py j) →
    new[k]? = old[k]?

/-- The pixels in the area hold the value, and the other bytes are as they were. -/
structure Painted (width depth : Nat) (area : Nat → Nat → Prop) (value old new : List β) : Prop
    extends Confined width depth area old new where
  inside : ∀ px py j, area px py → j < depth → new[offset width depth px py j]? = value[j]?

variable {width depth : Nat} {A B : Nat → Nat → Prop} {value a b c : List β}

theorem Confined.refl (width depth : Nat) (A : Nat → Nat → Prop) (a : List β) :
    Confined width depth A a a := ⟨rfl, fun _ _ => rfl⟩

theorem Confined.trans (hab : Confined width depth A a b) (hbc : Confined width depth B b c) :
    Confined width depth (fun px py => A px py ∨ B px py) a c := by
  refine ⟨hbc.length.trans hab.length, fun k hk => ?_⟩
  rw [hbc.outside k fun px py j h => hk px py j (.inr h),
    hab.outside k fun px py j h => hk px py j (.inl h)]

theorem Confined.mono (h : Confined width depth A a b) (hAB : ∀ px py, A px py → B px py) :
    Confined width depth B a b :=
  ⟨h.length, fun k hk => h.outside k fun px py j hp => hk px py j (hAB px py hp)⟩

theorem Painted.empty (h : ∀ px py, ¬ A px py) (value a : List β) :
    Painted width depth A value a a :=
  ⟨.refl _ _ _ _, fun px py _ hp => absurd hp (h px py)⟩

/-- What is painted last lies on top, of the same value. -/
theorem Painted.trans (hab : Painted width depth A value a b) (hbc : Painted width depth B value b c)
    (hA : ∀ px py, A px py → px < width) (hB : ∀ px py, B px py → px < width) :
    Painted width depth (fun px py => A px py ∨ B px py) value a c := by
  refine ⟨hab.toConfined.trans hbc.toConfined, fun px py j hp hj => ?_⟩
  by_cases hpB : B px py
  · exact hbc.inside px py j hpB hj
  · have hpA := hp.resolve_right hpB
    rw [hbc.outside _ fun qx qy k hq hk he => ?_, hab.inside px py j hpA hj]
    obtain ⟨rfl, rfl, -⟩ := offset_inj (hA px py hpA) (hB qx qy hq) hj hk he
    exact hpB hq

theorem painted_pixel {px py : Nat} (hlen : value.length = depth)
    (hfit : offset width depth px py 0 + depth ≤ a.length) :
    Painted width depth (fun qx qy => qx = px ∧ qy = py) value a
      (splice a (offset width depth px py 0) value) := by
  have hfit' : offset width depth px py 0 + value.length ≤ a.length := by rwa [hlen]
  have hbyte (j : Nat) : offset width depth px py j = offset width depth px py 0 + j := rfl
  refine ⟨⟨length_splice hfit', fun k hk => ?_⟩, ?_⟩
  · rw [getElem?_splice hfit', hlen, if_neg]
    rintro ⟨h1, h2⟩
    refine hk px py (k - offset width depth px py 0) ⟨rfl, rfl⟩ (by omega) ?_
    rw [hbyte]
    omega
  · rintro qx qy j ⟨rfl, rfl⟩ hj
    rw [hbyte j, getElem?_splice hfit', if_pos ⟨by omega, by omega⟩, Nat.add_sub_cancel_left]

end WriteWise.Library.Raster
