import WriteWise.Library.Runs
import WriteWise.Mouse

namespace WriteWise.Gesture

open Library.Runs Mouse

inductive State
  | S
  | U
  | V
  | D
  | E
  deriving DecidableEq, Repr

structure Recognition where
  currentState : State := .S
  diffX : Int16 := 0
  diffY : Int16 := 0
  deriving DecidableEq

section Update

variable (xLen tolerance : UInt8)

/-- The sums are computed in `int` and stored in sixteen bits. -/
def mouseStateUpdate (p : Packet) (g : Recognition) : Recognition :=
  match g.currentState with
  | .S =>
    if p.lb ∧ ¬ p.mb ∧ ¬ p.rb then
      if 0 ≤ p.deltaX.toInt + tolerance.toNat ∧ 0 ≤ p.deltaY.toInt + tolerance.toNat then
        { currentState := .U, diffX := p.deltaX, diffY := p.deltaY }
      else g
    else g
  | .U =>
    if ¬ p.mb ∧ ¬ p.rb then
      if p.lb then
        if 0 ≤ p.deltaX.toInt + tolerance.toNat ∧ 0 ≤ p.deltaY.toInt + tolerance.toNat then
          { g with diffX := g.diffX + p.deltaX, diffY := g.diffY + p.deltaY }
        else { g with currentState := .S }
      else if xLen.toNat ≤ g.diffX.toInt ∧ g.diffX ≤ g.diffY then { g with currentState := .V }
      else { g with currentState := .S }
    else { g with currentState := .S }
  | .V =>
    if ¬ p.lb ∧ ¬ p.mb then
      if p.deltaX.toInt.natAbs ≤ tolerance.toNat ∨ p.deltaY.toInt.natAbs ≤ tolerance.toNat then
        if p.rb then { currentState := .D, diffX := p.deltaX, diffY := -p.deltaY } else g
      else { g with currentState := .S }
    else { g with currentState := .S }
  | .D =>
    if ¬ p.lb ∧ ¬ p.mb then
      if p.rb then
        if 0 ≤ p.deltaX.toInt + tolerance.toNat ∧ 0 ≤ tolerance.toNat - p.deltaY.toInt then
          { g with diffX := g.diffX + p.deltaX, diffY := g.diffY - p.deltaY }
        else { g with currentState := .S }
      else if xLen.toNat ≤ g.diffX.toInt ∧ g.diffX ≤ g.diffY then { g with currentState := .E }
      else { g with currentState := .S }
    else { g with currentState := .S }
  | .E => g

def step (g : Recognition) (p : Packet) : Option Recognition :=
  some (mouseStateUpdate xLen tolerance p g)

end Update

def OnlyLeft (p : Packet) : Prop := p.lb = true ∧ p.mb = false ∧ p.rb = false

def OnlyRight (p : Packet) : Prop := p.lb = false ∧ p.mb = false ∧ p.rb = true

def sumX (ps : List Packet) : Int := (ps.map fun p => p.deltaX.toInt).sum

def sumY (ps : List Packet) : Int := (ps.map fun p => p.deltaY.toInt).sum

/-- A packet does not move back by more than the tolerance. The first stroke goes up, the second
one down. -/
def Allowed (sign : Int) (tolerance : UInt8) (p : Packet) : Prop :=
  -tolerance.toNat ≤ p.deltaX.toInt ∧ -tolerance.toNat ≤ sign * p.deltaY.toInt

structure Stroke (button : Packet → Prop) (sign : Int) (tolerance : UInt8) (ps : List Packet) :
    Prop where
  nonempty : ps ≠ []
  button : ∀ p ∈ ps, button p
  allowed : ∀ p ∈ ps, Allowed sign tolerance p

def Long (sign : Int) (xLen : UInt8) (ps : List Packet) : Prop :=
  xLen.toNat ≤ sumX ps ∧ sumX ps ≤ sign * sumY ps

/-- The gesture: a stroke up with the left button, and later a stroke down with the right one. -/
def Drawn (xLen tolerance : UInt8) (packets : List Packet) : Prop :=
  ∃ pre left mid right post, packets = pre ++ left ++ mid ++ right ++ post ∧
    Stroke OnlyLeft 1 tolerance left ∧ Long 1 xLen left ∧
    Stroke OnlyRight (-1) tolerance right ∧ Long (-1) xLen right

def InRange (p : Packet) : Prop :=
  -256 ≤ p.deltaX.toInt ∧ p.deltaX.toInt ≤ 255 ∧ -256 ≤ p.deltaY.toInt ∧ p.deltaY.toInt ≤ 255

def InSixteen (n : Int) : Prop := -2 ^ 15 ≤ n ∧ n < 2 ^ 15

/-- The packet that opens the second stroke moves in its direction, and the sums of a stroke stay
within their sixteen bits. -/
def Kept (tolerance : UInt8) (g : Recognition) (p : Packet) : Prop :=
  match g.currentState with
  | .U => OnlyLeft p → Allowed 1 tolerance p →
      InSixteen (g.diffX.toInt + p.deltaX.toInt) ∧ InSixteen (g.diffY.toInt + p.deltaY.toInt)
  | .V => OnlyRight p →
      p.deltaX.toInt.natAbs ≤ tolerance.toNat ∨ p.deltaY.toInt.natAbs ≤ tolerance.toNat →
        Allowed (-1) tolerance p
  | .D => OnlyRight p → Allowed (-1) tolerance p →
      InSixteen (g.diffX.toInt + p.deltaX.toInt) ∧ InSixteen (g.diffY.toInt - p.deltaY.toInt)
  | .S | .E => True

section Decidable

variable (tolerance : UInt8) (g : Recognition) (p : Packet)

instance : Decidable (OnlyLeft p) := inferInstanceAs (Decidable (_ ∧ _))

instance : Decidable (OnlyRight p) := inferInstanceAs (Decidable (_ ∧ _))

instance (sign : Int) : Decidable (Allowed sign tolerance p) :=
  inferInstanceAs (Decidable (_ ∧ _))

instance : Decidable (InRange p) := inferInstanceAs (Decidable (_ ∧ _))

instance (n : Int) : Decidable (InSixteen n) := inferInstanceAs (Decidable (_ ∧ _))

instance : Decidable (Kept tolerance g p) := by
  unfold Kept
  split
  · infer_instance
  · infer_instance
  · infer_instance
  · infer_instance
  · infer_instance

end Decidable

/-- Everything that a packet can do. -/
inductive Moves (xLen tolerance : UInt8) (p : Packet) (g : Recognition) : Recognition → Prop
  | lost (t : Recognition) (h : t.currentState = .S) : Moves xLen tolerance p g t
  | idle (h : g.currentState = .V ∨ g.currentState = .E) : Moves xLen tolerance p g g
  | start (hbutton : OnlyLeft p) (hallowed : Allowed 1 tolerance p) :
    Moves xLen tolerance p g { currentState := .U, diffX := p.deltaX, diffY := p.deltaY }
  | rise (h : g.currentState = .U) (hbutton : OnlyLeft p) (hallowed : Allowed 1 tolerance p) :
    Moves xLen tolerance p g
      { g with diffX := g.diffX + p.deltaX, diffY := g.diffY + p.deltaY }
  | turn (h : g.currentState = .U) (hlong : xLen.toNat ≤ g.diffX.toInt)
      (hsteep : g.diffX.toInt ≤ g.diffY.toInt) :
    Moves xLen tolerance p g { g with currentState := .V }
  | fall (h : g.currentState = .V) (hbutton : OnlyRight p)
      (hopen : p.deltaX.toInt.natAbs ≤ tolerance.toNat ∨
        p.deltaY.toInt.natAbs ≤ tolerance.toNat) :
    Moves xLen tolerance p g { currentState := .D, diffX := p.deltaX, diffY := -p.deltaY }
  | sink (h : g.currentState = .D) (hbutton : OnlyRight p) (hallowed : Allowed (-1) tolerance p) :
    Moves xLen tolerance p g
      { g with diffX := g.diffX + p.deltaX, diffY := g.diffY - p.deltaY }
  | finish (h : g.currentState = .D) (hlong : xLen.toNat ≤ g.diffX.toInt)
      (hsteep : g.diffX.toInt ≤ g.diffY.toInt) :
    Moves xLen tolerance p g { g with currentState := .E }

section Range

theorem delta_range (signal : Bool) (byte : UInt8) :
    -256 ≤ (delta signal byte).toInt ∧ (delta signal byte).toInt ≤ 255 := by
  have hbyte := byte.toNat_lt
  rw [delta]
  split
  · rw [toInt_toInt16, toNat_highByte, Int.bmod_def]
    omega
  · rw [toInt_toInt16, UInt8.toNat_toUInt16, Int.bmod_def]
    omega

/-- Every packet that the driver makes is one that a mouse can report. -/
theorem packet_inRange (m : Driver) : InRange (mouseBytesToPacket m).mousePacket :=
  ⟨(delta_range _ _).1, (delta_range _ _).2, (delta_range _ _).1, (delta_range _ _).2⟩

end Range

section Step

variable {xLen tolerance : UInt8} {p : Packet} {g : Recognition}

theorem onlyLeft_of (hlb : p.lb = true) (hmb : ¬ p.mb = true) (hrb : ¬ p.rb = true) : OnlyLeft p :=
  ⟨hlb, Bool.eq_false_iff.mpr hmb, Bool.eq_false_iff.mpr hrb⟩

theorem onlyRight_of (hlb : ¬ p.lb = true) (hmb : ¬ p.mb = true) (hrb : p.rb = true) :
    OnlyRight p :=
  ⟨Bool.eq_false_iff.mpr hlb, Bool.eq_false_iff.mpr hmb, hrb⟩

theorem allowed_up (h : 0 ≤ p.deltaX.toInt + tolerance.toNat ∧
    0 ≤ p.deltaY.toInt + tolerance.toNat) : Allowed 1 tolerance p :=
  ⟨by omega, by omega⟩

theorem allowed_down (h : 0 ≤ p.deltaX.toInt + tolerance.toNat ∧
    0 ≤ tolerance.toNat - p.deltaY.toInt) : Allowed (-1) tolerance p :=
  ⟨by omega, by omega⟩

theorem moves (xLen tolerance : UInt8) (p : Packet) (g : Recognition) :
    Moves xLen tolerance p g (mouseStateUpdate xLen tolerance p g) := by
  unfold mouseStateUpdate
  split
  · rename_i hS
    split
    · rename_i hbutton
      split
      · exact .start (onlyLeft_of hbutton.1 hbutton.2.1 hbutton.2.2) (allowed_up ‹_›)
      · exact .lost _ hS
    · exact .lost _ hS
  · rename_i hU
    split
    · rename_i hbutton
      split
      · split
        · exact .rise hU (onlyLeft_of ‹_› hbutton.1 hbutton.2) (allowed_up ‹_›)
        · exact .lost _ rfl
      split
      · rename_i hend
        exact .turn hU hend.1 (Int16.le_iff_toInt_le.mp hend.2)
      · exact .lost _ rfl
    · exact .lost _ rfl
  · rename_i hV
    split
    · rename_i hbutton
      split
      · split
        · exact .fall hV (onlyRight_of hbutton.1 hbutton.2 ‹_›) ‹_›
        · exact .idle (.inl hV)
      · exact .lost _ rfl
    · exact .lost _ rfl
  · rename_i hD
    split
    · rename_i hbutton
      split
      · split
        · exact .sink hD (onlyRight_of hbutton.1 hbutton.2 ‹_›) (allowed_down ‹_›)
        · exact .lost _ rfl
      split
      · rename_i hend
        exact .finish hD hend.1 (Int16.le_iff_toInt_le.mp hend.2)
      · exact .lost _ rfl
    · exact .lost _ rfl
  · exact .idle (.inr ‹_›)

end Step

section Sums

theorem toInt_add_of {a b : Int16} (h : InSixteen (a.toInt + b.toInt)) :
    (a + b).toInt = a.toInt + b.toInt := by
  rw [Int16.toInt_add]
  exact Int.bmod_eq_of_le (by simpa using h.1) (by simpa using h.2)

theorem toInt_sub_of {a b : Int16} (h : InSixteen (a.toInt - b.toInt)) :
    (a - b).toInt = a.toInt - b.toInt := by
  rw [Int16.toInt_sub]
  exact Int.bmod_eq_of_le (by simpa using h.1) (by simpa using h.2)

theorem sumX_concat (ps : List Packet) (p : Packet) :
    sumX (ps ++ [p]) = sumX ps + p.deltaX.toInt := by
  simp [sumX]

theorem sumY_concat (ps : List Packet) (p : Packet) :
    sumY (ps ++ [p]) = sumY ps + p.deltaY.toInt := by
  simp [sumY]

end Sums

section Strokes

variable {button : Packet → Prop} {sign : Int} {xLen tolerance : UInt8} {p : Packet}
  {ps past : List Packet} {g t : Recognition}

theorem Stroke.single (hbutton : button p) (hallowed : Allowed sign tolerance p) :
    Stroke button sign tolerance [p] := by
  refine ⟨List.cons_ne_nil p [], fun q hq => ?_, fun q hq => ?_⟩
  · rwa [List.mem_singleton.mp hq]
  · rwa [List.mem_singleton.mp hq]

theorem Stroke.concat (h : Stroke button sign tolerance ps) (hbutton : button p)
    (hallowed : Allowed sign tolerance p) : Stroke button sign tolerance (ps ++ [p]) := by
  refine ⟨List.append_ne_nil_of_left_ne_nil h.nonempty [p], fun q hq => ?_, fun q hq => ?_⟩
  · obtain hq | hq := List.mem_append.mp hq
    · exact h.button q hq
    · rwa [List.mem_singleton.mp hq]
  · obtain hq | hq := List.mem_append.mp hq
    · exact h.allowed q hq
    · rwa [List.mem_singleton.mp hq]

/-- The variables hold the exact sums of the stroke. -/
def Sums (sign : Int) (g : Recognition) (ps : List Packet) : Prop :=
  g.diffX.toInt = sumX ps ∧ g.diffY.toInt = sign * sumY ps

theorem Sums.long (h : Sums sign g ps) (hlong : xLen.toNat ≤ g.diffX.toInt)
    (hsteep : g.diffX.toInt ≤ g.diffY.toInt) : Long sign xLen ps := by
  rw [h.1] at hlong hsteep
  rw [h.2] at hsteep
  exact ⟨hlong, hsteep⟩

/-- The packets so far end with a stroke up. -/
def Rising (tolerance : UInt8) (past left : List Packet) : Prop :=
  (∃ pre, past = pre ++ left) ∧ Stroke OnlyLeft 1 tolerance left

/-- The packets so far contain a stroke up that is long enough, and what follows it. -/
def Risen (xLen tolerance : UInt8) (past rest : List Packet) : Prop :=
  ∃ pre left mid, past = pre ++ left ++ mid ++ rest ∧ Stroke OnlyLeft 1 tolerance left ∧
    Long 1 xLen left

theorem Risen.concat (h : Risen xLen tolerance past []) (p : Packet) :
    Risen xLen tolerance (past ++ [p]) [] := by
  obtain ⟨pre, left, mid, rfl, hstroke⟩ := h
  exact ⟨pre, left, mid ++ [p], by simp, hstroke⟩

theorem Risen.begin (h : Risen xLen tolerance past []) (p : Packet) :
    Risen xLen tolerance (past ++ [p]) [p] := by
  obtain ⟨pre, left, mid, rfl, hstroke⟩ := h
  exact ⟨pre, left, mid, by simp, hstroke⟩

theorem Risen.extend (h : Risen xLen tolerance past ps) (p : Packet) :
    Risen xLen tolerance (past ++ [p]) (ps ++ [p]) := by
  obtain ⟨pre, left, mid, rfl, hstroke⟩ := h
  exact ⟨pre, left, mid, by simp, hstroke⟩

theorem Drawn.concat (h : Drawn xLen tolerance past) (p : Packet) :
    Drawn xLen tolerance (past ++ [p]) := by
  obtain ⟨pre, left, mid, right, post, rfl, hdrawn⟩ := h
  exact ⟨pre, left, mid, right, post ++ [p], by simp, hdrawn⟩

/-- What the packets so far have shown in each state. -/
def Seen (xLen tolerance : UInt8) (past : List Packet) (g : Recognition) : Prop :=
  match g.currentState with
  | .S => True
  | .U => ∃ left, Rising tolerance past left ∧ Sums 1 g left
  | .V => Risen xLen tolerance past []
  | .D => ∃ right, Risen xLen tolerance past right ∧ Stroke OnlyRight (-1) tolerance right ∧
      Sums (-1) g right
  | .E => Drawn xLen tolerance past

theorem seen_S (h : g.currentState = .S) : Seen xLen tolerance past g := by
  rw [Seen, h]
  trivial

theorem seen_U (h : g.currentState = .U) : Seen xLen tolerance past g ↔
    ∃ left, Rising tolerance past left ∧ Sums 1 g left := by
  rw [Seen, h]

theorem seen_V (h : g.currentState = .V) :
    Seen xLen tolerance past g ↔ Risen xLen tolerance past [] := by
  rw [Seen, h]

theorem seen_D (h : g.currentState = .D) : Seen xLen tolerance past g ↔
    ∃ right, Risen xLen tolerance past right ∧ Stroke OnlyRight (-1) tolerance right ∧
      Sums (-1) g right := by
  rw [Seen, h]

theorem seen_E (h : g.currentState = .E) :
    Seen xLen tolerance past g ↔ Drawn xLen tolerance past := by
  rw [Seen, h]

theorem seen_step (h : Seen xLen tolerance past g) (hp : InRange p) (hkept : Kept tolerance g p)
    (hstep : step xLen tolerance g p = some t) : Seen xLen tolerance (past ++ [p]) t := by
  cases hstep
  obtain ⟨-, -, hlow, hhigh⟩ := hp
  have hmoves := moves xLen tolerance p g
  generalize mouseStateUpdate xLen tolerance p g = u at hmoves
  cases hmoves with
  | lost _ hS => exact seen_S hS
  | idle hidle =>
    obtain hV | hE := hidle
    · exact (seen_V hV).mpr (((seen_V hV).mp h).concat p)
    · exact (seen_E hE).mpr (((seen_E hE).mp h).concat p)
  | start hbutton hallowed =>
    refine (seen_U rfl).mpr ⟨[p], ⟨⟨past, rfl⟩, .single hbutton hallowed⟩, ?_, ?_⟩
    · simp [sumX]
    · simp [sumY]
  | rise hU hbutton hallowed =>
    obtain ⟨left, ⟨⟨pre, rfl⟩, hstroke⟩, hx, hy⟩ := (seen_U hU).mp h
    rw [Kept, hU] at hkept
    obtain ⟨hinX, hinY⟩ := hkept hbutton hallowed
    refine (seen_U ?_).mpr ⟨left ++ [p],
      ⟨⟨pre, List.append_assoc pre left [p]⟩, hstroke.concat hbutton hallowed⟩, ?_, ?_⟩
    · exact hU
    · rw [toInt_add_of hinX, hx, sumX_concat]
    · rw [toInt_add_of hinY, hy, sumY_concat]
      ring
  | turn hU hlong hsteep =>
    obtain ⟨left, ⟨⟨pre, rfl⟩, hstroke⟩, hsums⟩ := (seen_U hU).mp h
    exact (seen_V rfl).mpr ⟨pre, left, [p], by simp, hstroke, hsums.long hlong hsteep⟩
  | fall hV hbutton hopen =>
    rw [Kept, hV] at hkept
    refine (seen_D rfl).mpr ⟨[p], ((seen_V hV).mp h).begin p,
      .single hbutton (hkept hbutton hopen), ?_, ?_⟩
    · simp [sumX]
    · rw [Int16.toInt_neg, Int.bmod_eq_of_le (by omega) (by omega)]
      simp [sumY]
  | sink hD hbutton hallowed =>
    obtain ⟨right, hrisen, hstroke, hx, hy⟩ := (seen_D hD).mp h
    rw [Kept, hD] at hkept
    obtain ⟨hinX, hinY⟩ := hkept hbutton hallowed
    refine (seen_D ?_).mpr ⟨right ++ [p], hrisen.extend p, hstroke.concat hbutton hallowed,
      ?_, ?_⟩
    · exact hD
    · rw [toInt_add_of hinX, hx, sumX_concat]
    · rw [toInt_sub_of hinY, hy, sumY_concat]
      ring
  | finish hD hlong hsteep =>
    obtain ⟨right, ⟨pre, left, mid, rfl, hleft⟩, hstroke, hsums⟩ := (seen_D hD).mp h
    exact (seen_E rfl).mpr ⟨pre, left, mid, right, [p], rfl, hleft.1, hleft.2, hstroke,
      hsums.long hlong hsteep⟩

/-- In every run whose packets meet the condition, the end of the gesture is reached only after
both strokes have been drawn. -/
theorem recognition_sound (packets : List Packet) (hrange : ∀ p ∈ packets, InRange p)
    (hkept : Guarded (step xLen tolerance) (Kept tolerance) {} packets) {earlier : List Packet}
    (hearlier : earlier <+: packets) (hrun : run (step xLen tolerance) {} earlier = some g)
    (hE : g.currentState = .E) : Drawn xLen tolerance earlier := by
  have hin : Guarded (step xLen tolerance) (fun _ p => InRange p) {} earlier :=
    guarded_of_forall (fun _ p hp => hrange p (hearlier.subset hp)) _
  have hseen := guarded_history (I := Seen xLen tolerance)
    (fun past g p t h hp hstep => seen_step h hp.1 hp.2 hstep)
    (seen_S rfl : Seen xLen tolerance [] {}) (hin.and (hkept.earlier hearlier)) hrun
  exact (seen_E hE).mp hseen

def packet (lb rb : Bool) (dx dy : Int16) : Packet := { lb, rb, deltaX := dx, deltaY := dy }

def release : Packet := {}

def peak : List Packet :=
  [packet true false 10 10, release, packet false true 0 (-10), packet false true 10 (-5), release]

theorem recognition_sound_peak : Drawn 10 0 peak := by
  obtain ⟨g, hrun, hE⟩ : ∃ g, run (step 10 0) {} peak = some g ∧ g.currentState = .E :=
    ⟨_, rfl, rfl⟩
  exact recognition_sound peak (by decide) (by decide +kernel) List.prefix_rfl hrun hE

/-- The second stroke is opened by a packet that moves back. -/
def careless : List Packet :=
  [packet true false 10 10, release, packet false true (-5) 0, packet false true 15 (-10), release]

theorem careless_accepted : (∀ p ∈ careless, InRange p) ∧
    (∃ g, run (step 10 0) {} careless = some g ∧ g.currentState = .E) ∧ ¬ Drawn 10 0 careless := by
  refine ⟨by decide, ⟨_, rfl, rfl⟩, ?_⟩
  rintro ⟨pre, left, mid, right, post, heq, -, -, hstroke, hlong⟩
  -- only one packet of the second stroke moves in its direction
  have hsub : right.Sublist careless := by
    rw [heq]
    exact ((List.sublist_append_right _ right).trans (List.sublist_append_left _ post))
  have hfilter := hsub.filter fun p => OnlyRight p ∧ Allowed (-1) 0 p
  have hall : right.filter (fun p => OnlyRight p ∧ Allowed (-1) 0 p) = right :=
    List.filter_eq_self.mpr fun p hp =>
      decide_eq_true ⟨hstroke.button p hp, hstroke.allowed p hp⟩
  have hone : careless.filter (fun p => OnlyRight p ∧ Allowed (-1) 0 p) =
      [packet false true 15 (-10)] := by decide +kernel
  rw [hall, hone, List.sublist_singleton] at hfilter
  obtain rfl | rfl := hfilter
  · exact hstroke.nonempty rfl
  · exact absurd hlong (by unfold Long; decide +kernel)

end Strokes

end WriteWise.Gesture
