import WriteWise.KeyboardCodes
import WriteWise.Library.Runs

namespace WriteWise.ModifierKeys

open Library.Runs Scancode KeyboardCodes

inductive Key
  | leftShift
  | rightShift
  | capsLock
  deriving DecidableEq, Repr

def Key.makeCode : Key → UInt8
  | .leftShift => leftShiftScancode
  | .rightShift => rightShiftScancode
  | .capsLock => capslockScancode

/-- What happens at the keyboard. `again` is the typematic repeat of a key that is
held down, `other` an unprefixed code of another key. -/
inductive Stroke
  | press (key : Key)
  | again (key : Key)
  | release (key : Key)
  | other (code : UInt8)
  deriving DecidableEq, Repr

def Stroke.byte : Stroke → UInt8
  | .press key | .again key => key.makeCode
  | .release key => key.makeCode ||| breakCode
  | .other code => code

def keyCodes : List UInt8 :=
  [Key.leftShift, Key.rightShift, Key.capsLock].flatMap fun key =>
    [key.makeCode, key.makeCode ||| breakCode]

structure Physical where
  leftShift : Bool := false
  rightShift : Bool := false
  capsLock : Bool := false
  capsPresses : Nat := 0
  deriving DecidableEq

namespace Physical

def isDown (p : Physical) : Key → Bool
  | .leftShift => p.leftShift
  | .rightShift => p.rightShift
  | .capsLock => p.capsLock

def set (p : Physical) (down : Bool) : Key → Physical
  | .leftShift => { p with leftShift := down }
  | .rightShift => { p with rightShift := down }
  | .capsLock => { p with capsLock := down }

/-- A key is pressed when it is up, and repeated and released when it is down. -/
def step (p : Physical) : Stroke → Option Physical
  | .press key =>
    if p.isDown key then none
    else some { p.set true key with
      capsPresses := if key = .capsLock then p.capsPresses + 1 else p.capsPresses }
  | .again key => if p.isDown key then some p else none
  | .release key => if p.isDown key then some (p.set false key) else none
  | .other code => if code = twoBytes ∨ code ∈ keyCodes then none else some p

def ShiftDown (p : Physical) : Prop := p.leftShift = true ∨ p.rightShift = true

variable {p q : Physical} {key : Key}

theorem step_press (h : p.step (.press key) = some q) : q = { p.set true key with
    capsPresses := if key = .capsLock then p.capsPresses + 1 else p.capsPresses } :=
  (Option.some.inj (Option.ite_none_left_eq_some.mp h).2).symm

theorem step_again (h : p.step (.again key) = some q) : p.isDown key = true ∧ q = p := by
  obtain ⟨hdown, he⟩ := Option.ite_none_right_eq_some.mp h
  exact ⟨hdown, (Option.some.inj he).symm⟩

theorem step_release (h : p.step (.release key) = some q) : q = p.set false key :=
  (Option.some.inj (Option.ite_none_right_eq_some.mp h).2).symm

theorem step_other {code : UInt8} (h : p.step (.other code) = some q) :
    code ∉ keyCodes ∧ q = p := by
  obtain ⟨hc, he⟩ := Option.ite_none_left_eq_some.mp h
  exact ⟨fun hm => hc (.inr hm), (Option.some.inj he).symm⟩

end Physical

def driver (strokes : List Stroke) : Keyboard := (feed {} (strokes.map Stroke.byte)).1

def Stroke.isShift : Stroke → Bool
  | .press key | .again key | .release key => key ≠ .capsLock
  | .other _ => false

def Stroke.isRelease : Stroke → Bool
  | .release _ => true
  | _ => false

def lastShift (strokes : List Stroke) : Option Stroke := (strokes.filter Stroke.isShift).getLast?

theorem lastShift_concat (strokes : List Stroke) (s : Stroke) :
    lastShift (strokes ++ [s]) = if s.isShift then some s else lastShift strokes := by
  cases hs : s.isShift with
  | false => simp [lastShift, hs]
  | true => simp [lastShift, hs]

theorem driver_concat (strokes : List Stroke) (s : Stroke) :
    driver (strokes ++ [s]) = (keyboardIh (some s.byte) (driver strokes)).1 := by
  rw [driver, List.map_append, List.map_singleton, feed_concat, driver]

theorem keyboardIh_shift {key : Key} (hk : key ≠ .capsLock) (k : Keyboard) :
    (keyboardIh (some key.makeCode) k).1 =
        { k with scancode := key.makeCode, isShiftPressed := true } ∧
      (keyboardIh (some (key.makeCode ||| breakCode)) k).1 =
        { k with scancode := key.makeCode ||| breakCode, isShiftPressed := false } := by
  cases key with
  | leftShift => exact ⟨rfl, rfl⟩
  | rightShift => exact ⟨rfl, rfl⟩
  | capsLock => exact absurd rfl hk

theorem keyboardIh_other {code : UInt8} (hc : code ∉ keyCodes) (k : Keyboard) :
    (keyboardIh (some code) k).1.isShiftPressed = k.isShiftPressed ∧
      (keyboardIh (some code) k).1.isCapsLockActive = k.isCapsLockActive := by
  simp only [keyCodes, Key.makeCode, List.flatMap_cons, List.flatMap_nil, List.cons_append,
    List.nil_append, List.mem_cons, List.not_mem_nil, or_false, not_or] at hc
  obtain ⟨h1, h2, h3, h4, h5, h6⟩ := hc
  unfold keyboardIh
  simp only [h1, h2, h3, h4, h5, or_self, if_false]
  split_ifs <;> exact ⟨rfl, rfl⟩

/-- How the two flags follow the strokes, and the keys that are down the strokes. -/
structure Tracks (strokes : List Stroke) (p : Physical) : Prop where
  shift : (driver strokes).isShiftPressed = true ↔
    ∃ s, lastShift strokes = some s ∧ s.isRelease = false
  held : ∀ s, lastShift strokes = some s → s.isRelease = false → p.ShiftDown
  idle : lastShift strokes = none → ¬ p.ShiftDown
  caps : (driver strokes).isCapsLockActive = true ↔
    Odd (p.capsPresses + strokes.count (.again .capsLock))

theorem shift_stroke {s : Stroke} (hs : s.isShift = true) {p q : Physical}
    (hp : p.step s = some q) (k : Keyboard) :
    (keyboardIh (some s.byte) k).1.isShiftPressed = !s.isRelease ∧
      (keyboardIh (some s.byte) k).1.isCapsLockActive = k.isCapsLockActive ∧
      q.capsPresses = p.capsPresses ∧ (s.isRelease = false → q.ShiftDown) := by
  have hdown {key : Key} (hk : key ≠ .capsLock) (hd : q.isDown key = true) : q.ShiftDown := by
    cases key with
    | leftShift => exact .inl hd
    | rightShift => exact .inr hd
    | capsLock => exact absurd rfl hk
  cases s with
  | press key =>
    have hk : key ≠ .capsLock := by simpa [Stroke.isShift] using hs
    rw [Stroke.byte, (keyboardIh_shift hk k).1]
    refine ⟨rfl, rfl, ?_, fun _ => hdown hk ?_⟩
    · rw [Physical.step_press hp, if_neg hk]
    · rw [Physical.step_press hp]
      cases key <;> rfl
  | again key =>
    have hk : key ≠ .capsLock := by simpa [Stroke.isShift] using hs
    obtain ⟨hd, rfl⟩ := Physical.step_again hp
    rw [Stroke.byte, (keyboardIh_shift hk k).1]
    exact ⟨rfl, rfl, rfl, fun _ => hdown hk hd⟩
  | release key =>
    have hk : key ≠ .capsLock := by simpa [Stroke.isShift] using hs
    rw [Stroke.byte, (keyboardIh_shift hk k).2]
    refine ⟨rfl, rfl, ?_, nofun⟩
    rw [Physical.step_release hp]
    cases key <;> rfl
  | other code => cases hs

theorem other_stroke {s : Stroke} (hs : s.isShift = false) {p q : Physical}
    (hp : p.step s = some q) (k : Keyboard) :
    (keyboardIh (some s.byte) k).1.isShiftPressed = k.isShiftPressed ∧
      (q.ShiftDown ↔ p.ShiftDown) ∧ ∃ toggles : Nat,
        ((keyboardIh (some s.byte) k).1.isCapsLockActive =
          if toggles = 0 then k.isCapsLockActive else !k.isCapsLockActive) ∧ toggles ≤ 1 ∧
        q.capsPresses + (if s = .again .capsLock then 1 else 0) = p.capsPresses + toggles := by
  cases s with
  | press key =>
    obtain rfl : key = .capsLock := by simpa [Stroke.isShift] using hs
    rw [Physical.step_press hp]
    exact ⟨rfl, .rfl, 1, rfl, le_rfl, rfl⟩
  | again key =>
    obtain rfl : key = .capsLock := by simpa [Stroke.isShift] using hs
    obtain ⟨-, rfl⟩ := Physical.step_again hp
    exact ⟨rfl, .rfl, 1, rfl, le_rfl, rfl⟩
  | release key =>
    obtain rfl : key = .capsLock := by simpa [Stroke.isShift] using hs
    rw [Physical.step_release hp]
    exact ⟨rfl, .rfl, 0, rfl, Nat.zero_le 1, rfl⟩
  | other code =>
    obtain ⟨hc, rfl⟩ := Physical.step_other hp
    obtain ⟨h1, h2⟩ := keyboardIh_other hc k
    exact ⟨h1, .rfl, 0, h2, Nat.zero_le 1, rfl⟩

theorem odd_add_one_iff {n : Nat} {b : Bool} (h : b = true ↔ Odd n) : (!b) = true ↔ Odd (n + 1) := by
  rw [Nat.odd_add_one, ← h]
  simp

theorem Tracks.concat {strokes : List Stroke} {p q : Physical} {s : Stroke}
    (h : Tracks strokes p) (hp : p.step s = some q) : Tracks (strokes ++ [s]) q := by
  have hcount : (strokes ++ [s]).count (.again .capsLock) =
      strokes.count (.again .capsLock) + if s = .again .capsLock then 1 else 0 := by
    simp [List.count_singleton]
  cases hs : s.isShift with
  | true =>
    obtain ⟨h1, h2, h3, h4⟩ := shift_stroke hs hp (driver strokes)
    have hne : s ≠ .again .capsLock := by
      rintro rfl
      cases hs
    rw [if_neg hne] at hcount
    constructor
    · rw [driver_concat, h1, lastShift_concat, if_pos hs]
      simp
    · rw [lastShift_concat, if_pos hs]
      rintro t ht hr
      obtain rfl := Option.some.inj ht
      exact h4 hr
    · rw [lastShift_concat, if_pos hs]
      exact nofun
    · rw [driver_concat, h2, h3, hcount]
      exact h.caps
  | false =>
    obtain ⟨h1, h2, toggles, h3, hle, h4⟩ := other_stroke hs hp (driver strokes)
    have hlast : lastShift (strokes ++ [s]) = lastShift strokes := by
      rw [lastShift_concat, hs, if_neg Bool.false_ne_true]
    constructor
    · rw [driver_concat, h1, hlast]
      exact h.shift
    · rw [hlast, h2]
      exact h.held
    · rw [hlast, h2]
      exact h.idle
    · have hsum : q.capsPresses + (strokes ++ [s]).count (.again .capsLock) =
          p.capsPresses + strokes.count (.again .capsLock) + toggles := by
        omega
      rw [driver_concat, h3, hsum]
      obtain rfl | rfl : toggles = 0 ∨ toggles = 1 := by omega
      · exact h.caps
      · exact odd_add_one_iff h.caps

theorem tracks_run {strokes : List Stroke} {p : Physical}
    (hr : run Physical.step {} strokes = some p) : Tracks strokes p := by
  refine history (fun strokes q s p h hp => h.concat hp) ?_ hr
  constructor
  · simp [lastShift, driver, feed]
  · simp [lastShift]
  · simp [lastShift, Physical.ShiftDown]
  · simp [driver, feed]

def Follows (strokes : List Stroke) (p : Physical) : Prop :=
  ((driver strokes).isShiftPressed = true ↔ p.ShiftDown) ∧
    ((driver strokes).isCapsLockActive = true ↔ Odd p.capsPresses)

/-- The last stroke of a Shift key is not its release while the other one is down. -/
def ReleasedAlone (strokes : List Stroke) (p : Physical) : Prop :=
  ∀ key, lastShift strokes = some (.release key) → ¬ p.ShiftDown

theorem Tracks.shift_iff {strokes : List Stroke} {p : Physical} (h : Tracks strokes p) :
    ((driver strokes).isShiftPressed = true ↔ p.ShiftDown) ↔ ReleasedAlone strokes p := by
  rw [h.shift]
  cases hl : lastShift strokes with
  | none =>
    simp [h.idle hl, ReleasedAlone, hl]
  | some s =>
    cases hr : s.isRelease with
    | false =>
      have hne : ∀ key, s ≠ .release key := by
        rintro key rfl
        cases hr
      simp [h.held s hl hr, hr, ReleasedAlone, hl, hne]
    | true =>
      obtain ⟨key, rfl⟩ : ∃ key, s = .release key := by
        cases s with
        | release key => exact ⟨key, rfl⟩
        | press key => cases hr
        | again key => cases hr
        | other code => cases hr
      simp [hr, ReleasedAlone, hl]

/-- The flags follow the keys exactly if the Shift key released last was not released while the
other was down, and Caps Lock has repeated its make code an even number of times. -/
theorem modifiers_follow_iff (strokes : List Stroke) (p : Physical)
    (hr : run Physical.step {} strokes = some p) :
    Follows strokes p ↔
      ReleasedAlone strokes p ∧ Even (strokes.count (.again .capsLock)) := by
  have h := tracks_run hr
  have hcaps : ((driver strokes).isCapsLockActive = true ↔ Odd p.capsPresses) ↔
      Even (strokes.count (.again .capsLock)) := by
    rw [h.caps, Nat.odd_add]
    tauto
  rw [Follows, h.shift_iff, hcaps]

theorem modifiers_follow_iff_capital :
    Follows [.press .leftShift, .again .leftShift, .other 0x1E, .release .leftShift] {} :=
  (modifiers_follow_iff [.press .leftShift, .again .leftShift, .other 0x1E, .release .leftShift] {}
    (by decide)).mpr ⟨fun _ _ hdown => by simp [Physical.ShiftDown] at hdown, by decide⟩

/-- The right Shift key is pressed while the left one is down, and released before it. -/
def overlap : List Stroke := [.press .leftShift, .press .rightShift, .release .rightShift]

theorem overlap_not_followed : run Physical.step {} overlap = some { leftShift := true } ∧
    ¬ Follows overlap { leftShift := true } := by
  refine ⟨by decide, fun h => ?_⟩
  have hflag := h.1.mpr (.inl rfl)
  revert hflag
  decide

example : run Physical.step {} [.press .capsLock, .again .capsLock] =
    some { capsLock := true, capsPresses := 1 } ∧
      (driver [.press .capsLock, .again .capsLock]).isCapsLockActive = false := by
  decide

end WriteWise.ModifierKeys
