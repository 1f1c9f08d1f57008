import WriteWise.Library.Runs

namespace WriteWise.SpriteMotion

open Library.Runs

inductive Direction
  | up
  | down
  | left
  | right
  deriving DecidableEq

inductive MovementType
  | perFrame
  | frames
  deriving DecidableEq

def breakEsc : UInt8 := 0x81

structure Motion where
  direction : Direction
  movementType : MovementType
  movementAmount : UInt16
  xi : UInt16
  yi : UInt16
  xf : UInt16
  yf : UInt16
  frameCount : UInt8 := 0
  deriving DecidableEq

def directionOf (xi yi xf yf : UInt16) : Option Direction :=
  if xi = xf then some (if yi < yf then .down else .up)
  else if yi = yf then some (if xi < xf then .right else .left)
  else none

def movementOf (speed : Int16) : Option (MovementType × UInt16) :=
  if 0 < speed.toInt then some (.perFrame, UInt16.ofNat speed.toInt.toNat)
  else if speed.toInt < 0 then some (.frames, UInt16.ofNat (-speed.toInt).toNat)
  else none

def videoTestMove (xi yi xf yf : UInt16) (speed : Int16) : Option Motion :=
  (directionOf xi yi xf yf).bind fun direction => (movementOf speed).map fun movement =>
    { direction, movementType := movement.1, movementAmount := movement.2, xi, yi, xf, yf }

def decreased (p final amount : UInt16) : UInt16 :=
  let p := p - amount
  if p < final then final else p

def increased (p final amount : UInt16) : UInt16 :=
  let p := p + amount
  if final < p then final else p

/-- The switch over the direction, which both types of movement have. -/
def Motion.move (amount : UInt16) (m : Motion) : Motion :=
  match m.direction with
  | .up => { m with yi := decreased m.yi m.yf amount }
  | .down => { m with yi := increased m.yi m.yf amount }
  | .left => { m with xi := decreased m.xi m.xf amount }
  | .right => { m with xi := increased m.xi m.xf amount }

def Motion.update (m : Motion) : Motion :=
  match m.movementType with
  | .perFrame => m.move m.movementAmount
  | .frames =>
    let m := { m with frameCount := m.frameCount + 1 }
    -- eight bits against sixteen
    if m.frameCount.toNat = m.movementAmount.toNat then { m.move 1 with frameCount := 0 } else m

/-- A notification: the scancode after a keyboard interrupt, and for a timer interrupt whether
the last image can be erased and the next one drawn. -/
structure Notice where
  keyboard : Option UInt8 := none
  timer : Option (Bool × Bool) := none

/-- A round of the loop, which a scancode ends. There is none where the test ends. -/
def step (s : Motion × UInt8) (n : Notice) : Option (Motion × UInt8) :=
  if s.2 = breakEsc then none
  else
    let scancode := n.keyboard.getD s.2
    match n.timer with
    | none => some (s.1, scancode)
    | some (erased, drawn) => if erased ∧ drawn then some (s.1.update, scancode) else none

def ticks (ns : List Notice) : Nat := ns.countP fun n => n.timer.isSome

/-- On the segment from the start to the end, with so much of the way left. -/
structure Straight (xi yi xf yf : UInt16) (left : Nat) (m : Motion) : Prop where
  column : min xi.toNat xf.toNat ≤ m.xi.toNat ∧ m.xi.toNat ≤ max xi.toNat xf.toNat
  row : min yi.toNat yf.toNat ≤ m.yi.toNat ∧ m.yi.toNat ≤ max yi.toNat yf.toNat
  distance : Nat.dist m.xi.toNat xf.toNat + Nat.dist m.yi.toNat yf.toNat = left

def wayLeft (distance : Nat) (speed : Int16) (t : Nat) : Nat :=
  if 0 < speed.toInt then distance - t * speed.toInt.toNat
  else distance - t / (-speed.toInt).toNat

/-- The sprite can step over its end, in the direction that it comes from, without leaving the
sixteen bits. -/
def Room (start final : UInt16) (amount : Nat) : Prop :=
  if start < final then final.toNat + amount ≤ 65535 else amount ≤ final.toNat

/-- There is room at the end, and the period can be counted in eight bits or there is no way
to go. -/
def OnCourse (xi yi xf yf : UInt16) (speed : Int16) : Prop :=
  let start := if xi = xf then yi else xi
  let final := if xi = xf then yf else xf
  if 0 < speed.toInt then Room start final speed.toInt.toNat
  else if -speed.toInt ≤ 255 then Room start final 1
  else start = final

instance (start final : UInt16) (amount : Nat) : Decidable (Room start final amount) :=
  inferInstanceAs (Decidable (ite _ _ _))

instance (xi yi xf yf : UInt16) (speed : Int16) : Decidable (OnCourse xi yi xf yf speed) :=
  inferInstanceAs (Decidable (ite _ _ (ite _ _ _)))

section Loop

theorem run_ticks {s t : Motion × UInt8} {ns : List Notice} (h : run step s ns = some t) :
    t.1 = Motion.update^[ticks ns] s.1 := by
  induction ns generalizing s with
  | nil =>
    cases h
    rfl
  | cons n ns ih =>
    obtain ⟨u, hu, hr⟩ := run_cons_some h
    rw [ih hr]
    unfold step at hu
    split at hu
    · cases hu
    cases hn : n.timer with
    | none =>
      have hticks : ticks (n :: ns) = ticks ns := by simp [ticks, hn]
      simp only [hn, Option.some.injEq] at hu
      rw [hticks, ← hu]
    | some outcomes =>
      have hticks : ticks (n :: ns) = ticks ns + 1 := by simp [ticks, hn]
      simp only [hn] at hu
      split at hu
      · cases hu
        rw [hticks, Function.iterate_succ_apply]
      · cases hu

def tick : Notice := { timer := some (true, true) }

theorem run_tick {scancode : UInt8} (h : scancode ≠ breakEsc) (m : Motion) (t : Nat) :
    run step (m, scancode) (List.replicate t tick) =
      some (Motion.update^[t] m, scancode) := by
  induction t generalizing m with
  | zero => rfl
  | succ t ih =>
    have hstep : step (m, scancode) tick = some (m.update, scancode) := if_neg h
    rw [List.replicate_succ, run, hstep, Option.bind_some, ih, Function.iterate_succ_apply]

theorem ticks_replicate (t : Nat) : ticks (List.replicate t tick) = t := by
  rw [ticks, List.countP_replicate]
  rfl

end Loop

section Axis

/-- The coordinates turned so that the sprite moves down to its end. -/
def Direction.turn (d : Direction) (p : UInt16) : UInt16 :=
  match d with
  | .up | .left => p
  | .down | .right => ~~~p

def Motion.here (m : Motion) : UInt16 :=
  match m.direction with
  | .up | .down => m.direction.turn m.yi
  | .left | .right => m.direction.turn m.xi

def Motion.there (m : Motion) : UInt16 :=
  match m.direction with
  | .up | .down => m.direction.turn m.yf
  | .left | .right => m.direction.turn m.xf

def Motion.across (m : Motion) : UInt16 :=
  match m.direction with
  | .up | .down => m.xi
  | .left | .right => m.yi

def Motion.period (m : Motion) : Nat :=
  match m.movementType with
  | .perFrame => 1
  | .frames => m.movementAmount.toNat

def Motion.pace (m : Motion) : UInt16 :=
  match m.movementType with
  | .perFrame => m.movementAmount
  | .frames => 1

theorem not_add (p a : UInt16) : ~~~(p + a) = ~~~p - a := by
  apply UInt16.toNat_inj.mp
  have hp := p.toNat_lt
  have ha := a.toNat_lt
  rw [UInt16.toNat_not, UInt16.toNat_add, UInt16.toNat_sub, UInt16.toNat_not]
  change 65535 - (p.toNat + a.toNat) % 65536 = (65536 - a.toNat + (65535 - p.toNat)) % 65536
  omega

theorem not_lt_not (p q : UInt16) : ~~~p < ~~~q ↔ q < p := by
  have hp := p.toNat_lt
  have hq := q.toNat_lt
  rw [UInt16.lt_iff_toNat_lt, UInt16.lt_iff_toNat_lt, UInt16.toNat_not, UInt16.toNat_not]
  change 65535 - p.toNat < 65535 - q.toNat ↔ q.toNat < p.toNat
  omega

theorem not_increased (p final a : UInt16) :
    ~~~(increased p final a) = decreased (~~~p) (~~~final) a := by
  unfold increased decreased
  simp only
  rw [← not_add]
  by_cases h : final < p + a
  · rw [if_pos h, if_pos ((not_lt_not _ _).mpr h)]
  · rw [if_neg h, if_neg (mt (not_lt_not _ _).mp h)]

theorem toNat_decreased {p final a : UInt16} (hp : final ≤ p) (ha : a ≤ final) :
    (decreased p final a).toNat = final.toNat + (p.toNat - final.toNat - a.toNat) := by
  have hle := UInt16.le_trans ha hp
  rw [UInt16.le_iff_toNat_le] at hp ha
  have hsub := UInt16.toNat_sub_of_le p a hle
  unfold decreased
  simp only
  split
  · rename_i hlt
    rw [UInt16.lt_iff_toNat_lt, hsub] at hlt
    omega
  · rename_i hlt
    rw [UInt16.lt_iff_toNat_lt, hsub] at hlt
    rw [hsub]
    omega

theorem decreased_end {final a : UInt16} (h : decreased final final a = final) :
    a ≤ final := by
  by_contra hlt
  rw [UInt16.not_le, UInt16.lt_iff_toNat_lt] at hlt
  have ha' := a.toNat_lt
  have hsub : (final - a).toNat = 2 ^ 16 - a.toNat + final.toNat := by
    rw [UInt16.toNat_sub]
    omega
  unfold decreased at h
  simp only at h
  split at h
  · rename_i hbelow
    rw [UInt16.lt_iff_toNat_lt, hsub] at hbelow
    omega
  · have he := congrArg UInt16.toNat h
    rw [hsub] at he
    omega

structure Keeps (m m' : Motion) : Prop where
  direction : m'.direction = m.direction
  movementType : m'.movementType = m.movementType
  movementAmount : m'.movementAmount = m.movementAmount
  xf : m'.xf = m.xf
  yf : m'.yf = m.yf
  across : m'.across = m.across

theorem Keeps.trans {l m n : Motion} (h : Keeps l m) (h' : Keeps m n) : Keeps l n :=
  ⟨h'.direction.trans h.direction, h'.movementType.trans h.movementType,
    h'.movementAmount.trans h.movementAmount, h'.xf.trans h.xf, h'.yf.trans h.yf,
    h'.across.trans h.across⟩

theorem Keeps.there {m m' : Motion} (h : Keeps m m') : m'.there = m.there := by
  rw [Motion.there, Motion.there, h.direction, h.xf, h.yf]

theorem Keeps.period {m m' : Motion} (h : Keeps m m') : m'.period = m.period := by
  rw [Motion.period, Motion.period, h.movementType, h.movementAmount]

theorem Keeps.pace {m m' : Motion} (h : Keeps m m') : m'.pace = m.pace := by
  rw [Motion.pace, Motion.pace, h.movementType, h.movementAmount]

theorem move_axis (m : Motion) (a : UInt16) : Keeps m (m.move a) ∧
    (m.move a).frameCount = m.frameCount ∧
    (m.move a).here = decreased m.here m.there a := by
  obtain ⟨direction, movementType, movementAmount, xi, yi, xf, yf, frameCount⟩ := m
  cases direction with
  | up => exact ⟨⟨rfl, rfl, rfl, rfl, rfl, rfl⟩, rfl, rfl⟩
  | down => exact ⟨⟨rfl, rfl, rfl, rfl, rfl, rfl⟩, rfl, not_increased yi yf a⟩
  | left => exact ⟨⟨rfl, rfl, rfl, rfl, rfl, rfl⟩, rfl, rfl⟩
  | right => exact ⟨⟨rfl, rfl, rfl, rfl, rfl, rfl⟩, rfl, not_increased xi xf a⟩

end Axis

section Frames

variable {m : Motion} {t : Nat}

theorem succ_mod {period : Nat} (hpos : 0 < period) (t : Nat) :
    (t + 1) % period = if t % period + 1 = period then 0 else t % period + 1 := by
  have hlt := Nat.mod_lt t hpos
  rw [← Nat.mod_add_mod]
  split
  · rename_i h
    rw [h, Nat.mod_self]
  · exact Nat.mod_eq_of_lt (by omega)

theorem update_perFrame (h : m.movementType = .perFrame) :
    m.update = m.move m.movementAmount := by
  rw [Motion.update, h]

def Motion.count (m : Motion) (n : UInt8) : Motion := { m with frameCount := n }

theorem update_frames (h : m.movementType = .frames) :
    m.update = if (m.frameCount + 1).toNat = m.movementAmount.toNat then
        ((m.count (m.frameCount + 1)).move 1).count 0
      else m.count (m.frameCount + 1) := by
  obtain ⟨direction, movementType, movementAmount, xi, yi, xf, yf, frameCount⟩ := m
  simp only at h
  subst h
  rfl

theorem count_keeps (m : Motion) (n : UInt8) : Keeps m (m.count n) :=
  ⟨rfl, rfl, rfl, rfl, rfl, rfl⟩

/-- The counter reaches a period of up to 255 ticks at each multiple of it, and then the
sprite moves. -/
theorem update_counts (hpos : 0 < m.period) (hp : m.period ≤ 255)
    (ht : m.frameCount.toNat = t % m.period) :
    Keeps m m.update ∧ m.update.frameCount.toNat = (t + 1) % m.period ∧
      m.update.here =
        if (t + 1) % m.period = 0 then decreased m.here m.there m.pace else m.here := by
  cases h : m.movementType with
  | perFrame =>
    have hperiod : m.period = 1 := by rw [Motion.period, h]
    have hpace : m.pace = m.movementAmount := by rw [Motion.pace, h]
    obtain ⟨hkeeps, hcount, hhere⟩ := move_axis m m.movementAmount
    rw [hperiod, Nat.mod_one] at ht
    rw [update_perFrame h, hperiod, hpace, Nat.mod_one, if_pos rfl]
    exact ⟨hkeeps, by rw [hcount, ht], hhere⟩
  | frames =>
    have hperiod : m.period = m.movementAmount.toNat := by rw [Motion.period, h]
    have hpace : m.pace = 1 := by rw [Motion.pace, h]
    have hlt := Nat.mod_lt t hpos
    have hnext : (m.frameCount + 1).toNat = t % m.period + 1 := by
      rw [UInt8.toNat_add, ht, UInt8.toNat_one]
      omega
    rw [update_frames h, hnext, succ_mod hpos, hpace, ← hperiod]
    split
    · obtain ⟨hkeeps, -, hhere⟩ := move_axis (m.count (m.frameCount + 1)) 1
      exact ⟨((count_keeps m _).trans hkeeps).trans (count_keeps _ 0), rfl, hhere⟩
    · rw [if_neg (Nat.succ_ne_zero _)]
      exact ⟨count_keeps m _, hnext, rfl⟩

theorem update_stuck (hp : 255 < m.period) : Keeps m m.update ∧ m.update.here = m.here := by
  cases h : m.movementType with
  | perFrame =>
    have hperiod : m.period = 1 := by rw [Motion.period, h]
    omega
  | frames =>
    have hperiod : m.period = m.movementAmount.toNat := by rw [Motion.period, h]
    have hlt := (m.frameCount + 1).toNat_lt
    rw [update_frames h, if_neg (by omega)]
    exact ⟨count_keeps m _, rfl⟩

theorem iterate_stuck (hp : 255 < m.period) (t : Nat) :
    Keeps m (Motion.update^[t] m) ∧ (Motion.update^[t] m).here = m.here := by
  induction t with
  | zero => exact ⟨count_keeps m m.frameCount, rfl⟩
  | succ t ih =>
    obtain ⟨hkeeps, hhere⟩ := ih
    obtain ⟨hkeeps', hhere'⟩ := update_stuck (hkeeps.period.symm ▸ hp)
    rw [Function.iterate_succ_apply']
    exact ⟨hkeeps.trans hkeeps', hhere'.trans hhere⟩

theorem iterate_counts (hpos : 0 < m.period) (hp : m.period ≤ 255) (hm : m.frameCount = 0)
    (t : Nat) : Keeps m (Motion.update^[t] m) ∧
      (Motion.update^[t] m).frameCount.toNat = t % m.period ∧
      (Motion.update^[t + 1] m).here =
        if (t + 1) % m.period = 0 then decreased (Motion.update^[t] m).here m.there m.pace
        else (Motion.update^[t] m).here := by
  have hnext {t : Nat} (hkeeps : Keeps m (Motion.update^[t] m))
      (hcount : (Motion.update^[t] m).frameCount.toNat = t % m.period) :=
    update_counts (m := Motion.update^[t] m) (t := t) (hkeeps.period.symm ▸ hpos)
      (hkeeps.period.symm ▸ hp) (hkeeps.period.symm ▸ hcount)
  have hkeep : Keeps m (Motion.update^[t] m) ∧
      (Motion.update^[t] m).frameCount.toNat = t % m.period := by
    induction t with
    | zero =>
      have hzero : m.frameCount.toNat = 0 := congrArg UInt8.toNat hm
      exact ⟨count_keeps m m.frameCount, hzero.trans (Nat.zero_mod m.period).symm⟩
    | succ t ih =>
      obtain ⟨hkeeps', hcount', -⟩ := hnext ih.1 ih.2
      rw [Function.iterate_succ_apply']
      exact ⟨ih.1.trans hkeeps', ih.1.period ▸ hcount'⟩
  obtain ⟨hkeeps, hcount⟩ := hkeep
  obtain ⟨-, -, hhere⟩ := hnext hkeeps hcount
  refine ⟨hkeeps, hcount, ?_⟩
  rw [Function.iterate_succ_apply', hhere, hkeeps.period, hkeeps.there, hkeeps.pace]

/-- With room at the end, the way that is left is that of a motion in whole numbers. -/
theorem iterate_left (hpos : 0 < m.period) (hp : m.period ≤ 255) (hm : m.frameCount = 0)
    (hahead : m.there ≤ m.here) (hroom : m.pace ≤ m.there) (t : Nat) :
    (Motion.update^[t] m).here.toNat = m.there.toNat +
      (m.here.toNat - m.there.toNat - t / m.period * m.pace.toNat) := by
  induction t with
  | zero =>
    rw [UInt16.le_iff_toNat_le] at hahead
    rw [Nat.zero_div, Nat.zero_mul]
    exact (Nat.add_sub_cancel' hahead).symm
  | succ t ih =>
    obtain ⟨-, -, hhere⟩ := iterate_counts hpos hp hm t
    rw [hhere, Nat.succ_div]
    by_cases hd : m.period ∣ t + 1
    · have hle : m.there ≤ (Motion.update^[t] m).here := by
        rw [UInt16.le_iff_toNat_le, ih]
        exact Nat.le_add_right _ _
      rw [if_pos (Nat.mod_eq_zero_of_dvd hd), if_pos hd, toNat_decreased hle hroom, ih,
        Nat.add_sub_cancel_left, Nat.succ_mul, Nat.sub_sub]
    · rw [if_neg (fun h => hd (Nat.dvd_of_mod_eq_zero h)), if_neg hd, Nat.add_zero, ih]

theorem room_of_rest (hpos : 0 < m.period) (hp : m.period ≤ 255) (hm : m.frameCount = 0)
    (hrest : ∀ t, m.here.toNat - m.there.toNat ≤ t / m.period →
      (Motion.update^[t] m).here = m.there) : m.pace ≤ m.there := by
  -- the last tick of the period in which the sprite arrives, and the next one
  have hD : m.here.toNat - m.there.toNat ≤
      ((m.here.toNat - m.there.toNat) * m.period + (m.period - 1)) / m.period := by
    rw [Nat.le_div_iff_mul_le hpos]
    exact Nat.le_add_right _ _
  have hlast := hrest _ hD
  have hnext := hrest _ (hD.trans (Nat.div_le_div_right (Nat.le_succ _)))
  obtain ⟨-, -, hhere⟩ := iterate_counts hpos hp hm
    ((m.here.toNat - m.there.toNat) * m.period + (m.period - 1))
  have hmod : ((m.here.toNat - m.there.toNat) * m.period + (m.period - 1) + 1) % m.period = 0 := by
    rw [Nat.add_assoc, Nat.sub_add_cancel hpos, Nat.add_mod_right, Nat.mul_mod_left]
  rw [if_pos hmod, hlast] at hhere
  exact decreased_end (hhere.symm.trans hnext)

end Frames

section Course

variable {xi yi xf yf : UInt16} {speed : Int16} {m₀ m : Motion}

theorem toNat_not16 (a : UInt16) : (~~~a).toNat = 65535 - a.toNat := UInt16.toNat_not a

/-- The first frame, with the direction in which the sprite has its end before it. -/
theorem videoTestMove_start (h : videoTestMove xi yi xf yf speed = some m₀) :
    m₀.xi = xi ∧ m₀.yi = yi ∧ m₀.xf = xf ∧ m₀.yf = yf ∧ m₀.frameCount = 0 ∧
      movementOf speed = some (m₀.movementType, m₀.movementAmount) ∧
      (m₀.direction = .up ∧ xi = xf ∧ ¬ yi < yf ∨ m₀.direction = .down ∧ xi = xf ∧ yi < yf ∨
        m₀.direction = .left ∧ xi ≠ xf ∧ yi = yf ∧ ¬ xi < xf ∨
        m₀.direction = .right ∧ xi ≠ xf ∧ yi = yf ∧ xi < xf) := by
  obtain ⟨direction, hdirection, h⟩ := Option.bind_eq_some_iff.mp h
  obtain ⟨movement, hmovement, rfl⟩ := Option.map_eq_some_iff.mp h
  refine ⟨rfl, rfl, rfl, rfl, rfl, hmovement, ?_⟩
  unfold directionOf at hdirection
  split at hdirection
  · cases hdirection
    split
    · exact .inr (.inl ⟨rfl, ‹_›, ‹_›⟩)
    · exact .inl ⟨rfl, ‹_›, ‹_›⟩
  split at hdirection
  · cases hdirection
    split
    · exact .inr (.inr (.inr ⟨rfl, ‹_›, ‹_›, ‹_›⟩))
    · exact .inr (.inr (.inl ⟨rfl, ‹_›, ‹_›, ‹_›⟩))
  · cases hdirection

theorem straight_down {start final here kept left : Nat} (h : final ≤ start) :
    ((min kept kept ≤ kept ∧ kept ≤ max kept kept) ∧
      (min start final ≤ here ∧ here ≤ max start final) ∧
      Nat.dist kept kept + Nat.dist here final = left) ↔
        final ≤ here ∧ here ≤ start ∧ here - final = left := by
  rw [Nat.min_eq_right h, Nat.max_eq_left h, Nat.dist_self, Nat.zero_add, Nat.dist]
  omega

theorem straight_up {start final here kept left : Nat} (h : start < final)
    (hfinal : final ≤ 65535) (hhere : here ≤ 65535) :
    ((min kept kept ≤ kept ∧ kept ≤ max kept kept) ∧
      (min start final ≤ here ∧ here ≤ max start final) ∧
      Nat.dist kept kept + Nat.dist here final = left) ↔
        65535 - final ≤ 65535 - here ∧ 65535 - here ≤ 65535 - start ∧
          65535 - here - (65535 - final) = left := by
  rw [Nat.min_eq_left h.le, Nat.max_eq_right h.le, Nat.dist_self, Nat.zero_add, Nat.dist]
  omega

theorem straight_iff {left : Nat} : Straight xi yi xf yf left m ↔
    (min xi.toNat xf.toNat ≤ m.xi.toNat ∧ m.xi.toNat ≤ max xi.toNat xf.toNat) ∧
      (min yi.toNat yf.toNat ≤ m.yi.toNat ∧ m.yi.toNat ≤ max yi.toNat yf.toNat) ∧
      Nat.dist m.xi.toNat xf.toNat + Nat.dist m.yi.toNat yf.toNat = left :=
  ⟨fun h => ⟨h.column, h.row, h.distance⟩, fun h => ⟨h.1, h.2.1, h.2.2⟩⟩

theorem straight_iff_axis (h : videoTestMove xi yi xf yf speed = some m₀) (hk : Keeps m₀ m)
    (left : Nat) : Straight xi yi xf yf left m ↔
      m₀.there.toNat ≤ m.here.toNat ∧ m.here.toNat ≤ m₀.here.toNat ∧
        m.here.toNat - m₀.there.toNat = left := by
  obtain ⟨rfl, rfl, rfl, rfl, -, -, hd⟩ := videoTestMove_start h
  have hdirection := hk.direction
  have hacross := hk.across
  rw [straight_iff]
  simp only [Motion.across, Motion.here, Motion.there] at *
  obtain ⟨hd, heq, hlt⟩ | ⟨hd, heq, hlt⟩ | ⟨hd, hne, heq, hlt⟩ | ⟨hd, hne, heq, hlt⟩ := hd
  · simp only [hdirection, hd] at hacross
    simp only [hdirection, hd, ← heq, hacross, Direction.turn]
    exact straight_down (UInt16.le_iff_toNat_le.mp (UInt16.not_lt.mp hlt))
  · simp only [hdirection, hd] at hacross
    simp only [hdirection, hd, ← heq, hacross, Direction.turn, toNat_not16]
    exact straight_up (UInt16.lt_iff_toNat_lt.mp hlt) (Nat.le_of_lt_succ m₀.yf.toNat_lt)
      (Nat.le_of_lt_succ m.yi.toNat_lt)
  · simp only [hdirection, hd] at hacross
    simp only [hdirection, hd, ← heq, hacross, Direction.turn]
    rw [and_left_comm, Nat.add_comm (Nat.dist _ _)]
    exact straight_down (UInt16.le_iff_toNat_le.mp (UInt16.not_lt.mp hlt))
  · simp only [hdirection, hd] at hacross
    simp only [hdirection, hd, ← heq, hacross, Direction.turn, toNat_not16]
    rw [and_left_comm, Nat.add_comm (Nat.dist _ _)]
    exact straight_up (UInt16.lt_iff_toNat_lt.mp hlt) (Nat.le_of_lt_succ m₀.xf.toNat_lt)
      (Nat.le_of_lt_succ m.xi.toNat_lt)

theorem there_le_here (h : videoTestMove xi yi xf yf speed = some m₀) : m₀.there ≤ m₀.here ∧
    Nat.dist xi.toNat xf.toNat + Nat.dist yi.toNat yf.toNat =
      m₀.here.toNat - m₀.there.toNat := by
  have hstart := (straight_iff_axis h (count_keeps m₀ m₀.frameCount)
    (Nat.dist xi.toNat xf.toNat + Nat.dist yi.toNat yf.toNat)).mp (straight_iff.mpr (by
      obtain ⟨rfl, rfl, rfl, rfl, -⟩ := videoTestMove_start h
      exact ⟨⟨min_le_left _ _, le_max_left _ _⟩, ⟨min_le_left _ _, le_max_left _ _⟩, rfl⟩))
  exact ⟨UInt16.le_iff_toNat_le.mpr hstart.1, hstart.2.2.symm⟩

theorem axis_cases (h : videoTestMove xi yi xf yf speed = some m₀) :
    let start := if xi = xf then yi else xi
    let final := if xi = xf then yf else xf
    (¬ start < final ∧ m₀.here = start ∧ m₀.there = final) ∨
      (start < final ∧ m₀.here = ~~~start ∧ m₀.there = ~~~final) := by
  obtain ⟨rfl, rfl, rfl, rfl, -, -, hd⟩ := videoTestMove_start h
  simp only [Motion.here, Motion.there]
  obtain ⟨hd, heq, hlt⟩ | ⟨hd, heq, hlt⟩ | ⟨hd, hne, -, hlt⟩ | ⟨hd, hne, -, hlt⟩ := hd
  · rw [hd, if_pos heq, if_pos heq]
    exact .inl ⟨hlt, rfl, rfl⟩
  · rw [hd, if_pos heq, if_pos heq]
    exact .inr ⟨hlt, rfl, rfl⟩
  · rw [hd, if_neg hne, if_neg hne]
    exact .inl ⟨hlt, rfl, rfl⟩
  · rw [hd, if_neg hne, if_neg hne]
    exact .inr ⟨hlt, rfl, rfl⟩

theorem speed_cases (h : videoTestMove xi yi xf yf speed = some m₀) :
    (0 < speed.toInt ∧ m₀.period = 1 ∧ m₀.pace.toNat = speed.toInt.toNat) ∨
      (speed.toInt < 0 ∧ m₀.period = (-speed.toInt).toNat ∧ m₀.pace = 1) := by
  obtain ⟨-, -, -, -, -, hmovement, -⟩ := videoTestMove_start h
  have hlow := speed.le_toInt
  have hhigh := speed.toInt_lt
  unfold movementOf at hmovement
  split at hmovement
  · obtain ⟨htype, hamount⟩ := Prod.mk.inj (Option.some.inj hmovement)
    refine .inl ⟨‹_›, by rw [Motion.period, ← htype], ?_⟩
    rw [Motion.pace, ← htype, ← hamount]
    exact UInt16.toNat_ofNat_of_lt' (by rw [UInt16.size]; omega)
  split at hmovement
  · obtain ⟨htype, hamount⟩ := Prod.mk.inj (Option.some.inj hmovement)
    refine .inr ⟨‹_›, ?_, by rw [Motion.pace, ← htype]⟩
    rw [Motion.period, ← htype, ← hamount]
    exact UInt16.toNat_ofNat_of_lt' (by rw [UInt16.size]; omega)
  · cases hmovement

/-- Every period ticks, the sprite moves by its pace. -/
theorem way_left (h : videoTestMove xi yi xf yf speed = some m₀) (distance t : Nat) :
    wayLeft distance speed t = distance - t / m₀.period * m₀.pace.toNat := by
  unfold wayLeft
  obtain ⟨hpos, hperiod, hpace⟩ | ⟨hneg, hperiod, hpace⟩ := speed_cases h
  · rw [if_pos hpos, hperiod, hpace, Nat.div_one]
  · rw [if_neg hneg.not_gt, hperiod, hpace, UInt16.toNat_one, Nat.mul_one]

theorem room_iff (h : videoTestMove xi yi xf yf speed = some m₀) (amount : Nat) :
    Room (if xi = xf then yi else xi) (if xi = xf then yf else xf) amount ↔
      amount ≤ m₀.there.toNat := by
  unfold Room
  obtain ⟨hlt, -, hthere⟩ | ⟨hlt, -, hthere⟩ := axis_cases h
  · rw [if_neg hlt, hthere]
  · have hfinal := (if xi = xf then yf else xf).toNat_lt
    rw [if_pos hlt, hthere, toNat_not16]
    omega

theorem onCourse_iff (h : videoTestMove xi yi xf yf speed = some m₀) :
    OnCourse xi yi xf yf speed ↔
      if m₀.period ≤ 255 then m₀.pace ≤ m₀.there else m₀.here = m₀.there := by
  unfold OnCourse
  simp only
  rw [UInt16.le_iff_toNat_le]
  obtain ⟨hpos, hperiod, hpace⟩ | ⟨hneg, hperiod, hpace⟩ := speed_cases h
  · have hshort : m₀.period ≤ 255 := by omega
    rw [if_pos hpos, if_pos hshort, room_iff h, hpace]
  · rw [if_neg hneg.not_gt, hpace, UInt16.toNat_one]
    by_cases hle : -speed.toInt ≤ 255
    · have hshort : m₀.period ≤ 255 := by omega
      rw [if_pos hle, if_pos hshort, room_iff h]
    · have hlong : ¬ m₀.period ≤ 255 := by omega
      rw [if_neg hle, if_neg hlong]
      obtain ⟨-, hhere, hthere⟩ | ⟨-, hhere, hthere⟩ := axis_cases h
      · rw [hhere, hthere]
      · rw [hhere, hthere, UInt16.not_inj]

theorem period_pos (h : videoTestMove xi yi xf yf speed = some m₀) : 0 < m₀.period := by
  obtain ⟨-, hperiod, -⟩ | ⟨hneg, hperiod, -⟩ := speed_cases h
  · omega
  · omega

theorem pace_pos (h : videoTestMove xi yi xf yf speed = some m₀) : 0 < m₀.pace.toNat := by
  obtain ⟨hpos, -, hpace⟩ | ⟨-, -, hpace⟩ := speed_cases h
  · omega
  · rw [hpace]
    exact Nat.one_pos

/-- The sprite goes straight to its end exactly if it is on course. -/
theorem motion_straight_iff (h : videoTestMove xi yi xf yf speed = some m₀) :
    (∀ ns m c, run step (m₀, 0) ns = some (m, c) →
      Straight xi yi xf yf
        (wayLeft (Nat.dist xi.toNat xf.toNat + Nat.dist yi.toNat yf.toNat) speed (ticks ns)) m) ↔
      OnCourse xi yi xf yf speed := by
  have hcount : m₀.frameCount = 0 := (videoTestMove_start h).2.2.2.2.1
  have hpos := period_pos h
  obtain ⟨hahead, hdistance⟩ := there_le_here h
  rw [onCourse_iff h]
  constructor
  · intro hall
    have htick (t : Nat) := hall _ _ _ (run_tick (by decide) m₀ t)
    split
    · rename_i hperiod
      refine room_of_rest hpos hperiod hcount fun t ht => ?_
      obtain ⟨hkeeps, -, -⟩ := iterate_counts hpos hperiod hcount t
      obtain ⟨hle, -, hleft⟩ := (straight_iff_axis h hkeeps _).mp (htick t)
      rw [ticks_replicate, way_left h, hdistance] at hleft
      have hpace : t / m₀.period ≤ t / m₀.period * m₀.pace.toNat :=
        Nat.le_mul_of_pos_right _ (pace_pos h)
      apply UInt16.toNat_inj.mp
      omega
    · rename_i hperiod
      obtain ⟨hkeeps, hhere⟩ := iterate_stuck (not_le.mp hperiod) (m₀.here.toNat * m₀.period)
      obtain ⟨hle, -, hleft⟩ := (straight_iff_axis h hkeeps _).mp (htick _)
      rw [ticks_replicate, way_left h, hdistance, Nat.mul_div_cancel _ hpos, hhere] at hleft
      have hpace : m₀.here.toNat ≤ m₀.here.toNat * m₀.pace.toNat :=
        Nat.le_mul_of_pos_right _ (pace_pos h)
      rw [hhere] at hle
      apply UInt16.toNat_inj.mp
      omega
  · intro hcourse ns m c hr
    rw [way_left h, hdistance]
    obtain rfl : m = Motion.update^[ticks ns] m₀ := run_ticks hr
    split at hcourse
    · rename_i hperiod
      obtain ⟨hkeeps, -, -⟩ := iterate_counts hpos hperiod hcount (ticks ns)
      have hleft := iterate_left hpos hperiod hcount hahead hcourse (ticks ns)
      rw [UInt16.le_iff_toNat_le] at hahead
      exact (straight_iff_axis h hkeeps _).mpr (by omega)
    · rename_i hperiod
      obtain ⟨hkeeps, hhere⟩ := iterate_stuck (not_le.mp hperiod) (ticks ns)
      refine (straight_iff_axis h hkeeps _).mpr ?_
      rw [hhere, hcourse]
      omega

theorem motion_straight_reaching_end :
    ∃ m₀, videoTestMove 30 200 30 20 (-4) = some m₀ ∧
      ∀ ns m c, run step (m₀, 0) ns = some (m, c) →
        Straight 30 200 30 20 (wayLeft (Nat.dist 30 30 + Nat.dist 200 20) (-4) (ticks ns)) m :=
  ⟨_, rfl, (motion_straight_iff rfl).mpr (by decide)⟩

/-- The period of a slow sprite is not reached by a counter of eight bits. -/
theorem slow_sprite_rests : ∃ m₀, videoTestMove 0 0 100 0 (-300) = some m₀ ∧
    ¬ ∀ ns m c, run step (m₀, 0) ns = some (m, c) →
      Straight 0 0 100 0 (wayLeft (Nat.dist 0 100 + Nat.dist 0 0) (-300) (ticks ns)) m := by
  refine ⟨_, rfl, fun hall => ?_⟩
  have hend := hall _ _ _ (run_tick (by decide) _ 300)
  exact absurd hend.distance (by decide +kernel)

end Course

end WriteWise.SpriteMotion
