import WriteWise.Library.Framing

namespace WriteWise.Mouse

open Library.Framing

section Constants

def mouseLB : UInt8 := 0x01
def mouseRB : UInt8 := 0x02
def mouseMB : UInt8 := 0x04
def firstByte : UInt8 := 0x08
def mouseXSignal : UInt8 := 0x10
def mouseYSignal : UInt8 := 0x20
def mouseXOverflow : UInt8 := 0x40
def mouseYOverflow : UInt8 := 0x80

def fullOutBuffer : UInt8 := 0x01
def mouseBit : UInt8 := 0x20
def timeoutError : UInt8 := 0x40
def parityError : UInt8 := 0x80

def maxAttemptsKBC : Nat := 10

end Constants

/-- The kernel's answers to one call of `readKBCOutput`: to the read of the status with so many
attempts left, and to the read of the output buffer. -/
structure KbcInput where
  status : Nat → Option UInt8
  output : Option UInt8

/-- Read a byte with so many attempts. There is none where an error is returned. -/
def readKBCOutputWithin (input : KbcInput) (mouse : Bool) : Nat → Option UInt8
  | 0 => none
  | attempts + 1 =>
    match input.status attempts with
    | none => none
    | some status =>
      if status &&& fullOutBuffer ≠ 0 then
        if status &&& parityError ≠ 0 then none
        else if status &&& timeoutError ≠ 0 then none
        else if mouse ∧ status &&& mouseBit = 0 then none
        else if ¬ mouse ∧ status &&& mouseBit ≠ 0 then none
        else input.output
      else readKBCOutputWithin input mouse attempts

def readKBCOutput (input : KbcInput) (mouse : Bool) : Option UInt8 :=
  readKBCOutputWithin input mouse maxAttemptsKBC

@[ext]
structure Packet where
  bytes : Vector UInt8 3 := .replicate 3 0
  rb : Bool := false
  mb : Bool := false
  lb : Bool := false
  deltaX : Int16 := 0
  deltaY : Int16 := 0
  xOv : Bool := false
  yOv : Bool := false
  deriving DecidableEq

structure Driver where
  byteIndex : UInt8 := 0
  mouseBytes : Vector UInt8 3 := .replicate 3 0
  currentByte : UInt8 := 0
  mousePacket : Packet := {}
  deriving DecidableEq

/-- `mouseBytes[byteIndex++] = currentByte` -/
def Driver.push (m : Driver) : Driver :=
  { m with
    mouseBytes := m.mouseBytes.setIfInBounds m.byteIndex.toNat m.currentByte
    byteIndex := m.byteIndex + 1 }

def mouseSyncBytes (m : Driver) : Driver :=
  if m.byteIndex = 0 ∧ m.currentByte &&& firstByte ≠ 0 then m.push
  else if 0 < m.byteIndex then m.push
  else m

/-- A movement of nine bits as one of sixteen. -/
def delta (signal : Bool) (byte : UInt8) : Int16 :=
  if signal then (0xFF00 ||| byte.toUInt16).toInt16 else byte.toUInt16.toInt16

def mouseBytesToPacket (m : Driver) : Driver :=
  { m with
    mousePacket :=
      { bytes := m.mouseBytes
        lb := m.mouseBytes[0] &&& mouseLB ≠ 0
        mb := m.mouseBytes[0] &&& mouseMB ≠ 0
        rb := m.mouseBytes[0] &&& mouseRB ≠ 0
        xOv := m.mouseBytes[0] &&& mouseXOverflow ≠ 0
        yOv := m.mouseBytes[0] &&& mouseYOverflow ≠ 0
        deltaX := delta (m.mouseBytes[0] &&& mouseXSignal ≠ 0) m.mouseBytes[1]
        deltaY := delta (m.mouseBytes[0] &&& mouseYSignal ≠ 0) m.mouseBytes[2] } }

/-- The handler returns whether a packet is complete. -/
def mouseIntH (input : KbcInput) (m : Driver) : Driver × Bool :=
  match readKBCOutput input true with
  | none => ({ m with byteIndex := 0 }, false)
  | some b =>
    let m := mouseSyncBytes { m with currentByte := b }
    if m.byteIndex = 3 then ({ mouseBytesToPacket m with byteIndex := 0 }, true) else (m, false)

def interrupt (m : Driver) (input : KbcInput) : Driver × Option Packet :=
  let r := mouseIntH input m
  (r.1, if r.2 then some r.1.mousePacket else none)

/-- A movement report, within what the device can say. -/
structure Report where
  lb : Bool
  mb : Bool
  rb : Bool
  xOv : Bool
  yOv : Bool
  dx : Int
  dy : Int
  dx_range : -256 ≤ dx ∧ dx ≤ 255
  dy_range : -256 ≤ dy ∧ dy ≤ 255

def flag (on : Bool) (bit : UInt8) : UInt8 := if on then bit else 0

def lowByte (movement : Int) : UInt8 := UInt8.ofNat (movement % 256).toNat

def Report.first (r : Report) : UInt8 :=
  firstByte ||| flag r.lb mouseLB ||| flag r.rb mouseRB ||| flag r.mb mouseMB |||
    flag (r.dx < 0) mouseXSignal ||| flag (r.dy < 0) mouseYSignal |||
    flag r.xOv mouseXOverflow ||| flag r.yOv mouseYOverflow

def Report.encode (r : Report) : List UInt8 := [r.first, lowByte r.dx, lowByte r.dy]

def Report.packet (r : Report) : Packet :=
  { bytes := #v[r.first, lowByte r.dx, lowByte r.dy]
    rb := r.rb
    mb := r.mb
    lb := r.lb
    deltaX := Int16.ofInt r.dx
    deltaY := Int16.ofInt r.dy
    xOv := r.xOv
    yOv := r.yOv }

section Signs

theorem toInt_toInt16 (w : UInt16) : w.toInt16.toInt = (w.toNat : Int).bmod (2 ^ 16) := by
  rw [← UInt16.toNat_toBitVec, ← BitVec.toInt_eq_toNat_bmod]
  rfl

theorem toNat_lowByte (movement : Int) : ((lowByte movement).toNat : Int) = movement % 256 := by
  rw [lowByte, UInt8.toNat_ofNat']
  omega

theorem toNat_highByte (b : UInt8) : (0xFF00 ||| b.toUInt16).toNat = 0xFF00 + b.toNat := by
  rw [UInt16.toNat_or, UInt8.toNat_toUInt16]
  exact (Nat.two_pow_add_eq_or_of_lt b.toNat_lt 0xFF).symm

theorem delta_lowByte {movement : Int} (h : -256 ≤ movement ∧ movement ≤ 255) :
    delta (movement < 0) (lowByte movement) = Int16.ofInt movement := by
  apply Int16.toInt_inj.mp
  rw [Int16.toInt_ofInt_of_le (by omega) (by omega), delta]
  have hlow := toNat_lowByte movement
  split
  · rename_i hneg
    have hneg' : movement < 0 := of_decide_eq_true hneg
    rw [toInt_toInt16, toNat_highByte]
    rw [Int.bmod_def]
    omega
  · rename_i hpos
    have hpos' : 0 ≤ movement := by simpa using hpos
    rw [toInt_toInt16, UInt8.toNat_toUInt16, Int.bmod_def]
    omega

theorem packet_deltas (r : Report) :
    r.packet.deltaX.toInt = r.dx ∧ r.packet.deltaY.toInt = r.dy := by
  have hx := r.dx_range
  have hy := r.dy_range
  exact ⟨Int16.toInt_ofInt_of_le (by omega) (by omega),
    Int16.toInt_ofInt_of_le (by omega) (by omega)⟩

theorem first_bits : ∀ lb rb mb xs ys xo yo : Bool,
    let first := firstByte ||| flag lb mouseLB ||| flag rb mouseRB ||| flag mb mouseMB |||
      flag xs mouseXSignal ||| flag ys mouseYSignal ||| flag xo mouseXOverflow |||
      flag yo mouseYOverflow
    first &&& firstByte ≠ 0 ∧ decide (first &&& mouseLB ≠ 0) = lb ∧
      decide (first &&& mouseRB ≠ 0) = rb ∧ decide (first &&& mouseMB ≠ 0) = mb ∧
      decide (first &&& mouseXSignal ≠ 0) = xs ∧ decide (first &&& mouseYSignal ≠ 0) = ys ∧
      decide (first &&& mouseXOverflow ≠ 0) = xo ∧
      decide (first &&& mouseYOverflow ≠ 0) = yo := by
  decide

end Signs

section Read

/-- The output buffer is full, without an error, and with a byte of the mouse. -/
def Ready (status : UInt8) : Prop :=
  status &&& fullOutBuffer ≠ 0 ∧ status &&& parityError = 0 ∧ status &&& timeoutError = 0 ∧
    status &&& mouseBit ≠ 0

instance (status : UInt8) : Decidable (Ready status) := inferInstanceAs (Decidable (_ ∧ _))

/-- With so many attempts the driver gets the byte: until it is there the status says that the
buffer is empty, and nothing that is read fails. -/
inductive Gets (input : KbcInput) (b : UInt8) : Nat → Prop
  | now {n : Nat} {status : UInt8} (hstatus : input.status n = some status)
      (hready : Ready status) (houtput : input.output = some b) : Gets input b (n + 1)
  | later {n : Nat} {status : UInt8} (hstatus : input.status n = some status)
      (hempty : status &&& fullOutBuffer = 0) (h : Gets input b n) : Gets input b (n + 1)

def Delivers (input : KbcInput) (b : UInt8) : Prop := Gets input b maxAttemptsKBC

theorem readKBCOutputWithin_succ {input : KbcInput} {n : Nat} {status : UInt8}
    (h : input.status n = some status) : readKBCOutputWithin input true (n + 1) =
      if status &&& fullOutBuffer = 0 then readKBCOutputWithin input true n
      else if Ready status then input.output else none := by
  rw [readKBCOutputWithin, h]
  unfold Ready
  by_cases hfull : status &&& fullOutBuffer = 0
  · simp [hfull]
  by_cases hparity : status &&& parityError = 0
  · by_cases htimeout : status &&& timeoutError = 0
    · simp [hfull, hparity, htimeout]
    · simp [hfull, hparity, htimeout]
  · simp [hfull, hparity]

theorem readKBCOutputWithin_eq_some {input : KbcInput} {b : UInt8} (attempts : Nat) :
    readKBCOutputWithin input true attempts = some b ↔ Gets input b attempts := by
  induction attempts with
  | zero =>
    constructor
    · intro h
      cases h
    · intro h
      cases h
  | succ n ih =>
    cases hs : input.status n with
    | none =>
      have hfail : readKBCOutputWithin input true (n + 1) = none := by
        rw [readKBCOutputWithin, hs]
      refine ⟨fun h => (by cases hfail.symm.trans h), fun h => ?_⟩
      cases h with
      | now hstatus => cases hs.symm.trans hstatus
      | later hstatus => cases hs.symm.trans hstatus
    | some status =>
      rw [readKBCOutputWithin_succ hs]
      refine ⟨fun h => ?_, fun h => ?_⟩
      · split at h
        · exact .later hs ‹_› (ih.mp h)
        split at h
        · exact .now hs ‹_› h
        · cases h
      · cases h with
        | now hstatus hready houtput =>
          obtain rfl := Option.some.inj (hs.symm.trans hstatus)
          rw [if_neg hready.1, if_pos hready, houtput]
        | later hstatus hempty h =>
          obtain rfl := Option.some.inj (hs.symm.trans hstatus)
          rw [if_pos hempty, ih.mpr h]

theorem readKBCOutput_eq_some {input : KbcInput} {b : UInt8} :
    readKBCOutput input true = some b ↔ Delivers input b :=
  readKBCOutputWithin_eq_some maxAttemptsKBC

end Read

section Packets

variable {m : Driver} {b : UInt8}

/-- The interrupt of a byte that is read without an error. -/
def accept (m : Driver) (b : UInt8) : Driver × Option Packet :=
  interrupt m ⟨fun _ => some (fullOutBuffer ||| mouseBit), some b⟩

theorem accept_delivers (b : UInt8) :
    Delivers ⟨fun _ => some (fullOutBuffer ||| mouseBit), some b⟩ b :=
  .now rfl (by decide) rfl

theorem delivered (bs : List UInt8) : List.Forall₂ Delivers
    (bs.map fun b => ⟨fun _ => some (fullOutBuffer ||| mouseBit), some b⟩) bs :=
  List.forall₂_map_left_iff.mpr (List.forall₂_same.mpr fun b _ => accept_delivers b)

theorem interrupt_delivers {input : KbcInput} (h : Delivers input b) (m : Driver) :
    interrupt m input = accept m b := by
  have hr := readKBCOutput_eq_some.mpr h
  have ha := readKBCOutput_eq_some.mpr (accept_delivers b)
  simp only [accept, interrupt, mouseIntH, hr, ha]

theorem accept_skip (hm : m.byteIndex = 0) (hb : b &&& firstByte = 0) :
    accept m b = ({ m with currentByte := b }, none) := by
  have hr := readKBCOutput_eq_some.mpr (accept_delivers b)
  simp [accept, interrupt, mouseIntH, hr, mouseSyncBytes, hm, hb]

theorem accept_first (hm : m.byteIndex = 0) (hb : b &&& firstByte ≠ 0) :
    accept m b = ({ m with
      currentByte := b, byteIndex := 1, mouseBytes := m.mouseBytes.setIfInBounds 0 b },
      none) := by
  have hr := readKBCOutput_eq_some.mpr (accept_delivers b)
  simp [accept, interrupt, mouseIntH, hr, mouseSyncBytes, hm, hb, Driver.push]

theorem accept_second (hm : m.byteIndex = 1) :
    accept m b = ({ m with
      currentByte := b, byteIndex := 2, mouseBytes := m.mouseBytes.setIfInBounds 1 b },
      none) := by
  have hr := readKBCOutput_eq_some.mpr (accept_delivers b)
  simp [accept, interrupt, mouseIntH, hr, mouseSyncBytes, hm, Driver.push]

theorem accept_third (hm : m.byteIndex = 2) :
    (accept m b).1.byteIndex = 0 ∧ (accept m b).2 =
      some (mouseBytesToPacket
        { m with mouseBytes := m.mouseBytes.setIfInBounds 2 b }).mousePacket := by
  have hr := readKBCOutput_eq_some.mpr (accept_delivers b)
  simp [accept, interrupt, mouseIntH, hr, mouseSyncBytes, hm, Driver.push, mouseBytesToPacket]

theorem set_all (v : Vector UInt8 3) (a b c : UInt8) :
    ((v.setIfInBounds 0 a).setIfInBounds 1 b).setIfInBounds 2 c = #v[a, b, c] := by
  ext i hi
  interval_cases i
  · simp
  · simp
  · simp

theorem packet_of_report (r : Report)
    (h : m.mouseBytes = #v[r.first, lowByte r.dx, lowByte r.dy]) :
    (mouseBytesToPacket m).mousePacket = r.packet := by
  obtain ⟨-, hlb, hrb, hmb, hxs, hys, hxo, hyo⟩ :=
    first_bits r.lb r.rb r.mb (r.dx < 0) (r.dy < 0) r.xOv r.yOv
  simp only [mouseBytesToPacket, h]
  apply Packet.ext
  · rfl
  · exact hrb
  · exact hmb
  · exact hlb
  · exact (congrArg (fun signal => delta signal (lowByte r.dx)) hxs).trans
      (delta_lowByte r.dx_range)
  · exact (congrArg (fun signal => delta signal (lowByte r.dy)) hys).trans
      (delta_lowByte r.dy_range)
  · exact hxo
  · exact hyo

def sent (x : List UInt8 × Report) : List UInt8 := x.1 ++ x.2.encode

def said (x : List UInt8 × Report) : List (Option Packet) :=
  x.1.map (fun _ => none) ++ [none, none, some x.2.packet]

def Between (m : Driver) : Prop := m.byteIndex = 0

theorem accept_noise {noise : List UInt8} (hnoise : ∀ b ∈ noise, b &&& firstByte = 0)
    (hm : Between m) : Between (receive accept m noise).1 ∧
      answers accept m noise = noise.map fun _ => none := by
  induction noise generalizing m with
  | nil => exact ⟨hm, rfl⟩
  | cons b noise ih =>
    have hskip := accept_skip hm (hnoise b (by simp))
    have hm' : Between (accept m b).1 := by
      rw [hskip]
      exact hm
    obtain ⟨hend, hanswers⟩ := ih (fun c hc => hnoise c (by simp [hc])) hm'
    refine ⟨hend, ?_⟩
    rw [answers, hanswers, hskip, List.map_cons]

theorem accept_report (r : Report) (hm : Between m) :
    Between (receive accept m r.encode).1 ∧
      answers accept m r.encode = [none, none, some r.packet] := by
  have hfirst : r.first &&& firstByte ≠ 0 :=
    (first_bits r.lb r.rb r.mb (r.dx < 0) (r.dy < 0) r.xOv r.yOv).1
  obtain ⟨m₁, h₁, hi₁, hb₁⟩ : ∃ m₁, accept m r.first = (m₁, none) ∧ m₁.byteIndex = 1 ∧
      m₁.mouseBytes = m.mouseBytes.setIfInBounds 0 r.first :=
    ⟨_, accept_first hm hfirst, rfl, rfl⟩
  obtain ⟨m₂, h₂, hi₂, hb₂⟩ : ∃ m₂, accept m₁ (lowByte r.dx) = (m₂, none) ∧
      m₂.byteIndex = 2 ∧ m₂.mouseBytes = m₁.mouseBytes.setIfInBounds 1 (lowByte r.dx) :=
    ⟨_, accept_second hi₁, rfl, rfl⟩
  obtain ⟨hend, hpacket⟩ := accept_third hi₂ (b := lowByte r.dy)
  have hbytes : m₂.mouseBytes.setIfInBounds 2 (lowByte r.dy) =
      #v[r.first, lowByte r.dx, lowByte r.dy] := by
    rw [hb₂, hb₁]
    exact set_all _ _ _ _
  rw [packet_of_report r hbytes] at hpacket
  simp only [Report.encode, receive, answers, h₁, h₂, hpacket]
  exact ⟨hend, trivial⟩

theorem accept_timed : Timed accept Between sent said
    fun x => ∀ b ∈ x.1, b &&& firstByte = 0 := by
  intro m x hm hx
  obtain ⟨hnoise, hskipped⟩ := accept_noise hx hm
  obtain ⟨hend, hreport⟩ := accept_report x.2 hnoise
  constructor
  · simpa only [sent, receive_append] using hend
  · rw [sent, answers_append, hskipped, hreport, said]

theorem answers_delivers {inputs : List KbcInput} {bs : List UInt8}
    (h : List.Forall₂ Delivers inputs bs) (m : Driver) :
    answers interrupt m inputs = answers accept m bs := by
  induction h generalizing m with
  | nil => rfl
  | cons hb _ ih => simp only [answers, interrupt_delivers hb, ih]

end Packets

section Index

variable {m : Driver}

theorem mouseSyncBytes_cases (m : Driver) :
    mouseSyncBytes m = m.push ∨ mouseSyncBytes m = m ∧ m.byteIndex = 0 := by
  unfold mouseSyncBytes
  split
  · exact .inl rfl
  split
  · exact .inl rfl
  · rename_i hpos
    exact .inr ⟨rfl, UInt8.le_zero_iff.mp (UInt8.not_lt.mp hpos)⟩

/-- A byte is stored at the index, which moves on, or starts again at the end of a packet. -/
theorem mouseIntH_index (hm : m.byteIndex.toNat < 3) (input : KbcInput) :
    (mouseIntH input m).1.byteIndex.toNat < 3 ∧
      ((mouseIntH input m).1.mouseBytes = m.mouseBytes ∨
        ∃ b, readKBCOutput input true = some b ∧
          (mouseIntH input m).1.mouseBytes = m.mouseBytes.set m.byteIndex.toNat b hm) := by
  have hzero : (0 : UInt8).toNat < 3 := by decide
  unfold mouseIntH
  cases hr : readKBCOutput input true with
  | none => exact ⟨hzero, .inl rfl⟩
  | some b =>
    simp only
    obtain h | ⟨h, hi⟩ := mouseSyncBytes_cases { m with currentByte := b }
    · have hset : m.mouseBytes.setIfInBounds m.byteIndex.toNat b =
          m.mouseBytes.set m.byteIndex.toNat b hm := by
        apply Vector.toList_inj.mp
        rw [Vector.toList_setIfInBounds, Vector.toList_set]
      rw [h]
      split
      · exact ⟨hzero, .inr ⟨b, rfl, hset⟩⟩
      · rename_i hn
        have hpush : (m.byteIndex + 1).toNat = m.byteIndex.toNat + 1 := by
          rw [UInt8.toNat_add, UInt8.toNat_one]
          omega
        have hne : (m.byteIndex + 1).toNat ≠ 3 := fun he => hn (UInt8.toNat_inj.mp he)
        refine ⟨?_, .inr ⟨b, rfl, hset⟩⟩
        change (m.byteIndex + 1).toNat < 3
        omega
    · rw [h]
      split
      · exact ⟨hzero, .inl rfl⟩
      · exact ⟨hm, .inl rfl⟩

theorem receive_index (hm : m.byteIndex.toNat < 3) (inputs : List KbcInput) :
    (receive interrupt m inputs).1.byteIndex.toNat < 3 := by
  induction inputs generalizing m with
  | nil => exact hm
  | cons input inputs ih => exact ih (mouseIntH_index hm input).1

end Index

/-- Streams of reports are decoded as they were sent, and with read errors anywhere the bytes
of a packet are stored inside their array. -/
theorem packets_decoded (m : Driver) (hm : m.byteIndex = 0) :
    (∀ (reports : List (List UInt8 × Report)) (inputs : List KbcInput),
      (∀ x ∈ reports, ∀ b ∈ x.1, b &&& firstByte = 0) →
      List.Forall₂ Delivers inputs (reports.flatMap fun x => x.1 ++ x.2.encode) →
        answers interrupt m inputs =
          reports.flatMap fun x => x.1.map (fun _ => none) ++ [none, none, some x.2.packet]) ∧
    ∀ inputs : List KbcInput, ∃ hi : (receive interrupt m inputs).1.byteIndex.toNat < 3,
      ∀ input, (mouseIntH input (receive interrupt m inputs).1).1.mouseBytes =
          (receive interrupt m inputs).1.mouseBytes ∨
        ∃ b, readKBCOutput input true = some b ∧
          (mouseIntH input (receive interrupt m inputs).1).1.mouseBytes =
            (receive interrupt m inputs).1.mouseBytes.set
              (receive interrupt m inputs).1.byteIndex.toNat b hi := by
  refine ⟨fun reports inputs hnoise hinputs => ?_, fun inputs => ?_⟩
  · rw [answers_delivers hinputs]
    exact accept_timed.stream hm reports hnoise
  · have hi : (receive interrupt m inputs).1.byteIndex.toNat < 3 :=
      receive_index (by rw [hm]; decide) inputs
    exact ⟨hi, fun input => (mouseIntH_index hi input).2⟩

theorem largest_range : (-256 : Int) ≤ 255 ∧ (255 : Int) ≤ 255 := by decide

def drag : Report := ⟨true, false, false, false, false, -256, 255, by decide, largest_range⟩

/-- The low byte of its first movement looks like a first byte. -/
def scroll : Report := ⟨false, false, true, true, false, 8, -1, by decide, by decide⟩

def dragAndScroll : List (List UInt8 × Report) := [([0x00, 0x07], drag), ([], scroll)]

theorem packets_decoded_two :
    answers interrupt {} ((dragAndScroll.flatMap sent).map fun b =>
      ⟨fun _ => some (fullOutBuffer ||| mouseBit), some b⟩) =
        [none, none, none, none, some drag.packet, none, none, some scroll.packet] :=
  (packets_decoded {} rfl).1 dragAndScroll _ (by decide +kernel)
    (delivered (dragAndScroll.flatMap sent))

end WriteWise.Mouse
