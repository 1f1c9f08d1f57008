import WriteWise.Display

namespace WriteWise.Rtc

open Library.Decimal Library.Loops Display

/-- What the registers of the clock give in one update, `none` where a kernel call fails. -/
abbrev Registers := UInt8 → Option UInt8

structure Clock where
  isRtcBinary : Bool := false
  rtcInfo : RtcInfo := {}
  deriving DecidableEq

section Code

abbrev rtcSeconds : UInt8 := 0
abbrev rtcMinutes : UInt8 := 2
abbrev rtcHours : UInt8 := 4
abbrev rtcDay : UInt8 := 7
abbrev rtcMonth : UInt8 := 8
abbrev rtcYear : UInt8 := 9
abbrev rtcRegisterA : UInt8 := 10
abbrev rtcRegisterB : UInt8 := 11
abbrev rtcDM : UInt8 := 0x04
abbrev rtcUIP : UInt8 := 0x80

/-- The registers of the date and time in the order in which they are read. -/
def rtcFields : List (UInt8 × (UInt8 → RtcInfo → RtcInfo)) :=
  [(rtcSeconds, fun x r => { r with second := x }), (rtcMinutes, fun x r => { r with minute := x }),
    (rtcHours, fun x r => { r with hour := x }), (rtcDay, fun x r => { r with day := x }),
    (rtcMonth, fun x r => { r with month := x }), (rtcYear, fun x r => { r with year := x })]

def bcdToBinary (bcd : UInt8) : UInt8 := (bcd &&& 0xF : UInt8) + (bcd >>> 4 : UInt8) * 10

variable (rtcIN : Registers)

/-- A clock that cannot be read counts as updating. -/
def rtcIsUpdating : Bool :=
  match rtcIN rtcRegisterA with
  | none => true
  | some updating => updating &&& rtcUIP ≠ 0

def readField (field : UInt8 × (UInt8 → RtcInfo → RtcInfo)) (clock : Clock) : Result Clock :=
  match rtcIN field.1 with
  | none => some (clock, true)
  | some output =>
    let value := if clock.isRtcBinary then output else bcdToBinary output
    some ({ clock with rtcInfo := field.2 value clock.rtcInfo }, false)

def rtcUpdate (clock : Clock) : Result Clock :=
  if rtcIsUpdating rtcIN then some (clock, true) else each (readField rtcIN) rtcFields clock

def rtcInit (clock : Clock) : Result Clock :=
  match rtcIN rtcRegisterB with
  | none => some (clock, true)
  | some regB => rtcUpdate rtcIN { clock with isRtcBinary := regB &&& rtcDM ≠ 0 }

end Code

section Reading

variable (rtcIN : Registers) (clock : Clock)

theorem readFields_ends (fields : List (UInt8 × (UInt8 → RtcInfo → RtcInfo))) :
    ∃ next failed, each (readField rtcIN) fields clock = some (next, failed) ∧
      (failed = false ↔ ∀ field ∈ fields, (rtcIN field.1).isSome = true) := by
  induction fields generalizing clock with
  | nil => exact ⟨clock, false, rfl, by simp⟩
  | cons field fields ih =>
    rw [each_cons, readField]
    cases h : rtcIN field.1 with
    | none => exact ⟨clock, true, rfl, by simp [h]⟩
    | some output =>
      obtain ⟨next, failed, hrest, hiff⟩ := ih _
      exact ⟨next, failed, hrest, by simp [hiff, h]⟩

/-- An update may end early, but it always ends. -/
theorem rtcUpdate_ends : ∃ next failed, rtcUpdate rtcIN clock = some (next, failed) ∧
    (failed = false ↔ rtcIsUpdating rtcIN = false ∧
      ∀ field ∈ rtcFields, (rtcIN field.1).isSome = true) := by
  unfold rtcUpdate
  cases hidle : rtcIsUpdating rtcIN with
  | true => exact ⟨clock, true, rfl, by simp⟩
  | false =>
    obtain ⟨next, failed, hread, hiff⟩ := readFields_ends rtcIN clock rtcFields
    exact ⟨next, failed, hread, hiff.trans (by simp)⟩

theorem rtcInit_ends : ∃ next failed, rtcInit rtcIN clock = some (next, failed) ∧
    (failed = false ↔ (rtcIN rtcRegisterB).isSome = true ∧ rtcIsUpdating rtcIN = false ∧
      ∀ field ∈ rtcFields, (rtcIN field.1).isSome = true) := by
  unfold rtcInit
  cases rtcIN rtcRegisterB with
  | none => exact ⟨clock, true, rfl, by simp⟩
  | some regB =>
    obtain ⟨next, failed, hupdate, hiff⟩ :=
      rtcUpdate_ends rtcIN { clock with isRtcBinary := regB &&& rtcDM ≠ 0 }
    exact ⟨next, failed, hupdate, hiff.trans (by simp)⟩

end Reading

section Time

def encode (isBinary : Bool) (value : UInt8) : UInt8 :=
  if isBinary then value else (value / 10) <<< 4 ||| value % 10

structure TwoDigits (time : RtcInfo) : Prop where
  second : time.second < 100
  minute : time.minute < 100
  hour : time.hour < 100
  day : time.day < 100
  month : time.month < 100
  year : time.year < 100

structure Reports (isBinary : Bool) (time : RtcInfo) (rtcIN : Registers) : Prop where
  second : rtcIN rtcSeconds = some (encode isBinary time.second)
  minute : rtcIN rtcMinutes = some (encode isBinary time.minute)
  hour : rtcIN rtcHours = some (encode isBinary time.hour)
  day : rtcIN rtcDay = some (encode isBinary time.day)
  month : rtcIN rtcMonth = some (encode isBinary time.month)
  year : rtcIN rtcYear = some (encode isBinary time.year)

theorem bcd_round_trip : ∀ n < 100,
    bcdToBinary (encode false (UInt8.ofNat n)) = UInt8.ofNat n := by decide

theorem decode_encode (isBinary : Bool) {value : UInt8} (h : value < 100) :
    (if isBinary then encode isBinary value else bcdToBinary (encode isBinary value)) = value := by
  cases isBinary with
  | true => rfl
  | false =>
    have hvalue := bcd_round_trip value.toNat h
    rwa [UInt8.ofNat_toNat] at hvalue

variable {rtcIN : Registers} {isBinary : Bool} {time : RtcInfo}

theorem rtcUpdate_reports (h : Reports isBinary time rtcIN) (ht : TwoDigits time)
    (hidle : rtcIsUpdating rtcIN = false) (old : RtcInfo) :
    rtcUpdate rtcIN ⟨isBinary, old⟩ = some (⟨isBinary, time⟩, false) := by
  have hfield : ∀ {reg value : UInt8} {set : UInt8 → RtcInfo → RtcInfo} {rtcInfo : RtcInfo}
      {fields : List (UInt8 × (UInt8 → RtcInfo → RtcInfo))},
      rtcIN reg = some (encode isBinary value) → value < 100 →
        each (readField rtcIN) ((reg, set) :: fields) ⟨isBinary, rtcInfo⟩ =
          each (readField rtcIN) fields ⟨isBinary, set value rtcInfo⟩ := by
    intro reg value set rtcInfo fields hreg hvalue
    rw [each_cons, readField]
    simp only [hreg]
    rw [decode_encode _ hvalue, proceed_done]
  rw [rtcUpdate, if_neg (by rw [hidle]; decide), rtcFields]
  apply (hfield h.second ht.second).trans
  apply (hfield h.minute ht.minute).trans
  apply (hfield h.hour ht.hour).trans
  apply (hfield h.day ht.day).trans
  apply (hfield h.month ht.month).trans
  exact hfield h.year ht.year

def digitsAt (str : List UInt8) (i : Nat) : UInt8 :=
  (str.getD i 0 - 48) * 10 + (str.getD (i + 1) 0 - 48)

def readTime (str : List UInt8) : RtcInfo where
  hour := digitsAt str 0
  minute := digitsAt str 3
  second := digitsAt str 6
  day := digitsAt str 9
  month := digitsAt str 12
  year := digitsAt str 17

theorem padded_two : ∀ n < 100, padded 2 n = [digitChar (n / 10), digitChar (n % 10)] ∧
    (digitChar (n / 10) - 48) * 10 + (digitChar (n % 10) - 48) = UInt8.ofNat n := by decide

theorem readTime_realTime (h : TwoDigits time) : readTime (realTime time) = time := by
  have hpadded : ∀ value : UInt8, value < 100 →
      padded 2 value.toNat = [digitChar (value.toNat / 10), digitChar (value.toNat % 10)] ∧
        (digitChar (value.toNat / 10) - 48) * 10 + (digitChar (value.toNat % 10) - 48) = value := by
    intro value hvalue
    have hdigits := padded_two value.toNat hvalue
    rwa [UInt8.ofNat_toNat] at hdigits
  obtain ⟨second, minute, hour, day, month, year⟩ := time
  obtain ⟨hs, hs'⟩ := hpadded second h.second
  obtain ⟨hm, hm'⟩ := hpadded minute h.minute
  obtain ⟨hh, hh'⟩ := hpadded hour h.hour
  obtain ⟨hd, hd'⟩ := hpadded day h.day
  obtain ⟨hmo, hmo'⟩ := hpadded month h.month
  obtain ⟨hy, hy'⟩ := hpadded year h.year
  have hcolon : bytes ":" = [58] := rfl
  have hspace : bytes " " = [32] := rfl
  have hslash : bytes "/" = [47] := rfl
  have hcentury : bytes "/20" = [47, 50, 48] := rfl
  simp only [realTime, hs, hm, hh, hd, hmo, hy, hcolon, hspace, hslash, hcentury, readTime,
    digitsAt, List.cons_append, List.nil_append, List.getD_cons_zero, List.getD_cons_succ]
  rw [hs', hm', hh', hd', hmo', hy']

end Time

end WriteWise.Rtc
