import WriteWise.Library.Framing
import WriteWise.Library.LittleEndian

namespace WriteWise.Serial

open Library

abbrev infoAck : UInt8 := 0xF0
abbrev infoULong : UInt8 := 0xF2
abbrev infoLong : UInt8 := 0xF3
abbrev infoUInt : UInt8 := 0xF4
abbrev infoInt : UInt8 := 0xF5
abbrev infoFloat : UInt8 := 0xF6
abbrev infoDouble : UInt8 := 0xF7
abbrev infoReady : UInt8 := 0xF8
abbrev infoNReady : UInt8 := 0xF9
abbrev infoReadyAck : UInt8 := 0xFA
abbrev infoNReadyAck : UInt8 := 0xFB
abbrev infoWon : UInt8 := 0xFC
abbrev infoExit : UInt8 := 0xFD

abbrev lsrDataReady : UInt8 := 0x01
abbrev lsrOverrunError : UInt8 := 0x02
abbrev lsrParityError : UInt8 := 0x04
abbrev lsrFramingError : UInt8 := 0x08
abbrev lsrThrEmpty : UInt8 := 0x20
abbrev iirNoInterruptPending : UInt8 := 0x01
abbrev iirInterruptPendingInfo : UInt8 := 0x0E
abbrev iirReceivedDataAvailable : UInt8 := 0x04
abbrev fcrClear : UInt8 := 0x07
abbrev maxAttemptsUart : Nat := 10

def IsTypeTag (b : UInt8) : Prop :=
  b = infoULong ∨ b = infoUInt ∨ b = infoFloat ∨ b = infoLong ∨ b = infoInt ∨ b = infoDouble

instance (b : UInt8) : Decidable (IsTypeTag b) := by
  unfold IsTypeTag
  infer_instance

/-- What one peer tells the other: a value behind its type tag, or one control
byte. Floating point values are kept as their raw bits. -/
inductive Message
  | ulong (value : UInt64)
  | long (value : Int64)
  | uint (value : UInt32)
  | int (value : Int32)
  | float (bits : UInt32)
  | double (bits : UInt64)
  | control (byte : UInt8)
  deriving DecidableEq, Repr

/-- A control byte that the receiver takes for a type tag is not a message. -/
def Message.Valid : Message → Prop
  | .control b => ¬ IsTypeTag b
  | _ => True

structure Decoder where
  receivingSerialPort : UInt8 := infoAck
  indexSerialPort : Nat := 0
  bitsSerialPort : Vector UInt8 8 := Vector.replicate 8 0
  serialPortByte : UInt8 := 0
  deriving DecidableEq

/-- What the UART answers during one serial interrupt: the registers IIR, LSR
and RBR, each `none` when the kernel call that reads it fails. -/
structure UartInput where
  iir : Option UInt8
  lsr : Option UInt8
  rbr : Option UInt8

/-- The second component is the C return value, `true` for 1. -/
def serialPortReadByte (input : UartInput) (d : Decoder) : Decoder × Bool :=
  match input.lsr with
  | none => (d, true)
  | some status =>
    if status &&& lsrOverrunError ≠ 0 then (d, true)
    else if status &&& lsrParityError ≠ 0 then (d, true)
    else if status &&& lsrFramingError ≠ 0 then (d, true)
    else if status &&& lsrDataReady = 0 then (d, true)
    else match input.rbr with
      | none => (d, true)
      | some rbr => ({ d with serialPortByte := rbr }, false)

/-- Here, unlike in the other functions of the driver, 1 means that a byte was read. -/
def serialPortIh (input : UartInput) (d : Decoder) : Decoder × Bool :=
  match input.iir with
  | none => (d, true)
  | some iir =>
    if iir &&& iirNoInterruptPending ≠ 0 then (d, false)
    else if iir &&& iirInterruptPendingInfo ≠ iirReceivedDataAvailable then (d, false)
    else
      let r := serialPortReadByte input d
      if IsTypeTag r.1.serialPortByte then
        ({ r.1 with receivingSerialPort := r.1.serialPortByte }, false)
      else (r.1, !r.2)

/-- The common body of the `serialPortRead…` functions for a value of the given
width: the value, when its last byte has come. -/
def serialPortReadValue (width : Nat) (input : UartInput) (d : Decoder) : Decoder × Option Nat :=
  match serialPortReadByte input d with
  | (d, true) => (d, none)
  | (d, false) =>
    let bits := d.bitsSerialPort.setIfInBounds d.indexSerialPort d.serialPortByte
    let index := d.indexSerialPort + 1
    if index < width then ({ d with bitsSerialPort := bits, indexSerialPort := index }, none)
    else
      ({ d with bitsSerialPort := bits, receivingSerialPort := infoAck, indexSerialPort := 0 },
        some (LittleEndian.decode (bits.toList.take width)))

def serialPortReadULong (input : UartInput) (d : Decoder) : Decoder × Option UInt64 :=
  (serialPortReadValue 8 input d).map id (Option.map UInt64.ofNat)

def serialPortReadLong (input : UartInput) (d : Decoder) : Decoder × Option Int64 :=
  (serialPortReadValue 8 input d).map id (Option.map fun n => (UInt64.ofNat n).toInt64)

def serialPortReadUInt (input : UartInput) (d : Decoder) : Decoder × Option UInt32 :=
  (serialPortReadValue 4 input d).map id (Option.map UInt32.ofNat)

def serialPortReadInt (input : UartInput) (d : Decoder) : Decoder × Option Int32 :=
  (serialPortReadValue 4 input d).map id (Option.map fun n => (UInt32.ofNat n).toInt32)

def serialPortReadFloat (input : UartInput) (d : Decoder) : Decoder × Option UInt32 :=
  (serialPortReadValue 4 input d).map id (Option.map UInt32.ofNat)

def serialPortReadDouble (input : UartInput) (d : Decoder) : Decoder × Option UInt64 :=
  (serialPortReadValue 8 input d).map id (Option.map UInt64.ofNat)

/-- The switch of the serial port branch of `proj_main_loop`: which reader runs,
and the message that the branch goes on to handle, if it has one now. -/
def serialSwitch (input : UartInput) (d : Decoder) : Decoder × Option Message :=
  if d.receivingSerialPort = infoULong then
    (serialPortReadULong input d).map id (Option.map .ulong)
  else if d.receivingSerialPort = infoLong then
    (serialPortReadLong input d).map id (Option.map .long)
  else if d.receivingSerialPort = infoUInt then
    (serialPortReadUInt input d).map id (Option.map .uint)
  else if d.receivingSerialPort = infoInt then
    (serialPortReadInt input d).map id (Option.map .int)
  else if d.receivingSerialPort = infoFloat then
    (serialPortReadFloat input d).map id (Option.map .float)
  else if d.receivingSerialPort = infoDouble then
    (serialPortReadDouble input d).map id (Option.map .double)
  else match serialPortIh input d with
    | (d, true) => (d, some (.control d.serialPortByte))
    | (d, false) => (d, none)

/-- A write to a register of the UART. -/
inductive PortWrite
  | thr (byte : UInt8)
  | fcr (byte : UInt8)
  deriving DecidableEq, Repr

def thrBytes (out : List PortWrite) : List UInt8 :=
  out.filterMap fun
    | .thr b => some b
    | .fcr _ => none

/-- The serial port of one machine. `answers` holds what the kernel calls of the
sending functions will return, `none` for a failure; past its end they succeed
and find the transmitter empty. `out` holds the register writes that succeeded. -/
structure Port where
  decoder : Decoder := {}
  waitingAckSerialPort : Bool := false
  waitingAckStartTime : Nat := 0
  answers : List (Option UInt8) := []
  out : List PortWrite := []
  deriving DecidableEq

def Port.kernelCall (p : Port) : Option UInt8 × Port :=
  match p.answers with
  | [] => (some lsrThrEmpty, p)
  | a :: as => (a, { p with answers := as })

def Port.write (p : Port) (w : PortWrite) : Port := { p with out := p.out ++ [w] }

def sendAttempts : Nat → UInt8 → Port → Port × Bool
  | 0, _, p => (p, true)
  | attempts + 1, byte, p =>
    match p.kernelCall with
    | (none, p) => (p, true)
    | (some status, p) =>
      if status &&& lsrThrEmpty ≠ 0 then
        match p.kernelCall with
        | (none, p) => (p, true)
        | (some _, p) => (p.write (.thr byte), false)
      else sendAttempts attempts byte p

def serialPortSendByte (byte : UInt8) (p : Port) : Port × Bool :=
  sendAttempts maxAttemptsUart byte p

def serialPortSendBytes : List UInt8 → Port → Port × Bool
  | [], p => (p, false)
  | b :: bs, p =>
    match serialPortSendByte b p with
    | (p, true) => (p, true)
    | (p, false) => serialPortSendBytes bs p

/-- The common body of the `serialPortSend…` functions for values: the type tag,
the bytes in memory order, and then the wait for an acknowledgement. -/
def serialPortSendValue (tag : UInt8) (width n now : Nat) (p : Port) : Port × Bool :=
  match serialPortSendBytes (tag :: LittleEndian.encode width n) p with
  | (p, true) => (p, true)
  | (p, false) => ({ p with waitingAckStartTime := now, waitingAckSerialPort := true }, false)

def serialPortSendULong (value : UInt64) (now : Nat) (p : Port) : Port × Bool :=
  serialPortSendValue infoULong 8 value.toNat now p

def serialPortSendLong (value : Int64) (now : Nat) (p : Port) : Port × Bool :=
  serialPortSendValue infoLong 8 value.toUInt64.toNat now p

def serialPortSendUInt (value : UInt32) (now : Nat) (p : Port) : Port × Bool :=
  serialPortSendValue infoUInt 4 value.toNat now p

def serialPortSendInt (value : Int32) (now : Nat) (p : Port) : Port × Bool :=
  serialPortSendValue infoInt 4 value.toUInt32.toNat now p

def serialPortSendFloat (bits : UInt32) (now : Nat) (p : Port) : Port × Bool :=
  serialPortSendValue infoFloat 4 bits.toNat now p

def serialPortSendDouble (bits : UInt64) (now : Nat) (p : Port) : Port × Bool :=
  serialPortSendValue infoDouble 8 bits.toNat now p

def serialPortClearFIFO (p : Port) : Port × Bool :=
  match p.kernelCall with
  | (none, p) => (p, true)
  | (some _, p) => (p.write (.fcr fcrClear), false)

def serialPortSendAck (p : Port) : Port × Bool :=
  serialPortSendByte infoAck (serialPortClearFIFO p).1

def serialPortSendReady (p : Port) : Port × Bool :=
  serialPortSendByte infoReady { p with waitingAckSerialPort := true }

def serialPortSendNReady (p : Port) : Port × Bool :=
  serialPortSendByte infoNReady { p with waitingAckSerialPort := true }

def serialPortSendReadyAck (p : Port) : Port × Bool :=
  serialPortSendByte infoReadyAck (serialPortClearFIFO p).1

def serialPortSendNReadyAck (p : Port) : Port × Bool :=
  serialPortSendByte infoNReadyAck (serialPortClearFIFO p).1

def serialPortSendWon (p : Port) : Port × Bool := serialPortSendByte infoWon p

def serialPortSendExit (p : Port) : Port × Bool := serialPortSendByte infoExit p

@[simp] theorem thrBytes_append (xs ys : List PortWrite) :
    thrBytes (xs ++ ys) = thrBytes xs ++ thrBytes ys := List.filterMap_append

@[simp] theorem thrBytes_map_thr (bs : List UInt8) : thrBytes (bs.map .thr) = bs := by
  induction bs with
  | nil => rfl
  | cons b bs ih => exact congrArg (b :: ·) ih

def Port.writes (p : Port) (ws : List PortWrite) : Port := { p with out := p.out ++ ws }

theorem writes_writes (p : Port) (xs ys : List PortWrite) :
    (p.writes xs).writes ys = p.writes (xs ++ ys) := by
  simp only [Port.writes, List.append_assoc]

theorem sendByte_reliable {p : Port} (h : p.answers = []) (b : UInt8) :
    serialPortSendByte b p = (p.writes [.thr b], false) := by
  simp +decide only [serialPortSendByte, sendAttempts, Port.kernelCall, h, if_true, Port.write,
    Port.writes]

theorem sendBytes_reliable {p : Port} (h : p.answers = []) (bs : List UInt8) :
    serialPortSendBytes bs p = (p.writes (bs.map .thr), false) := by
  induction bs generalizing p with
  | nil => simp [serialPortSendBytes, Port.writes]
  | cons b bs ih =>
    have hp : (p.writes [.thr b]).answers = [] := h
    rw [serialPortSendBytes, sendByte_reliable h]
    simp only [ih hp, writes_writes, List.map_cons, List.singleton_append]

theorem sendValue_reliable {p : Port} (h : p.answers = []) (tag : UInt8) (width n now : Nat) :
    serialPortSendValue tag width n now p =
      ({ p.writes ((tag :: LittleEndian.encode width n).map .thr) with
          waitingAckStartTime := now, waitingAckSerialPort := true }, false) := by
  simp only [serialPortSendValue, sendBytes_reliable h]

theorem clearFIFO_reliable {p : Port} (h : p.answers = []) :
    serialPortClearFIFO p = (p.writes [.fcr fcrClear], false) := by
  simp only [serialPortClearFIFO, Port.kernelCall, h, Port.write, Port.writes]

theorem clear_sendByte_reliable {p : Port} (h : p.answers = []) (b : UInt8) :
    serialPortSendByte b (serialPortClearFIFO p).1 =
      (p.writes [.fcr fcrClear, .thr b], false) := by
  have hp : (p.writes [.fcr fcrClear]).answers = [] := h
  rw [clearFIFO_reliable h, sendByte_reliable hp, writes_writes, List.singleton_append]

end WriteWise.Serial
