import WriteWise.Library.Duplex
import WriteWise.Program
import WriteWise.SerialStream

namespace WriteWise.RaceLink

open Library.Duplex Library.Framing Scancode Serial SerialStream Typing Program

/-- Two programs on the race screen, and the bytes on their way in each direction. -/
abbrev Race := Link App (List UInt8)

/-- What happens to one program while its player stays on the race screen. -/
inductive Act
  | ready (now : UInt64)
  | timer
  | key (keyboard : Keyboard)
  | receive

/-- Run a function of the near program. What it transmits enters its outgoing channel. -/
def react (f : App → Option App) (n : Race) : Option Race :=
  (f n.near).map fun app =>
    { n with
      near := { app with port := { app.port with out := [] } }
      out := n.out ++ thrBytes app.port.out }

def act (random : UInt32 → Nat → Nat) (n : Race) : Act → Option Race
  | .ready now => react (fun app => some (app.raceReadyButton now)) n
  | .timer => react (fun app => some app.timerInterrupt) n
  | .key keyboard =>
    react (fun app => App.typingInputHandler true { app with keyboard := keyboard }) n
  | .receive =>
    match n.inn with
    | [] => none
    | b :: bs => react (App.serialInterrupt random (fresh b)) { n with inn := bs }

def messages (app : App) (bytes : List UInt8) : List Message :=
  (receive accept app.port.decoder bytes).2

def Coming (app : App) (bytes : List UInt8) (byte : UInt8) : Prop :=
  .control byte ∈ messages app bytes

instance (app : App) (bytes : List UInt8) (byte : UInt8) : Decidable (Coming app bytes byte) := by
  unfold Coming
  infer_instance

def seeds (app : App) (bytes : List UInt8) : List UInt64 :=
  (messages app bytes).filterMap fun
    | .ulong seed => some seed
    | _ => none

/-- A program that has just come to the race screen, when nothing was left behind
before. Its past output and past texts are not recorded. -/
structure Fresh (app : App) : Prop where
  screen : app.currAppState = .raceState
  typingInfo : app.typingInfo = {}
  racingInfo : app.racingInfo = {}
  waitingForSeed : app.waitingForSeed = false
  waitingAck : app.port.waitingAckSerialPort = false
  decoder : Idle app.port.decoder
  answers : app.port.answers = []
  out : app.port.out = []
  generated : app.generated = []

structure Start (n : Race) : Prop where
  near : Fresh n.near
  far : Fresh n.far
  out : n.out = []
  inn : n.inn = []

def noRandom : UInt32 → Nat → Nat := fun _ _ => 0

def duel (dictionary : List Word) : Race :=
  ⟨{ currAppState := .raceState, dictionary := dictionary },
    { currAppState := .raceState, dictionary := dictionary }, [], []⟩

theorem start_duel (dictionary : List Word) : Start (duel dictionary) :=
  have hfresh : Fresh { currAppState := .raceState, dictionary := dictionary } :=
    ⟨rfl, rfl, rfl, rfl, rfl, ⟨rfl, rfl⟩, rfl, rfl, rfl⟩
  ⟨hfresh, hfresh, rfl, rfl⟩

def oneWord : List Word := [⟨[97], letter_noZero⟩]

def outcome (random : UInt32 → Nat → Nat) (dictionary : List Word) (es : List (Side × Act)) :
    Race :=
  (Library.Runs.run (step (act random)) (duel dictionary) es).getD (duel dictionary)

def reads (side : Side) (k : Nat) : List (Side × Act) := List.replicate k (side, .receive)

def plainRun : List (Side × Act) :=
  [(.left, .ready 5), (.right, .ready 7)] ++ reads .right 10 ++ reads .left 12 ++ reads .right 2

end WriteWise.RaceLink
