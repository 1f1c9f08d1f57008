import WriteWise.Library.Ledger
import WriteWise.Rtc

namespace WriteWise.Policies

open Library.Ledger Library.Loops Library.Runs Typing Program Video Rtc

inductive Device
  | timer
  | keyboard
  | mouse
  | serialPort
  | rtc
  deriving DecidableEq, Repr

def timerFreq : Nat := 1193182

/-- What the platform answers: whether the policy of a device is installed and removed, whether
IER and the timer are read and written, the registers of the real time clock, the calls of the
mode, and whether the first screen can be drawn and the dictionary opened. -/
structure Platform where
  irqSetPolicy : Device → Bool := fun _ => true
  irqRmPolicy : Device → Bool := fun _ => true
  ierRead : Bool := true
  ierWrite : Bool := true
  timerGetConf : Bool := true
  timerCtrl : Bool := true
  timerLSB : Bool := true
  timerMSB : Bool := true
  rtcIN : Registers := fun _ => some 0
  video : Video.Platform := {}
  loadScreen : Bool := true
  loadDictionary : Bool := true

/-- The program with its drivers, and the calls for policies so far. -/
structure Machine where
  app : App := {}
  video : VideoState := {}
  clock : Clock := {}
  frameRate : Nat := 60
  policies : List (Entry Device) := []

section Drivers

variable (p : Platform)

def subscribe (d : Device) (s : Machine) : Result Machine :=
  some ({ s with policies := s.policies ++ [.acquire d (p.irqSetPolicy d)] }, !p.irqSetPolicy d)

def unsubscribe (d : Device) (s : Machine) : Result Machine :=
  some ({ s with policies := s.policies ++ [.release d (p.irqRmPolicy d)] }, !p.irqRmPolicy d)

def timerSubscribeInterrupt : Machine → Result Machine := subscribe p .timer

def keyboardSubscribeInt : Machine → Result Machine := subscribe p .keyboard

def mouseSubscribeInt : Machine → Result Machine := subscribe p .mouse

def serialPortSubscribeInt : Machine → Result Machine := subscribe p .serialPort

def rtcSubscribeInt : Machine → Result Machine := subscribe p .rtc

def timerUnsubscribeInt : Machine → Result Machine := unsubscribe p .timer

def keyboardUnsubscribeInt : Machine → Result Machine := unsubscribe p .keyboard

def mouseUnsubscribeInt : Machine → Result Machine := unsubscribe p .mouse

def serialPortUnsubscribeInt : Machine → Result Machine := unsubscribe p .serialPort

def rtcUnsubscribeInt : Machine → Result Machine := unsubscribe p .rtc

def serialPortInit (s : Machine) : Result Machine :=
  if p.ierRead then some (s, !p.ierWrite) else some (s, true)

def initClock (s : Machine) : Result Machine :=
  (rtcInit p.rtcIN s.clock).map fun r => ({ s with clock := r.1 }, r.2)

def initAllDrivers (s : Machine) : Result Machine :=
  proceed (timerSubscribeInterrupt p s) fun s =>
  proceed (keyboardSubscribeInt p s) fun s =>
  proceed (mouseSubscribeInt p s) fun s =>
  proceed (serialPortInit p s) fun s =>
  proceed (serialPortSubscribeInt p s) fun s =>
  proceed (initClock p s) fun s =>
  rtcSubscribeInt p s

def exitAllDrivers (s : Machine) : Result Machine :=
  proceed (rtcUnsubscribeInt p s) fun s =>
  proceed (serialPortUnsubscribeInt p s) fun s =>
  proceed (mouseUnsubscribeInt p s) fun s =>
  proceed (keyboardUnsubscribeInt p s) fun s =>
  timerUnsubscribeInt p s

def timerSetFrequency (freq : Nat) (s : Machine) : Result Machine :=
  if freq < 19 ∨ timerFreq < freq then some (s, true)
  else if ¬ p.timerGetConf then some (s, true)
  else if ¬ p.timerCtrl then some (s, true)
  else if ¬ p.timerLSB then some (s, true)
  else some (s, !p.timerMSB)

def setFrameRate (fps : Nat) (s : Machine) : Result Machine :=
  if fps < 20 ∨ 60 < fps then some (s, false)
  else timerSetFrequency p fps { s with frameRate := fps }

def setVideo (vbe : MinixMode → Graphics.ModeInfo) (s : Machine) : Result Machine :=
  let r := setMinixMode vbe p.video .vbe600pDc s.video
  some ({ s with video := r.1 }, r.2)

/-- What `exitAllDrivers` returns is ignored. -/
def exitAll (code : Nat) (s : Machine) : Option (Machine × Nat) :=
  (exitAllDrivers p { s with
    app := { s.app with typingInfo := resetTypingInfo, dictionary := [] } }).map fun r =>
      (r.1, code)

end Drivers

section Main

variable (random : UInt32 → Nat → Nat) (vbe : MinixMode → Graphics.ModeInfo) (p : Platform)

/-- The main loop over the rounds that come, each with whether the screen can then be drawn. It
gives the code with which the program exits, or nothing while the program waits for a round. -/
def mainLoop (app : App) : List (Event × Bool) → Option (App × Nat)
  | [] => if app.currAppState = .endState then some (app, 0) else none
  | (e, drawn) :: rounds =>
    if app.currAppState = .endState then some (app, 0)
    else
      (step random app e).bind fun app =>
        match e, drawn with
        | .timer, false => some (app, 1)
        | _, _ => mainLoop app rounds

/-- `words` is the dictionary that is loaded. -/
def projMainLoop (words : List Word) (rounds : List (Event × Bool)) : Option (Machine × Nat) :=
  (initAllDrivers p {}).bind fun (s, failed) =>
  if failed then some (s, 1)
  else
    (setFrameRate p 60 s).bind fun (s, failed) =>
    if failed then (exitAllDrivers p s).map fun r => (r.1, 1)
    else
      (setVideo p vbe s).bind fun (s, failed) =>
      if failed then (exitAllDrivers p s).map fun r => (r.1, 1)
      else
        let s := { s with video := initUI s.video }
        if ¬ p.loadScreen then exitAll p 1 s
        else if ¬ p.loadDictionary then exitAll p 1 s
        else
          (mainLoop random (initial words) rounds).bind fun (app, code) =>
            exitAll p code { s with app := app }

end Main

/-- Every call of the start-up succeeds. -/
structure Initialized (p : Platform) : Prop where
  irqSetPolicy : ∀ d, p.irqSetPolicy d = true
  ier : p.ierRead = true ∧ p.ierWrite = true
  registerB : (p.rtcIN rtcRegisterB).isSome = true
  notUpdating : rtcIsUpdating p.rtcIN = false
  registers : ∀ field ∈ rtcFields, (p.rtcIN field.1).isSome = true

/-- The devices in the order in which they are unsubscribed. -/
def shutdown : List Device := [.rtc, .serialPort, .mouse, .keyboard, .timer]

section Calls

variable {p : Platform} {s t : Machine} {failed : Bool}

theorem exitAllDrivers_eq (p : Platform) (s : Machine) :
    exitAllDrivers p s = each (unsubscribe p) shutdown s := by
  have hcons (d : Device) (devices : List Device) : each (unsubscribe p) (d :: devices) =
      fun s => proceed (unsubscribe p d s) (each (unsubscribe p) devices) := rfl
  have hlast : each (unsubscribe p) [.timer] = unsubscribe p .timer :=
    funext fun s => each_singleton (unsubscribe p) .timer s
  rw [shutdown, hcons, hcons, hcons, hcons, hlast]
  rfl

theorem each_unsubscribe (devices : List Device) (s : Machine) : ∃ t failed,
    each (unsubscribe p) devices s = some (t, failed) ∧ t.policies = s.policies ++
      (attempts p.irqRmPolicy devices).map fun d => .release d (p.irqRmPolicy d) := by
  induction devices generalizing s with
  | nil => exact ⟨s, false, rfl, (List.append_nil s.policies).symm⟩
  | cons d devices ih =>
    rw [each_cons, unsubscribe, attempts]
    cases hd : p.irqRmPolicy d with
    | false => exact ⟨_, true, rfl, by simp [hd]⟩
    | true =>
      obtain ⟨t, failed, h, ht⟩ :=
        ih { s with policies := s.policies ++ [.release d true] }
      refine ⟨t, failed, h, ht.trans ?_⟩
      simp [hd]

def subscribed : List (Entry Device) :=
  [.acquire .timer true, .acquire .keyboard true, .acquire .mouse true,
    .acquire .serialPort true, .acquire .rtc true]

/-- What a part of the start-up does to the policies: nothing, and it fails unless `ok`. -/
def Quiet (ok : Prop) (s : Machine) (r : Result Machine) : Prop :=
  ∃ t failed, r = some (t, failed) ∧ t.policies = s.policies ∧ (failed = false ↔ ok)

theorem serialPortInit_quiet (p : Platform) (s : Machine) :
    Quiet (p.ierRead = true ∧ p.ierWrite = true) s (serialPortInit p s) := by
  unfold serialPortInit
  cases hread : p.ierRead with
  | false => exact ⟨s, true, rfl, rfl, by simp⟩
  | true => exact ⟨s, !p.ierWrite, rfl, rfl, by simp⟩

theorem initClock_quiet (p : Platform) (s : Machine) :
    Quiet ((p.rtcIN rtcRegisterB).isSome = true ∧ rtcIsUpdating p.rtcIN = false ∧
      ∀ field ∈ rtcFields, (p.rtcIN field.1).isSome = true) s (initClock p s) := by
  obtain ⟨clock, failed, hinit, hok⟩ := rtcInit_ends p.rtcIN s.clock
  rw [initClock, hinit]
  exact ⟨_, failed, rfl, rfl, hok⟩

/-- The start-up goes on from this ledger to its end, or fails unless `ok`. -/
def Started (ledger : List (Entry Device)) (ok : Prop) (r : Result Machine) : Prop :=
  ∃ t failed, r = some (t, failed) ∧ (failed = false ↔ ok) ∧ ledger <+: t.policies ∧
    (∀ d done, .release d done ∉ t.policies) ∧ (failed = false → t.policies = subscribed)

theorem Quiet.started {ok ok' : Prop} {r : Result Machine} {rest : Machine → Result Machine}
    (h : Quiet ok s r) (hs : ∀ d done, .release d done ∉ s.policies)
    (hrest : ∀ t, t.policies = s.policies → Started s.policies ok' (rest t)) :
    Started s.policies (ok ∧ ok') (Library.Loops.proceed r rest) := by
  obtain ⟨t, failed, rfl, ht, hok⟩ := h
  cases failed with
  | true =>
    refine ⟨t, true, rfl, ⟨fun h => (by cases h), fun h => hok.mpr h.1⟩, ?_, ?_,
      fun h => by cases h⟩
    · rw [ht]
    · rwa [ht]
  | false =>
    obtain ⟨u, failed, hu, hok', hmore⟩ := hrest t ht
    exact ⟨u, failed, hu, hok'.trans ⟨fun h => ⟨hok.mp rfl, h⟩, And.right⟩, hmore⟩

/-- A subscription that succeeds is in the ledger, and one that fails ends the start-up. -/
theorem subscribe_started {ok : Prop} {d : Device} {rest : Machine → Result Machine}
    (hs : ∀ d done, .release d done ∉ s.policies)
    (hrest : ∀ t, t.policies = s.policies ++ [.acquire d true] → Started t.policies ok (rest t)) :
    Started s.policies (p.irqSetPolicy d = true ∧ ok) (proceed (subscribe p d s) rest) := by
  rw [subscribe]
  cases hd : p.irqSetPolicy d with
  | false =>
    refine ⟨_, true, rfl, by simp, List.prefix_append _ _, fun e done he => ?_, fun h => by cases h⟩
    obtain he | he := List.mem_append.mp he
    · exact hs e done he
    · simp at he
  | true =>
    obtain ⟨u, failed, hu, hok, hledger, hmore⟩ :=
      hrest { s with policies := s.policies ++ [.acquire d true] } rfl
    exact ⟨u, failed, hu, hok.trans ⟨fun h => ⟨rfl, h⟩, And.right⟩,
      (List.prefix_append _ _).trans hledger, hmore⟩

theorem initialized_iff (p : Platform) : Initialized p ↔
    p.irqSetPolicy .timer = true ∧ p.irqSetPolicy .keyboard = true ∧
      p.irqSetPolicy .mouse = true ∧ (p.ierRead = true ∧ p.ierWrite = true) ∧
      p.irqSetPolicy .serialPort = true ∧
      ((p.rtcIN rtcRegisterB).isSome = true ∧ rtcIsUpdating p.rtcIN = false ∧
        ∀ field ∈ rtcFields, (p.rtcIN field.1).isSome = true) ∧ p.irqSetPolicy .rtc = true := by
  refine ⟨fun h => ⟨h.irqSetPolicy _, h.irqSetPolicy _, h.irqSetPolicy _, h.ier,
    h.irqSetPolicy _, ⟨h.registerB, h.notUpdating, h.registers⟩, h.irqSetPolicy _⟩,
    fun ⟨ht, hk, hm, hier, hs, ⟨hb, hu, hr⟩, hc⟩ => ⟨fun d => ?_, hier, hb, hu, hr⟩⟩
  cases d with
  | timer => exact ht
  | keyboard => exact hk
  | mouse => exact hm
  | serialPort => exact hs
  | rtc => exact hc

theorem subscribe_last {d : Device} (hs : ∀ d done, .release d done ∉ s.policies)
    (hend : s.policies ++ [.acquire d true] = subscribed) :
    Started s.policies (p.irqSetPolicy d = true) (subscribe p d s) := by
  have h : Started s.policies (p.irqSetPolicy d = true ∧ True)
      (proceed (subscribe p d s) fun t => some (t, false)) := subscribe_started hs
    fun t ht => ⟨t, false, rfl, by simp, List.prefix_rfl, ?_, fun _ => ht.trans hend⟩
  · rwa [proceed_end, and_true] at h
  · rw [ht, hend]
    simp [subscribed]

theorem initAllDrivers_refused (h : p.irqSetPolicy .timer = false) :
    initAllDrivers p {} = some ({ policies := [.acquire .timer false] }, true) := by
  rw [initAllDrivers, timerSubscribeInterrupt, subscribe, h]
  rfl

theorem initAllDrivers_started (h : p.irqSetPolicy .timer = true) :
    Started [.acquire .timer true] (Initialized p) (initAllDrivers p {}) := by
  have hfirst : timerSubscribeInterrupt p {} =
      some ({ policies := [.acquire .timer true] }, false) := by
    rw [timerSubscribeInterrupt, subscribe, h]
    rfl
  rw [initialized_iff, initAllDrivers, hfirst, proceed_done]
  simp only [h, true_and]
  refine subscribe_started (s := { policies := [.acquire .timer true] }) (by simp)
    fun t ht => ?_
  simp only [List.singleton_append] at ht
  refine subscribe_started (by simp [ht]) fun u hu => ?_
  rw [ht] at hu
  refine (serialPortInit_quiet p u).started (by simp [hu]) fun u' hu' => ?_
  rw [← hu']
  refine subscribe_started (by simp [hu', hu]) fun v hv => ?_
  rw [hu', hu] at hv
  refine (initClock_quiet p v).started (by simp [hv]) fun v' hv' => ?_
  rw [← hv']
  refine subscribe_last (by simp [hv', hv]) ?_
  rw [hv', hv]
  rfl

theorem setFrameRate_quiet (p : Platform) (fps : Nat) (s : Machine) :
    ∃ t failed, setFrameRate p fps s = some (t, failed) ∧ t.policies = s.policies := by
  unfold setFrameRate timerSetFrequency
  split_ifs
  · exact ⟨_, _, rfl, rfl⟩
  · exact ⟨_, _, rfl, rfl⟩
  · exact ⟨_, _, rfl, rfl⟩
  · exact ⟨_, _, rfl, rfl⟩
  · exact ⟨_, _, rfl, rfl⟩
  · exact ⟨_, _, rfl, rfl⟩

def Closed (p : Platform) (before : List (Entry Device)) (s : Machine) : Prop :=
  s.policies = before ++
    (attempts p.irqRmPolicy shutdown).map fun d => .release d (p.irqRmPolicy d)

theorem exitAllDrivers_closed {code code' : Nat}
    (h : ((exitAllDrivers p s).map fun r => (r.1, code)) = some (t, code')) :
    Closed p s.policies t := by
  rw [exitAllDrivers_eq] at h
  obtain ⟨u, failed, hu, hclosed⟩ := each_unsubscribe (p := p) shutdown s
  rw [hu] at h
  cases h
  exact hclosed

theorem exitAll_closed {code code' : Nat} (h : exitAll p code s = some (t, code')) :
    Closed p s.policies t :=
  (exitAllDrivers_closed h).trans rfl

end Calls

section Main

variable {random : UInt32 → Nat → Nat} {vbe : MinixMode → Graphics.ModeInfo} {p : Platform}
  {words : List Word} {rounds : List (Event × Bool)} {s : Machine} {code : Nat}

/-- The loop takes the steps of the program, up to the end state or a frame that cannot be
drawn. -/
theorem mainLoop_run {app next : App} (h : mainLoop random app rounds = some (next, code)) :
    ∃ es, es <+: rounds.map Prod.fst ∧ run (step random) app es = some next ∧
      (code = 0 → next.currAppState = .endState) := by
  induction rounds generalizing app with
  | nil =>
    unfold mainLoop at h
    split at h
    · cases h
      exact ⟨[], List.prefix_rfl, rfl, fun _ => ‹_›⟩
    · cases h
  | cons round rounds ih =>
    unfold mainLoop at h
    split at h
    · cases h
      exact ⟨[], List.nil_prefix, rfl, fun _ => ‹_›⟩
    · obtain ⟨app', hstep, h⟩ := Option.bind_eq_some_iff.mp h
      split at h
      · cases h
        exact ⟨[_], ⟨_, rfl⟩, run_cons hstep [], nofun⟩
      · obtain ⟨es, hes, hrun, hcode⟩ := ih h
        exact ⟨_ :: es, List.cons_prefix_cons.mpr ⟨rfl, hes⟩, (run_cons hstep es).trans hrun, hcode⟩

/-- Once the drivers are initialized, every way out of the program goes through
`exitAllDrivers`. -/
theorem returns_closed {t : Machine} (hinit : initAllDrivers p {} = some (t, false))
    (h : projMainLoop random vbe p words rounds = some (s, code)) : Closed p t.policies s := by
  obtain ⟨u, failed, hrate, hu⟩ := setFrameRate_quiet p 60 t
  rw [projMainLoop, hinit, Option.bind_some] at h
  simp only [Bool.false_eq_true, if_false, hrate, Option.bind_some, setVideo] at h
  rw [← hu]
  split at h
  · exact exitAllDrivers_closed h
  split at h
  · exact (exitAllDrivers_closed h).trans rfl
  split at h
  · exact (exitAll_closed h).trans rfl
  split at h
  · exact (exitAll_closed h).trans rfl
  · obtain ⟨r, -, hexit⟩ := Option.bind_eq_some_iff.mp h
    exact (exitAll_closed hexit).trans rfl

theorem mem_dropLast_shutdown (d : Device) : d ∈ shutdown.dropLast ↔ d ≠ .timer := by
  cases d with
  | _ => decide

theorem settled_closed_iff (h : Closed p subscribed s) :
    Settled s.policies ↔ ∀ d, d ≠ .timer → p.irqRmPolicy d = true := by
  have hnodup : shutdown.Nodup := by decide
  have hmem (d : Device) : .acquire d true ∈ subscribed ∧ d ∈ shutdown := by
    cases d with
    | _ => decide
  rw [h, settled_append_iff (by simp [subscribed])]
  simp only [← mem_dropLast_shutdown, ← attempts_all hnodup]
  exact ⟨fun hall d _ => hall d (hmem d).1, fun hall d _ => hall d (hmem d).2⟩

/-- No policy is leaked exactly if the first subscription fails, or the whole start-up succeeds
and every removal but the last. -/
theorem settled_iff (h : projMainLoop random vbe p words rounds = some (s, code)) :
    Settled s.policies ↔ p.irqSetPolicy .timer = false ∨
      Initialized p ∧ ∀ d, d ≠ .timer → p.irqRmPolicy d = true := by
  cases htimer : p.irqSetPolicy .timer with
  | false =>
    rw [projMainLoop, initAllDrivers_refused htimer] at h
    cases h
    refine ⟨fun _ => .inl rfl, fun _ d hd => ?_⟩
    simp at hd
  | true =>
    obtain ⟨t, failed, hinit, hok, hledger, hrelease, hend⟩ := initAllDrivers_started htimer
    cases failed with
    | true =>
      rw [projMainLoop, hinit] at h
      cases h
      have hinitialized : ¬ Initialized p := fun hi => by cases hok.mpr hi
      have hleak : ¬ Settled s.policies :=
        not_settled (hledger.subset List.mem_cons_self) (hrelease .timer)
      simp [hinitialized, hleak]
    | false =>
      have hclosed := returns_closed hinit h
      rw [hend rfl] at hclosed
      rw [settled_closed_iff hclosed]
      simp [hok.mp rfl]

/-- The screen cannot be drawn at the first tick, and the timer cannot be unsubscribed. -/
theorem settled_undrawn : ∃ s code,
    projMainLoop (fun _ _ => 0) trueColor { irqRmPolicy := fun d => d ≠ .timer } []
      [(.timer, false)] = some (s, code) ∧ Settled s.policies := by
  obtain ⟨s, code, h⟩ : ∃ s code,
      projMainLoop (fun _ _ => 0) trueColor { irqRmPolicy := fun d => d ≠ .timer } []
        [(.timer, false)] = some (s, code) := ⟨_, _, rfl⟩
  exact ⟨s, code, h, (settled_iff h).mpr (.inr ⟨⟨fun _ => rfl, ⟨rfl, rfl⟩, rfl, rfl,
    fun _ _ => rfl⟩, fun d hd => decide_eq_true hd⟩)⟩

/-- The real time clock is updating while the program starts. -/
def updating : Platform :=
  { rtcIN := fun register => some (if register = rtcRegisterA then rtcUIP else 0) }

theorem clock_update_leaks : ∃ s,
    projMainLoop (fun _ _ => 0) trueColor updating [] [] = some (s, 1) ∧
    .acquire .keyboard true ∈ s.policies ∧ ¬ Settled s.policies := by
  obtain ⟨s, h, hpolicies⟩ : ∃ s,
      projMainLoop (fun _ _ => 0) trueColor updating [] [] = some (s, 1) ∧
        s.policies = [.acquire .timer true, .acquire .keyboard true, .acquire .mouse true,
          .acquire .serialPort true] := ⟨_, rfl, rfl⟩
  have hkeyboard : .acquire .keyboard true ∈ s.policies := by
    rw [hpolicies]
    decide
  refine ⟨s, h, hkeyboard, not_settled hkeyboard ?_⟩
  rw [hpolicies]
  decide

end Main

end WriteWise.Policies
