import WriteWise.Handshake
import WriteWise.RaceLink
import WriteWise.RunInvariant

namespace WriteWise.HandshakeRefinement

open Library.Duplex Library.Framing Scancode Serial SerialStream Typing TypingSession Program
  RunInvariant RaceLink Handshake

def noteMessages : Note → List Message
  | .bid seed => [.control infoReady, .ulong seed]
  | .nready => [.control infoNReady]
  | .readyAck => [.control infoReadyAck]
  | .nreadyAck => [.control infoNReadyAck]
  | .ack => [.control infoAck]
  | .won => [.control infoWon]

def laneMessages (l : Lane) : List Message :=
  (l.pending.map Message.ulong).toList ++ l.notes.flatMap noteMessages

def noteBytes (notes : List Note) : List UInt8 := (notes.flatMap noteMessages).flatMap encode

def textSeed (seeds : UInt64 × UInt64) : UInt32 := (seeds.1 + seeds.2).toUInt32

theorem noteMessages_valid (n : Note) : ∀ m ∈ noteMessages n, m.Valid := by
  have hc {b : UInt8} (hb : ¬ IsTypeTag b) : ∀ m ∈ [Message.control b], m.Valid := by
    intro m hm
    obtain rfl := List.mem_singleton.mp hm
    exact hb
  cases n with
  | bid seed =>
    intro m hm
    obtain rfl | hm := List.mem_cons.mp hm
    · exact (by decide : ¬ IsTypeTag infoReady)
    · obtain rfl := List.mem_singleton.mp hm
      trivial
  | nready => exact hc (by decide)
  | readyAck => exact hc (by decide)
  | nreadyAck => exact hc (by decide)
  | ack => exact hc (by decide)
  | won => exact hc (by decide)

variable {random : UInt32 → Nat → Nat}

/-- A program on the race screen, as the player of the abstract protocol. -/
structure Shows (random : UInt32 → Nat → Nat) (app : App) (r : Racer) : Prop where
  screen : app.currAppState = .raceState
  answers : app.port.answers = []
  status : app.typingInfo.status = r.status
  readyMe : app.racingInfo.readyMe = r.readyMe
  readyYou : app.racingInfo.readyYou = r.readyYou
  seedMe : app.racingInfo.seedMe = r.seedMe
  seedYou : app.racingInfo.seedYou = r.seedYou
  waiting : app.port.waitingAckSerialPort = r.waiting
  generated : app.generated.getLast? = r.text.map textSeed
  texts : app.generated.length = r.texts
  written : ∀ seed, app.generated.getLast? = some seed →
    ∃ t, Typing.generateText app.dictionary random 25 seed = some t ∧
      app.typingInfo.generatedText = t.generatedText
  valid : Valid app.typingInfo

/-- A program waits for a seed when it has read the `READY` of the bid in time. -/
def Expects (app : App) (r : Racer) (pending : Option UInt64) : Prop :=
  app.waitingForSeed = (pending.isSome && decide (r.status = .unready))

/-- The bytes on their way to a program are those of the notes in the lane. -/
structure Carries (app : App) (bytes : List UInt8) (l : Lane) : Prop where
  idle : Idle (receive accept app.port.decoder bytes).1
  messages : messages app bytes = laneMessages l

/-- The programs and the bytes between them, as a state of the abstract protocol. -/
structure Refines (random : UInt32 → Nat → Nat) (n : Race) (g : Game) : Prop where
  near : Shows random n.near g.near
  far : Shows random n.far g.far
  nearExpects : Expects n.near g.near g.inn.pending
  farExpects : Expects n.far g.far g.out.pending
  inn : Carries n.near n.inn g.inn
  out : Carries n.far n.out g.out
  flushed : n.near.port.out = [] ∧ n.far.port.out = []

theorem Refines.swap {n : Race} {g : Game} (h : Refines random n g) :
    Refines random n.swap g.swap :=
  ⟨h.far, h.near, h.farExpects, h.nearExpects, h.out, h.inn, h.flushed.symm⟩

theorem shows_fresh {app : App} (h : Fresh app) : Shows random app {} where
  screen := h.screen
  answers := h.answers
  status := by rw [h.typingInfo]
  readyMe := by rw [h.racingInfo]
  readyYou := by rw [h.racingInfo]
  seedMe := by rw [h.racingInfo]
  seedYou := by rw [h.racingInfo]
  waiting := h.waitingAck
  generated := by rw [h.generated]; rfl
  texts := by rw [h.generated]; rfl
  written := by
    rw [h.generated]
    exact nofun
  valid := by
    rw [h.typingInfo]
    exact .reset

theorem refines_start {n : Race} (h : Start n) : Refines random n ⟨{}, {}, {}, {}⟩ where
  near := shows_fresh h.near
  far := shows_fresh h.far
  nearExpects := h.near.waitingForSeed
  farExpects := h.far.waitingForSeed
  inn := by
    rw [h.inn]
    exact ⟨h.near.decoder, rfl⟩
  out := by
    rw [h.out]
    exact ⟨h.far.decoder, rfl⟩
  flushed := ⟨h.near.out, h.far.out⟩

theorem Carries.add {app : App} {bytes : List UInt8} {l : Lane} (h : Carries app bytes l)
    (notes : List Note) : Carries app (bytes ++ noteBytes notes) (l.add notes) := by
  have hvalid : ∀ m ∈ notes.flatMap noteMessages, m.Valid := by
    intro m hm
    obtain ⟨n, -, hn⟩ := List.mem_flatMap.mp hm
    exact noteMessages_valid n m hn
  obtain ⟨hi, hm⟩ := encode_framed.stream h.idle _ hvalid
  have happ := receive_append accept app.port.decoder bytes (noteBytes notes)
  refine ⟨?_, ?_⟩
  · rw [happ]
    exact hi
  · have hl := h.messages
    unfold RaceLink.messages at hl ⊢
    rw [happ, noteBytes, hl, hm]
    simp only [laneMessages, Lane.add, List.flatMap_append, List.append_assoc]

/-- The next byte either belongs to the message that comes next, or completes it. -/
theorem Carries.byte {app : App} {b : UInt8} {bytes : List UInt8} {l : Lane}
    (h : Carries app (b :: bytes) l) {app' : App}
    (hd : app'.port.decoder = (accept app.port.decoder b).1) :
    (accept app.port.decoder b).2 = none ∧ Carries app' bytes l ∨
      ∃ m rest, (accept app.port.decoder b).2 = some m ∧ laneMessages l = m :: rest ∧
        ∀ l', laneMessages l' = rest → Carries app' bytes l' := by
  have hi := h.idle
  have hm := h.messages
  simp only [RaceLink.messages, receive] at hi hm
  cases hb : (accept app.port.decoder b).2 with
  | none =>
    rw [hb] at hm
    refine .inl ⟨rfl, ?_, ?_⟩
    · rw [hd]
      exact hi
    · rw [RaceLink.messages, hd]
      exact hm
  | some m =>
    rw [hb] at hm
    refine .inr ⟨m, _, rfl, hm.symm, fun l' hl' => ⟨?_, ?_⟩⟩
    · rw [hd]
      exact hi
    · rw [RaceLink.messages, hd]
      exact hl'.symm

/-- A function of the program that does what the player does with a note or a press. -/
structure Answers (random : UInt32 → Nat → Nat) (app app' : App) (r : Racer × List Note)
    (pending : Option UInt64) : Prop where
  shows : Shows random app' r.1
  expects : Expects app' r.1 pending
  sent : thrBytes app'.port.out = noteBytes r.2
  decoder : app'.port.decoder = app.port.decoder

section Functions

variable {app app' : App} {r : Racer}

theorem shows_check (h : Shows random app r) (hc : app.checkIfReady random = some app') :
    Shows random app' r.check ∧ app'.port = app.port ∧
      app'.waitingForSeed = app.waitingForSeed := by
  have hiff : app.racingInfo.BothReady ↔ r.BothReady := by
    rw [RacingInfo.BothReady, Racer.BothReady, h.readyMe, h.readyYou, h.seedMe, h.seedYou]
  unfold App.checkIfReady at hc
  unfold Racer.check
  by_cases hb : r.BothReady
  · rw [if_pos (hiff.mpr hb), h.seedMe, h.seedYou] at hc
    rw [if_pos hb]
    obtain ⟨u, hu, rfl⟩ := Option.map_eq_some_iff.mp hc
    obtain ⟨t, ht, rfl⟩ := Option.map_eq_some_iff.mp hu
    refine ⟨{ h with
      status := (generateText_session ht).1
      generated := ?_
      texts := ?_
      written := ?_
      valid := .generate ht }, rfl, rfl⟩
    · rw [List.getLast?_append, List.getLast?_singleton]
      rfl
    · rw [List.length_append, h.texts]
      rfl
    · intro seed hseed
      rw [List.getLast?_append, List.getLast?_singleton, Option.some_or, Option.some.injEq] at hseed
      exact ⟨t, hseed ▸ ht, rfl⟩
  · rw [if_neg fun hx => hb (hiff.mp hx)] at hc
    rw [if_neg hb]
    cases hc
    exact ⟨h, rfl, rfl⟩

theorem noteBytes_control (b : UInt8) (n : Note) (h : noteMessages n = [.control b]) :
    noteBytes [n] = [b] := by
  simp only [noteBytes, List.flatMap_cons, List.flatMap_nil, List.append_nil, h, encode]

theorem answers_press (h : Shows random app r) (hout : app.port.out = [])
    {pending : Option UInt64} (he : Expects app r pending) (hs : r.status = .unready)
    (now : UInt64) :
    Answers random app (app.raceReadyButton now) (r.press now) pending := by
  have h1 : ({ app.port with waitingAckSerialPort := true } : Port).answers = [] := h.answers
  unfold App.raceReadyButton Racer.press
  rw [if_pos (h.status.trans hs), h.readyMe]
  by_cases hr : r.readyMe = true
  · rw [if_pos hr, if_pos hr]
    simp only [App.call, serialPortSendNReady, sendByte_reliable h1, Port.writes]
    refine ⟨{ h with waiting := rfl }, he, ?_, rfl⟩
    rw [hout]
    exact (noteBytes_control infoNReady .nready rfl).symm
  · have h2 : ({ app.port with
        waitingAckSerialPort := true
        out := app.port.out ++ [.thr infoReady] } : Port).answers = [] := h.answers
    rw [if_neg hr, if_neg hr]
    simp only [App.call, serialPortSendReady, sendByte_reliable h1, serialPortSendULong,
      sendValue_reliable h2, Port.writes]
    refine ⟨{ h with waiting := rfl, seedMe := rfl }, he, ?_, rfl⟩
    simp only [hout, noteBytes, noteMessages, encode, List.flatMap_cons, List.flatMap_nil,
      List.append_nil, List.nil_append, List.cons_append]
    rfl

theorem handleAck_other (h : Shows random app r) (hout : app.port.out = [])
    {byte : UInt8} (h1 : byte ≠ infoReadyAck) (h2 : byte ≠ infoNReadyAck)
    (hc : app.handleAck random byte = some app') :
    Shows random app' { r with waiting := false } ∧ thrBytes app'.port.out = [] ∧
      app'.port.decoder = app.port.decoder ∧ app'.waitingForSeed = app.waitingForSeed := by
  obtain ⟨hw, rfl⟩ | ⟨-, u, hu, rfl⟩ := Steps.handleAck_step hc
  · exact ⟨{ h with waiting := hw }, by rw [hout]; rfl, rfl, rfl⟩
  cases hu with
  | ack => exact ⟨{ h with waiting := rfl }, by rw [hout]; rfl, rfl, rfl⟩
  | readyAck => exact absurd rfl h1
  | nreadyAck => exact absurd rfl h2
  | other =>
    simp only [App.call, clearFIFO_reliable h.answers, Port.writes]
    exact ⟨{ h with waiting := rfl }, by rw [hout]; rfl, trivial, trivial⟩

theorem handleControl_eq_handleAck {byte : UInt8}
    (hr : app.typingInfo.status = .unready → byte ≠ infoReady ∧ byte ≠ infoNReady)
    (hw : byte ≠ infoWon) (he : byte ≠ infoExit) :
    app.handleControl random byte = app.handleAck random byte := by
  rw [App.handleControl, if_neg fun hc => (hr hc.1).1 hc.2, if_neg fun hc => (hr hc.1).2 hc.2,
    handleWon_skip app hw, handleExit_skip app he]

theorem answers_other (h : Shows random app r) (hout : app.port.out = [])
    (hx : app.waitingForSeed = false) {pending : Option UInt64}
    (hp : pending = none ∨ r.status ≠ .unready) {byte : UInt8} (h1 : byte ≠ infoReadyAck)
    (h2 : byte ≠ infoNReadyAck) (hc : app.handleAck random byte = some app') :
    Answers random app app' ({ r with waiting := false }, []) pending := by
  obtain ⟨hs, ho, hd, hw⟩ := handleAck_other h hout h1 h2 hc
  refine ⟨hs, ?_, ho, hd⟩
  rw [Expects, hw, hx]
  obtain rfl | hp := hp
  · rfl
  · simp [hp]

theorem answers_readyAck (h : Shows random app r) (hout : app.port.out = [])
    (hx : app.waitingForSeed = false) (hc : app.handleAck random infoReadyAck = some app') :
    Answers random app app' (r.hear .readyAck) none := by
  unfold App.handleAck at hc
  unfold Racer.hear
  rw [h.waiting] at hc
  by_cases hw : r.waiting = true
  · simp only [if_pos hw] at hc ⊢
    rw [if_neg (by decide)] at hc
    obtain ⟨u, hu, rfl⟩ := Option.map_eq_some_iff.mp hc
    have hr : Shows random { app with racingInfo := { app.racingInfo with readyMe := true } }
        { r with readyMe := true } := { h with readyMe := rfl }
    obtain ⟨hs, hp, hwait⟩ := shows_check hr hu
    have hd : u.port.decoder = app.port.decoder := congrArg Port.decoder hp
    refine ⟨{ hs with waiting := rfl }, hwait.trans hx, ?_, hd⟩
    change thrBytes u.port.out = _
    rw [hp, hout]
    rfl
  · simp only [if_neg hw] at hc ⊢
    cases hc
    exact ⟨h, hx, by rw [hout]; rfl, rfl⟩

theorem answers_nreadyAck (h : Shows random app r) (hout : app.port.out = [])
    (hx : app.waitingForSeed = false) (hc : app.handleAck random infoNReadyAck = some app') :
    Answers random app app' (r.hear .nreadyAck) none := by
  unfold App.handleAck at hc
  unfold Racer.hear
  rw [h.waiting] at hc
  by_cases hw : r.waiting = true
  · simp only [if_pos hw] at hc ⊢
    rw [if_neg (by decide), if_neg (by decide)] at hc
    cases hc
    exact ⟨{ h with waiting := rfl, readyMe := rfl, seedMe := rfl }, hx, by rw [hout]; rfl, rfl⟩
  · simp only [if_neg hw] at hc ⊢
    cases hc
    exact ⟨h, hx, by rw [hout]; rfl, rfl⟩

theorem answers_ready (h : Shows random app r) (hout : app.port.out = [])
    (hs : r.status = .unready) (seed : UInt64)
    (hc : app.handleControl random infoReady = some app') :
    Answers random app app' (r.hear (.bid seed)) (some seed) := by
  rw [App.handleControl, if_pos ⟨h.status.trans hs, rfl⟩] at hc
  cases hc
  simp only [Racer.hear, if_pos hs, App.call, serialPortSendReadyAck,
    clear_sendByte_reliable h.answers, Port.writes]
  refine ⟨{ h with readyYou := rfl }, ?_, ?_, rfl⟩
  · simp [Expects, hs]
  · rw [hout]
    exact (noteBytes_control infoReadyAck .readyAck rfl).symm

theorem answers_nready (h : Shows random app r) (hout : app.port.out = [])
    (hx : app.waitingForSeed = false) (hs : r.status = .unready)
    (hc : app.handleControl random infoNReady = some app') :
    Answers random app app' (r.hear .nready) none := by
  rw [App.handleControl, if_neg (fun hc => absurd hc.2 (by decide)),
    if_pos ⟨h.status.trans hs, rfl⟩] at hc
  cases hc
  simp only [Racer.hear, if_pos hs, App.call, serialPortSendNReadyAck,
    clear_sendByte_reliable h.answers, Port.writes]
  refine ⟨{ h with readyYou := rfl }, hx, ?_, rfl⟩
  rw [hout]
  exact (noteBytes_control infoNReadyAck .nreadyAck rfl).symm

theorem answers_won (h : Shows random app r) (hout : app.port.out = [])
    (hx : app.waitingForSeed = false) (hc : app.handleControl random infoWon = some app') :
    Answers random app app' (r.hear .won) none := by
  rw [App.handleControl, if_neg fun hc => absurd hc.2 (by decide),
    if_neg fun hc => absurd hc.2 (by decide), handleExit_skip _ (by decide)] at hc
  have hw : Shows random (app.handleWon infoWon)
      { r with status := if r.status = .typing then .finished else r.status } := by
    unfold App.handleWon
    rw [h.status]
    by_cases hs : r.status = .typing
    · rw [if_pos ⟨hs, rfl⟩, if_pos hs]
      exact { h with
        status := rfl
        valid := h.valid.endTyping (by rw [h.status, hs]; decide) _ }
    · rw [if_neg fun hc => hs hc.1, if_neg hs]
      exact h
  have hport := handleWon_port app infoWon
  have hseed : (app.handleWon infoWon).waitingForSeed = app.waitingForSeed := by
    unfold App.handleWon
    split
    · rfl
    · rfl
  have ha := answers_other hw (by rw [hport, hout]) (hseed.trans hx) (.inl rfl) (by decide)
    (by decide) hc
  exact ⟨ha.shows, ha.expects, ha.sent, ha.decoder.trans (congrArg Port.decoder hport)⟩

theorem answers_hear (h : Shows random app r) (hout : app.port.out = [])
    (he : Expects app r none) (note : Note) {m : Message} {rest : List Message}
    (hm : noteMessages note = m :: rest) (hc : app.handleMessage random m = some app') :
    Answers random app app' (r.hear note) note.seed := by
  have hx : app.waitingForSeed = false := he
  have hstatus : r.status ≠ .unready → app.typingInfo.status ≠ .unready := by
    rw [h.status]
    exact id
  cases note with
  | bid seed =>
    obtain ⟨rfl, -⟩ := List.cons.inj hm
    by_cases hs : r.status = .unready
    · exact answers_ready h hout hs seed hc
    · rw [App.handleMessage, handleControl_eq_handleAck (fun hc => absurd hc (hstatus hs))
        (by decide) (by decide)] at hc
      simp only [Racer.hear, if_neg hs]
      exact answers_other h hout hx (.inr hs) (by decide) (by decide) hc
  | nready =>
    obtain ⟨rfl, -⟩ := List.cons.inj hm
    by_cases hs : r.status = .unready
    · exact answers_nready h hout hx hs hc
    · rw [App.handleMessage, handleControl_eq_handleAck (fun hc => absurd hc (hstatus hs))
        (by decide) (by decide)] at hc
      simp only [Racer.hear, if_neg hs]
      exact answers_other h hout hx (.inr hs) (by decide) (by decide) hc
  | readyAck =>
    obtain ⟨rfl, -⟩ := List.cons.inj hm
    rw [App.handleMessage, handleControl_eq_handleAck (fun _ => ⟨by decide, by decide⟩)
      (by decide) (by decide)] at hc
    exact answers_readyAck h hout hx hc
  | nreadyAck =>
    obtain ⟨rfl, -⟩ := List.cons.inj hm
    rw [App.handleMessage, handleControl_eq_handleAck (fun _ => ⟨by decide, by decide⟩)
      (by decide) (by decide)] at hc
    exact answers_nreadyAck h hout hx hc
  | ack =>
    obtain ⟨rfl, -⟩ := List.cons.inj hm
    rw [App.handleMessage, handleControl_eq_handleAck (fun _ => ⟨by decide, by decide⟩)
      (by decide) (by decide)] at hc
    exact answers_other h hout hx (.inl rfl) (by decide) (by decide) hc
  | won =>
    obtain ⟨rfl, -⟩ := List.cons.inj hm
    exact answers_won h hout hx hc

theorem answers_hearSeed (h : Shows random app r) (hout : app.port.out = []) {seed : UInt64}
    (he : Expects app r (some seed)) (hc : app.handleMessage random (.ulong seed) = some app') :
    Answers random app app' (r.hearSeed seed) none := by
  obtain ⟨u, hu, rfl⟩ := Option.map_eq_some_iff.mp hc
  have hu' : Shows random u (r.hearSeed seed).1 ∧ u.port = app.port ∧ u.waitingForSeed = false := by
    unfold Racer.hearSeed
    by_cases hs : r.status = .unready
    · have hw : app.waitingForSeed = true := by
        rw [he]
        simp [hs]
      rw [if_pos hw] at hu
      rw [if_pos hs]
      obtain ⟨v, hv, rfl⟩ := Option.map_eq_some_iff.mp hu
      have hr : Shows random { app with racingInfo := { app.racingInfo with seedYou := seed } }
          { r with seedYou := seed } := { h with seedYou := rfl }
      obtain ⟨hs', hp, -⟩ := shows_check hr hv
      exact ⟨{ hs' with }, hp, rfl⟩
    · have hw : app.waitingForSeed = false := by
        rw [he]
        simp [hs]
      rw [hw, if_neg (by decide)] at hu
      rw [if_neg hs]
      cases hu
      exact ⟨h, rfl, hw⟩
  obtain ⟨hs, hp, hw⟩ := hu'
  have ha : u.port.answers = [] := by rw [hp, h.answers]
  have hd : u.port.decoder = app.port.decoder := congrArg Port.decoder hp
  simp only [App.call, serialPortSendAck, clear_sendByte_reliable ha, Port.writes]
  refine ⟨{ hs with }, hw, ?_, hd⟩
  rw [hp, hout]
  exact (noteBytes_control infoAck .ack rfl).symm

/-- The timer may start the test, and may do nothing else that the protocol knows of. -/
theorem shows_timerInterrupt (h : Shows random app r) (hout : app.port.out = []) :
    (Shows random app.timerInterrupt r ∨ r.status = .ready ∧
        Shows random app.timerInterrupt { r with status := .typing }) ∧
      thrBytes app.timerInterrupt.port.out = [] ∧
      app.timerInterrupt.port.decoder = app.port.decoder ∧
      app.timerInterrupt.waitingForSeed = app.waitingForSeed := by
  have hhalf {a : App} (ha : Shows random a r) : Shows random a.halfSecond r := by
    unfold App.halfSecond
    split
    · refine { ha with
        status := (status_update _ _).trans ha.status
        written := ?_
        valid := ha.valid.update _ }
      intro seed hseed
      obtain ⟨t, ht, hg⟩ := ha.written seed hseed
      refine ⟨t, ht, Eq.trans ?_ hg⟩
      unfold App.updateTypingInfo updateTypingInfo
      split
      · rfl
      · rfl
    · exact ha
  have hcount {a : App} (ha : Shows random a r) : Shows random a.countdown r ∨
      r.status = .ready ∧ Shows random a.countdown { r with status := .typing } := by
    unfold App.countdown
    split
    · rename_i hs
      simp only
      split
      · exact .inr ⟨ha.status.symm.trans hs, { ha with
          status := rfl
          valid := ha.valid.start hs _ }⟩
      · exact .inl ha
    · exact .inl ha
  have hclock : Shows random { app with timerCounter := app.timerCounter + 1 } r := { h with }
  have htick : app.tick =
      (App.halfSecond { app with timerCounter := app.timerCounter + 1 }).countdown := by
    simp only [App.tick, h.screen]
    rfl
  have h2 := hcount (hhalf hclock)
  rw [← htick] at h2
  unfold App.timerInterrupt
  simp only
  split
  · have ha : app.tick.port.answers = [] := by rw [tick_port, h.answers]
    have hd : app.tick.port.decoder = app.port.decoder := by rw [tick_port]
    simp only [App.call, clearFIFO_reliable ha, Port.writes]
    refine ⟨h2.imp (fun h2 => { h2 with }) fun h2 => ⟨h2.1, { h2.2 with }⟩, ?_, hd,
      tick_waitingForSeed app⟩
    rw [tick_port, hout]
    rfl
  · refine ⟨h2, ?_, ?_, tick_waitingForSeed app⟩
    · rw [tick_port, hout]
      rfl
    · rw [tick_port]

theorem shows_key (h : Shows random app r) (hout : app.port.out = []) (keyboard : Keyboard)
    (hc : App.typingInputHandler true { app with keyboard := keyboard } = some app') :
    (Shows random app' r ∧ thrBytes app'.port.out = [] ∨ r.status = .typing ∧
        Shows random app' { r with status := .finished } ∧
          thrBytes app'.port.out = noteBytes [.won]) ∧
      app'.port.decoder = app.port.decoder ∧ app'.waitingForSeed = app.waitingForSeed := by
  have hkey : Shows random { app with keyboard := keyboard } r := { h with }
  by_cases hs : app.typingInfo.status = .typing
  · obtain ⟨g, s, m, hsess⟩ := h.valid.session (by rw [hs]; decide)
    obtain ⟨u, s', m', hu, hst, hacc, -, hr⟩ :=
      handler_typing { app with keyboard := keyboard } hs hsess true
    have hgen : u.generatedText = app.typingInfo.generatedText :=
      hu.generated.trans hsess.generated.symm
    have huv : Valid u := by
      refine ⟨fun hc => ?_, fun _ => ⟨g, s', m', hu⟩, hacc ▸ h.valid.acc⟩
      rw [hst] at hc
      cases hc
    obtain ⟨hr, -⟩ | ⟨hr, -⟩ := hr
    · cases hr.symm.trans hc
      refine ⟨.inl ⟨{ hkey with
        status := hst.trans (hs.symm.trans h.status)
        written := fun seed hseed => ?_
        valid := huv }, by rw [hout]; rfl⟩, rfl, rfl⟩
      obtain ⟨t, ht, hg⟩ := h.written seed hseed
      exact ⟨t, ht, hgen.trans hg⟩
    · cases hr.symm.trans hc
      simp only [finish, if_true, App.endRace, App.endTyping, App.call, serialPortSendWon,
        sendByte_reliable h.answers, Port.writes]
      refine ⟨.inr ⟨h.status.symm.trans hs, { hkey with
        status := rfl
        written := fun seed hseed => ?_
        valid := huv.endTyping (by rw [hst]; decide) _ }, ?_⟩, trivial, trivial⟩
      · obtain ⟨t, ht, hg⟩ := h.written seed hseed
        exact ⟨t, ht, hgen.trans hg⟩
      · rw [hout]
        exact (noteBytes_control infoWon .won rfl).symm
  · have hi : App.typingInputHandler true { app with keyboard := keyboard } = some _ :=
      handler_idle hs (.inl rfl)
    cases hi.symm.trans hc
    exact ⟨.inl ⟨hkey, by rw [hout]; rfl⟩, rfl, rfl⟩

end Functions

section Steps

variable {n n' : Race} {g : Game}

theorem Carries.congr {app app' : App} {bytes : List UInt8} {l : Lane} (h : Carries app bytes l)
    (hd : app'.port.decoder = app.port.decoder) : Carries app' bytes l := by
  refine ⟨?_, ?_⟩
  · rw [hd]
    exact h.idle
  · rw [RaceLink.messages, hd]
    exact h.messages

theorem noteMessages_cons {note : Note} {m : Message} {rest : List Message}
    (h : noteMessages note = m :: rest) : rest = (note.seed.map Message.ulong).toList := by
  cases note <;> exact (List.cons.inj h).2.symm

theorem refines_react {f : App → Option App} (h : Refines random n g) {bytes : List UInt8}
    (hn : react f { n with inn := bytes } = some n') {app' : App} (hf : f n.near = some app')
    {r : Racer × List Note} {l : Lane} (ha : Shows random app' r.1)
    (he : Expects app' r.1 l.pending) (hs : thrBytes app'.port.out = noteBytes r.2)
    (hl : Carries app' bytes l) :
    Refines random n' { g with near := r.1, inn := l, out := g.out.add r.2 } := by
  simp only [react, hf] at hn
  cases hn
  refine ⟨{ ha with }, h.far, he, h.farExpects, hl.congr rfl, ?_, ⟨rfl, h.flushed.2⟩⟩
  change Carries n.far (n.out ++ thrBytes app'.port.out) (g.out.add r.2)
  rw [hs]
  exact h.out.add _

theorem Refines.answer {f : App → Option App} (h : Refines random n g)
    (hn : RaceLink.react f n = some n') {app' : App} (hf : f n.near = some app')
    {r : Racer × List Note} (ha : Answers random n.near app' r g.inn.pending) :
    Refines random n' { g with near := r.1, out := g.out.add r.2 } :=
  refines_react h hn hf ha.shows ha.expects ha.sent (h.inn.congr ha.decoder)

theorem serialInterrupt_silent (random : UInt32 → Nat → Nat) {app : App} {b : UInt8}
    (hrace : app.currAppState = .raceState) (h : (accept app.port.decoder b).2 = none) :
    app.serialInterrupt random (fresh b) =
      some { app with port := { app.port with decoder := (accept app.port.decoder b).1 } } := by
  rw [accept] at h
  rw [App.serialInterrupt, if_neg (fun hc => hc hrace)]
  simp only [h]
  rfl

theorem serialInterrupt_message (random : UInt32 → Nat → Nat) {app : App} {b : UInt8}
    (hrace : app.currAppState = .raceState) {m : Message}
    (h : (accept app.port.decoder b).2 = some m) :
    app.serialInterrupt random (fresh b) =
      App.handleMessage random m
        { app with port := { app.port with decoder := (accept app.port.decoder b).1 } } := by
  rw [accept] at h
  rw [App.serialInterrupt, if_neg (fun hc => hc hrace)]
  simp only [h]
  rfl

theorem Refines.receive (h : Refines random n g) (hn : act random n .receive = some n') :
    ∃ g', Move g g' ∧ Refines random n' g' := by
  simp only [RaceLink.act] at hn
  cases hb : n.inn with
  | nil =>
    rw [hb] at hn
    cases hn
  | cons b bs =>
    rw [hb] at hn
    simp only at hn
    -- the byte is off its channel, and the decoder has gone on
    have hinn := h.inn
    rw [hb] at hinn
    let near' : App := { n.near with
      port := { n.near.port with decoder := (accept n.near.port.decoder b).1 } }
    have hnear : Shows random near' g.near := { h.near with }
    have hsilent : thrBytes near'.port.out = noteBytes [] := by
      change thrBytes n.near.port.out = _
      rw [h.flushed.1]
      rfl
    rcases hinn.byte (show near'.port.decoder = _ from rfl) with
      ⟨hnone, hcarry⟩ | ⟨m, rest, hm, hlane, hcarry⟩
    · have hstep := serialInterrupt_silent random h.near.screen hnone
      have hg := refines_react h hn hstep (r := (g.near, [])) hnear h.nearExpects hsilent hcarry
      rw [add_nil] at hg
      exact ⟨g, .idle, hg⟩
    · have hstep := serialInterrupt_message random h.near.screen hm
      obtain ⟨app', hf, -⟩ := Option.map_eq_some_iff.mp hn
      have hf' := hf
      rw [hstep] at hf'
      unfold laneMessages at hlane
      cases hp : g.inn.pending with
      | some seed =>
        rw [hp] at hlane
        obtain ⟨rfl, hrest⟩ := List.cons.inj hlane
        have he : Expects near' g.near (some seed) := hp ▸ h.nearExpects
        have ha := answers_hearSeed hnear h.flushed.1 he hf'
        refine ⟨_, .hear _ (by rw [hear, hp]), ?_⟩
        exact refines_react h hn hf ha.shows ha.expects ha.sent
          ((hcarry { pending := none, notes := g.inn.notes } hrest).congr ha.decoder)
      | none =>
        cases hnotes : g.inn.notes with
        | nil =>
          rw [hp, hnotes] at hlane
          cases hlane
        | cons note notes =>
          rw [hp, hnotes] at hlane
          obtain ⟨mrest, hmess⟩ : ∃ mrest, noteMessages note = m :: mrest := by
            cases note <;> exact ⟨_, congrArg (· :: _) (List.cons.inj hlane).1⟩
          rw [List.flatMap_cons, hmess] at hlane
          have hrest : mrest ++ notes.flatMap noteMessages = rest := (List.cons.inj hlane).2
          rw [noteMessages_cons hmess] at hrest
          have he : Expects near' g.near none := hp ▸ h.nearExpects
          have ha := answers_hear hnear h.flushed.1 he note hmess hf'
          refine ⟨_, .hear _ (by rw [hear, hp, hnotes]), ?_⟩
          exact refines_react h hn hf ha.shows ha.expects ha.sent
            ((hcarry { pending := note.seed, notes := notes } hrest).congr ha.decoder)

theorem Refines.press (h : Refines random n g) {now : UInt64} (hs : g.near.status = .unready)
    (hn : RaceLink.act random n (.ready now) = some n') :
    Refines random n' (Handshake.press now g) :=
  h.answer (f := fun app => some (app.raceReadyButton now)) hn rfl
    (answers_press h.near h.flushed.1 h.nearExpects hs now)

/-- Whatever else happens to a program is a move of its player. -/
theorem Refines.act (h : Refines random n g) {a : Act} (hn : act random n a = some n') :
    (∃ now, a = .ready now ∧ g.near.status = .unready ∧
      Refines random n' (Handshake.press now g)) ∨
      ∃ g', Move g g' ∧ Refines random n' g' := by
  cases a with
  | ready now =>
    simp only [RaceLink.act] at hn
    by_cases hs : g.near.status = .unready
    · exact .inl ⟨now, rfl, hs, h.press hs hn⟩
    · have hr : n.near.raceReadyButton now = n.near := by
        rw [App.raceReadyButton, if_neg (by rwa [h.near.status])]
      refine .inr ⟨g, .idle, ?_⟩
      have ha : Answers random n.near (n.near.raceReadyButton now) (g.near, []) g.inn.pending := by
        rw [hr]
        exact ⟨h.near, h.nearExpects, by rw [h.flushed.1]; rfl, rfl⟩
      have hg := h.answer hn rfl ha
      rwa [add_nil] at hg
  | timer =>
    simp only [RaceLink.act] at hn
    obtain ⟨hs, ho, hd, hw⟩ := shows_timerInterrupt h.near h.flushed.1
    obtain hs | ⟨hready, hs⟩ := hs
    · have hg := h.answer hn rfl (r := (g.near, [])) ⟨hs, hw.trans h.nearExpects, ho, hd⟩
      rw [add_nil] at hg
      exact .inr ⟨g, .idle, hg⟩
    · refine .inr ⟨_, .start hready, ?_⟩
      have he : Expects n.near.timerInterrupt { g.near with status := .typing } g.inn.pending := by
        have hx := h.nearExpects
        rw [Expects, hready] at hx
        rw [Expects, hw, hx]
        simp
      have hg := h.answer hn rfl (r := ({ g.near with status := .typing }, [])) ⟨hs, he, ho, hd⟩
      rwa [add_nil] at hg
  | key keyboard =>
    simp only [RaceLink.act] at hn
    obtain ⟨app', hf, -⟩ := Option.map_eq_some_iff.mp hn
    obtain ⟨hs, hd, hw⟩ := shows_key h.near h.flushed.1 keyboard hf
    obtain ⟨hs, ho⟩ | ⟨htyping, hs, ho⟩ := hs
    · have hg := h.answer hn hf (r := (g.near, [])) ⟨hs, hw.trans h.nearExpects, ho, hd⟩
      rw [add_nil] at hg
      exact .inr ⟨g, .idle, hg⟩
    · refine .inr ⟨_, .win htyping, ?_⟩
      have he : Expects app' { g.near with status := .finished } g.inn.pending := by
        have hx := h.nearExpects
        rw [Expects, htyping] at hx
        rw [Expects, hw, hx]
        simp
      exact h.answer hn hf (r := ({ g.near with status := .finished }, [.won])) ⟨hs, he, ho, hd⟩
  | receive => exact .inr (h.receive hn)

end Steps

section Runs

variable {n n' : Race} {g : Game}

/-- A property of the abstract protocol that its moves and presses keep holds of
every run of the programs. -/
theorem invariant {P : Race → Act → Prop} {I : Game → Prop} (hswap : ∀ g, I g → I g.swap)
    (hmove : ∀ n a g g', Refines random n g → P n a → I g → Move g g' → I g')
    (hpress : ∀ n now g, Refines random n g → P n (.ready now) → I g → g.near.status = .unready →
      I (press now g)) (hstart : I ⟨{}, {}, {}, {}⟩) (hn : Start n) {es : List (Side × Act)}
    (hg : Library.Runs.Guarded (step (RaceLink.act random)) (Seen P) n es)
    (hr : Library.Runs.run (step (RaceLink.act random)) n es = some n') :
    ∃ g, Refines random n' g ∧ I g := by
  apply Library.Duplex.invariant (I := fun n => ∃ g, Refines random n g ∧ I g) _ _
    ⟨_, refines_start hn, hstart⟩ hg hr
  · rintro n ⟨g, hg, hi⟩
    exact ⟨g.swap, hg.swap, hswap g hi⟩
  · rintro n a n' ⟨g, hg, hi⟩ hp ha
    obtain ⟨now, rfl, hs, hg'⟩ | ⟨g', hm, hg'⟩ := hg.act ha
    · exact ⟨_, hg', hpress n now g hg hp hi hs⟩
    · exact ⟨g', hg', hmove n a g g' hg hp hi hm⟩

def noteCode : Note → UInt8
  | .bid _ => infoReady
  | .nready => infoNReady
  | .readyAck => infoReadyAck
  | .nreadyAck => infoNReadyAck
  | .ack => infoAck
  | .won => infoWon

theorem control_mem_noteMessages {byte : UInt8} {note : Note} :
    .control byte ∈ noteMessages note ↔ byte = noteCode note := by
  cases note <;> simp [noteMessages, noteCode]

theorem coming_iff {app : App} {bytes : List UInt8} {l : Lane} (h : Carries app bytes l)
    {byte : UInt8} : Coming app bytes byte ↔ ∃ note ∈ l.notes, byte = noteCode note := by
  unfold Coming
  rw [h.messages, laneMessages, List.mem_append, List.mem_flatMap]
  simp only [control_mem_noteMessages]
  refine or_iff_right fun hm => ?_
  cases hp : l.pending <;> simp [hp] at hm

theorem eq_of_noteCode {note note' : Note} (hn : note.seed = none)
    (h : noteCode note' = noteCode note) : note' = note := by
  cases note <;> cases note' <;>
    simp_all [noteCode, Note.seed, infoReady, infoNReady, infoReadyAck, infoNReadyAck, infoAck,
      infoWon]

theorem noteCode_eq_infoReady {note : Note} : infoReady = noteCode note ↔ note.seed ≠ none := by
  cases note <;>
    simp [noteCode, Note.seed, infoReady, infoNReady, infoReadyAck, infoNReadyAck, infoAck, infoWon]

theorem coming_note {app : App} {bytes : List UInt8} {l : Lane} (h : Carries app bytes l)
    {note : Note} (hn : note.seed = none) : Coming app bytes (noteCode note) ↔ note ∈ l.notes := by
  rw [coming_iff h]
  constructor
  · rintro ⟨note', hmem, hcode⟩
    rwa [← eq_of_noteCode hn hcode.symm]
  · exact fun hmem => ⟨note, hmem, rfl⟩

theorem coming_ready {app : App} {bytes : List UInt8} {l : Lane} (h : Carries app bytes l) :
    Coming app bytes infoReady ↔ l.bids ≠ [] := by
  rw [coming_iff h, Lane.bids, Ne, List.filterMap_eq_nil_iff]
  simp only [noteCode_eq_infoReady, not_forall, exists_prop]

theorem seeds_eq {app : App} {bytes : List UInt8} {l : Lane} (h : Carries app bytes l) :
    seeds app bytes = l.seeds := by
  obtain ⟨pending, notes⟩ := l
  rw [RaceLink.seeds, h.messages, laneMessages, List.filterMap_append]
  clear h
  refine congrArg₂ (· ++ ·) ?_ ?_
  · cases pending <;> rfl
  · rw [Lane.bids]
    induction notes with
    | nil => rfl
    | cons note notes ih =>
      rw [List.flatMap_cons, List.filterMap_append, ih]
      cases note <;> rfl

theorem lane_of_nil {app : App} {l : Lane} (h : Carries app [] l) : l = {} := by
  obtain ⟨pending, notes⟩ := l
  have hm : laneMessages ⟨pending, notes⟩ = [] := h.messages.symm
  obtain ⟨hp, hn⟩ := List.append_eq_nil_iff.mp hm
  cases pending with
  | some v => cases hp
  | none =>
    cases notes with
    | nil => rfl
    | cons note notes => cases note <;> cases hn

end Runs

end WriteWise.HandshakeRefinement
