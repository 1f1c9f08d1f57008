import WriteWise.ReadyFlags
import WriteWise.TextAgreement

namespace WriteWise.Rematch

open Library.Duplex Library.Framing Library.Runs Serial SerialStream Typing Program RaceLink
  Handshake HandshakeRefinement
open ReadyFlags (IsReply)
open TextAgreement (Prompt SameText)

section Waiting

/-- While a player waits, a question of it is on its way or an answer to it. -/
def Asked (p : Racer) (out inn : Lane) : Prop :=
  p.waiting = true → out.pending ≠ none ∨ out.bids ≠ [] ∨ .nready ∈ out.notes ∨
    ∃ note ∈ inn.notes, IsReply note = true

variable {p q p' q' : Racer} {out inn out' inn' : Lane}

theorem Asked.add (h : Asked p out inn) (hw : p'.waiting = p.waiting) (notes : List Note)
    {more : List Note} (hn : inn'.notes = inn.notes ++ more) : Asked p' (out.add notes) inn' := by
  intro hp
  obtain h | h | h | ⟨note, hm, hr⟩ := h (hw.symm.trans hp)
  · exact .inl h
  · refine .inr (.inl fun hb => h ?_)
    rw [bids_add] at hb
    exact (List.append_eq_nil_iff.mp hb).1
  · exact .inr (.inr (.inl (List.mem_append_left _ h)))
  · exact .inr (.inr (.inr ⟨note, hn ▸ List.mem_append_left _ hm, hr⟩))

theorem not_asked (hw : p.waiting = false) : Asked p out inn := by
  intro hp
  rw [hw] at hp
  cases hp

theorem Asked.skip {note : Note} {rest : List Note} {pending : Option UInt64}
    (h : Asked p out ⟨none, note :: rest⟩) (hn : IsReply note = false)
    (hw : p'.waiting = p.waiting) : Asked p' out ⟨pending, rest⟩ := by
  intro hp
  obtain h | h | h | ⟨note', hm, hr⟩ := h (hw.symm.trans hp)
  · exact .inl h
  · exact .inr (.inl h)
  · exact .inr (.inr (.inl h))
  · obtain rfl | hm := List.mem_cons.mp hm
    · rw [hn] at hr
      cases hr
    · exact .inr (.inr (.inr ⟨note', hm, hr⟩))

theorem Asked.hears (h : Asked p out inn) (hh : Hears p out inn p' out' inn') :
    Asked p' out' inn' := by
  cases hh with
  | seed v hp hs =>
    exact h.add (check_waiting { p with seedYou := v }) _ (List.append_nil _).symm
  | lateSeed v hp hs => exact h.add rfl _ (List.append_nil _).symm
  | bid v rest hi hs =>
    subst hi
    have h' : Asked { p with readyYou := true } out ⟨some v, rest⟩ := h.skip rfl rfl
    exact h'.add rfl _ (List.append_nil _).symm
  | nready rest hi hs =>
    subst hi
    have h' : Asked { p with readyYou := false } out ⟨none, rest⟩ := h.skip rfl rfl
    exact h'.add rfl _ (List.append_nil _).symm
  | lateBid v rest hi hs => exact not_asked rfl
  | lateNReady rest hi hs => exact not_asked rfl
  | readyAck rest hi hw => exact not_asked rfl
  | lateReadyAck rest hi hw => exact not_asked hw
  | nreadyAck rest hi hw => exact not_asked rfl
  | lateNReadyAck rest hi hw => exact not_asked hw
  | ack rest hi => exact not_asked rfl
  | won rest hi status hs => exact not_asked rfl

/-- What the opponent reads of a player leaves it unanswered in one case only: the opponent
has begun when it reads that the bid is withdrawn. -/
theorem Asked.heard (h : Asked p out inn) (hn : q.status ≠ .unready → .nready ∉ out.notes)
    (hh : Hears q inn out q' inn' out') : Asked p out' inn' := by
  have htail {note : Note} {rest : List Note} (ho : out = ⟨none, note :: rest⟩)
      (hs : note.seed = none) (hne : note ≠ .nready) : Asked p ⟨none, rest⟩ inn := by
    intro hp
    subst ho
    obtain h | h | h | h := h hp
    · exact absurd rfl h
    · rw [bids_mk_cons, hs] at h
      exact .inr (.inl h)
    · exact .inr (.inr (.inl ((List.mem_cons.mp h).resolve_left hne.symm)))
    · exact .inr (.inr (.inr h))
  cases hh with
  | seed v hp hs =>
    exact fun _ => .inr (.inr (.inr ⟨.ack, List.mem_append_right _ List.mem_cons_self, rfl⟩))
  | lateSeed v hp hs =>
    exact fun _ => .inr (.inr (.inr ⟨.ack, List.mem_append_right _ List.mem_cons_self, rfl⟩))
  | bid v rest hi hs => exact fun _ => .inl nofun
  | lateBid v rest hi hs => exact fun _ => .inl nofun
  | nready rest hi hs =>
    exact fun _ => .inr (.inr (.inr ⟨.nreadyAck, List.mem_append_right _ List.mem_cons_self, rfl⟩))
  | lateNReady rest hi hs =>
    subst hi
    exact absurd List.mem_cons_self (hn hs)
  | readyAck rest hi hw => exact htail hi rfl nofun
  | lateReadyAck rest hi hw => exact htail hi rfl nofun
  | nreadyAck rest hi hw => exact htail hi rfl nofun
  | lateNReadyAck rest hi hw => exact htail hi rfl nofun
  | ack rest hi => exact htail hi rfl nofun
  | won rest hi status hs => exact htail hi rfl nofun

structure Inv (g : Game) : Prop where
  near : Asked g.near g.out g.inn
  far : Asked g.far g.inn g.out

variable {g g' : Game}

theorem Inv.swap (h : Inv g) : Inv g.swap := ⟨h.far, h.near⟩

theorem Inv.say (h : Inv g) (p' : Racer) (hw : p'.waiting = g.near.waiting) (notes : List Note) :
    Inv { g with near := p', out := g.out.add notes } where
  near := h.near.add hw notes (List.append_nil _).symm
  far := by
    have h' : Asked g.far (g.inn.add []) (g.out.add notes) := h.far.add rfl [] rfl
    rwa [add_nil] at h'

theorem Inv.move (h : Inv g) (hn : g.near.status ≠ .unready → .nready ∉ g.inn.notes)
    (hm : Move g g') : Inv g' := by
  cases hm with
  | idle => exact h
  | hear _ hg =>
    obtain ⟨hfar, hh⟩ := hears_of_hear hg
    exact ⟨h.near.hears hh, hfar ▸ h.far.heard hn hh⟩
  | start hs =>
    have h' := h.say { g.near with status := .typing } rfl []
    rwa [add_nil] at h'
  | win hs => exact h.say { g.near with status := .finished } rfl _

theorem Inv.press (h : Inv g) (seed : UInt64) : Inv (press seed g) := by
  have hwait : ∃ note, (g.near.press seed).2 = [note] ∧ (note.seed ≠ none ∨ note = .nready) := by
    unfold Racer.press
    split
    · exact ⟨.nready, rfl, .inr rfl⟩
    · exact ⟨.bid seed, rfl, .inl nofun⟩
  obtain ⟨note, hnote, hq⟩ := hwait
  refine ⟨fun _ => ?_, (h.say g.near rfl _).far⟩
  obtain hq | rfl := hq
  · refine .inr (.inl ?_)
    obtain ⟨v, hv⟩ := Option.ne_none_iff_exists'.mp hq
    change (g.out.add (g.near.press seed).2).bids ≠ []
    rw [bids_add, hnote, List.filterMap_cons, hv]
    simp
  · refine .inr (.inr (.inl ?_))
    change .nready ∈ (g.out.add (g.near.press seed).2).notes
    rw [hnote]
    simp

theorem inv_start : Inv ⟨{}, {}, {}, {}⟩ := ⟨not_asked rfl, not_asked rfl⟩

end Waiting

section Ghost

def behind (texts : List UInt32) (app : App) : App :=
  { app with generated := texts ++ app.generated }

variable (random : UInt32 → Nat → Nat) (texts : List UInt32)

theorem generateText_behind (wordAmmount : Nat) (seed : UInt32) (app : App) :
    (behind texts app).generateText random wordAmmount seed =
      (app.generateText random wordAmmount seed).map (behind texts) := by
  unfold App.generateText
  rw [Option.map_map]
  apply congrArg₂ _ _ rfl
  funext t
  simp only [behind, Function.comp_apply, List.append_assoc]

theorem checkIfReady_behind (app : App) : (behind texts app).checkIfReady random =
    (app.checkIfReady random).map (behind texts) := by
  unfold App.checkIfReady
  rw [generateText_behind, apply_ite (Option.map (behind texts)), Option.map_map, Option.map_map]
  rfl

theorem handleAck_behind (byte : UInt8) (app : App) : (behind texts app).handleAck random byte =
    (app.handleAck random byte).map (behind texts) := by
  have hcheck := checkIfReady_behind random texts
    { app with racingInfo := { app.racingInfo with readyMe := true } }
  unfold App.handleAck
  rw [apply_ite (Option.map (behind texts)), Option.map_map]
  apply if_congr Iff.rfl _ rfl
  by_cases hready : byte = infoReadyAck
  · subst hready
    exact (congrArg (Option.map _) hcheck).trans (Option.map_map _ _ _)
  · rw [if_neg hready, if_neg hready]
    split
    · rfl
    split
    · rfl
    · rfl

theorem handleWon_behind (byte : UInt8) (app : App) :
    (behind texts app).handleWon byte = behind texts (app.handleWon byte) := by
  unfold App.handleWon
  rw [apply_ite (behind texts)]
  rfl

theorem handleExit_behind (byte : UInt8) (app : App) :
    (behind texts app).handleExit byte = behind texts (app.handleExit byte) := by
  unfold App.handleExit
  rw [apply_ite (behind texts)]
  rfl

theorem handleControl_behind (byte : UInt8) (app : App) :
    (behind texts app).handleControl random byte =
      (app.handleControl random byte).map (behind texts) := by
  unfold App.handleControl
  rw [handleWon_behind, handleExit_behind, handleAck_behind,
    apply_ite (Option.map (behind texts)), apply_ite (Option.map (behind texts))]
  rfl

theorem handleMessage_behind (m : Message) (app : App) :
    (behind texts app).handleMessage random m =
      (app.handleMessage random m).map (behind texts) := by
  cases m with
  | control byte => exact handleControl_behind random texts byte app
  | ulong seed =>
    have hcheck := checkIfReady_behind random texts
      { app with racingInfo := { app.racingInfo with seedYou := seed } }
    simp only [App.handleMessage, Option.map_map, apply_ite (Option.map _)]
    apply if_congr Iff.rfl _ rfl
    exact (congrArg (Option.map _) hcheck).trans (Option.map_map _ _ _)
  | long => rfl
  | uint => rfl
  | int => rfl
  | float => rfl
  | double => rfl

theorem serialInterrupt_behind (input : UartInput) (app : App) :
    (behind texts app).serialInterrupt random input =
      (app.serialInterrupt random input).map (behind texts) := by
  unfold App.serialInterrupt
  rw [apply_ite (Option.map (behind texts))]
  apply if_congr Iff.rfl rfl
  cases hm : (serialSwitch input app.port.decoder).2 with
  | none => simp only [behind, hm, Option.map_some]
  | some m =>
    have hmessage := handleMessage_behind random texts m
      { app with port := { app.port with decoder := (serialSwitch input app.port.decoder).1 } }
    simp only [hm, ← hmessage]
    simp only [behind, hm]

theorem countdown_behind (app : App) :
    (behind texts app).countdown = behind texts app.countdown := by
  unfold App.countdown
  rw [apply_ite (behind texts), apply_ite (behind texts)]
  rfl

theorem halfSecond_behind (app : App) :
    (behind texts app).halfSecond = behind texts app.halfSecond := by
  unfold App.halfSecond
  rw [apply_ite (behind texts)]
  rfl

theorem tick_behind (app : App) : (behind texts app).tick = behind texts app.tick := by
  have hhalf := halfSecond_behind texts { app with timerCounter := app.timerCounter + 1 }
  unfold App.tick
  rw [apply_ite (behind texts), apply_ite (behind texts), ← countdown_behind, ← hhalf]
  rfl

theorem timerInterrupt_behind (app : App) :
    (behind texts app).timerInterrupt = behind texts app.timerInterrupt := by
  unfold App.timerInterrupt
  rw [tick_behind, apply_ite (behind texts)]
  rfl

theorem raceReadyButton_behind (now : UInt64) (app : App) :
    (behind texts app).raceReadyButton now = behind texts (app.raceReadyButton now) := by
  unfold App.raceReadyButton
  rw [apply_ite (behind texts), apply_ite (behind texts)]
  rfl

theorem typingInputHandler_behind (isRace : Bool) (app : App) :
    (behind texts app).typingInputHandler isRace =
      (app.typingInputHandler isRace).map (behind texts) := by
  have hstart (c : Prop) [Decidable c] :
      (if c then (behind texts app).startTyping else behind texts app) =
        behind texts (if c then app.startTyping else app) := by
    rw [apply_ite (behind texts)]
    rfl
  unfold App.typingInputHandler
  rw [show (behind texts app).typingInfo = app.typingInfo from rfl, hstart]
  generalize (if (!isRace) = true ∧ app.typingInfo.status = .ready then app.startTyping
    else app) = started
  rw [apply_ite (Option.map (behind texts)), apply_ite (Option.map (behind texts)),
    apply_ite (Option.map (behind texts)), Option.map_map, Option.map_map]
  apply if_congr Iff.rfl _ rfl
  apply if_congr Iff.rfl rfl
  apply if_congr Iff.rfl _ rfl
  apply congrArg₂ _ _ rfl
  funext t
  simp only [Function.comp_apply]
  rw [apply_ite (behind texts), apply_ite (behind texts)]
  rfl

def past (mine yours : List UInt32) (n : Race) : Race :=
  { n with near := behind mine n.near, far := behind yours n.far }

theorem react_behind (f : App → Option App)
    (hf : ∀ texts app, f (behind texts app) = (f app).map (behind texts))
    (mine yours : List UInt32) (n : Race) :
    react f (past mine yours n) = (react f n).map (past mine yours) := by
  unfold react past
  rw [hf, Option.map_map, Option.map_map]
  rfl

/-- No step of a race depends on the texts of earlier races. -/
theorem act_behind (mine yours : List UInt32) (n : Race) (a : Act) :
    act random (past mine yours n) a = (act random n a).map (past mine yours) := by
  cases a with
  | ready now =>
    apply react_behind (fun app => some (app.raceReadyButton now))
    exact fun texts app => congrArg some (raceReadyButton_behind texts now app)
  | timer =>
    apply react_behind (fun app => some app.timerInterrupt)
    exact fun texts app => congrArg some (timerInterrupt_behind texts app)
  | key keyboard =>
    apply react_behind (fun app => App.typingInputHandler true { app with keyboard := keyboard })
    exact fun texts app => typingInputHandler_behind texts true { app with keyboard := keyboard }
  | receive =>
    cases hinn : n.inn with
    | nil => simp only [act, past, hinn, Option.map_none]
    | cons b bs =>
      simp only [act, hinn]
      simp only [past, hinn]
      exact react_behind (App.serialInterrupt random (fresh b))
        (fun texts app => serialInterrupt_behind random texts (fresh b) app) mine yours
        { n with inn := bs }

theorem step_behind (mine yours : List UInt32) (n : Race) (e : Side × Act) :
    step (act random) (past mine yours n) e = (step (act random) n e).map (past mine yours) := by
  obtain ⟨side, a⟩ := e
  cases side with
  | left =>
    have h := act_behind random mine yours n a
    simp only [Library.Duplex.step, Link.view, h, Option.map_map]
    rfl
  | right =>
    have h := act_behind random yours mine n.swap a
    simp only [Library.Duplex.step, Link.view, Option.map_map]
    exact (congrArg (Option.map _) h).trans (Option.map_map _ _ _)

end Ghost

section Session

variable {random : UInt32 → Nat → Nat} {n m m' : Race}

/-- A withdrawn bid is not on its way to a player that has begun, which would not answer. -/
def Heard (n : Race) (_ : Act) : Prop :=
  n.near.typingInfo.status ≠ .unready → ¬ Coming n.near n.inn infoNReady

instance (n : Race) (a : Act) : Decidable (Heard n a) := by
  unfold Heard
  infer_instance

def Over (n : Race) : Prop :=
  n.near.typingInfo.status = .finished ∧ n.far.typingInfo.status = .finished ∧
    n.out = [] ∧ n.inn = []

instance (n : Race) : Decidable (Over n) := by
  unfold Over
  infer_instance

def again (n : Race) : Race :=
  { n with near := n.near.raceResetButton, far := n.far.raceResetButton }

def race (random : UInt32 → Nat → Nat) (n : Race) (es : List (Side × Act)) : Option Race :=
  (run (step (act random)) n es).bind fun m => if Over m then some (again m) else none

def anew (n : Race) : Race :=
  { n with near := { n.near with generated := [] }, far := { n.far with generated := [] } }

theorem past_anew (n : Race) : past n.near.generated n.far.generated (anew n) = n := by
  simp only [past, behind, anew, List.append_nil]

theorem anew_again_past (mine yours : List UInt32) (n : Race) :
    anew (again (past mine yours n)) = anew (again n) := by
  have hreset (texts : List UInt32) (app : App) :
      { (behind texts app).raceResetButton with generated := [] } =
        { app.raceResetButton with generated := [] } := by
    unfold App.raceResetButton
    split
    · rename_i hf
      rw [if_pos (show app.typingInfo.status = .finished from hf)]
      rfl
    · rename_i hf
      rw [if_neg (show ¬ app.typingInfo.status = .finished from hf)]
      rfl
  unfold anew again past
  simp only [hreset]

theorem start_again (hn : Start n) {es : List (Side × Act)}
    (hg : Guarded (step (act random)) (Seen Heard) n es)
    (hr : run (step (act random)) n es = some m) (ho : Over m) : Start (anew (again m)) := by
  obtain ⟨g, hg, hi⟩ := invariant (I := Inv) (fun _ => Inv.swap)
    (fun n a g g' h hp hi hm => hi.move (fun hs hc => by
      refine hp (by rwa [h.near.status]) ?_
      rw [show infoNReady = noteCode .nready from rfl, coming_note h.inn rfl]
      exact hc) hm)
    (fun _ now _ _ _ hi _ => hi.press now) inv_start hn hg hr
  obtain ⟨hnear, hfar, hout, hinn⟩ := ho
  have ho := hg.out
  have hi' := hg.inn
  rw [hout] at ho
  rw [hinn] at hi'
  have hlane := lane_of_nil ho
  have hlane' := lane_of_nil hi'
  have hquiet {p : Racer} (h : Asked p {} {}) : p.waiting = false := by
    by_contra hw
    obtain h | h | h | ⟨note, h, -⟩ := h ((Bool.not_eq_false _).mp hw)
    · exact h rfl
    · exact h rfl
    · cases h
    · cases h
  have hfresh {app : App} {r : Racer} (hs : Shows random app r) (he : Expects app r none)
      (hd : Idle app.port.decoder) (hw : r.waiting = false) (hout : app.port.out = [])
      (hf : app.typingInfo.status = .finished) :
      Fresh { app.raceResetButton with generated := [] } := by
    unfold App.raceResetButton
    rw [if_pos hf]
    exact ⟨hs.screen, rfl, rfl, he, hs.waiting.trans hw, hd, hs.answers, hout, rfl⟩
  obtain ⟨h1, h2⟩ := hi
  rw [hlane, hlane'] at h1 h2
  have he := hg.nearExpects
  have he' := hg.farExpects
  rw [hlane'] at he
  rw [hlane] at he'
  exact ⟨hfresh hg.near he hi'.idle (hquiet h1) hg.flushed.1 hnear,
    hfresh hg.far he' ho.idle (hquiet h2) hg.flushed.2 hfar, hout, hinn⟩

/-- A run of any race is one of a first race. -/
theorem run_anew {es : List (Side × Act)} (hr : run (step (act random)) n es = some m) :
    ∃ m₀, run (step (act random)) (anew n) es = some m₀ ∧
      past n.near.generated n.far.generated m₀ = m := by
  rw [← past_anew n, run_commutes (step_behind random _ _)] at hr
  exact Option.map_eq_some_iff.mp hr

theorem guarded_anew {P : Race → Act → Prop}
    (hP : ∀ mine yours n a, P (past mine yours n) a → P n a) {es : List (Side × Act)}
    (hg : Guarded (step (act random)) (Seen P) n es) :
    Guarded (step (act random)) (Seen P) (anew n) es := by
  rw [← past_anew n] at hg
  refine (hg.commutes (step_behind random _ _)).mono fun n e h => ?_
  obtain ⟨side, a⟩ := e
  cases side with
  | left => exact hP _ _ _ _ h
  | right => exact hP _ _ _ _ h

theorem start_race (hn : Start (anew n)) {es : List (Side × Act)}
    (hg : Guarded (step (act random)) (Seen Heard) n es) (hr : race random n es = some m) :
    Start (anew m) := by
  obtain ⟨m', hm', hm⟩ := Option.bind_eq_some_iff.mp hr
  obtain ⟨m₀, hm₀, rfl⟩ := run_anew hm'
  split at hm
  · rename_i ho
    cases hm
    have hstart := start_again hn (guarded_anew (fun _ _ _ _ => id) hg) hm₀ ho
    rwa [anew_again_past]
  · cases hm

theorem sameText_past (mine yours : List UInt32) (h : SameText n) :
    SameText (past mine yours n) := by
  obtain ⟨seed, h1, h2, h3⟩ := h
  refine ⟨seed, ?_, ?_, h3⟩
  · change (mine ++ n.near.generated).getLast? = some seed
    rw [List.getLast?_append, h1, Option.some_or]
  · change (yours ++ n.far.generated).getLast? = some seed
    rw [List.getLast?_append, h2, Option.some_or]

/-- However many races were run, the next one begins as the first did, and both players type
the same text again. -/
theorem rematch (hn : Start n) {races : List (List (Side × Act))}
    (hg : Guarded (race random) (Guarded (step (act random)) (Seen Heard)) n races)
    (hr : run (race random) n races = some m) :
    Start (anew m) ∧ ∀ es m', Guarded (step (act random)) (Seen Prompt) m es →
      run (step (act random)) m es = some m' → m'.near.typingInfo.status ≠ .unready →
      m'.far.typingInfo.status ≠ .unready → SameText m' := by
  have hstart : Start (anew m) := by
    apply Library.Runs.invariant (I := fun n => Start (anew n)) _ _ hg hr
    · exact fun n es m hn hg hr => start_race hn hg hr
    · exact ⟨{ hn.near with generated := rfl }, { hn.far with generated := rfl }, hn.out, hn.inn⟩
  refine ⟨hstart, fun es m' hg hr hs hs' => ?_⟩
  obtain ⟨m₀, hm₀, rfl⟩ := run_anew hr
  have hp : Guarded (step (act random)) (Seen Prompt) (anew m) es :=
    guarded_anew (fun _ _ _ a h => by cases a <;> exact h) hg
  obtain ⟨g, hg, hi⟩ := invariant (I := TextAgreement.Inv) (fun _ => TextAgreement.Inv.swap)
    (fun _ _ _ _ _ _ => TextAgreement.Inv.move)
    (fun _ now _ h hp hi hs => hi.press hs (TextAgreement.timely_of_prompt h hp hs) now)
    TextAgreement.inv_start hstart hp hm₀
  exact sameText_past _ _ (TextAgreement.sameText_of_inv hg hi hs hs')

/-- A countdown on both sides, every key of a text of blanks on the left, and the end of it read
on the right. -/
def blankRace : List (Side × Act) :=
  plainRun ++ List.replicate 302 (.left, .timer) ++ List.replicate 302 (.right, .timer) ++
    List.replicate 24 (.left, .key { scancode := 0x39 }) ++ reads .right 1

def blanks : List Word := [⟨[], by decide⟩]

def afterwards : Race := (run (race noRandom) (duel blanks) [blankRace]).getD (duel blanks)

def revenge : Race := (run (step (act noRandom)) afterwards plainRun).getD afterwards

theorem rematch_blank : Start (anew afterwards) ∧ SameText revenge := by
  have h := @rematch noRandom (duel blanks) afterwards (start_duel _) [blankRace]
    (by decide +kernel) (by decide +kernel)
  exact ⟨h.1, h.2 plainRun revenge (by decide +kernel) (by decide +kernel) (by decide +kernel)
    (by decide +kernel)⟩

end Session

end WriteWise.Rematch
