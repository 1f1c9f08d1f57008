import WriteWise.RaceWinner
import WriteWise.RaceSteps

namespace WriteWise.RaceVictory

open Library.Duplex Library.Framing Library.Runs Scancode Serial SerialStream Typing TypingSession
  Program RunInvariant RaceLink RaceWinner

open TestEnd (Right SameTest timer_cases right_iff_complete)

structure Winner (app : App) : Prop where
  finished : app.typingInfo.status = .finished
  won : app.racingInfo.won = true
  right : Right app.typingInfo

variable {random : UInt32 → Nat → Nat} {G H : List UInt32} {n n' : Race} {app next : App}

section Functions

def Rests (app next : App) : Prop :=
  app.typingInfo.status = .finished → next.typingInfo.status = .finished →
    next.typingInfo = app.typingInfo

theorem rests_timer (app : App) : Rests app app.timerInterrupt := by
  intro hs _
  obtain h | ⟨h | h, -⟩ := timer_cases app
  · exact h
  · cases hs.symm.trans h
  · cases hs.symm.trans h

theorem rests_raceReadyButton (app : App) (now : UInt64) : Rests app (app.raceReadyButton now) := by
  intro _ _
  obtain ⟨seed, port, h⟩ := raceReadyButton_frame app now
  rw [h]

theorem rests_key {keyboard : Keyboard}
    (h : App.typingInputHandler true { app with keyboard := keyboard } = some next) :
    Rests app next := by
  intro hs _
  have hidle : App.typingInputHandler true { app with keyboard := keyboard } =
      some { app with keyboard := keyboard } := by
    apply handler_idle
    · rw [hs]
      decide
    · exact .inl rfl
  cases hidle.symm.trans h
  rfl

theorem rests_serialInterrupt {input : UartInput} (hrace : app.currAppState = .raceState)
    (h : app.serialInterrupt random input = some next) : Rests app next := by
  intro hs hs'
  obtain ⟨-, ⟨-, hq⟩ | ⟨m, -, hm⟩⟩ := RaceSteps.serialInterrupt_cases hrace h
  · exact hq.typingInfo
  cases hm with
  | launch launches text => cases text.status.symm.trans hs'
  | exit message typingInfo =>
    rw [typingInfo] at hs'
    cases hs'
  | won message progress => cases progress.before.symm.trans hs
  | quiet silent quiet => exact quiet.typingInfo

theorem right_of_key {keyboard : Keyboard} (hv : Valid app.typingInfo)
    (hs : app.typingInfo.status = .typing)
    (h : App.typingInputHandler true { app with keyboard := keyboard } = some next)
    (hs' : next.typingInfo.status = .finished) : Right next.typingInfo := by
  obtain ⟨g, s, m, hsess⟩ := hv.session (by rw [hs]; decide)
  obtain ⟨u, s', m', hu, hst, -, -, ⟨hr, -⟩ | ⟨hr, hcomp⟩⟩ :=
    handler_typing { app with keyboard := keyboard } hs hsess true
  · cases hr.symm.trans h
    cases hst.symm.trans hs'
  · cases hr.symm.trans h
    rw [finish_typingInfo, (SameTest.endTyping u app.timerCounter).right]
    exact (right_iff_complete hu).mpr hcomp

end Functions

section Invariant

/-- Nobody loses, and nobody hears of a win, unless the opponent has won. -/
structure Earned (n : Race) : Prop where
  near : Coming n.near n.inn infoWon → Winner n.far
  far : Coming n.far n.out infoWon → Winner n.near
  nearLost : n.near.typingInfo.status = .finished → n.near.racingInfo.won = false → Winner n.far
  farLost : n.far.typingInfo.status = .finished → n.far.racingInfo.won = false → Winner n.near
  nearWon : n.near.typingInfo.status = .finished → n.near.racingInfo.won = true → Winner n.near
  farWon : n.far.typingInfo.status = .finished → n.far.racingInfo.won = true → Winner n.far

theorem Earned.swap (h : Earned n) : Earned n.swap :=
  ⟨h.far, h.near, h.farLost, h.nearLost, h.farWon, h.nearWon⟩

structure Inv (G H : List UInt32) (n : Race) : Prop where
  near : Peer G n.near
  far : Peer H n.far
  race : Left G n.near ∨ Left H n.far ∨ Earned n

theorem Inv.swap (h : Inv G H n) : Inv H G n.swap :=
  ⟨h.far, h.near, or_left_comm.mp (h.race.imp_right (.imp_right Earned.swap))⟩

theorem Earned.effect {K W : Prop} (h : Earned n) {ws : List UInt8}
    (heffect : Effect K W n.near app) (hrest : Rests n.near app)
    (hK : K → Right app.typingInfo) (hW : W → Winner n.far)
    (hcoming : Coming app n.inn infoWon → Coming n.near n.inn infoWon)
    (hws : infoWon ∉ thrBytes app.port.out → infoWon ∉ ws) :
    app.typingInfo.status = .unready ∨ n.near.generated.length < app.generated.length ∨
      Earned { n with near := app, out := n.out ++ ws } := by
  cases heffect with
  | keep hs hw hg ho =>
    have hfin : app.typingInfo.status = .finished → n.near.typingInfo.status = .finished := by
      intro hf
      obtain hs | ⟨-, hs'⟩ := hs
      · exact hs.symm.trans hf
      · cases hs'.symm.trans hf
    have hwinner (hn : Winner n.near) : Winner app := by
      have hf : app.typingInfo.status = .finished := by
        obtain hs | ⟨hs, -⟩ := hs
        · exact hs.trans hn.finished
        · cases hs.symm.trans hn.finished
      exact ⟨hf, hw.trans hn.won, (hrest hn.finished hf).symm ▸ hn.right⟩
    refine .inr (.inr ⟨fun hc => h.near (hcoming hc), fun hc => ?_, fun hf hl => ?_,
      fun hf hl => ?_, fun hf hl => ?_, h.farWon⟩)
    · obtain hc | hc := coming_append hc
      · exact hwinner (h.far hc)
      · exact absurd hc (hws ho)
    · exact h.nearLost (hfin hf) (hw.symm.trans hl)
    · exact hwinner (h.farLost hf hl)
    · exact hwinner (h.nearWon (hfin hf) (hw.symm.trans hl))
  | win hk hs hs' hw hg =>
    have hwinner : Winner app := ⟨hs', hw, hK hk⟩
    refine .inr (.inr ⟨fun hc => h.near (hcoming hc), fun _ => hwinner, fun _ hl => ?_,
      fun _ _ => hwinner, fun _ _ => hwinner, h.farWon⟩)
    cases hw.symm.trans hl
  | lose hc hs hs' hw hg ho =>
    have hbeaten := hW hc
    refine .inr (.inr ⟨fun _ => hbeaten, fun hc => ?_, fun _ _ => hbeaten, fun _ hl => ?_,
      fun _ hl => ?_, fun _ _ => hbeaten⟩)
    · obtain hc | hc := coming_append hc
      · cases hs.symm.trans (h.far hc).finished
      · exact absurd hc (hws ho)
    · cases hbeaten.won.symm.trans hl
    · cases hw.symm.trans hl
  | leave hs hg => exact .inl hs
  | generate hg => exact .inr (.inl hg)

theorem Inv.turn {K W : Prop} (h : Inv G H n) (ht : Turn K W n.near app)
    (hv : Valid app.typingInfo) (hrest : Rests n.near app) (hK : K → Right app.typingInfo)
    (hW : W → Left G n.near ∨ Left H n.far ∨ Winner n.far) :
    Inv G H { n with
      near := { app with port := { app.port with out := [] } }
      out := n.out ++ thrBytes app.port.out } := by
  obtain ⟨hnear, hfar, hrace⟩ := h
  have hlen := hnear.length_le
  have hgrown : app.generated = G ∨ G.length < app.generated.length := by
    cases ht.effect with
    | generate hgen => exact .inr (hlen.trans_lt hgen)
    | keep hs hw hgen => exact hgen ▸ hnear.grown
    | win hk hs hs' hw hgen => exact hgen ▸ hnear.grown
    | lose hc hs hs' hw hgen => exact hgen ▸ hnear.grown
    | leave hs hgen => exact hgen ▸ hnear.grown
  refine ⟨⟨ht.screen.trans hnear.screen, ht.answers, rfl, hv, hgrown⟩, hfar, ?_⟩
  have hcoming : Coming app n.inn infoWon → Coming n.near n.inn infoWon := by
    unfold Coming messages
    rw [ht.decoder]
    exact id
  have hleft (hl : Left G n.near) : Left G app := hl.turn ht hlen
  obtain hl | hl | he := hrace
  · exact .inl (hleft hl)
  · exact .inr (.inl hl)
  by_cases hw : W ∧ (Left G n.near ∨ Left H n.far)
  · obtain ⟨-, hl | hl⟩ := hw
    · exact .inl (hleft hl)
    · exact .inr (.inl hl)
  have hW' : W → Winner n.far := by
    intro hc
    obtain hl | hl | hwin := hW hc
    · exact absurd ⟨hc, .inl hl⟩ hw
    · exact absurd ⟨hc, .inr hl⟩ hw
    · exact hwin
  obtain hs | hg | he := he.effect ht.effect hrest hK hW' hcoming id
  · exact .inl (.inl hs)
  · exact .inl (.inr (hlen.trans_lt hg))
  · exact .inr (.inr ⟨he.near, fun hc => ⟨(he.far hc).finished, (he.far hc).won, (he.far hc).right⟩,
      he.nearLost, fun hf hl => ⟨(he.farLost hf hl).finished, (he.farLost hf hl).won,
        (he.farLost hf hl).right⟩, fun hf hl => ⟨hf, hl, (he.nearWon hf hl).right⟩, he.farWon⟩)

theorem Inv.deliver (h : Inv G H n) {b : UInt8} {bs : List UInt8} (hn : n.inn = b :: bs) :
    Inv G H { n with
      near := { n.near with
        port := { n.near.port with decoder := (accept n.near.port.decoder b).1 } }
      inn := bs } := by
  obtain ⟨⟨h1, h2, h3, h4, h5⟩, hfar, hrace⟩ := h
  refine ⟨⟨h1, h2, h3, h4, h5⟩, hfar, hrace.imp_right (.imp_right fun he => ?_)⟩
  have hwinner (hw : Winner n.near) : Winner { n.near with
      port := { n.near.port with decoder := (accept n.near.port.decoder b).1 } } :=
    ⟨hw.finished, hw.won, hw.right⟩
  refine ⟨fun hc => he.near ?_, fun hc => hwinner (he.far hc), he.nearLost,
    fun hf hl => hwinner (he.farLost hf hl), fun hf hl => hwinner (he.nearWon hf hl), he.farWon⟩
  unfold Coming messages
  rw [hn]
  exact List.mem_append_right _ hc

theorem Inv.act (h : Inv G H n) {a : Act} (hn : act random n a = some n') : Inv G H n' := by
  have hout : infoWon ∉ thrBytes n.near.port.out := by
    rw [h.near.out]
    exact List.not_mem_nil
  cases a with
  | ready now =>
    cases hn
    exact h.turn (turn_raceReadyButton (K := False) (W := False) h.near.answers hout now)
      ((keeps_raceReadyButton now n.near).valid h.near.valid) (rests_raceReadyButton n.near now)
      False.elim False.elim
  | timer =>
    cases hn
    exact h.turn (turn_timerInterrupt (K := False) (W := False) h.near.answers hout)
      ((keeps_timerInterrupt n.near).valid h.near.valid) (rests_timer n.near) False.elim False.elim
  | key keyboard =>
    obtain ⟨app, happ, rfl⟩ := Option.map_eq_some_iff.mp hn
    obtain ⟨ht, hlast⟩ := turn_key (W := False) h.near.valid h.near.answers hout keyboard happ
    refine h.turn ht ((keeps_typingInputHandler happ).valid h.near.valid) (rests_key happ)
      (fun hk => ?_) False.elim
    exact right_of_key h.near.valid hk.typing happ (hlast hk).1
  | receive =>
    simp only [RaceLink.act] at hn
    cases hb : n.inn with
    | nil =>
      rw [hb] at hn
      cases hn
    | cons b bs =>
      rw [hb] at hn
      obtain ⟨app, happ, rfl⟩ := Option.map_eq_some_iff.mp hn
      have hd := h.deliver hb
      have hrests := rests_serialInterrupt h.near.screen happ
      have hrest : Rests { n.near with
          port := { n.near.port with decoder := (accept n.near.port.decoder b).1 } } app := hrests
      rw [App.serialInterrupt, if_neg (fun hc => hc h.near.screen)] at happ
      simp only at happ
      cases hm : (accept n.near.port.decoder b).2 with
      | none =>
        rw [show (serialSwitch (fresh b) n.near.port.decoder).2 = none from hm] at happ
        cases happ
        have hkeep : Turn False False { n.near with
            port := { n.near.port with decoder := (accept n.near.port.decoder b).1 } } { n.near with
            port := { n.near.port with decoder := (accept n.near.port.decoder b).1 } } :=
          turn_keep rfl rfl rfl rfl [] (by simp) h.near.answers rfl (by decide) hout
        have hdone := hd.turn hkeep h.near.valid (fun _ _ => rfl) False.elim False.elim
        exact hdone
      | some m =>
        rw [show (serialSwitch (fresh b) n.near.port.decoder).2 = some m from hm] at happ
        refine hd.turn (turn_handleMessage hd.near.answers hout happ)
          ((keeps_handleMessage happ).valid hd.near.valid) hrest False.elim fun hwon => ?_
        obtain hl | hl | he := h.race
        · exact .inl hl
        · exact .inr (.inl hl)
        · refine .inr (.inr (he.near ?_))
          unfold Coming messages
          rw [hb]
          exact List.mem_append_left _ (by rw [hm, hwon]; exact List.mem_cons_self)

theorem Inv.step (h : Inv G H n) {e : Side × Act}
    (hn : Library.Duplex.step (RaceLink.act random) n e = some n') : Inv G H n' := by
  obtain ⟨side, a⟩ := e
  obtain ⟨d, hd, rfl⟩ := Option.map_eq_some_iff.mp hn
  cases side with
  | left => exact h.act hd
  | right => exact (h.swap.act hd).swap

theorem Inv.run {es : List (Side × Act)} (h : Inv G H n)
    (hn : run (Library.Duplex.step (RaceLink.act random)) n es = some n') : Inv G H n' :=
  Library.Runs.invariant (P := fun _ _ => True) (fun _ _ _ hi _ ha => hi.step ha) h
    (guarded_of_forall (fun _ _ _ => trivial) n) hn

end Invariant

section Main

theorem inv_countdown (h : Countdown n) : Inv n.near.generated n.far.generated n := by
  have hne {t : TypingInfo} (ht : t.status = .ready) : t.status ≠ .finished := by
    rw [ht]
    decide
  exact ⟨h.near, h.far, .inr (.inr ⟨fun hc => absurd hc h.won.1, fun hc => absurd hc h.won.2,
    fun hf => absurd hf (hne h.ready.1), fun hf => absurd hf (hne h.ready.2),
    fun hf => absurd hf (hne h.ready.1), fun hf => absurd hf (hne h.ready.2)⟩)⟩

/-- Who has finished has won with the whole text, or has lost to somebody who has. -/
def Decided (app opponent : App) : Prop :=
  app.typingInfo.status = .finished → Winner app ∨ app.racingInfo.won = false ∧ Winner opponent

theorem Earned.decided (h : Earned n) : Decided n.near n.far := by
  intro hf
  cases hw : n.near.racingInfo.won with
  | true => exact .inl (h.nearWon hf hw)
  | false => exact .inr ⟨rfl, h.nearLost hf hw⟩

/-- No race is lost to nobody: whatever keys are hit when, a player whose race is over has typed
the whole text and won, or lost to an opponent who has. -/
theorem race_has_winner (h : Countdown n) {es : List (Side × Act)}
    (hn : run (step (act random)) n es = some n')
    (hsame : SameRace n.near.generated n.far.generated n')
    (hnear : n'.near.typingInfo.status ≠ .unready) (hfar : n'.far.typingInfo.status ≠ .unready) :
    Decided n'.near n'.far ∧ Decided n'.far n'.near := by
  have hinv := (inv_countdown h).run hn
  have he := (hinv.race.resolve_left (not_left hnear hsame.1)).resolve_left
    (not_left hfar hsame.2)
  exact ⟨he.decided, he.swap.decided⟩

/-- The left player finishes, and the right one hears of it before its own key. -/
theorem race_has_winner_fair :
    Decided ((run (step (act noRandom)) letterRace fairRun).getD letterRace).near
        ((run (step (act noRandom)) letterRace fairRun).getD letterRace).far ∧
      Decided ((run (step (act noRandom)) letterRace fairRun).getD letterRace).far
        ((run (step (act noRandom)) letterRace fairRun).getD letterRace).near :=
  @race_has_winner noRandom letterRace _ countdown_letterRace fairRun (by decide +kernel)
    (by decide +kernel) (by decide +kernel) (by decide +kernel)

end Main

end WriteWise.RaceVictory
