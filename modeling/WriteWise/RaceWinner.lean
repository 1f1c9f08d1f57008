import WriteWise.RaceLink
import WriteWise.TestEnd

namespace WriteWise.RaceWinner

open Library.Duplex Library.Framing Library.Runs Scancode Serial SerialStream Typing TypingSession
  Program RunInvariant RaceLink

structure LastKey (app : App) (keyboard : Keyboard) : Prop where
  typing : app.typingInfo.status = .typing
  noBackspace : keyboard.scancode ≠ backspaceScancode
  printable : 0 < (getCharFromMakecode keyboard keyboard.scancode).toInt8
  right : peek app.typingInfo.generatedText app.typingInfo.typingCursor =
    some (getCharFromMakecode keyboard keyboard.scancode)
  last : app.typingInfo.typedChars + 1 = app.typingInfo.generatedTextSize
  noneWrong : app.typingInfo.wrongChars = 0

theorem lastKey_iff {app : App} {keyboard : Keyboard} : LastKey app keyboard ↔
    app.typingInfo.status = .typing ∧ keyboard.scancode ≠ backspaceScancode ∧
      0 < (getCharFromMakecode keyboard keyboard.scancode).toInt8 ∧
      peek app.typingInfo.generatedText app.typingInfo.typingCursor =
        some (getCharFromMakecode keyboard keyboard.scancode) ∧
      app.typingInfo.typedChars + 1 = app.typingInfo.generatedTextSize ∧
      app.typingInfo.wrongChars = 0 :=
  ⟨fun h => ⟨h.typing, h.noBackspace, h.printable, h.right, h.last, h.noneWrong⟩,
    fun ⟨h1, h2, h3, h4, h5, h6⟩ => ⟨h1, h2, h3, h4, h5, h6⟩⟩

instance (app : App) (keyboard : Keyboard) : Decidable (LastKey app keyboard) :=
  decidable_of_iff _ lastKey_iff.symm

/-- What a function of the program does to the race, if `K` for a win and `W` for
a win of the opponent hold. -/
inductive Effect (K W : Prop) (app next : App) : Prop
  | keep (hs : next.typingInfo.status = app.typingInfo.status ∨
      app.typingInfo.status = .ready ∧ next.typingInfo.status = .typing)
    (hw : next.racingInfo.won = app.racingInfo.won) (hg : next.generated = app.generated)
    (ho : infoWon ∉ thrBytes next.port.out)
  | win (hk : K) (hs : app.typingInfo.status = .typing) (hs' : next.typingInfo.status = .finished)
    (hw : next.racingInfo.won = true) (hg : next.generated = app.generated)
  | lose (hc : W) (hs : app.typingInfo.status = .typing)
    (hs' : next.typingInfo.status = .finished) (hw : next.racingInfo.won = false)
    (hg : next.generated = app.generated) (ho : infoWon ∉ thrBytes next.port.out)
  /-- The opponent has left the race. -/
  | leave (hs : next.typingInfo.status = .unready) (hg : next.generated = app.generated)
  /-- There is another text, and so another race. -/
  | generate (hg : app.generated.length < next.generated.length)

structure Turn (K W : Prop) (app next : App) : Prop where
  screen : next.currAppState = app.currAppState
  answers : next.port.answers = []
  decoder : next.port.decoder = app.port.decoder
  effect : Effect K W app next

section Functions

variable {random : UInt32 → Nat → Nat} {app next : App} {K W : Prop}

theorem turn_keep (hc : next.currAppState = app.currAppState)
    (ht : next.typingInfo = app.typingInfo) (hw : next.racingInfo.won = app.racingInfo.won)
    (hg : next.generated = app.generated) (ws : List PortWrite)
    (hp : next.port.out = app.port.out ++ ws) (ha : next.port.answers = [])
    (hd : next.port.decoder = app.port.decoder) (hws : infoWon ∉ thrBytes ws)
    (ho : infoWon ∉ thrBytes app.port.out) : Turn K W app next := by
  refine ⟨hc, ha, hd, .keep (.inl (by rw [ht])) hw hg ?_⟩
  rw [hp, thrBytes_append]
  exact fun hn => (List.mem_append.mp hn).elim ho hws

theorem checkIfReady_cases (hr : app.checkIfReady random = some next) :
    next = app ∨ app.generated.length < next.generated.length ∧ next.port = app.port ∧
      next.currAppState = app.currAppState := by
  obtain rfl | ⟨t, seed, startTime, rfl⟩ := checkIfReady_frame hr
  · exact .inl rfl
  · refine .inr ⟨?_, rfl, rfl⟩
    rw [List.length_append]
    exact Nat.lt_succ_self _

theorem turn_handleAck {byte : UInt8} (hr : app.handleAck random byte = some next)
    (ha : app.port.answers = []) (ho : infoWon ∉ thrBytes app.port.out) :
    Turn K W app next ∧ (next.typingInfo = app.typingInfo ∧
      next.racingInfo.won = app.racingInfo.won ∧ next.generated = app.generated ∧
        infoWon ∉ thrBytes next.port.out ∨ app.generated.length < next.generated.length) := by
  obtain ⟨-, rfl⟩ | ⟨-, u, hu, rfl⟩ := Steps.handleAck_step hr
  · exact ⟨turn_keep rfl rfl rfl rfl [] (by simp) ha rfl (by decide) ho, .inl ⟨rfl, rfl, rfl, ho⟩⟩
  cases hu with
  | ack =>
    exact ⟨turn_keep rfl rfl rfl rfl [] (by simp) ha rfl (by decide) ho, .inl ⟨rfl, rfl, rfl, ho⟩⟩
  | readyAck hu =>
    obtain rfl | ⟨hg, hp, hc⟩ := checkIfReady_cases hu
    · exact ⟨turn_keep rfl rfl rfl rfl [] (by simp) ha rfl (by decide) ho,
        .inl ⟨rfl, rfl, rfl, ho⟩⟩
    · refine ⟨⟨hc, ?_, ?_, .generate hg⟩, .inr hg⟩
      · rw [hp]
        exact ha
      · rw [hp]
  | nreadyAck =>
    exact ⟨turn_keep rfl rfl rfl rfl [] (by simp) ha rfl (by decide) ho, .inl ⟨rfl, rfl, rfl, ho⟩⟩
  | other =>
    simp only [App.call, clearFIFO_reliable ha, Port.writes]
    refine ⟨turn_keep rfl rfl rfl rfl [.fcr fcrClear] rfl ha rfl (by decide) ho,
      .inl ⟨trivial, trivial, trivial, ?_⟩⟩
    rw [thrBytes_append]
    exact fun hn => (List.mem_append.mp hn).elim ho (by decide)

theorem turn_handleControl (ha : app.port.answers = []) (ho : infoWon ∉ thrBytes app.port.out)
    {byte : UInt8} (hr : app.handleControl random byte = some next) :
    Turn False (byte = infoWon) app next := by
  unfold App.handleControl at hr
  split at hr
  · cases hr
    simp only [App.call, serialPortSendReadyAck, clear_sendByte_reliable ha, Port.writes]
    exact turn_keep rfl rfl rfl rfl _ rfl ha rfl (by decide) ho
  split at hr
  · cases hr
    simp only [App.call, serialPortSendNReadyAck, clear_sendByte_reliable ha, Port.writes]
    exact turn_keep rfl rfl rfl rfl _ rfl ha rfl (by decide) ho
  by_cases hw : app.typingInfo.status = .typing ∧ byte = infoWon
  · have hx : (app.handleWon byte).handleExit byte = app.handleWon byte := by
      rw [App.handleExit, if_neg (by rw [hw.2]; decide)]
    rw [hx] at hr
    rw [App.handleWon, if_pos hw] at hr
    obtain ⟨⟨hc, ha', hd, -⟩, heff⟩ := turn_handleAck (K := False) (W := byte = infoWon) hr ha ho
    refine ⟨hc, ha', hd, ?_⟩
    obtain ⟨ht, hwon, hg, hout⟩ | hg := heff
    · exact .lose hw.2 hw.1 (by rw [ht]; rfl) hwon hg hout
    · exact .generate hg
  rw [App.handleWon, if_neg hw] at hr
  unfold App.handleExit at hr
  split at hr
  · obtain ⟨⟨hc, ha', hd, -⟩, heff⟩ := turn_handleAck (K := False) (W := byte = infoWon) hr ha ho
    refine ⟨hc, ha', hd, ?_⟩
    obtain ⟨ht, -, hg, -⟩ | hg := heff
    · exact .leave (by rw [ht]; rfl) hg
    · exact .generate hg
  · exact (turn_handleAck hr ha ho).1

theorem turn_handleMessage (ha : app.port.answers = []) (ho : infoWon ∉ thrBytes app.port.out)
    {m : Message} (hr : app.handleMessage random m = some next) :
    Turn False (m = .control infoWon) app next := by
  have hack {a : App} (hc : a.currAppState = app.currAppState)
      (ht : a.typingInfo = app.typingInfo) (hw : a.racingInfo.won = app.racingInfo.won)
      (hg : a.generated = app.generated) (hp : a.port = app.port) :
      Turn False (m = .control infoWon) app (a.call serialPortSendAck) := by
    have ha' : a.port.answers = [] := by rw [hp, ha]
    simp only [App.call, serialPortSendAck, clear_sendByte_reliable ha', Port.writes]
    refine turn_keep hc ht hw hg [.fcr fcrClear, .thr infoAck] ?_ ha' ?_ (by decide) ho
    · rw [hp]
    · rw [hp]
  unfold App.handleMessage at hr
  split at hr
  · obtain ⟨u, hu, rfl⟩ := Option.map_eq_some_iff.mp hr
    split at hu
    · obtain ⟨v, hv, rfl⟩ := Option.map_eq_some_iff.mp hu
      obtain rfl | ⟨hg, hp, hc⟩ := checkIfReady_cases hv
      · exact hack rfl rfl rfl rfl rfl
      · have ha' : v.port.answers = [] := by rw [hp, ha]
        simp only [App.call, serialPortSendAck, clear_sendByte_reliable ha', Port.writes]
        refine ⟨hc, ha', ?_, .generate hg⟩
        rw [hp]
    · cases hu
      exact hack rfl rfl rfl rfl rfl
  · obtain ⟨hc, ha', hd, heff⟩ := turn_handleControl ha ho hr
    refine ⟨hc, ha', hd, ?_⟩
    cases heff with
    | keep hs hw hg ho => exact .keep hs hw hg ho
    | win hk => exact hk.elim
    | lose hw hs hs' hl hg ho => exact .lose (by rw [hw]) hs hs' hl hg ho
    | leave hs hg => exact .leave hs hg
    | generate hg => exact .generate hg
  · cases hr
    exact hack rfl rfl rfl rfl rfl

theorem turn_timerInterrupt (ha : app.port.answers = []) (ho : infoWon ∉ thrBytes app.port.out) :
    Turn K W app app.timerInterrupt := by
  have hs : app.tick.typingInfo.status = app.typingInfo.status ∨
      app.typingInfo.status = .ready ∧ app.tick.typingInfo.status = .typing := by
    rw [← TestEnd.timer_typingInfo]
    obtain ht | ⟨hs | hs, ht⟩ := TestEnd.timer_cases app
    · exact .inl (by rw [ht])
    · exact .inl (ht.trans hs.symm)
    · exact .inr ⟨hs, ht⟩
  have hwon : app.tick.racingInfo.won = app.racingInfo.won := by rw [tick_racingInfo]
  have hkeep : Turn K W app app.tick := by
    refine ⟨tick_currAppState app, ?_, ?_, .keep hs hwon (tick_generated app) ?_⟩
    · rw [tick_port, ha]
    · rw [tick_port]
    · rwa [tick_port]
  unfold App.timerInterrupt
  simp only
  split
  · have ha' : app.tick.port.answers = [] := hkeep.answers
    simp only [App.call, clearFIFO_reliable ha', Port.writes]
    refine ⟨tick_currAppState app, ha', hkeep.decoder, .keep hs hwon (tick_generated app) ?_⟩
    rw [thrBytes_append, tick_port]
    exact fun hn => (List.mem_append.mp hn).elim ho (by decide)
  · exact hkeep

theorem turn_raceReadyButton (ha : app.port.answers = []) (ho : infoWon ∉ thrBytes app.port.out)
    (now : UInt64) : Turn K W app (app.raceReadyButton now) := by
  have h1 : ({ app.port with waitingAckSerialPort := true } : Port).answers = [] := ha
  unfold App.raceReadyButton
  split
  · rename_i hs
    split
    · simp only [App.call, serialPortSendNReady, sendByte_reliable h1, Port.writes]
      exact ⟨rfl, ha, rfl, .leave hs rfl⟩
    · have h2 : ({ app.port with
          waitingAckSerialPort := true
          out := app.port.out ++ [.thr infoReady] } : Port).answers = [] := ha
      simp only [App.call, serialPortSendReady, sendByte_reliable h1, serialPortSendULong,
        sendValue_reliable h2, Port.writes]
      exact ⟨rfl, ha, rfl, .leave hs rfl⟩
  · exact turn_keep rfl rfl rfl rfl [] (by simp) ha rfl (by decide) ho

theorem complete_iff {t u : TypingInfo} {g s s' : List UInt8} {m m' : List Bool} {c : UInt8}
    (h : Session t g s m) (hlt : t.typingCursor < g.length)
    (hcur : u.typingCursor = t.typingCursor + 1) (hu : Session u g s' m')
    (hs' : s' = s.set t.typingCursor c) :
    Complete u ↔ peek t.generatedText t.typingCursor = some c ∧
      t.typedChars + 1 = t.generatedTextSize ∧ t.wrongChars = 0 := by
  have hlen : t.typingCursor < s.length := by
    rw [h.typedLength]
    omega
  have hpeek : peek t.generatedText t.typingCursor = g[t.typingCursor]? := by
    rw [peek_some h.generated, List.getElem?_append_left hlt]
  have hwrong : u.wrongChars = t.wrongChars + if some c ≠ g[t.typingCursor]? then 1 else 0 := by
    rw [hu.wrong, hcur, wrongBelow_succ, hs', wrongBelow_set, h.wrong, List.getElem?_set_self hlen]
  rw [Complete, hwrong, hu.typedChars, hcur, hu.size, hpeek, h.typedChars, h.size]
  by_cases hc : g[t.typingCursor]? = some c
  · simp [hc]
  · simp [hc, Ne.symm hc]

/-- The last key, and no other, ends the test. -/
theorem turn_key (hv : Valid app.typingInfo) (ha : app.port.answers = [])
    (ho : infoWon ∉ thrBytes app.port.out) (keyboard : Keyboard)
    (hr : App.typingInputHandler true { app with keyboard := keyboard } = some next) :
    Turn (LastKey app keyboard) W app next ∧
      (LastKey app keyboard → next.typingInfo.status = .finished ∧ next.racingInfo.won = true ∧
        next.generated = app.generated) := by
  by_cases hs : app.typingInfo.status = .typing
  swap
  · have hkey : App.typingInputHandler true { app with keyboard := keyboard } =
        some { app with keyboard := keyboard } := handler_idle hs (.inl rfl)
    cases hkey.symm.trans hr
    exact ⟨turn_keep rfl rfl rfl rfl [] (by simp) ha rfl (by decide) ho,
      fun hl => absurd hl.typing hs⟩
  obtain ⟨g, s, m, h⟩ := hv.session (by rw [hs]; decide)
  have hidle {t : TypingInfo} (ht : t.status = .typing)
      (hn : next = { app with keyboard := keyboard, typingInfo := t })
      (hnot : ¬ LastKey app keyboard) : Turn (LastKey app keyboard) W app next ∧
      (LastKey app keyboard → next.typingInfo.status = .finished ∧ next.racingInfo.won = true ∧
        next.generated = app.generated) := by
    subst hn
    exact ⟨⟨rfl, ha, rfl, .keep (.inl (ht.trans hs.symm)) rfl rfl ho⟩, fun hl => absurd hl hnot⟩
  have hstart : ¬ ((!true) = true ∧ app.typingInfo.status = .ready) := fun hc => nomatch hc.1
  simp only [App.typingInputHandler, if_neg hstart] at hr
  simp only [hs, if_true] at hr
  by_cases hb : keyboard.scancode = backspaceScancode
  · obtain ⟨u, hu, hst, -⟩ := h.eraseChar
    rw [if_pos hb, hu] at hr
    cases hr
    exact hidle (hst.trans hs) rfl fun hl => hl.noBackspace hb
  rw [if_neg hb] at hr
  by_cases hlt : app.typingInfo.typingCursor < app.typingInfo.generatedTextSize
  swap
  · rw [if_neg hlt] at hr
    cases hr
    refine hidle hs rfl fun hl => hlt ?_
    rw [← h.typedChars]
    exact Nat.lt_of_succ_le hl.last.le
  rw [if_pos hlt] at hr
  by_cases hc : 0 < (getCharFromMakecode keyboard keyboard.scancode).toInt8
  swap
  · rw [typeChar, if_neg hc, Option.map_some] at hr
    have hnot : ¬ (app.typingInfo.typedChars = app.typingInfo.generatedTextSize ∧
        app.typingInfo.wrongChars = 0) := by
      rw [h.typedChars]
      exact fun hx => absurd hx.1 hlt.ne
    rw [if_neg hnot] at hr
    cases hr
    exact hidle hs rfl fun hl => hc hl.printable
  obtain ⟨u, hu, hst, -, hcur, mark, -, hsess⟩ := h.typeChar (h.size ▸ hlt) hc
  rw [hu, Option.map_some, Option.some.injEq] at hr
  have hiff := complete_iff h (h.size ▸ hlt) hcur hsess rfl
  by_cases hcomp : u.typedChars = u.generatedTextSize ∧ u.wrongChars = 0
  · rw [if_pos hcomp] at hr
    simp only [App.endRace, App.endTyping, App.call, serialPortSendWon,
      sendByte_reliable ha, Port.writes] at hr
    subst hr
    obtain ⟨h1, h2, h3⟩ := hiff.mp hcomp
    exact ⟨⟨rfl, ha, rfl, .win ⟨hs, hb, hc, h1, h2, h3⟩ hs rfl rfl rfl⟩, fun _ => ⟨rfl, rfl, rfl⟩⟩
  · rw [if_neg hcomp] at hr
    exact hidle (hst.trans hs) hr.symm fun hl => hcomp (hiff.mpr ⟨hl.right, hl.last, hl.noneWrong⟩)

end Functions

section Channel

theorem accept_control_eq {d : Decoder} {b c : UInt8}
    (h : (accept d b).2 = some (.control c)) : c = b := by
  unfold accept serialSwitch at h
  have hval {α : Type} (f : α → Message) (hf : ∀ x, f x ≠ .control c)
      (r : Decoder × Option α) : (r.map id (Option.map f)).2 ≠ some (.control c) := by
    rintro hr
    obtain ⟨x, -, hx⟩ := Option.map_eq_some_iff.mp hr
    exact hf x hx
  split at h
  · exact absurd h (hval .ulong (fun _ => nofun) _)
  split at h
  · exact absurd h (hval .long (fun _ => nofun) _)
  split at h
  · exact absurd h (hval .uint (fun _ => nofun) _)
  split at h
  · exact absurd h (hval .int (fun _ => nofun) _)
  split at h
  · exact absurd h (hval .float (fun _ => nofun) _)
  split at h
  · exact absurd h (hval .double (fun _ => nofun) _)
  rw [ih_delivers (fresh_delivers b)] at h
  by_cases hb : IsTypeTag b
  · rw [if_pos hb] at h
    cases h
  · rw [if_neg hb] at h
    cases h
    rfl

theorem control_mem {d : Decoder} {bs : List UInt8} {c : UInt8}
    (h : .control c ∈ (receive accept d bs).2) : c ∈ bs := by
  induction bs generalizing d with
  | nil => cases h
  | cons b bs ih =>
    obtain h | h := List.mem_append.mp h
    · rw [accept_control_eq (Option.mem_toList.mp h)]
      exact List.mem_cons_self
    · exact List.mem_cons_of_mem _ (ih h)

theorem coming_append {app : App} {bytes more : List UInt8} {c : UInt8}
    (h : Coming app (bytes ++ more) c) : Coming app bytes c ∨ c ∈ more := by
  unfold Coming messages at h ⊢
  rw [receive_append] at h
  exact (List.mem_append.mp h).imp_right control_mem

end Channel

section Invariant

variable {random : UInt32 → Nat → Nat} {clean : Prop} {G H : List UInt32} {n n' : Race}

structure Peer (G : List UInt32) (app : App) : Prop where
  screen : app.currAppState = .raceState
  answers : app.port.answers = []
  out : app.port.out = []
  valid : Valid app.typingInfo
  grown : app.generated = G ∨ G.length < app.generated.length

/-- The race is over for a program that has left it or has got another text. -/
def Left (G : List UInt32) (app : App) : Prop :=
  app.typingInfo.status = .unready ∨ G.length < app.generated.length

/-- One program has won as soon as one has finished. If the race began `clean`, without news of
an earlier win, news of a win is only on its way from a program that has finished. -/
structure Decided (clean : Prop) (n : Race) : Prop where
  near : clean → n.far.typingInfo.status ≠ .finished → ¬ Coming n.near n.inn infoWon
  far : clean → n.near.typingInfo.status ≠ .finished → ¬ Coming n.far n.out infoWon
  nearWon : n.near.typingInfo.status = .finished → n.far.typingInfo.status ≠ .finished →
    n.near.racingInfo.won = true
  farWon : n.far.typingInfo.status = .finished → n.near.typingInfo.status ≠ .finished →
    n.far.racingInfo.won = true
  one : n.near.typingInfo.status = .finished → n.far.typingInfo.status = .finished →
    n.near.racingInfo.won ≠ n.far.racingInfo.won

structure Inv (clean : Prop) (G H : List UInt32) (n : Race) : Prop where
  near : Peer G n.near
  far : Peer H n.far
  race : Left G n.near ∨ Left H n.far ∨ Decided clean n

theorem Decided.swap (h : Decided clean n) : Decided clean n.swap :=
  ⟨h.far, h.near, h.farWon, h.nearWon, fun hf hn => (h.one hn hf).symm⟩

theorem Inv.swap (h : Inv clean G H n) : Inv clean H G n.swap :=
  ⟨h.far, h.near, or_left_comm.mp (h.race.imp_right (.imp_right Decided.swap))⟩

theorem Left.turn {K W : Prop} {app next : App} (h : Left G app) (ht : Turn K W app next)
    (hg : G.length ≤ app.generated.length) : Left G next := by
  cases ht.effect with
  | keep hs hw hgen ho =>
    rw [Left, hgen]
    refine h.imp_left fun hu => ?_
    obtain hs | ⟨hs, -⟩ := hs
    · rw [hs, hu]
    · exact absurd (hu.symm.trans hs) nofun
  | win hk hs hs' hw hgen =>
    rw [Left, hgen]
    exact .inr (h.resolve_left fun hu => absurd (hu.symm.trans hs) nofun)
  | lose hc hs hs' hw hgen ho =>
    rw [Left, hgen]
    exact .inr (h.resolve_left fun hu => absurd (hu.symm.trans hs) nofun)
  | leave hs hgen => exact .inl hs
  | generate hgen => exact .inr (hg.trans_lt hgen)

theorem Peer.length_le {app : App} (h : Peer G app) : G.length ≤ app.generated.length := by
  obtain hg | hg := h.grown
  · rw [hg]
  · exact hg.le

/-- The near program runs a function, which wins only when the opponent has not
finished, and loses only when it has. -/
theorem Inv.turn {K W : Prop} (h : Inv clean G H n) {app : App} (ht : Turn K W n.near app)
    (hv : Valid app.typingInfo)
    (hK : K → Left G n.near ∨ Left H n.far ∨ n.far.typingInfo.status ≠ .finished)
    (hW : W → n.near.typingInfo.status = .typing →
      Left G n.near ∨ Left H n.far ∨ n.far.typingInfo.status = .finished) :
    Inv clean G H { n with
      near := { app with port := { app.port with out := [] } }
      out := n.out ++ thrBytes app.port.out } := by
  obtain ⟨hnear, hfar, hrace⟩ := h
  have hlen := hnear.length_le
  have hgrown : app.generated = G ∨ G.length < app.generated.length := by
    cases ht.effect with
    | keep hs hw hgen ho => rw [hgen]; exact hnear.grown
    | win hk hs hs' hw hgen => rw [hgen]; exact hnear.grown
    | lose hc hs hs' hw hgen ho => rw [hgen]; exact hnear.grown
    | leave hs hgen => rw [hgen]; exact hnear.grown
    | generate hgen => exact .inr (hlen.trans_lt hgen)
  refine ⟨⟨ht.screen.trans hnear.screen, ht.answers, rfl, hv, hgrown⟩, hfar, ?_⟩
  have hcoming : Coming { app with port := { app.port with out := [] } } n.inn infoWon →
      Coming n.near n.inn infoWon := by
    unfold Coming messages
    rw [show ({ app with port := { app.port with out := [] } } : App).port.decoder =
      n.near.port.decoder from ht.decoder]
    exact id
  have hleft (hl : Left G n.near) : Left G app := hl.turn ht hlen
  obtain hl | hl | hd := hrace
  · exact .inl (hleft hl)
  · exact .inr (.inl hl)
  cases ht.effect with
  | keep hs hw hgen ho =>
    have hiff : app.typingInfo.status = .finished ↔ n.near.typingInfo.status = .finished := by
      obtain hs | ⟨hs, hs'⟩ := hs
      · rw [hs]
      · simp [hs, hs']
    refine .inr (.inr ⟨fun hc hf => mt hcoming (hd.near hc hf), fun hc hn hwon => ?_,
      fun hn hf => ?_, fun hf hn => hd.farWon hf (mt hiff.mpr hn), fun hn hf => ?_⟩)
    · exact (coming_append hwon).elim (hd.far hc (mt hiff.mpr hn)) ho
    · exact hw.trans (hd.nearWon (hiff.mp hn) hf)
    · exact hw ▸ hd.one (hiff.mp hn) hf
  | win hk hs hs' hw hgen =>
    obtain hl | hl | hf := hK hk
    · exact .inl (hleft hl)
    · exact .inr (.inl hl)
    · exact .inr (.inr ⟨fun hc _ => mt hcoming (hd.near hc hf), fun _ hn => absurd hs' hn,
        fun _ _ => hw, fun hc => absurd hc hf, fun _ hc => absurd hc hf⟩)
  | lose hc hs hs' hw hgen ho =>
    obtain hl | hl | hf := hW hc hs
    · exact .inl (hleft hl)
    · exact .inr (.inl hl)
    · have hwon := hd.farWon hf (by rw [hs]; decide)
      refine .inr (.inr ⟨fun _ hn => absurd hf hn, fun _ hn => absurd hs' hn,
        fun _ hn => absurd hf hn, fun _ hn => absurd hs' hn, fun _ _ => ?_⟩)
      change app.racingInfo.won ≠ n.far.racingInfo.won
      rw [hw, hwon]
      decide
  | leave hs hgen => exact .inl (.inl hs)
  | generate hgen => exact .inl (.inr (hlen.trans_lt hgen))

/-- The byte that comes next completes news of a win. -/
def WonNext (n : Race) : Prop :=
  (n.inn.head?.bind fun b => (accept n.near.port.decoder b).2) = some (.control infoWon)

instance (n : Race) : Decidable (WonNext n) := inferInstanceAs (Decidable (_ = _))

/-- The last key is hit before the opponent has finished, and news of a win ends the test only
when the opponent has, or has left the race. -/
def InTime (n : Race) : Act → Prop
  | .key keyboard => LastKey n.near keyboard → n.far.typingInfo.status ≠ .finished
  | .receive => WonNext n → n.near.typingInfo.status = .typing →
      n.far.typingInfo.status = .finished ∨ n.far.typingInfo.status = .unready
  | _ => True

def SameRace (G H : List UInt32) (n : Race) : Prop :=
  n.near.generated = G ∧ n.far.generated = H

instance (n : Race) : (a : Act) → Decidable (InTime n a)
  | .key _ | .receive => inferInstanceAs (Decidable (_ → _))
  | .ready _ | .timer => .isTrue trivial

instance (G H : List UInt32) (n : Race) : Decidable (SameRace G H n) := by
  unfold SameRace
  infer_instance

theorem left_of_not_sameRace (h : Inv clean G H n) (hn : ¬ SameRace G H n) :
    Left G n.near ∨ Left H n.far := by
  by_contra hc
  obtain ⟨h1, h2⟩ := not_or.mp hc
  exact hn ⟨h.near.grown.resolve_right fun hg => h1 (.inr hg),
    h.far.grown.resolve_right fun hg => h2 (.inr hg)⟩

theorem coming_of_wonNext (h : WonNext n) : Coming n.near n.inn infoWon := by
  unfold WonNext at h
  unfold Coming messages
  cases hb : n.inn with
  | nil =>
    rw [hb] at h
    cases h
  | cons b bs =>
    rw [hb, List.head?_cons, Option.bind_some] at h
    exact List.mem_append_left _ (by rw [h]; exact List.mem_cons_self)

theorem Inv.deliver (h : Inv clean G H n) {b : UInt8} {bs : List UInt8} (hn : n.inn = b :: bs) :
    Inv clean G H { n with
      near := { n.near with
        port := { n.near.port with decoder := (accept n.near.port.decoder b).1 } }
      inn := bs } := by
  obtain ⟨⟨h1, h2, h3, h4, h5⟩, hfar, hrace⟩ := h
  refine ⟨⟨h1, h2, h3, h4, h5⟩, hfar, hrace.imp_right (.imp_right fun hd => ?_)⟩
  refine ⟨fun hc hf hwon => hd.near hc hf ?_, hd.far, hd.nearWon, hd.farWon, hd.one⟩
  unfold Coming messages
  rw [hn]
  exact List.mem_append_right _ hwon

theorem Inv.act (h : Inv clean G H n) {a : Act} (hp : SameRace G H n → InTime n a)
    (hn : act random n a = some n') : Inv clean G H n' := by
  have hout : infoWon ∉ thrBytes n.near.port.out := by
    rw [h.near.out]
    exact List.not_mem_nil
  cases a with
  | ready now =>
    cases hn
    exact h.turn (turn_raceReadyButton (K := False) (W := False) h.near.answers hout now)
      ((keeps_raceReadyButton now n.near).valid h.near.valid) False.elim False.elim
  | timer =>
    cases hn
    exact h.turn (turn_timerInterrupt (K := False) (W := False) h.near.answers hout)
      ((keeps_timerInterrupt n.near).valid h.near.valid) False.elim False.elim
  | key keyboard =>
    obtain ⟨app, happ, rfl⟩ := Option.map_eq_some_iff.mp hn
    obtain ⟨ht, -⟩ := turn_key (W := False) h.near.valid h.near.answers hout keyboard happ
    refine h.turn ht ((keeps_typingInputHandler happ).valid h.near.valid) (fun hk => ?_) False.elim
    by_cases hs : SameRace G H n
    · exact .inr (.inr (hp hs hk))
    · exact (left_of_not_sameRace h hs).imp_right .inl
  | receive =>
    simp only [RaceLink.act] at hn
    cases hb : n.inn with
    | nil =>
      rw [hb] at hn
      cases hn
    | cons b bs =>
      rw [hb] at hn
      obtain ⟨app, happ, rfl⟩ := Option.map_eq_some_iff.mp hn
      have hd := h.deliver hb
      rw [App.serialInterrupt, if_neg (fun hc => hc h.near.screen)] at happ
      simp only at happ
      cases hm : (accept n.near.port.decoder b).2 with
      | none =>
        rw [show (serialSwitch (fresh b) n.near.port.decoder).2 = none from hm] at happ
        cases happ
        refine hd.turn (K := False) (W := False) (turn_keep rfl rfl rfl rfl [] (by simp)
          h.near.answers rfl (by decide) hout) h.near.valid False.elim False.elim
      | some m =>
        rw [show (serialSwitch (fresh b) n.near.port.decoder).2 = some m from hm] at happ
        refine hd.turn (turn_handleMessage hd.near.answers hout happ)
          ((keeps_handleMessage happ).valid hd.near.valid) False.elim fun hwon htyping => ?_
        by_cases hs : SameRace G H n
        · have hnext : WonNext n := by
            rw [WonNext, hb, List.head?_cons, Option.bind_some, hm, hwon]
          exact (hp hs hnext htyping).elim (fun hf => .inr (.inr hf)) fun hu => .inr (.inl (.inl hu))
        · exact (left_of_not_sameRace h hs).imp_right .inl

end Invariant

section Main

/-- In the race there is one winner at most, and exactly one in the end. -/
def OneWinner (G H : List UInt32) (n : Race) : Prop :=
  SameRace G H n → n.near.typingInfo.status = .finished → n.far.typingInfo.status = .finished →
    ¬ (n.near.racingInfo.won = true ∧ n.far.racingInfo.won = true) ∧
      (n.out = [] → n.inn = [] → n.near.racingInfo.won ≠ n.far.racingInfo.won)

instance (G H : List UInt32) (n : Race) : Decidable (OneWinner G H n) := by
  unfold OneWinner
  infer_instance

/-- Both programs count down, whatever has been left of the handshake. -/
structure CountingDown (n : Race) : Prop where
  near : Peer n.near.generated n.near
  far : Peer n.far.generated n.far
  ready : n.near.typingInfo.status = .ready ∧ n.far.typingInfo.status = .ready

/-- Besides, no news of an earlier win is on its way. -/
structure Countdown (n : Race) : Prop extends CountingDown n where
  won : ¬ Coming n.near n.inn infoWon ∧ ¬ Coming n.far n.out infoWon

variable {random : UInt32 → Nat → Nat} {clean : Prop} {G H : List UInt32} {n n' : Race}

theorem CountingDown.inv (h : CountingDown n) (hclean : clean → Countdown n) :
    Inv clean n.near.generated n.far.generated n := by
  have hne {t : TypingInfo} (ht : t.status = .ready) : t.status ≠ .finished := by
    rw [ht]
    decide
  exact ⟨h.near, h.far, .inr (.inr ⟨fun hc _ => (hclean hc).won.1, fun hc _ => (hclean hc).won.2,
    fun hc => absurd hc (hne h.ready.1), fun hc => absurd hc (hne h.ready.2),
    fun hc => absurd hc (hne h.ready.1)⟩)⟩

theorem not_left {app : App} (hs : app.typingInfo.status ≠ .unready) (hg : app.generated = G) :
    ¬ Left G app := by
  rintro (hu | hl)
  · exact hs hu
  · rw [hg] at hl
    exact absurd hl (lt_irrefl _)

theorem Inv.decided (h : Inv clean G H n) (hs : SameRace G H n)
    (hn : n.near.typingInfo.status ≠ .unready) (hf : n.far.typingInfo.status ≠ .unready) :
    Decided clean n :=
  (h.race.resolve_left (not_left hn hs.1)).resolve_left (not_left hf hs.2)

theorem Inv.oneWinner (h : Inv clean G H n) : OneWinner G H n := by
  intro hs hn hf
  have hne := (h.decided hs (by rw [hn]; decide) (by rw [hf]; decide)).one hn hf
  exact ⟨fun ⟨h1, h2⟩ => hne (h1.trans h2.symm), fun _ _ => hne⟩

theorem OneWinner.swap (h : OneWinner G H n) : OneWinner H G n.swap := by
  intro hs hn hf
  obtain ⟨h1, h2⟩ := h hs.symm hf hn
  exact ⟨fun hc => h1 hc.symm, fun ho hi => (h2 hi ho).symm⟩

/-- A last key that comes too late makes a second winner. -/
theorem late_key_breaks (random : UInt32 → Nat → Nat) (h : Inv clean G H n) {keyboard : Keyboard}
    (hs : SameRace G H n) (hk : LastKey n.near keyboard)
    (hf : n.far.typingInfo.status = .finished) :
    ∃ n', act random n (.key keyboard) = some n' ∧ ¬ OneWinner G H n' := by
  obtain ⟨app, happ, -, -⟩ := handler_valid { n.near with keyboard := keyboard } h.near.valid true
  have hout : infoWon ∉ thrBytes n.near.port.out := by
    rw [h.near.out]
    exact List.not_mem_nil
  obtain ⟨-, hlast⟩ := turn_key (W := False) h.near.valid h.near.answers hout keyboard happ
  obtain ⟨h1, h2, h3⟩ := hlast hk
  have hd := h.decided hs (by rw [hk.typing]; decide) (by rw [hf]; decide)
  have hwon := hd.farWon hf (by rw [hk.typing]; decide)
  refine ⟨_, by simp only [RaceLink.act, react, happ]; rfl, fun hw => ?_⟩
  exact (hw ⟨h3.trans hs.1, hs.2⟩ h1 hf).1 ⟨h2, hwon⟩

/-- What an acting program must not do in the race. -/
def Guard (G H : List UInt32) (n : Race) (e : Side × Act) : Prop :=
  SameRace G H n → Seen InTime n e

instance (G H : List UInt32) (n : Race) (e : Side × Act) : Decidable (Guard G H n e) := by
  unfold Guard
  infer_instance

theorem Inv.step (h : Inv clean G H n) {e : Side × Act} (hp : Guard G H n e)
    (hn : step (RaceLink.act random) n e = some n') : Inv clean G H n' := by
  obtain ⟨side, a⟩ := e
  obtain ⟨d, hd, rfl⟩ := Option.map_eq_some_iff.mp hn
  cases side with
  | left => exact h.act hp hd
  | right => exact (h.swap.act (fun hs => hp hs.symm) hd).swap

/-- In a race that began clean the news of a win comes from a program that has finished. -/
theorem Inv.receive_inTime (h : Inv True G H n) (hs : SameRace G H n) : InTime n .receive := by
  intro hnext htyping
  by_cases hu : n.far.typingInfo.status = .unready
  · exact .inr hu
  · by_contra hf
    have hd := h.decided hs (by rw [htyping]; decide) hu
    exact hd.near trivial (fun hc => hf (.inl hc)) (coming_of_wonNext hnext)

theorem guarded_of_oneWinner {es : List (Side × Act)} (h : Inv True G H n)
    (hw : ∀ fs, fs <+: es → ∀ n', run (step (act random)) n fs = some n' → OneWinner G H n') :
    Guarded (step (act random)) (Guard G H) n es := by
  induction es generalizing n with
  | nil => trivial
  | cons e es ih =>
    have hguard : Guard G H n e := by
      obtain ⟨side, a⟩ := e
      intro hs
      have hprefix : [(side, a)] <+: (side, a) :: es := ⟨es, rfl⟩
      cases a with
      | key keyboard =>
        intro hk hf
        cases side with
        | left =>
          obtain ⟨n', hn', hbreak⟩ := late_key_breaks random h hs hk hf
          refine hbreak (hw _ hprefix n' ?_)
          simp only [run, Library.Duplex.step, Link.view, hn', Option.map_some, Option.bind_some]
        | right =>
          obtain ⟨n', hn', hbreak⟩ := late_key_breaks random h.swap hs.symm hk hf
          refine hbreak (hw _ hprefix n'.swap ?_).swap
          simp only [run, Library.Duplex.step, Link.view, hn', Option.map_some, Option.bind_some]
      | receive =>
        cases side with
        | left => exact h.receive_inTime hs
        | right => exact h.swap.receive_inTime hs.symm
      | ready | timer => trivial
    refine ⟨hguard, fun t ht => ih (h.step hguard ht) fun fs hfs n' hn' => ?_⟩
    refine hw (e :: fs) (List.cons_prefix_cons.mpr ⟨rfl, hfs⟩) n' ?_
    rw [run, ht]
    exact hn'

/-- There is one winner in every state of a run in which no last key comes too late and no news
of an earlier win is taken for that of the opponent. Where no such news is on its way at the start,
there is one winner in every state only then. -/
theorem one_winner_iff (h : CountingDown n) (es : List (Side × Act)) :
    (Guarded (step (act random)) (Guard n.near.generated n.far.generated) n es →
      ∀ fs, fs <+: es → ∀ n', run (step (act random)) n fs = some n' →
        OneWinner n.near.generated n.far.generated n') ∧
    (Countdown n → (∀ fs, fs <+: es → ∀ n', run (step (act random)) n fs = some n' →
        OneWinner n.near.generated n.far.generated n') →
      Guarded (step (act random)) (Guard n.near.generated n.far.generated) n es) := by
  refine ⟨fun hg fs hfs n' hn' => ?_, fun hc => guarded_of_oneWinner (h.inv fun _ => hc)⟩
  have hinv := h.inv (False.elim : False → Countdown n)
  exact (invariant (fun _ _ _ hi hp hs => hi.step hp hs) hinv (hg.earlier hfs) hn').oneWinner

end Main

section Runs

def letter : TypingInfo := (Typing.generateText oneWord noRandom 1 5).getD {}

def racer : App := { currAppState := .raceState, typingInfo := letter, generated := [5] }

def letterRace : Race := ⟨racer, racer, [], []⟩

theorem countdown_letterRace : Countdown letterRace := by
  have hgen : Typing.generateText oneWord noRandom 1 5 = some letter := by decide +kernel
  have hpeer : Peer [5] racer := ⟨rfl, rfl, rfl, .generate hgen, .inl rfl⟩
  exact ⟨⟨hpeer, hpeer, by decide +kernel, by decide +kernel⟩, nofun, nofun⟩

def keyA : Act := .key { scancode := 0x1E }

/-- The left player finishes, and the right one hears of it before its own last key. -/
def fairRun : List (Side × Act) :=
  [(.left, .timer), (.right, .timer), (.left, keyA), (.right, .receive), (.right, keyA)]

theorem one_winner_iff_fair : OneWinner letterRace.near.generated letterRace.far.generated
    ((run (step (act noRandom)) letterRace fairRun).getD letterRace) :=
  (@one_winner_iff noRandom letterRace countdown_letterRace.toCountingDown fairRun).1
    (by decide +kernel) fairRun List.prefix_rfl _ (by decide +kernel)

/-- Both players finish before either hears of it. -/
def closeRun : List (Side × Act) :=
  [(.left, .timer), (.right, .timer), (.left, keyA), (.right, keyA)]

theorem close_race_two_winners : Countdown letterRace ∧
    letterRace.near.typingInfo.generatedText = letterRace.far.typingInfo.generatedText ∧
    ∃ n, run (step (act noRandom)) letterRace closeRun = some n ∧
      n.near.typingInfo.status = .finished ∧ n.far.typingInfo.status = .finished ∧
      n.near.racingInfo.won = true ∧ n.far.racingInfo.won = true ∧
      ¬ OneWinner letterRace.near.generated letterRace.far.generated n :=
  ⟨countdown_letterRace, rfl, (run (step (act noRandom)) letterRace closeRun).getD letterRace,
    by decide +kernel, by decide +kernel, by decide +kernel, by decide +kernel, by decide +kernel,
    by decide +kernel⟩

end Runs

end WriteWise.RaceWinner
