import WriteWise.RunInvariant

namespace WriteWise.TestEnd

open Library.Runs Scancode Serial Typing TypingSession Program RunInvariant

/-- The C string in a block: the bytes before the first zero. -/
def cString (bytes : List UInt8) : List UInt8 := bytes.takeWhile fun b => b ≠ 0

def Right (t : TypingInfo) : Prop := t.typedText.map cString = t.generatedText.map cString

instance (t : TypingInfo) : Decidable (Right t) := by
  unfold Right
  infer_instance

theorem cString_append {w : List UInt8} (hw : 0 ∉ w) (more : List UInt8) :
    cString (w ++ 0 :: more) = w := by
  have hall : ∀ b ∈ w, decide (b ≠ 0) = true := by
    intro b hb
    simpa using fun hb0 : b = 0 => hw (hb0 ▸ hb)
  rw [cString, List.takeWhile_append_of_pos hall]
  simp

theorem cString_append_zero {g : List UInt8} (hg : 0 ∉ g) : cString (g ++ [0]) = g :=
  cString_append hg []

theorem cString_generated {t : TypingInfo} {g s : List UInt8} {m : List Bool}
    (h : Session t g s m) : t.generatedText.map cString = some g := by
  rw [h.generated, Option.map_some, cString_append_zero h.nulFree]

theorem typed_parts {t : TypingInfo} {g s : List UInt8} {m : List Bool} (h : Session t g s m) :
    0 ∉ s.take t.typingCursor ∧ ∃ more, s = s.take t.typingCursor ++ 0 :: more := by
  have hlen := h.typedLength
  have hcur := h.cursor
  have hk : t.typingCursor < s.length := by omega
  constructor
  · intro hz
    obtain ⟨i, hi, hiz⟩ := List.mem_take_iff_getElem.mp hz
    have hs : s[i]? = some 0 := by
      rw [List.getElem?_eq_getElem (by omega), hiz]
    exact (h.shown i 0 hs).mpr (by omega) rfl
  · have hend : s[t.typingCursor] = 0 := by
      have hz := (h.shown t.typingCursor _ (List.getElem?_eq_getElem hk)).not
      simpa using hz
    refine ⟨s.drop (t.typingCursor + 1), ?_⟩
    rw [← hend, ← List.drop_eq_getElem_cons hk, List.take_append_drop]

theorem cString_typed {t : TypingInfo} {g s : List UInt8} {m : List Bool}
    (h : Session t g s m) : cString s = s.take t.typingCursor := by
  obtain ⟨hnul, more, hs⟩ := typed_parts h
  calc cString s = cString (s.take t.typingCursor ++ 0 :: more) := by rw [← hs]
    _ = s.take t.typingCursor := cString_append hnul more

theorem complete_iff {t : TypingInfo} {g s : List UInt8} {m : List Bool} (h : Session t g s m) :
    Complete t ↔ t.typingCursor = g.length ∧ ∀ i < t.typingCursor, s[i]? = g[i]? := by
  simp only [Complete, h.typedChars, h.size, h.wrong, wrongBelow, Nat.count_iff_forall_not,
    not_not]

/-- The completion test of the handler compares the buffers, though it reads two counters only. -/
theorem right_iff_complete {t : TypingInfo} {g s : List UInt8} {m : List Bool}
    (h : Session t g s m) : Right t ↔ Complete t := by
  have hlen := h.typedLength
  have hcur := h.cursor
  have hr : Right t ↔ s.take t.typingCursor = g := by
    simp only [Right, h.typed, h.generated, Option.map_some, Option.some.injEq, cString_typed h,
      cString_append_zero h.nulFree]
  rw [hr, complete_iff h]
  constructor
  · intro he
    have hl := congrArg List.length he
    rw [List.length_take, hlen] at hl
    refine ⟨by omega, fun i hi => ?_⟩
    rw [← he, List.getElem?_take_of_lt hi]
  · rintro ⟨hl, he⟩
    apply List.ext_getElem?
    intro i
    by_cases hi : i < t.typingCursor
    · rw [List.getElem?_take_of_lt hi, he i hi]
    · rw [List.getElem?_eq_none (by rw [List.length_take]; omega),
        List.getElem?_eq_none (by omega)]

/-- What happens during a test: keys, timer ticks, and the message that the opponent has won. -/
inductive Act
  | key (isRace : Bool) (keyboard : Keyboard)
  | timer
  | opponentWon

variable (random : UInt32 → Nat → Nat)

def act (app : App) : Act → Option App
  | .key isRace keyboard => App.typingInputHandler isRace { app with keyboard := keyboard }
  | .timer => some app.timerInterrupt
  | .opponentWon => app.handleControl random infoWon

/-- The invariant of a test that has started: it runs until its text is right,
unless the opponent wins. -/
structure Started (won : Prop) (t : TypingInfo) : Prop where
  session : ∃ g s m, Session t g s m ∧ g ≠ []
  running : t.status = .typing → ¬ Right t
  ended : t.status ≠ .typing → t.status = .finished ∧ (¬ won → Right t)

structure SameTest (t u : TypingInfo) : Prop where
  generated : u.generatedText = t.generatedText
  typed : u.typedText = t.typedText
  mistakes : u.mistakes = t.mistakes
  size : u.generatedTextSize = t.generatedTextSize
  cursor : u.typingCursor = t.typingCursor
  typedChars : u.typedChars = t.typedChars
  wrong : u.wrongChars = t.wrongChars
  total : u.totalWrongChars = t.totalWrongChars

namespace SameTest

variable {t u : TypingInfo}

theorem right (h : SameTest t u) : Right u ↔ Right t := by
  rw [Right, Right, h.typed, h.generated]

theorem session (h : SameTest t u) {g s : List UInt8} {m : List Bool} (hs : Session t g s m) :
    Session u g s m :=
  hs.congr h.generated h.typed h.mistakes h.size h.cursor h.typedChars h.wrong h.total

theorem trans {v : TypingInfo} (h : SameTest t u) (h' : SameTest u v) : SameTest t v :=
  ⟨h'.generated.trans h.generated, h'.typed.trans h.typed, h'.mistakes.trans h.mistakes,
    h'.size.trans h.size, h'.cursor.trans h.cursor, h'.typedChars.trans h.typedChars,
    h'.wrong.trans h.wrong, h'.total.trans h.total⟩

theorem refl (t : TypingInfo) : SameTest t t := ⟨rfl, rfl, rfl, rfl, rfl, rfl, rfl, rfl⟩

theorem start (t : TypingInfo) (now : Nat) : SameTest t (startTyping now t) :=
  ⟨rfl, rfl, rfl, rfl, rfl, rfl, rfl, rfl⟩

theorem update (t : TypingInfo) (now : Nat) : SameTest t (updateTypingInfo now t) := by
  unfold updateTypingInfo
  split
  · exact ⟨rfl, rfl, rfl, rfl, rfl, rfl, rfl, rfl⟩
  · exact .refl t

theorem endTyping (t : TypingInfo) (now : Nat) : SameTest t (Typing.endTyping now t) :=
  ⟨rfl, rfl, rfl, rfl, rfl, rfl, rfl, rfl⟩

end SameTest

theorem halfSecond_sameTest (app : App) : SameTest app.typingInfo app.halfSecond.typingInfo := by
  unfold App.halfSecond
  split
  · exact .update _ _
  · exact .refl _

theorem halfSecond_cases (app : App) : app.halfSecond.typingInfo = app.typingInfo ∨
    app.typingInfo.status = .typing ∧ app.halfSecond.typingInfo.status = .typing := by
  unfold App.halfSecond
  split
  · by_cases hs : app.typingInfo.status = .typing
    · exact .inr ⟨hs, (status_update _ _).trans hs⟩
    · exact .inl (if_neg hs)
  · exact .inl rfl

theorem countdown_sameTest (app : App) : SameTest app.typingInfo app.countdown.typingInfo := by
  unfold App.countdown
  split
  · simp only
    split
    · exact .start _ _
    · exact .refl _
  · exact .refl _

theorem countdown_cases (app : App) : app.countdown.typingInfo = app.typingInfo ∨
    app.typingInfo.status = .ready ∧ app.countdown.typingInfo.status = .typing := by
  unfold App.countdown
  split
  · simp only
    split
    · exact .inr ⟨‹_›, rfl⟩
    · exact .inl rfl
  · exact .inl rfl

theorem timer_typingInfo (app : App) :
    app.timerInterrupt.typingInfo = app.tick.typingInfo := by
  unfold App.timerInterrupt
  simp only
  split
  · rfl
  · rfl

theorem timer_sameTest (app : App) : SameTest app.typingInfo app.timerInterrupt.typingInfo := by
  have hhalf := halfSecond_sameTest { app with timerCounter := app.timerCounter + 1 }
  rw [timer_typingInfo]
  unfold App.tick
  simp only
  split
  · exact hhalf
  split
  · exact hhalf.trans (countdown_sameTest _)
  · exact .refl _

/-- The timer brings the statistics of a running test up to date, starts a test that is
ready, and does nothing else. -/
theorem timer_cases (app : App) : app.timerInterrupt.typingInfo = app.typingInfo ∨
    (app.typingInfo.status = .typing ∨ app.typingInfo.status = .ready) ∧
      app.timerInterrupt.typingInfo.status = .typing := by
  have hhalf := halfSecond_cases { app with timerCounter := app.timerCounter + 1 }
  rw [timer_typingInfo]
  unfold App.tick
  simp only
  split
  · exact hhalf.imp_right fun h => ⟨.inl h.1, h.2⟩
  split
  · obtain hc | ⟨hr, hc⟩ :=
      countdown_cases (App.halfSecond { app with timerCounter := app.timerCounter + 1 })
    · rw [hc]
      exact hhalf.imp_right fun h => ⟨.inl h.1, h.2⟩
    · obtain he | he := hhalf
      · exact .inr ⟨.inr (he ▸ hr), hc⟩
      · exact .inr ⟨.inl he.1, hc⟩
  · exact .inl rfl

theorem timer_status {app : App} (hs : app.typingInfo.status ≠ .ready) :
    app.timerInterrupt.typingInfo.status = app.typingInfo.status := by
  obtain h | ⟨h | h, ht⟩ := timer_cases app
  · rw [h]
  · rw [h, ht]
  · exact absurd h hs

theorem opponentWon_typingInfo {app next : App} (hs : app.typingInfo.status ≠ .unready)
    (h : app.handleControl random infoWon = some next) :
    next.typingInfo = (app.handleWon infoWon).typingInfo := by
  rw [App.handleControl, if_neg (fun hc => hs hc.1), if_neg (fun hc => hs hc.1),
    handleExit_skip _ (by decide)] at h
  exact (Steps.handleAck_frame h (by decide) (by decide)).1

variable {random} {won : Prop} {app next : App}

theorem Started.status_ne {t : TypingInfo} (h : Started won t) {status : TypingStatus}
    (h1 : status ≠ .typing) (h2 : status ≠ .finished) : t.status ≠ status := by
  rintro rfl
  exact h2 (h.ended h1).1

theorem Started.congr {t u : TypingInfo} (h : Started won t) (ht : SameTest t u)
    (hs : u.status = t.status) : Started won u := by
  obtain ⟨g, s, m, hsess, hg⟩ := h.session
  refine ⟨⟨g, s, m, ht.session hsess, hg⟩, fun hu => ?_, fun hu => ?_⟩
  · rw [ht.right]
    exact h.running (hs.symm.trans hu)
  · rw [ht.right, hs]
    exact h.ended (fun hc => hu (hs.trans hc))

theorem started_key (app : App) (h : Started won app.typingInfo) (isRace : Bool) :
    ∃ next, app.typingInputHandler isRace = some next ∧ Started won next.typingInfo ∧
      (app.typingInfo.status = .typing →
        (next.typingInfo.status = .finished ↔ Right next.typingInfo)) ∧
      (app.typingInfo.status ≠ .typing → next.typingInfo = app.typingInfo) := by
  obtain ⟨g, s, m, hsess, hg⟩ := h.session
  by_cases hs : app.typingInfo.status = .typing
  · obtain ⟨u, s', m', hu, hst, -, -, hr⟩ := handler_typing app hs hsess isRace
    obtain ⟨hr, hn⟩ | ⟨hr, hc⟩ := hr
    · have hnr : ¬ Right u := by
        obtain rfl | hn := hn
        · exact h.running hs
        · rwa [right_iff_complete hu]
      refine ⟨_, hr, ⟨⟨g, s', m', hu, hg⟩, fun _ => hnr, fun hc => absurd hst hc⟩, fun _ => ?_,
        fun hc => absurd hs hc⟩
      exact ⟨fun hc => absurd (hst.symm.trans hc) (by decide), fun hc => absurd hc hnr⟩
    · have hsame := SameTest.endTyping u app.timerCounter
      have hright : Right (Typing.endTyping app.timerCounter u) := by
        rw [hsame.right, right_iff_complete hu]
        exact hc
      refine ⟨_, hr, ?_, ?_, fun hc => absurd hs hc⟩
      · rw [finish_typingInfo]
        exact ⟨⟨g, s', m', hsame.session hu, hg⟩, nofun, fun _ => ⟨rfl, fun _ => hright⟩⟩
      · rw [finish_typingInfo]
        exact fun _ => ⟨fun _ => hright, fun _ => rfl⟩
  · have hr : app.typingInfo.status ≠ .ready := h.status_ne (by decide) (by decide)
    exact ⟨app, handler_idle hs (.inr hr), h, fun hc => absurd hc hs, fun _ => rfl⟩

theorem started_act (h : Started won app.typingInfo) {a : Act} (ha : act random app a = some next) :
    Started (won ∨ a = .opponentWon) next.typingInfo := by
  cases a with
  | key isRace keyboard =>
    obtain ⟨u, hu, hst, -⟩ := started_key { app with keyboard := keyboard } h isRace
    cases hu.symm.trans ha
    simpa using hst
  | timer =>
    cases ha
    have hr : app.typingInfo.status ≠ .ready := h.status_ne (by decide) (by decide)
    simpa using h.congr (timer_sameTest app) (timer_status hr)
  | opponentWon =>
    have hu : app.typingInfo.status ≠ .unready := h.status_ne (by decide) (by decide)
    obtain ⟨g, s, m, hsess, hg⟩ := h.session
    rw [opponentWon_typingInfo random hu ha]
    have hwon : won ∨ Act.opponentWon = .opponentWon := .inr rfl
    unfold App.handleWon
    split
    · have hsame := SameTest.endTyping app.typingInfo app.timerCounter
      exact ⟨⟨g, s, m, hsame.session hsess, hg⟩, nofun, fun _ => ⟨rfl, fun hn => absurd hwon hn⟩⟩
    · exact ⟨⟨g, s, m, hsess, hg⟩, h.running, fun hc => ⟨(h.ended hc).1, fun hn => absurd hwon hn⟩⟩

theorem started_run {acts : List Act} (h : Started won app.typingInfo)
    (hr : run (act random) app acts = some next) :
    Started (won ∨ .opponentWon ∈ acts) next.typingInfo := by
  induction acts generalizing app won with
  | nil =>
    cases hr
    simpa using h
  | cons a acts ih =>
    obtain ⟨u, hu, hr⟩ := run_cons_some hr
    have hn := ih (started_act h hu) hr
    simpa only [List.mem_cons, or_assoc, eq_comm] using hn

theorem finished_run {acts : List Act} (h : Started won app.typingInfo)
    (hs : app.typingInfo.status ≠ .typing) (hr : run (act random) app acts = some next) :
    next.typingInfo.status ≠ .typing := by
  induction acts generalizing app won with
  | nil =>
    cases hr
    exact hs
  | cons a acts ih =>
    obtain ⟨u, hu, hr⟩ := run_cons_some hr
    refine ih (started_act h hu) ?_ hr
    cases a with
    | key isRace keyboard =>
      obtain ⟨v, hv, -, -, hidle⟩ := started_key { app with keyboard := keyboard } h isRace
      cases hv.symm.trans hu
      rw [hidle hs]
      exact hs
    | timer =>
      cases hu
      rw [timer_status (h.status_ne (by decide) (by decide))]
      exact hs
    | opponentWon =>
      rw [opponentWon_typingInfo random (h.status_ne (by decide) (by decide)) hu, App.handleWon,
        if_neg fun hc => hs hc.1]
      exact hs

/-- A test ends with the first key after which the typed text is the generated
one, and with no other key. Without that it ends only when the opponent wins. -/
theorem test_ends_exactly {dictionary : List Word} {wordAmmount : Nat} {seed : UInt32}
    {t : TypingInfo} (hgen : generateText dictionary random wordAmmount seed = some t)
    (hne : t.generatedTextSize ≠ 0) {start : App} {now : Nat}
    (hstart : start.typingInfo = startTyping now t) {acts : List Act}
    (hr : run (act random) start acts = some app) :
    (app.typingInfo.status = .typing → ¬ Right app.typingInfo) ∧
      (app.typingInfo.status = .finished → .opponentWon ∉ acts → Right app.typingInfo) ∧
      ∀ isRace keyboard, ∃ next, act random app (.key isRace keyboard) = some next ∧
        ((app.typingInfo.status = .typing ∧ next.typingInfo.status = .finished) ↔
          Right next.typingInfo ∧ ∀ earlier, earlier <+: acts → ∀ u,
            run (act random) start earlier = some u → ¬ Right u.typingInfo) := by
  have hs : Started False start.typingInfo := by
    obtain ⟨-, hcur, g, s, m, hsess⟩ := generateText_session hgen
    have hsess' : Session (startTyping now t) g s m :=
      hsess.congr rfl rfl rfl rfl rfl rfl rfl rfl
    have hg : g ≠ [] := by
      rintro rfl
      exact hne (hsess.size)
    rw [hstart]
    refine ⟨⟨g, s, m, hsess', hg⟩, fun _ => ?_, fun hc => absurd rfl hc⟩
    rw [right_iff_complete hsess']
    intro hc
    have h0 : t.typedChars = t.generatedTextSize := hc.1
    rw [hsess.typedChars, hcur] at h0
    exact hne h0.symm
  have ha := started_run hs hr
  refine ⟨ha.running, fun hf hw => ?_, fun isRace keyboard => ?_⟩
  · exact (ha.ended (by rw [hf]; decide)).2 (by simpa using hw)
  obtain ⟨next, hn, -, htyp, hidle⟩ := started_key { app with keyboard := keyboard } ha isRace
  refine ⟨next, hn, fun ⟨h1, h2⟩ => ⟨(htyp h1).mp h2, fun earlier he u hu => ?_⟩,
    fun ⟨h1, h2⟩ => ?_⟩
  · have hst := started_run hs hu
    refine hst.running ?_
    by_contra hut
    obtain ⟨later, rfl⟩ := he
    rw [run_append, hu, Option.bind_some] at hr
    exact absurd h1 (finished_run hst hut hr)
  · have hnow := h2 acts List.prefix_rfl app hr
    have ht : app.typingInfo.status = .typing := by
      by_contra hc
      have he := hidle hc
      rw [he] at h1
      exact hnow h1
    exact ⟨ht, (htyp ht).mpr h1⟩

def oneLetter : TypingInfo := (generateText [⟨[97], letter_noZero⟩] (fun _ _ => 0) 1 5).getD {}

/-- The key `s` by mistake, a timer tick, the backspace key and the key `a`. -/
def oneLetterActs : List Act :=
  [.key true { scancode := 0x1F }, .timer, .key true { scancode := 0x0E },
    .key true { scancode := 0x1E }]

theorem test_ends_exactly_one_letter :
    Right ((run (act fun _ _ => 0) { typingInfo := startTyping 0 oneLetter }
      oneLetterActs).getD {}).typingInfo :=
  (@test_ends_exactly (fun _ _ => 0) _ [⟨[97], by decide⟩] 1 5 oneLetter (by decide +kernel)
    (by decide +kernel) { typingInfo := startTyping 0 oneLetter } 0 rfl oneLetterActs
    (show run (act fun _ _ => 0) { typingInfo := startTyping 0 oneLetter } oneLetterActs =
      some ((run (act fun _ _ => 0) { typingInfo := startTyping 0 oneLetter }
        oneLetterActs).getD {}) by decide +kernel)).2.1
    (by decide +kernel) (by simp [oneLetterActs])

end WriteWise.TestEnd
