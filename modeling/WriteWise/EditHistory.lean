import WriteWise.Library.LineEditor
import WriteWise.TestEnd

namespace WriteWise.EditHistory

open Library.Runs Library.LineEditor Scancode Serial Typing TypingSession Program RunInvariant
  TestEnd

def editKey (bound : Nat) (keyboard : Keyboard) (e : Editor UInt8) : Editor UInt8 :=
  if keyboard.scancode = backspaceScancode then e.erase
  else
    let c := getCharFromMakecode keyboard keyboard.scancode
    if 0 < c.toInt8 then e.append bound c else e

def editAct (bound : Nat) (e : Editor UInt8) : Act → Editor UInt8
  | .key _ keyboard => editKey bound keyboard e
  | .timer => e
  | .opponentWon => e

/-- The abstract editor after a test, which starts with the empty line. -/
def edit (bound : Nat) (acts : List Act) : Editor UInt8 := acts.foldl (editAct bound) {}

/-- The share of the line that was right from the first try on. -/
def accuracy (g : List UInt8) (e : Editor UInt8) : ℚ :=
  if e.line.length = 0 then 100
  else 100 * (e.line.length - Nat.count (e.Mistyped g) e.line.length : Nat) / e.line.length

/-- The buffers of a session hold the line of the editor, and the marks its history. -/
structure Refines (g : List UInt8) (e : Editor UInt8) (t : TypingInfo) (s : List UInt8)
    (m : List Bool) : Prop where
  session : Session t g s m
  line : s.take t.typingCursor = e.line
  marks : ∀ i, m[i]? = some true ↔ e.Mistyped g i

namespace Refines

variable {g s : List UInt8} {e : Editor UInt8} {t u : TypingInfo} {m : List Bool}

theorem length (h : Refines g e t s m) : e.line.length = t.typingCursor := by
  have hlen := h.session.typedLength
  have hcur := h.session.cursor
  rw [← h.line, List.length_take]
  omega

theorem congr (h : Refines g e t s m) (ht : SameTest t u) : Refines g e u s m :=
  ⟨ht.session h.session, ht.cursor ▸ h.line, h.marks⟩

theorem count (h : Refines g e t s m) (n : Nat) :
    mistakesBelow m n = Nat.count (e.Mistyped g) n :=
  count_congr fun i _ => h.marks i

theorem acc (h : Refines g e t s m) : (calcTypingStatus t).acc = accuracy g e := by
  have hle := h.session.total_le
  have hlt := h.session.typedChars_lt
  simp only [calcTypingStatus, accuracy, h.length, ← h.count]
  rw [← h.session.total, ← h.session.typedChars, sizeSub_of_le hlt hle]

theorem complete (h : Refines g e t s m) (hc : Complete t) : e.line = g := by
  have hr := (right_iff_complete h.session).mpr hc
  simpa only [Right, h.session.typed, h.session.generated, Option.map_some, Option.some.injEq,
    cString_typed h.session, cString_append_zero h.session.nulFree, h.line] using hr

theorem erase (h : Refines g e t s m) : ∃ u, Typing.eraseChar t = some u ∧ u.status = t.status ∧
    Refines g e.erase u (s.set (t.typingCursor - 1) 0) m := by
  obtain ⟨u, hu, hst, -, hcur, hsess⟩ := h.session.eraseChar
  have hlen := h.session.typedLength
  have hle := h.session.cursor
  refine ⟨u, hu, hst, hsess, ?_, h.marks⟩
  rw [hcur, List.take_set_of_le le_rfl, Editor.erase, ← h.line, List.dropLast_take (by omega)]

theorem append (h : Refines g e t s m) (hlt : t.typingCursor < g.length) {c : UInt8}
    (hc : 0 < c.toInt8) : ∃ u s' m', Typing.typeChar c t = some u ∧ u.status = t.status ∧
      Refines g (e.append g.length c) u s' m' := by
  obtain ⟨u, hu, hst, -, hcur, mark, hmark, hsess⟩ := h.session.typeChar hlt hc
  have hlen := h.session.typedLength
  have hml := h.session.mistakesLength
  have hlt' : e.line.length < g.length := by rwa [h.length]
  refine ⟨u, _, _, hu, hst, hsess, ?_, fun i => ?_⟩
  · rw [hcur, append_of_lt hlt', ← h.line, List.take_add_one, List.take_set_of_le le_rfl,
      List.getElem?_set_self (by omega), Option.toList_some]
  · rw [mistyped_append hlt', h.length]
    by_cases hi : i = t.typingCursor
    · subst hi
      rw [List.getElem?_set_self (by omega), Option.some.injEq, hmark, h.marks]
      exact or_congr .rfl (by rw [ne_comm]; simp)
    · rw [List.getElem?_set_ne (Ne.symm hi), h.marks]
      simp [hi]

/-- The handler in a started test does what the editor does, and ends the test only with
the whole text. -/
theorem key (app : App) (hs : app.typingInfo.status = .typing)
    (h : Refines g e app.typingInfo s m) (isRace : Bool) :
    ∃ u s' m', Refines g (editKey g.length app.keyboard e) u s' m' ∧ u.status = .typing ∧
      (app.typingInputHandler isRace = some { app with typingInfo := u } ∨
        app.typingInputHandler isRace = some (finish isRace { app with typingInfo := u }) ∧
          Complete u ∧ g ≠ []) := by
  have hr : ¬ ((!isRace) = true ∧ app.typingInfo.status = .ready) := by
    rw [hs]
    exact fun hr => nomatch hr.2
  simp only [App.typingInputHandler, if_neg hr, editKey]
  simp only [hs, if_true]
  by_cases hb : app.keyboard.scancode = backspaceScancode
  · obtain ⟨u, hu, hst, hn⟩ := h.erase
    rw [if_pos hb, if_pos hb, hu]
    exact ⟨u, _, m, hn, hst.trans hs, .inl rfl⟩
  rw [if_neg hb, if_neg hb, h.session.size]
  by_cases hc : 0 < (getCharFromMakecode app.keyboard app.keyboard.scancode).toInt8
  · rw [if_pos hc]
    by_cases hlt : app.typingInfo.typingCursor < g.length
    · obtain ⟨u, s', m', hu, hst, hn⟩ := h.append hlt hc
      refine ⟨u, s', m', hn, hst.trans hs, ?_⟩
      rw [if_pos hlt, hu, Option.map_some]
      by_cases hcomp : Complete u
      · exact .inr ⟨congrArg some (if_pos hcomp), hcomp, List.ne_nil_of_length_pos (by omega)⟩
      · exact .inl (congrArg some (if_neg hcomp))
    · rw [if_neg hlt, append_of_le (by rw [h.length]; omega)]
      exact ⟨_, s, m, h, hs, .inl rfl⟩
  · rw [if_neg hc]
    refine ⟨_, s, m, h, hs, ?_⟩
    by_cases hlt : app.typingInfo.typingCursor < g.length
    · have hu : typeChar (getCharFromMakecode app.keyboard app.keyboard.scancode)
          app.typingInfo = some app.typingInfo := if_neg hc
      rw [if_pos hlt, hu, Option.map_some]
      by_cases hcomp : Complete app.typingInfo
      · exact .inr ⟨congrArg some (if_pos hcomp), hcomp, List.ne_nil_of_length_pos (by omega)⟩
      · exact .inl (congrArg some (if_neg hcomp))
    · exact .inl (if_neg hlt)

end Refines

variable (random : UInt32 → Nat → Nat) {g : List UInt8} {e : Editor UInt8} {won : Prop}

theorem opponentWon_defined {app : App} (hs : app.typingInfo.status ≠ .unready) :
    ∃ next, app.handleControl random infoWon = some next := by
  rw [App.handleControl, if_neg (fun hc => hs hc.1), if_neg (fun hc => hs hc.1),
    handleExit_skip _ (by decide)]
  unfold App.handleAck
  split
  · rw [if_neg (by decide), if_neg (by decide), if_neg (by decide)]
    exact ⟨_, rfl⟩
  · exact ⟨_, rfl⟩

/-- A test after some of its acts, with the note whether the opponent has won so far. -/
structure InTest (g : List UInt8) (e : Editor UInt8) (won : Prop) (t : TypingInfo) : Prop where
  refines : ∃ s m, Refines g e t s m
  begun : t.status ≠ .unready
  ended : t.status = .finished → t.acc = accuracy g e ∧ (¬ won → e.line = g ∧ g ≠ [])

/-- A key belongs to the test while the test runs, and a training key also when it starts it. -/
def KeyInTest (app : App) : Act → Prop
  | .key isRace _ =>
    app.typingInfo.status = .typing ∨ app.typingInfo.status = .ready ∧ isRace = false
  | .timer | .opponentWon => True

instance (app : App) : DecidablePred (KeyInTest app) := fun a => by
  cases a <;> dsimp only [KeyInTest] <;> infer_instance

theorem inTest_typing (won : Prop) (app : App) {s : List UInt8} {m : List Bool}
    (hs : app.typingInfo.status = .typing) (h : Refines g e app.typingInfo s m) (isRace : Bool) :
    ∃ next, app.typingInputHandler isRace = some next ∧
      InTest g (editKey g.length app.keyboard e) won next.typingInfo := by
  obtain ⟨u, s', m', hu, hst, hr | ⟨hr, hc, hg⟩⟩ := h.key app hs isRace
  · refine ⟨_, hr, ⟨s', m', hu⟩, ?_, fun hf => ?_⟩
    · rw [hst]
      decide
    · rw [hst] at hf
      cases hf
  · refine ⟨_, hr, ?_⟩
    rw [finish_typingInfo]
    have hend := hu.congr (u := { u with timeEnd := app.timerCounter, status := .finished })
      ⟨rfl, rfl, rfl, rfl, rfl, rfl, rfl, rfl⟩
    exact ⟨⟨s', m', hu.congr (.endTyping u _)⟩, nofun, fun _ => ⟨hend.acc, fun _ =>
      ⟨hu.complete hc, hg⟩⟩⟩

theorem inTest_act {app : App} {a : Act} (h : InTest g e won app.typingInfo)
    (ha : KeyInTest app a) : ∃ next, act random app a = some next ∧
      InTest g (editAct g.length e a) (won ∨ a = .opponentWon) next.typingInfo := by
  obtain ⟨s, m, hr⟩ := h.refines
  cases a with
  | key isRace keyboard =>
    obtain hs | ⟨hs, rfl⟩ := ha
    · exact inTest_typing _ { app with keyboard := keyboard } hs hr isRace
    · have hstart : ({ app with keyboard := keyboard } : App).typingInfo.status = .ready := hs
      obtain ⟨next, hn, ht⟩ := inTest_typing (won ∨ Act.key false keyboard = .opponentWon)
        (App.startTyping { app with keyboard := keyboard }) rfl (hr.congr (.start _ _)) false
      exact ⟨next, (handler_start hstart).trans hn, ht⟩
  | timer =>
    refine ⟨_, rfl, ⟨s, m, hr.congr (timer_sameTest app)⟩, ?_, ?_⟩
    · obtain he | ⟨-, ht⟩ := timer_cases app
      · rw [he]
        exact h.begun
      · rw [ht]
        decide
    · obtain he | ⟨-, ht⟩ := timer_cases app
      · rw [he]
        simpa [editAct] using h.ended
      · rw [ht]
        nofun
  | opponentWon =>
    obtain ⟨next, hn⟩ := opponentWon_defined random h.begun
    refine ⟨next, hn, ?_⟩
    rw [opponentWon_typingInfo random h.begun hn]
    unfold App.handleWon
    split
    · have hend := hr.congr (u := { app.typingInfo with
          timeEnd := app.timerCounter, status := .finished })
        ⟨rfl, rfl, rfl, rfl, rfl, rfl, rfl, rfl⟩
      exact ⟨⟨s, m, hr.congr (.endTyping _ _)⟩, nofun, fun _ => ⟨hend.acc, fun hw =>
        absurd (.inr rfl) hw⟩⟩
    · exact ⟨h.refines, h.begun, fun hf => ⟨(h.ended hf).1, fun hw => absurd (.inr rfl) hw⟩⟩

variable {random}

theorem inTest_run {app : App} {acts : List Act} (h : InTest g e won app.typingInfo)
    (hacts : Guarded (act random) KeyInTest app acts) :
    ∃ next, run (act random) app acts = some next ∧
      InTest g (acts.foldl (editAct g.length) e) (won ∨ .opponentWon ∈ acts) next.typingInfo := by
  induction acts generalizing app e won with
  | nil => exact ⟨app, rfl, by simpa using h⟩
  | cons a acts ih =>
    obtain ⟨u, hu, ht⟩ := inTest_act random h hacts.1
    obtain ⟨next, hn, hnext⟩ := ih ht (hacts.2 u hu)
    refine ⟨next, (congrArg (·.bind fun v => run (act random) v acts) hu).trans hn, ?_⟩
    simpa only [List.foldl_cons, List.mem_cons, or_assoc, eq_comm] using hnext

theorem generateText_marks {dictionary : List Word} {wordAmmount : Nat} {seed : UInt32}
    {t : TypingInfo} (hgen : generateText dictionary random wordAmmount seed = some t)
    {m : List Bool} (hm : t.mistakes = some m) (i : Nat) : m[i]? = some true ↔ False := by
  unfold generateText at hgen
  obtain ⟨r, -, rfl⟩ := Option.map_eq_some_iff.mp hgen
  obtain rfl := Option.some.inj hm
  rw [iff_false, List.getElem?_replicate]
  split <;> simp

/-- The typing engine refines the editor: after every history of keys the typed text is
the line, the marks are the positions ever mistyped, and a text typed to its end reports
the share of the positions that never were. -/
theorem typing_refines_editor {dictionary : List Word} {wordAmmount : Nat} {seed : UInt32}
    {t : TypingInfo} (hgen : generateText dictionary random wordAmmount seed = some t)
    {g : List UInt8} (hg : t.generatedText.map cString = some g) {start : App}
    (hstart : start.typingInfo = t ∨ ∃ now, start.typingInfo = startTyping now t)
    {acts : List Act} (hacts : Guarded (act random) KeyInTest start acts) :
    ∃ app, run (act random) start acts = some app ∧
      app.typingInfo.typedText.map cString = some (edit g.length acts).line ∧
      (∀ i, peek app.typingInfo.mistakes i = some true ↔ (edit g.length acts).Mistyped g i) ∧
      app.typingInfo.totalWrongChars =
        Nat.count ((edit g.length acts).Mistyped g) (edit g.length acts).line.length ∧
      (app.typingInfo.status = .finished → .opponentWon ∉ acts →
        (edit g.length acts).line = g ∧ app.typingInfo.acc =
          100 * (g.length - Nat.count ((edit g.length acts).Mistyped g) g.length : Nat) /
            g.length) := by
  obtain ⟨hready, hcur, g', s₀, m₀, hsess⟩ := generateText_session hgen
  obtain rfl : g' = g := Option.some.inj ((cString_generated hsess).symm.trans hg)
  have href : Refines g' {} t s₀ m₀ := by
    refine ⟨hsess, by rw [hcur]; rfl, fun i => ?_⟩
    rw [generateText_marks hgen hsess.mistakes]
    simp [Editor.Mistyped]
  have hin : InTest g' {} False start.typingInfo := by
    obtain h | ⟨now, h⟩ := hstart
    · rw [h]
      exact ⟨⟨s₀, m₀, href⟩, by rw [hready]; decide,
        fun hf => absurd (hready.symm.trans hf) (by decide)⟩
    · rw [h]
      exact ⟨⟨s₀, m₀, href.congr (.start t now)⟩, (fun hu => by cases hu), fun hf => by cases hf⟩
  obtain ⟨app, hr, ⟨s, m, h⟩, -, hend⟩ := inTest_run hin hacts
  refine ⟨app, hr, ?_, ?_, ?_, fun hf hw => ?_⟩
  · rw [h.session.typed, Option.map_some, cString_typed h.session, h.line]
    rfl
  · intro i
    rw [peek_some h.session.mistakes]
    exact h.marks i
  · rw [h.session.total, h.count, ← h.length]
    rfl
  · obtain ⟨hacc, hline⟩ := hend hf
    obtain ⟨hline, hg⟩ := hline (by simpa using hw)
    refine ⟨hline, ?_⟩
    rw [hacc, accuracy, if_neg (by rw [hline]; exact (List.length_pos_of_ne_nil hg).ne'), hline]
    rfl

theorem typing_refines_editor_one_letter :
    ∃ app, run (act fun _ _ => 0) { typingInfo := startTyping 0 oneLetter } oneLetterActs =
      some app ∧ app.typingInfo.typedText.map cString = some (edit 1 oneLetterActs).line ∧
      app.typingInfo.acc = 0 := by
  obtain ⟨app, hr, hline, -, -, hend⟩ := typing_refines_editor
    (show generateText [⟨[97], by decide⟩] (fun _ _ => 0) 1 5 = some oneLetter by decide +kernel)
    (show oneLetter.generatedText.map cString = some [97] by decide +kernel)
    (.inr ⟨0, show App.typingInfo { typingInfo := startTyping 0 oneLetter } = _ from rfl⟩)
    (show Guarded _ KeyInTest _ oneLetterActs by decide +kernel)
  refine ⟨app, hr, hline, ?_⟩
  have hacc := (hend (by cases hr.symm.trans rfl; decide +kernel) (by simp [oneLetterActs])).2
  rw [hacc]
  have hc : Nat.count ((edit 1 oneLetterActs).Mistyped [97]) 1 = 1 := by decide +kernel
  simp [hc]

end WriteWise.EditHistory
