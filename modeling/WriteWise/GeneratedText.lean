import WriteWise.RaceSteps
import WriteWise.TextGeneration

namespace WriteWise.GeneratedText

open Library.Runs Scancode Serial Typing TypingSession Program Steps RunInvariant TestEnd RaceSteps
  TextGeneration

/-- The text, if there is one, comes from a call of `generateText` for 25 words. -/
def Generated (random : UInt32 → Nat → Nat) (app : App) : Prop :=
  app.typingInfo.generatedText = none ∨
    ∃ seed t, generateText app.dictionary random 25 seed = some t ∧
      app.typingInfo.generatedText = t.generatedText

section Steps

variable {random : UInt32 → Nat → Nat} {app next : App}

theorem Generated.congr (h : Generated random app) (hd : next.dictionary = app.dictionary)
    (ht : next.typingInfo.generatedText = app.typingInfo.generatedText) :
    Generated random next := by
  rwa [Generated, hd, ht]

theorem generated_generateText {seed : UInt32} (h : app.generateText random 25 seed = some next) :
    Generated random next := by
  obtain ⟨t, ht, rfl⟩ := Option.map_eq_some_iff.mp h
  exact .inr ⟨seed, t, ht, rfl⟩

theorem generated_checkIfReady (h : app.checkIfReady random = some next)
    (hb : app.racingInfo.BothReady) : Generated random next := by
  rw [App.checkIfReady, if_pos hb] at h
  obtain ⟨u, hu, rfl⟩ := Option.map_eq_some_iff.mp h
  exact (generated_generateText hu).congr rfl rfl

theorem generated_launch {m : Message} (h : app.handleMessage random m = some next)
    (hl : Launches app m) : Generated random next := by
  cases m with
  | ulong seed =>
    obtain ⟨u, hu, rfl⟩ := Option.map_eq_some_iff.mp h
    rw [if_pos hl.1] at hu
    obtain ⟨v, hv, rfl⟩ := Option.map_eq_some_iff.mp hu
    exact (generated_checkIfReady hv hl.2).congr rfl rfl
  | control byte =>
    obtain ⟨rfl, hwait, hb⟩ := hl
    have hack : app.handleControl random infoReadyAck = app.handleAck random infoReadyAck := by
      rw [App.handleControl, if_neg fun hc => absurd hc.2 (by decide),
        if_neg fun hc => absurd hc.2 (by decide), handleWon_skip app (by decide),
        handleExit_skip app (by decide)]
    have h' : app.handleAck random infoReadyAck = some next := hack.symm.trans h
    rw [App.handleAck, if_pos hwait, if_neg (by decide), if_pos rfl] at h'
    obtain ⟨u, hu, rfl⟩ := Option.map_eq_some_iff.mp h'
    exact (generated_checkIfReady hu hb).congr rfl rfl
  | _ => exact hl.elim

theorem generated_handleMessage {m : Message} (h : Generated random app)
    (hr : app.handleMessage random m = some next) : Generated random next := by
  have hd := (keeps_handleMessage hr).dictionary
  cases (handleMessage_cases hr).2 with
  | launch hl _ => exact generated_launch hr hl
  | exit _ ht _ => exact .inl (by rw [ht]; rfl)
  | won _ hp _ => exact h.congr hd hp.generatedText
  | quiet _ hq => exact h.congr hd (by rw [hq.typingInfo])

theorem handler_running_text {isRace : Bool} (hs : app.typingInfo.status = .typing)
    (hr : app.typingInputHandler isRace = some next) :
    next.typingInfo.generatedText = app.typingInfo.generatedText := by
  rw [handler_running hs] at hr
  split at hr
  · obtain ⟨u, hu, rfl⟩ := Option.map_eq_some_iff.mp hr
    exact (eraseChar_keeps hu).2.2
  split at hr
  · obtain ⟨u, hu, rfl⟩ := Option.map_eq_some_iff.mp hr
    have ht := (typeChar_keeps hu).2.2
    split
    · rw [finish_typingInfo]
      exact ht
    · exact ht
  · cases hr
    rfl

theorem generated_handler {isRace : Bool} (h : Generated random app)
    (hr : app.typingInputHandler isRace = some next) : Generated random next := by
  refine h.congr (keeps_typingInputHandler hr).dictionary ?_
  by_cases hs : app.typingInfo.status = .typing
  · exact handler_running_text hs hr
  by_cases hidle : isRace = true ∨ app.typingInfo.status ≠ .ready
  · cases (handler_idle hs hidle).symm.trans hr
    rfl
  · obtain ⟨hrace, hready⟩ := not_or.mp hidle
    obtain rfl : isRace = false := by simpa using hrace
    rw [handler_start (not_not.mp hready)] at hr
    exact @handler_running_text app.startTyping next false rfl hr

theorem generated_changeState {newState : AppState} {now : UInt64} (h : Generated random app)
    (hr : app.changeState random newState now = some next) : Generated random next := by
  unfold App.changeState at hr
  have hexit : Generated random (if app.currAppState = .raceState then
      app.call serialPortSendExit else app) := by
    split
    · exact h.congr rfl rfl
    · exact h
  cases newState with
  | trainingState => exact generated_generateText hr
  | raceState =>
    cases hr
    exact .inl rfl
  | _ =>
    cases hr
    exact hexit.congr rfl rfl

theorem generated_step {e : Event} (h : Generated random app)
    (hr : step random app e = some next) : Generated random next := by
  cases round_of_step hr with
  | timer does =>
    subst does
    exact h.congr (keeps_timerInterrupt app).dictionary (timer_sameTest app).generated
  | serial input does =>
    unfold App.serialInterrupt at does
    split at does
    · cases does
      exact h
    simp only at does
    split at does
    · cases does
      exact h.congr rfl rfl
    · refine generated_handleMessage ?_ does
      exact h.congr rfl rfl
  | screen keyboard newState now home does =>
    refine generated_changeState ?_ does
    exact h.congr rfl rfl
  | typing byte now keyboard does =>
    refine generated_handler ?_ does
    exact h.congr rfl rfl
  | ready now screen does =>
    subst does
    exact h.congr (keeps_raceReadyButton now app).dictionary
      (by rw [(raceReadyButton_quiet app now).typingInfo])
  | reset now screen does =>
    subst does
    unfold App.raceResetButton
    split
    · exact .inl rfl
    · exact h
  | training now screen does => exact generated_generateText does
  | idle keyboard does =>
    subst does
    exact h.congr rfl rfl
  | kernel answers does =>
    subst does
    exact h.congr rfl rfl

/-- In every reachable state the text consists of 25 words of the dictionary. -/
theorem text_of_words {dictionary : List Word} {es : List Event}
    (hr : run (step random) (initial dictionary) es = some app) :
    app.typingInfo.generatedText = none ∨ ∃ words : List Word, words.length = 25 ∧
      (∀ w ∈ words, w ∈ dictionary) ∧
        app.typingInfo.generatedText = some (joined words ++ [0]) := by
  have h : Generated random app :=
    @invariant _ _ _ (fun _ _ => True) (Generated random) (fun _ _ _ hg _ hs => generated_step hg hs)
      _ _ _ (.inl rfl) (guarded_of_forall (fun _ _ _ => trivial) _) hr
  refine h.imp_right ?_
  rintro ⟨seed, t, ht, htext⟩
  rw [(keeps_runEvents hr).dictionary] at ht
  obtain ⟨words, hlen, hmem, hwords⟩ := generateText_words ht
  exact ⟨words, hlen, hmem, htext.trans hwords⟩

end Steps

end WriteWise.GeneratedText
