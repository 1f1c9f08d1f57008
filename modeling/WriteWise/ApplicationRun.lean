import WriteWise.Clicks

namespace WriteWise.ApplicationRun

open Library.Runs Graphics Mouse Typing Program Video Ui Application MouseUpdate Clicks

variable {random : UInt32 → Nat → Nat} {vbe : MinixMode → ModeInfo} {outside : Outside}
  {d u next : Desk} {c : Callback} {cs : List Callback} {packet : Packet}

/-- The program gets there by some events. -/
def Reaches (random : UInt32 → Nat → Nat) (app app' : App) : Prop :=
  ∃ es, run (step random) app es = some app'

theorem Reaches.refl (app : App) : Reaches random app app := ⟨[], rfl⟩

theorem Reaches.single {app app' : App} {e : Event} (h : step random app e = some app') :
    Reaches random app app' := by
  refine ⟨[e], ?_⟩
  simp only [run, h, Option.bind_some]

theorem Reaches.trans {app app' app'' : App} (h : Reaches random app app')
    (h' : Reaches random app' app'') : Reaches random app app'' := by
  obtain ⟨es, hes⟩ := h
  obtain ⟨fs, hfs⟩ := h'
  exact ⟨es ++ fs, run_trans hes hfs⟩

theorem reaches_called (h : Called random vbe outside d c next)
    (hscreen : c.screen = d.app.currAppState) : Reaches random d.app next.app := by
  have hclick {b : Program.Button} {app : App} (hb : b.screen = d.app.currAppState)
      (does : d.app.onClick random b outside.now = some app) : Reaches random d.app app := by
    have hend : d.app.currAppState ≠ .endState := by
      rw [← hb]
      cases b <;> decide
    have hstep : step random d.app (.click b outside.now) = some app := by
      unfold step
      rw [if_neg hend]
      exact (if_pos hb).trans does
    exact .single hstep
  cases h with
  | screen loads does => exact hclick hscreen does
  | stays loads does => exact hclick hscreen does
  | resolution => exact .refl _
  | theme => exact .refl _

theorem reaches_clicked (h : Clicked random vbe d cs next) : Reaches random d.app next.app := by
  induction h with
  | done d => exact .refl _
  | last outside call screen =>
    have hcall := reaches_called call screen
    exact hcall
  | more outside call screen stays rest ih =>
    have hcall := reaches_called call screen
    exact hcall.trans ih

theorem reaches_entered {enter : Outside} (h : Entered random packet enter d u) :
    Reaches random d.app u.app := by
  cases h with
  | stays => exact .refl _
  | enters hstart does =>
    refine .single (e := .mousePress enter.now) ?_
    unfold step
    rw [if_neg (by rw [hstart]; decide)]
    exact (if_pos hstart).trans does

theorem changeState_program {newState : AppState}
    (h : d.changeState random newState outside = some next) :
    d.app.changeState random newState outside.now = some next.app := by
  obtain ⟨app, happ, rfl⟩ := Option.map_eq_some_iff.mp h
  rw [happ]
  split
  · rfl
  · rfl

theorem keyboard_program (h : d.keyboardScancodeHandler random outside = some next) :
    App.keyboardScancodeHandler random outside.now d.app = some next.app := by
  unfold Desk.keyboardScancodeHandler at h
  unfold App.keyboardScancodeHandler
  simp only at h ⊢
  split at h
  · rw [if_pos ‹_›]
    split at h
    · rw [if_pos ‹_›]
      generalize d.app.currAppState = screen at h ⊢
      cases screen with
      | mainState => exact changeState_program h
      | _ => exact changeState_program h
    · rw [if_neg ‹_›]
      cases h
      rfl
  rw [if_neg ‹_›]
  split at h
  · rw [if_pos ‹_›]
    cases h
    rfl
  rw [if_neg ‹_›]
  split at h
  · rw [if_pos ‹_›]
    exact changeState_program h
  rw [if_neg ‹_›]
  split at h
  · rw [if_pos ‹_›]
    obtain ⟨app, happ, rfl⟩ := Option.map_eq_some_iff.mp h
    exact happ
  · rw [if_neg ‹_›]
    cases h
    rfl

theorem reaches_mainLoop {e : Input} (hplaced : Placed d.app.currAppState d.ui)
    (h : mainLoop random vbe d e = some next) : Reaches random d.app next.app := by
  have hend := not_end h
  cases e with
  | mouse packet enter answers =>
    obtain ⟨u, hentered, h⟩ := mouseInterrupt_entered (mainLoop_mouse h)
    obtain ⟨v, cs, hcs, -, rfl⟩ := mouseUpdate_clicked (hentered.placed hplaced) h
    have hclicked := reaches_clicked hcs
    exact (reaches_entered hentered).trans hclicked
  | keyboard byte outside =>
    unfold mainLoop at h
    rw [if_neg hend] at h
    refine .single (e := .keyboard byte outside.now) ?_
    unfold step
    rw [if_neg hend]
    simp only at h ⊢
    split at h
    · rw [if_pos ‹_›]
      exact keyboard_program h
    · rw [if_neg ‹_›]
      cases h
      rfl
  | timer =>
    unfold mainLoop at h
    rw [if_neg hend] at h
    cases h
    exact .single (e := .timer) (if_neg hend)
  | serial input =>
    unfold mainLoop at h
    rw [if_neg hend] at h
    obtain ⟨app, happ, rfl⟩ := Option.map_eq_some_iff.mp h
    exact .single (e := .serial input) ((if_neg hend).trans happ)
  | kernel answers =>
    unfold mainLoop at h
    rw [if_neg hend] at h
    cases h
    exact .single (e := .kernel answers) (if_neg hend)

/-- Under its interface the application is the program: what holds in every state that the
program reaches holds under every interface. -/
theorem application_reaches {dictionary : List Word} {es : List Input}
    (h : run (mainLoop random vbe) (startUp vbe dictionary) es = some d) :
    ∃ fs, run (step random) (initial dictionary) fs = some d.app := by
  refine history (I := fun es d => Tracks random vbe (startUp vbe dictionary) es d ∧
    Reaches random (initial dictionary) d.app) ?_ ⟨tracks_startUp dictionary, .refl _⟩ h |>.2
  rintro es t e u ⟨ht, hreach⟩ he
  exact ⟨ht.concat he, hreach.trans (reaches_mainLoop (ht.placed (not_end he)) he)⟩

end WriteWise.ApplicationRun
