import WriteWise.Proj

namespace WriteWise.Rendering

open Library.Loops Library.Runs Library.Decimal TextGeneration GeneratedText Typing RunInvariant
  TestEnd RaceSteps Graphics Program Video TextLayout ScreenFit Ui Application Display Screens Rtc
  Statistics Frames Proj

section Modes

/-- Every mode that can be set is read as it is, with pixels of one to four bytes. -/
structure Supported (vbe : MinixMode → ModeInfo) : Prop where
  resolution (button : ResolutionButton) :
    ((vbe button.mode).xResolution.toNat, (vbe button.mode).yResolution.toNat) =
      button.mode.resolution
  depth (button : ResolutionButton) :
    1 ≤ (vbe button.mode).bitsPerPixel.toNat ∧ (vbe button.mode).bitsPerPixel.toNat ≤ 32

def videoOf (vbe : MinixMode → ModeInfo) (button : ResolutionButton) : VideoState where
  currentMode := button.mode
  modeInfo := vbe button.mode
  bytesPP := ((vbe button.mode).bitsPerPixel.toNat + 7) >>> 3
  frameSize := frameOf (vbe button.mode)
  frameBuffer := frameOf (vbe button.mode)
  staticBuffer := frameOf (vbe button.mode)

def canvasOf (m : ModeInfo) (frameBuffer : List UInt8) : Screen where
  modeInfo := m
  bytesPP := UInt16.ofNat ((m.bitsPerPixel.toNat + 7) >>> 3)
  frameBuffer := frameBuffer

def blank (m : ModeInfo) (currentTheme : AppTheme) : Canvas where
  screen := canvasOf m (List.replicate (frameOf m) currentTheme.background)

variable {vbe : MinixMode → ModeInfo} {button : ResolutionButton} {frameBuffer : List UInt8}

theorem sound_canvas (hs : Supported vbe)
    (h : frameBuffer.length = frameOf (vbe button.mode)) :
    InMode (vbe button.mode) (canvasOf (vbe button.mode) frameBuffer) := by
  obtain ⟨hlow, hhigh⟩ := hs.depth button
  have hshift : ((vbe button.mode).bitsPerPixel.toNat + 7) >>> 3 =
      ((vbe button.mode).bitsPerPixel.toNat + 7) / 8 := Nat.shiftRight_eq_div_pow _ 3
  have hdepth : (canvasOf (vbe button.mode) frameBuffer).bytesPP.toNat =
      ((vbe button.mode).bitsPerPixel.toNat + 7) / 8 := by
    rw [canvasOf, hshift]
    exact UInt16.toNat_ofNat_of_lt' (by rw [UInt16.size]; omega)
  have hres := hs.resolution button
  rw [Prod.ext_iff] at hres
  obtain ⟨hx, hy⟩ := hres
  have hmax := resolution_le button.mode
  have harea : (vbe button.mode).xResolution.toNat * (vbe button.mode).yResolution.toNat ≤
      1280 * 1024 := by
    refine Nat.mul_le_mul ?_ ?_
    · exact hx.trans_le hmax.1
    · exact hy.trans_le hmax.2
  have hframe : frameOf (vbe button.mode) ≤ 1280 * 1024 * 4 := by
    rw [frameOf, hshift]
    exact Nat.mul_le_mul harea (by omega)
  refine ⟨⟨by omega, by omega, ?_, ?_⟩, rfl⟩
  · rw [hdepth, ← hshift]
    exact h
  · exact h.trans_lt (lt_of_le_of_lt hframe (by decide))

theorem length_of_sound (hs : Supported vbe) {s : Screen} (h : InMode (vbe button.mode) s)
    (hd : s.bytesPP = UInt16.ofNat (((vbe button.mode).bitsPerPixel.toNat + 7) >>> 3)) :
    s.frameBuffer.length = frameOf (vbe button.mode) ∧
      s = canvasOf (vbe button.mode) s.frameBuffer := by
  have hhigh := (hs.depth button).2
  have hshift : ((vbe button.mode).bitsPerPixel.toNat + 7) >>> 3 =
      ((vbe button.mode).bitsPerPixel.toNat + 7) / 8 := Nat.shiftRight_eq_div_pow _ 3
  obtain ⟨hsound, hmode⟩ := h
  constructor
  · rw [hsound.length, hmode, hd, frameOf,
      UInt16.toNat_ofNat_of_lt' (by rw [hshift, UInt16.size]; omega)]
  · obtain ⟨modeInfo, bytesPP, frameBuffer⟩ := s
    simp only at hmode hd
    rw [hmode, hd]
    rfl

end Modes

section Load

/-- A mode is set, and the blocks and the texts have their sizes. -/
structure Sane (vbe : MinixMode → ModeInfo) (button : ResolutionButton) (st : Station) : Prop where
  failed : st.failed = false
  video : st.ui.video = videoOf vbe button
  frameBuffer : st.frameBuffer.length = frameOf (vbe button.mode)
  staticBuffer : st.staticBuffer.length = frameOf (vbe button.mode)
  vMem : st.vMem.length = frameOf (vbe button.mode)
  ready : st.readyButtonText.length ≤ 7
  popup : st.popupText.length ≤ 4

/-- The buttons and the static picture are those of a screen that was loaded on a blank frame. -/
def Loaded (vbe : MinixMode → ModeInfo) (button : ResolutionButton) (screen : AppState)
    (st : Station) : Prop :=
  each (Part.run button.mode []) (Screens.loadScreen button.mode st.currentTheme screen)
      (blank (vbe button.mode) st.currentTheme) =
    some (⟨st.ui.buttons, canvasOf (vbe button.mode) st.staticBuffer⟩, false)

variable {vbe : MinixMode → ModeInfo} {button : ResolutionButton} {st : Station}

theorem Sane.screen (h : Sane vbe button st) :
    st.screen = canvasOf (vbe button.mode) st.frameBuffer := by
  rw [Station.screen, h.video]
  rfl

theorem erase_clearButtons (ui : UiState Face) :
    erase (clearButtons ui) = clearButtons (erase ui) := by
  unfold erase clearButtons
  rw [Vector.map_replicate]
  rfl

theorem run_blank (hs : Supported vbe) {readyButtonText : List UInt8}
    (hready : readyButtonText.length ≤ 7) (currentTheme : AppTheme) (screen : AppState) :
    ∃ c, each (Part.run button.mode readyButtonText)
        (Screens.loadScreen button.mode currentTheme screen)
        (blank (vbe button.mode) currentTheme) = some (c, false) ∧
      c.screen.frameBuffer.length = frameOf (vbe button.mode) ∧
      c.screen = canvasOf (vbe button.mode) c.screen.frameBuffer ∧
      AllFramed button.mode c.buttons ∧
      ∀ i b, c.buttons.get i = some b ↔
        .add b i.1 ∈ Screens.loadScreen button.mode currentTheme screen := by
  have hfree : ∀ (i : Fin maxAmountOfButtons) (b : Ui.Button Face),
      noButtons.get i ≠ some b := by
    intro i b hb
    simp [noButtons, Vector.get_eq_getElem] at hb
  obtain ⟨hnodup, hindex⟩ := indices_loadScreen button.mode currentTheme screen
  obtain ⟨c, hc, hin, hframed, hget⟩ := (run_parts (hs.resolution button) hready
    (fits_loadScreen button currentTheme screen) hnodup hindex
    (c := blank (vbe button.mode) currentTheme) (sound_canvas hs List.length_replicate)
    (fun i b hb => absurd hb (hfree i b))
    fun i b hb => absurd hb (hfree i b)).done_of_not_failed
  have hdepth := Preserves.each (run_depth button.mode readyButtonText) _ _ _ hc
  obtain ⟨hlen, hcanvas⟩ := length_of_sound hs hin hdepth
  exact ⟨c, hc, hlen, hcanvas, hframed, fun i b => (hget i b).trans (or_iff_right (hfree i b))⟩

theorem Loaded.spec {screen : AppState} (hs : Supported vbe) (h : Loaded vbe button screen st) :
    AllFramed button.mode st.ui.buttons ∧ ∀ i b, st.ui.buttons.get i = some b ↔
      .add b i.1 ∈ Screens.loadScreen button.mode st.currentTheme screen := by
  obtain ⟨c, hc, -, -, hframed, hget⟩ := @run_blank vbe button hs [] (Nat.zero_le _)
    st.currentTheme screen
  cases hc.symm.trans h
  exact ⟨hframed, hget⟩

theorem load_spec (hs : Supported vbe) (h : Sane vbe button st) (screen : AppState) :
    ∃ buttons frameBuffer, st.load (Screens.loadScreen button.mode st.currentTheme screen) =
        some ({ st with
          ui := { st.ui with buttons := buttons }
          frameBuffer := frameBuffer
          staticBuffer := frameBuffer }, false) ∧
      frameBuffer.length = frameOf (vbe button.mode) ∧
      each (Part.run button.mode []) (Screens.loadScreen button.mode st.currentTheme screen)
        (blank (vbe button.mode) st.currentTheme) =
          some (⟨buttons, canvasOf (vbe button.mode) frameBuffer⟩, false) ∧
      loadParts (fun _ => true) 0 (Application.loadScreen screen) (clearButtons (erase st.ui)) =
        erase { st.ui with buttons := buttons } := by
  obtain ⟨c, hc, hlen, hcanvas, -, -⟩ := run_blank hs h.ready st.currentTheme screen
  have hmode : st.ui.video.currentMode = button.mode := congrArg VideoState.currentMode h.video
  have hsize : st.ui.video.frameSize = frameOf (vbe button.mode) :=
    congrArg VideoState.frameSize h.video
  refine ⟨c.buttons, c.screen.frameBuffer, ?_, hlen, ?_, ?_⟩
  · have hclear : st.clearScreen = some { st with
        frameBuffer := List.replicate (frameOf (vbe button.mode)) st.currentTheme.background } := by
      rw [Station.clearScreen, memset, hsize, memcpy_whole h.frameBuffer List.length_replicate]
      rfl
    have hstart : (⟨noButtons, Station.screen { st with
        ui := clearButtons st.ui
        frameBuffer := List.replicate (frameOf (vbe button.mode)) st.currentTheme.background }⟩ :
          Canvas) = blank (vbe button.mode) st.currentTheme := by
      rw [Station.screen]
      simp only [clearButtons]
      rw [h.video]
      rfl
    have hparts : Station.loadParts (Screens.loadScreen button.mode st.currentTheme screen)
        { st with
          ui := clearButtons st.ui
          frameBuffer := List.replicate (frameOf (vbe button.mode))
            st.currentTheme.background } =
        some ({ st with
          ui := { st.ui with buttons := c.buttons }
          frameBuffer := c.screen.frameBuffer }, false) := by
      rw [← hstart] at hc
      rw [Station.loadParts]
      simp only [clearButtons] at hc ⊢
      rw [hmode]
      rw [noButtons] at hc
      rw [hc]
      rfl
    rw [Station.load, hclear, Option.bind_some, hparts, proceed_done, Station.calcStaticUI]
    simp only
    rw [hsize, memcpy_whole h.staticBuffer hlen]
    rfl
  · rw [← hcanvas, ← hc]
    exact run_settled _ _ (settled_loadScreen _ _ _) fun _ i b hb => by
      simp [blank, noButtons, Vector.get_eq_getElem] at hb
  · rw [← erase_loadScreen button.mode st.currentTheme, ← erase_clearButtons]
    exact run_erases hc 0 rfl

end Load

section Timer

variable {random : UInt32 → Nat → Nat} {vbe : MinixMode → ModeInfo} {dictionary : List Word}
  {button : ResolutionButton} {st : Station}

theorem mem_raceScreenLoad (currentMode : MinixMode) (currentTheme : AppTheme) {i : Nat}
    (hi : i < 2) : ∃ b, Part.add b i ∈ raceScreenLoad currentMode currentTheme := by
  obtain rfl | rfl : i = 0 ∨ i = 1 := by omega
  · exact ⟨_, List.mem_append_right _ List.mem_cons_self⟩
  · exact ⟨_, List.mem_append_right _ (List.mem_cons_of_mem _ List.mem_cons_self)⟩

theorem drawable (hs : Supported vbe) (hdict : ∀ w ∈ dictionary, Short w)
    (h : Sane vbe button st) (hloaded : Loaded vbe button st.app.currAppState st)
    {es : List Event} (hr : run (step random) (initial dictionary) es = some st.app) :
    Drawable (vbe button.mode) button st.scene := by
  obtain ⟨hframed, hget⟩ := hloaded.spec hs
  refine ⟨congrArg VideoState.currentMode h.video, hs.resolution button, hframed,
    (paced_closed hdict).reachable hr, fun hstatus => ?_, fun hrace i hi => ?_⟩
  · obtain ⟨g, typed, marks, hsess⟩ := reachable_session hr hstatus
    obtain hnone | ⟨words, hlen, hmem, htext⟩ := text_of_words hr
    · cases hnone.symm.trans hsess.generated
    · have heq := htext.symm.trans hsess.generated
      rw [Option.some.injEq] at heq
      obtain rfl : joined words = g := List.append_cancel_right heq
      exact ⟨words, _, hlen, fun w hw => hdict w (hmem w hw), View.of_session hsess⟩
  · obtain ⟨b, hb⟩ := mem_raceScreenLoad button.mode st.currentTheme hi
    have hrace' : st.app.currAppState = .raceState := hrace
    refine ⟨b, (hget i b).mpr ?_⟩
    rw [hrace']
    exact hb

/-- The frame that is drawn over the static picture is shown. -/
theorem drawScreen_spec (hs : Supported vbe) (h : Sane vbe button st)
    (hd : Drawable (vbe button.mode) button st.scene) :
    ∃ frame, st.scene.draw ⟨canvasOf (vbe button.mode) st.staticBuffer, st.readyButtonText,
        st.popupText⟩ = some (frame, false) ∧
      st.drawScreen = some ({ st with
        frameBuffer := frame.screen.frameBuffer
        vMem := frame.screen.frameBuffer
        readyButtonText := frame.readyButtonText
        popupText := frame.popupText }, false) ∧
      frame.screen.frameBuffer.length = frameOf (vbe button.mode) ∧
      frame.readyButtonText.length ≤ 7 ∧ frame.popupText.length ≤ 4 := by
  have hstatic : Held (vbe button.mode)
      (UInt16.ofNat (((vbe button.mode).bitsPerPixel.toNat + 7) >>> 3))
      ⟨canvasOf (vbe button.mode) st.staticBuffer, st.readyButtonText, st.popupText⟩ :=
    ⟨sound_canvas hs h.staticBuffer, rfl, h.ready, h.popup⟩
  obtain ⟨frame, hframe, hheld⟩ := (hd.drawn hstatic).done_of_not_failed
  obtain ⟨hlen, -⟩ := length_of_sound hs hheld.screen hheld.depth
  have hsize : st.ui.video.frameSize = frameOf (vbe button.mode) :=
    congrArg VideoState.frameSize h.video
  have hload : st.loadStaticUI = some { st with frameBuffer := st.staticBuffer } := by
    rw [Station.loadStaticUI, hsize, memcpy_whole h.frameBuffer h.staticBuffer]
    rfl
  have hstart : Station.frame { st with frameBuffer := st.staticBuffer } =
      ⟨canvasOf (vbe button.mode) st.staticBuffer, st.readyButtonText, st.popupText⟩ := by
    rw [Station.frame, Station.screen, h.video]
    rfl
  have hscene : Station.scene { st with frameBuffer := st.staticBuffer } = st.scene := rfl
  refine ⟨frame, hframe, ?_, hlen, hheld.ready, hheld.popup⟩
  rw [Station.drawScreen, hload, Option.bind_some, hstart, hscene, hframe, Option.map_some,
    proceed_done, Station.flipFrame]
  simp only
  rw [hsize, memcpy_whole h.vMem hlen]
  rfl

theorem countdownText_spec {es : List Event}
    (hr : run (step random) (initial dictionary) es = some st.app)
    (hpopup : st.popupText.length ≤ 4) :
    ∃ text, st.countdownText = some { st with popupText := text } ∧ text.length ≤ 4 ∧
      (st.app.currAppState = .raceState → st.app.typingInfo.status = .ready →
        text = decimal (Station.timeLeft st.app).toNat) := by
  unfold Station.countdownText
  split
  · rename_i hready
    have hcount := counting_reachable hr hready.1 hready.2
    have hleft : (Station.timeLeft st.app).toNat < 10 ^ 4 := by
      unfold Station.timeLeft
      simp only [frameRate] at hcount ⊢
      omega
    have hlen := @length_decimal_le _ 4 (by decide) hleft
    rw [store_some (Nat.lt_succ_of_le hlen)]
    exact ⟨_, rfl, hlen, fun _ _ => rfl⟩
  · rename_i hnot
    exact ⟨_, rfl, hpopup, fun hrace hready => absurd ⟨hrace, hready⟩ hnot⟩

/-- A round of the timer does not fail, and shows a frame over the static picture. -/
theorem timer_spec (hs : Supported vbe) (hdict : ∀ w ∈ dictionary, Short w)
    (h : Sane vbe button st) (hend : st.app.currAppState ≠ .endState)
    (hloaded : Loaded vbe button st.app.currAppState st) {es : List Event}
    (hr : run (step random) (initial dictionary) es = some st.app) (rtcIN : Registers) :
    ∃ st', st.timerInterrupt rtcIN = some st' ∧ Sane vbe button st' ∧
      st'.app = st.app.timerInterrupt ∧ st'.ui = st.ui ∧ st'.staticBuffer = st.staticBuffer ∧
      st'.currentTheme = st.currentTheme ∧ ∃ readyButtonText popupText frame,
        st'.scene.draw ⟨canvasOf (vbe button.mode) st.staticBuffer, readyButtonText, popupText⟩ =
          some (frame, false) ∧
        (st'.app.currAppState = .raceState → st'.app.typingInfo.status = .ready →
          popupText = decimal (Station.timeLeft st'.app).toNat) ∧
        st'.vMem = frame.screen.frameBuffer := by
  have hr' : run (step random) (initial dictionary) (es ++ [.timer]) =
      some st.app.timerInterrupt := run_snoc hr (if_neg hend)
  obtain ⟨clock, hclock⟩ : ∃ clock, Station.rtcUpdate rtcIN
      { st with app := st.app.timerInterrupt } = some { st with
        app := st.app.timerInterrupt
        clock := clock } := by
    unfold Station.rtcUpdate
    split
    · obtain ⟨next, failed, hr, -⟩ := rtcUpdate_ends rtcIN st.clock
      exact ⟨next, congrArg (Option.map _) hr⟩
    · exact ⟨st.clock, rfl⟩
  obtain ⟨text, htext, hlen, hcount⟩ := @countdownText_spec random dictionary
    { st with app := st.app.timerInterrupt, clock := clock } _ hr' h.popup
  have hsane : Sane vbe button { st with
      app := st.app.timerInterrupt
      clock := clock
      popupText := text } :=
    ⟨h.failed, h.video, h.frameBuffer, h.staticBuffer, h.vMem, h.ready, hlen⟩
  have hloaded' : Loaded vbe button st.app.timerInterrupt.currAppState st := by
    rw [timerInterrupt_screen]
    exact hloaded
  obtain ⟨frame, hframe, hdraw, hsize, hready, hpopup⟩ :=
    drawScreen_spec hs hsane (drawable hs hdict hsane hloaded' hr')
  have htimer : st.timerInterrupt rtcIN = some { st with
      app := st.app.timerInterrupt
      clock := clock
      frameBuffer := frame.screen.frameBuffer
      vMem := frame.screen.frameBuffer
      readyButtonText := frame.readyButtonText
      popupText := frame.popupText
      failed := false } := by
    rw [Station.timerInterrupt, hclock, Option.bind_some, htext, Option.bind_some]
    simp only
    rw [hdraw]
    rfl
  exact ⟨_, htimer, ⟨rfl, h.video, hsize, h.staticBuffer, hsize, hready, hpopup⟩, rfl, rfl, rfl,
    rfl, st.readyButtonText, text, frame, hframe, hcount, rfl⟩

end Timer

end WriteWise.Rendering
