import WriteWise.Rtc
import WriteWise.Screens
import WriteWise.Statistics

namespace WriteWise.Frames

open Library.Loops TextGeneration Typing TypingSession Program Graphics Video Text DrawText
  TextLayout TypingView VisibleMistakes WordLines ScreenFit Ui Application Display Screens Statistics

/-- What `drawScreen` shows. -/
structure Scene where
  currAppState : AppState
  typingInfo : TypingInfo
  racingInfo : RacingInfo
  currentMode : MinixMode
  currentTheme : AppTheme
  cursor : Cursor
  rtcInfo : RtcInfo
  buttons : Buttons

/-- What `drawScreen` goes on with: the picture, and two buffers for texts. -/
structure Frame where
  screen : Screen
  readyButtonText : List UInt8
  popupText : List UInt8

def Frame.onScreen (f : Screen → Result Screen) (frame : Frame) : Result Frame :=
  (f frame.screen).map fun r => ({ frame with screen := r.1 }, r.2)

def Frame.setReadyButtonText (text : List UInt8) (frame : Frame) : Result Frame :=
  (store 8 text).map fun readyButtonText =>
    ({ frame with readyButtonText := readyButtonText }, false)

def Frame.setPopupText (text : List UInt8) (frame : Frame) : Result Frame :=
  (store 5 text).map fun popupText => ({ frame with popupText := popupText }, false)

abbrev testFuel : Nat := 2 ^ 16

section Code

variable (scene : Scene)

def Scene.text (cx cy : ℚ) (str : List UInt8) (color : ThemeColorIndex) (font : FontType) :
    Frame → Result Frame :=
  Frame.onScreen (drawTextColor scene.currentMode cx cy (-1) str
    (getThemeColor scene.currentTheme color) (getFontSize scene.currentMode font))

def Scene.button (index : Nat) (frame : Frame) : Result Frame :=
  frame.onScreen (drawButton scene.currentMode frame.readyButtonText index scene.buttons)

def Scene.typingTest : Frame → Result Frame :=
  Frame.onScreen fun s => drawTypingTest paint scene.currentMode s.modeInfo scene.typingInfo
    (1 / 2) (2 / 5) (4 / 5) (getThemeColor scene.currentTheme .textColor)
    (getThemeColor scene.currentTheme .errorColor) (getThemeColor scene.currentTheme .subtleColor)
    (getFontSize scene.currentMode .medium) testFuel s

def Scene.statistics (color : ThemeColorIndex) (frame : Frame) : Result Frame :=
  if scene.typingInfo.status = .typing ∨ scene.typingInfo.status = .finished then
    (accText scene.typingInfo).bind fun accText =>
    (wpmText scene.typingInfo).bind fun wpmText =>
    (charsText scene.typingInfo).bind fun charsText =>
    proceed (scene.text 0.3 0.25 accText color .large frame) fun frame =>
    proceed (scene.text 0.5 0.25 wpmText color .large frame) fun frame =>
    proceed (scene.text 0.7 0.25 charsText color .large frame) fun frame =>
    proceed (scene.text 0.3 0.31 (bytes "accuracy") .subtleColor .medium frame) fun frame =>
    proceed (scene.text 0.5 0.31 (bytes "wpm") .subtleColor .medium frame) fun frame =>
    scene.text 0.7 0.31 (bytes "progress") .subtleColor .medium frame
  else some (frame, false)

def Scene.training (frame : Frame) : Result Frame :=
  proceed (scene.statistics .trainingColor frame) fun frame =>
  if scene.typingInfo.status ≠ .unready then scene.typingTest frame else some (frame, false)

def Scene.raceTest (frame : Frame) : Result Frame :=
  match scene.typingInfo.status with
  | .unready =>
    let readyYou := scene.racingInfo.readyYou
    proceed (frame.setReadyButtonText
      (if scene.racingInfo.readyMe then bytes "Unready" else bytes "Ready")) fun frame =>
    proceed (scene.button 0 frame) fun frame =>
    scene.text 0.5 0.5
      (if readyYou then bytes "Other player is ready." else bytes "Other player isn't ready.")
      (if readyYou then .textColor else .errorColor) .large frame
  | _ => scene.typingTest frame

def Scene.raceCountdown (frame : Frame) : Result Frame :=
  if scene.typingInfo.status = .ready then
    scene.text 0.5 0.5 frame.popupText .raceColor .xxxlarge frame
  else some (frame, false)

def Scene.raceEnd (frame : Frame) : Result Frame :=
  if scene.typingInfo.status = .finished then
    proceed (frame.setPopupText (if scene.racingInfo.won then bytes "Won" else bytes "Lost"))
      fun frame =>
    proceed (scene.text 0.5 0.5 frame.popupText .raceColor .xxxlarge frame) fun frame =>
    scene.button 1 frame
  else some (frame, false)

def Scene.race (frame : Frame) : Result Frame :=
  proceed (scene.raceTest frame) fun frame =>
  proceed (scene.statistics .raceColor frame) fun frame =>
  proceed (scene.raceCountdown frame) fun frame =>
  scene.raceEnd frame

def Scene.body (frame : Frame) : Result Frame :=
  match scene.currAppState with
  | .trainingState => scene.training frame
  | .raceState => scene.race frame
  | _ => some (frame, false)

def Scene.clock (frame : Frame) : Result Frame :=
  if scene.currAppState ≠ .startState then
    frame.onScreen (drawRealTime scene.currentMode scene.rtcInfo
      (getThemeColor scene.currentTheme .subtleColor) (getFontSize scene.currentMode .medium))
  else some (frame, false)

/-- `drawScreen` between `loadStaticUI` and `flip_frame`. -/
def Scene.draw (frame : Frame) : Result Frame :=
  proceed (scene.clock frame) fun frame =>
  proceed (frame.onScreen (drawSelectedButton scene.currentMode scene.cursor scene.buttons))
    fun frame =>
  proceed (scene.body frame) fun frame =>
  frame.onScreen (drawCursor scene.cursor)

/-- The screens of the training and the race draw their test as `drawTest` does. -/
theorem typingTest_eq_drawTest {app : App} (ht : scene.typingInfo = app.typingInfo)
    (hscreen : app.currAppState = .trainingState ∨ app.currAppState = .raceState)
    (hs : app.typingInfo.status ≠ .unready) (frame : Frame) :
    scene.typingTest frame = frame.onScreen fun s =>
      drawTest (fun s => some (s, false)) (fun s => some (s, false)) scene.currentMode s.modeInfo app
        (getThemeColor scene.currentTheme .textColor) (getThemeColor scene.currentTheme .errorColor)
        (getThemeColor scene.currentTheme .subtleColor) testFuel s := by
  unfold Scene.typingTest drawTest
  simp only [proceed_done, if_pos (And.intro hscreen hs), proceed_end, ht]
  rfl

end Code

section Inside

/-- The picture is on the screen, and the texts are in their buffers. -/
structure Held (m : ModeInfo) (depth : UInt16) (frame : Frame) : Prop where
  screen : InMode m frame.screen
  depth : frame.screen.bytesPP = depth
  ready : frame.readyButtonText.length ≤ 7
  popup : frame.popupText.length ≤ 4

/-- What a scene must have for a frame to be drawn. -/
structure Drawable (m : ModeInfo) (button : ResolutionButton) (scene : Scene) : Prop where
  mode : scene.currentMode = button.mode
  resolution : (m.xResolution.toNat, m.yResolution.toNat) = button.mode.resolution
  framed : AllFramed button.mode scene.buttons
  paced : Paced 424 scene.typingInfo
  text : scene.typingInfo.status ≠ .unready → ∃ words typed, words.length = 25 ∧
    (∀ w ∈ words, Short w) ∧ View scene.typingInfo (joined words) typed
  race : scene.currAppState = .raceState →
    ∀ i : Fin maxAmountOfButtons, i.1 < 2 → ∃ b, scene.buttons.get i = some b

theorem getFontSize_pos (currentMode : MinixMode) (font : FontType) :
    0 < (getFontSize currentMode font).pixel ∧
      getFontSize currentMode font = fontSize (getFontSize currentMode font).pixel := by
  cases currentMode <;> cases font <;> exact ⟨Nat.succ_pos _, rfl⟩

theorem places_centred (button : ResolutionButton) :
    (∀ cx ∈ [0.3, 0.5, 0.7], Centred button.mode cx 0.25 9 (getFontSize button.mode .large).pixel) ∧
    (∀ cx ∈ [0.3, 0.5, 0.7], Centred button.mode cx 0.31 8
      (getFontSize button.mode .medium).pixel) ∧
    Centred button.mode 0.5 0.5 25 (getFontSize button.mode .large).pixel ∧
    Centred button.mode 0.5 0.5 4 (getFontSize button.mode .xxxlarge).pixel := by
  cases button <;> decide +kernel

theorem clock_room (button : ResolutionButton) :
    25 * (6 * (getFontSize button.mode .medium).pixel) + 10 ≤ button.mode.resolution.1 ∧
      10 + 7 * (getFontSize button.mode .medium).pixel ≤ button.mode.resolution.2 := by
  cases button <;> decide

variable {m : ModeInfo} {depth : UInt16} {button : ResolutionButton} {scene : Scene}
  {frame : Frame}

theorem Held.onScreen (h : Held m depth frame) {f : Screen → Result Screen} (hk : KeepsDepth f)
    (hf : Yields (InMode m) (fun _ => False) (f frame.screen)) :
    Yields (Held m depth) (fun _ => False) (frame.onScreen f) := by
  obtain ⟨s, hs, hin⟩ := hf.done_of_not_failed
  rw [Frame.onScreen, hs, Option.map_some]
  exact .done ⟨hin, (hk _ _ hs).trans h.depth, h.ready, h.popup⟩

theorem Held.setReadyButtonText (h : Held m depth frame) {text : List UInt8}
    (hlen : text.length ≤ 7) :
    Yields (Held m depth) (fun _ => False) (frame.setReadyButtonText text) := by
  rw [Frame.setReadyButtonText, store_some (Nat.lt_succ_of_le hlen)]
  exact .done ⟨h.screen, h.depth, hlen, h.popup⟩

theorem Held.setPopupText (h : Held m depth frame) {text : List UInt8} (hlen : text.length ≤ 4) :
    Yields (Held m depth) (fun _ => False) (frame.setPopupText text) := by
  rw [Frame.setPopupText, store_some (Nat.lt_succ_of_le hlen)]
  exact .done ⟨h.screen, h.depth, h.ready, hlen⟩

namespace Drawable

theorem drawn_text (hd : Drawable m button scene) (h : Held m depth frame) {cx cy : ℚ} {n : Nat}
    {font : FontType} (hc : Centred button.mode cx cy n (getFontSize button.mode font).pixel)
    {str : List UInt8} (hlen : str.length ≤ n) (color : ThemeColorIndex) :
    Yields (Held m depth) (fun _ => False) (scene.text cx cy str color font frame) := by
  obtain ⟨hpos, hsize⟩ := getFontSize_pos button.mode font
  refine h.onScreen (keepsDepth_textColor _ _ _ _ _ _ _) ?_
  rw [hd.mode, hsize]
  exact drawTextColor_inside h.screen hd.resolution hc hpos hlen _

theorem drawn_button (hd : Drawable m button scene) (h : Held m depth frame)
    {i : Fin maxAmountOfButtons} {b : Ui.Button Face} (hb : scene.buttons.get i = some b) :
    Yields (Held m depth) (fun _ => False) (scene.button i frame) := by
  obtain ⟨p, hframed⟩ := hd.framed i b hb
  refine h.onScreen (keepsDepth_button _ _ _ _) ?_
  rw [drawButton, dif_pos i.2, hb, hd.mode]
  exact drawFace_inside h.screen hd.resolution hframed (length_bytes_le h.ready)

theorem drawn_typingTest (hd : Drawable m button scene) (h : Held m depth frame)
    (hs : scene.typingInfo.status ≠ .unready) :
    Yields (Held m depth) (fun _ => False) (scene.typingTest frame) := by
  obtain ⟨words, typed, hlen, hshort, hview⟩ := hd.text hs
  obtain ⟨hlength, hrows, hroomy⟩ := roomy_joined button hshort hlen
  have hplace := placeText_test button (joined words)
  have hres := hd.resolution
  rw [Prod.ext_iff] at hres
  have hwidth := test_width button
  have hheight := test_height button hrows
  have hpos : 0 < (mediumPixel button).toNat := by
    cases button <;> decide
  rw [← hres.1] at hwidth
  rw [← hres.2, ← fontBox_yStep (joined words) (testPlace button).2.2] at hheight
  have hint : (joined words).length *
      (fontBox (joined words) (testPlace button).2.2 (mediumPixel button)).xStep < intBound := by
    have hpixel := mediumPixel_le button
    rw [fontBox_xStep]
    exact (Nat.mul_le_mul hlength (by omega : _ ≤ 12)).trans_lt (by decide)
  have hfuel : (joined words).length < testFuel := lt_of_le_of_lt hlength (by decide)
  refine h.onScreen (fun s r hr => ?_) ?_
  · rw [hd.mode, drawTypingTest_eq button.mode _ hview hfuel _ _ _ _ _ _ _ hfuel _ hplace] at hr
    exact keepsDepth_calls _ _ _ _ s r hr
  rw [hd.mode, drawTypingTest_eq button.mode _ hview hfuel _ _ _ _ _ _ _ hfuel _ hplace,
    medium_size]
  exact view_inside h.screen hpos hroomy hint hview.length hwidth hheight

theorem drawn_statistics (hd : Drawable m button scene) (h : Held m depth frame)
    (color : ThemeColorIndex) :
    Yields (Held m depth) (fun _ => False) (scene.statistics color frame) := by
  unfold Scene.statistics
  split
  · obtain ⟨hvalue, hname, -⟩ := places_centred button
    obtain ⟨⟨acc, hacc, hacclen⟩, ⟨wpm, hwpm, hwpmlen⟩, chars, hchars, hcharslen⟩ :=
      texts_fit hd.paced
    rw [hacc, hwpm, hchars]
    simp only [Option.bind_some]
    refine (hd.drawn_text h (hvalue _ (by simp)) (hacclen.trans (by decide)) _).proceed
      fun frame h => ?_
    refine (hd.drawn_text h (hvalue _ (by simp)) hwpmlen _).proceed fun frame h => ?_
    refine (hd.drawn_text h (hvalue _ (by simp)) (hcharslen.trans (by decide)) _).proceed
      fun frame h => ?_
    refine (hd.drawn_text h (hname _ (by simp)) le_rfl _).proceed fun frame h => ?_
    refine (hd.drawn_text h (hname _ (by simp)) (by decide : (bytes "wpm").length ≤ 8) _).proceed
      fun frame h => ?_
    exact hd.drawn_text h (hname _ (by simp)) le_rfl _
  · exact .done h

theorem drawn_training (hd : Drawable m button scene) (h : Held m depth frame) :
    Yields (Held m depth) (fun _ => False) (scene.training frame) := by
  refine (hd.drawn_statistics h _).proceed fun frame h => ?_
  split
  · exact hd.drawn_typingTest h ‹_›
  · exact .done h

theorem drawn_raceTest (hd : Drawable m button scene) (h : Held m depth frame)
    (hrace : scene.currAppState = .raceState) :
    Yields (Held m depth) (fun _ => False) (scene.raceTest frame) := by
  unfold Scene.raceTest
  split
  · obtain ⟨-, -, hother, -⟩ := places_centred button
    have hready : (if scene.racingInfo.readyMe then bytes "Unready" else bytes "Ready").length ≤
        7 := by
      split <;> decide
    have hyou : (if scene.racingInfo.readyYou then bytes "Other player is ready."
        else bytes "Other player isn't ready.").length ≤ 25 := by
      split <;> decide
    obtain ⟨b, hb⟩ := hd.race hrace ⟨0, Nat.succ_pos _⟩ Nat.zero_lt_two
    refine (h.setReadyButtonText hready).proceed fun frame h => ?_
    refine (hd.drawn_button h hb).proceed fun frame h => ?_
    exact hd.drawn_text h hother hyou _
  · rename_i hs
    exact hd.drawn_typingTest h hs

theorem drawn_race (hd : Drawable m button scene) (h : Held m depth frame)
    (hrace : scene.currAppState = .raceState) :
    Yields (Held m depth) (fun _ => False) (scene.race frame) := by
  obtain ⟨-, -, -, hpopup⟩ := places_centred button
  refine (hd.drawn_raceTest h hrace).proceed fun frame h => ?_
  refine (hd.drawn_statistics h _).proceed fun frame h => ?_
  have hcount : Yields (Held m depth) (fun _ => False) (scene.raceCountdown frame) := by
    unfold Scene.raceCountdown
    split
    · exact hd.drawn_text h hpopup h.popup _
    · exact .done h
  refine hcount.proceed fun frame h => ?_
  unfold Scene.raceEnd
  split
  · have hend : (if scene.racingInfo.won then bytes "Won" else bytes "Lost").length ≤ 4 := by
      split <;> decide
    obtain ⟨b, hb⟩ := hd.race hrace ⟨1, Nat.succ_lt_succ (Nat.succ_pos _)⟩ Nat.one_lt_two
    refine (h.setPopupText hend).proceed fun frame h => ?_
    refine (hd.drawn_text h hpopup h.popup _).proceed fun frame h => ?_
    exact hd.drawn_button h hb
  · exact .done h

theorem drawn (hd : Drawable m button scene) (h : Held m depth frame) :
    Yields (Held m depth) (fun _ => False) (scene.draw frame) := by
  have hclock : Yields (Held m depth) (fun _ => False) (scene.clock frame) := by
    unfold Scene.clock
    split
    · obtain ⟨hpos, hsize⟩ := getFontSize_pos button.mode .medium
      obtain ⟨hwide, hhigh⟩ := clock_room button
      rw [← hd.resolution] at hwide hhigh
      refine h.onScreen (keepsDepth_realTime _ _ _ _) ?_
      rw [hd.mode, hsize]
      exact drawRealTime_inside h.screen hd.resolution hpos hwide hhigh _ _
    · exact .done h
  refine hclock.proceed fun frame h => ?_
  have hselected : Yields (Held m depth) (fun _ => False)
      (frame.onScreen (drawSelectedButton scene.currentMode scene.cursor scene.buttons)) := by
    refine h.onScreen (keepsDepth_selectedButton _ _ _) ?_
    rw [hd.mode]
    exact drawSelectedButton_inside h.screen hd.resolution fun i b hb => ⟨_, hd.framed i b hb⟩
  refine hselected.proceed fun frame h => ?_
  have hbody : Yields (Held m depth) (fun _ => False) (scene.body frame) := by
    unfold Scene.body
    split
    · exact hd.drawn_training h
    · rename_i hrace
      exact hd.drawn_race h hrace
    · exact .done h
  refine hbody.proceed fun frame h => ?_
  exact h.onScreen (keepsDepth_cursor _) (drawCursor_inside h.screen scene.cursor)

end Drawable

end Inside

section Alike

/-- The same picture, and where it is shown the same countdown. -/
structure Alike (scene : Scene) (frame frame' : Frame) : Prop where
  screen : frame.screen = frame'.screen
  popup : scene.currAppState = .raceState → scene.typingInfo.status = .ready →
    frame.popupText = frame'.popupText

theorem one_lt_buttons : 1 < maxAmountOfButtons := by decide

/-- The button that starts a new race has a text of its own. -/
def Scene.ResetFixed (scene : Scene) : Prop :=
  ∀ b, scene.buttons.get ⟨1, one_lt_buttons⟩ = some b → b.onClick.text ≠ .readyButtonText

variable {scene : Scene} {frame frame' : Frame}

namespace Alike

theorem onScreen (h : Alike scene frame frame') (f : Screen → Result Screen) :
    Related (Alike scene) (frame.onScreen f) (frame'.onScreen f) := by
  rw [Frame.onScreen, Frame.onScreen, h.screen]
  rcases f frame'.screen with _ | ⟨s, failed⟩
  · exact .undefined
  · exact .ends failed ⟨rfl, h.popup⟩

theorem text (h : Alike scene frame frame') (cx cy : ℚ) (str : List UInt8)
    (color : ThemeColorIndex) (font : FontType) :
    Related (Alike scene) (scene.text cx cy str color font frame)
      (scene.text cx cy str color font frame') := h.onScreen _

theorem typingTest (h : Alike scene frame frame') :
    Related (Alike scene) (scene.typingTest frame) (scene.typingTest frame') := h.onScreen _

theorem statistics (h : Alike scene frame frame') (color : ThemeColorIndex) :
    Related (Alike scene) (scene.statistics color frame) (scene.statistics color frame') := by
  unfold Scene.statistics
  split
  · rcases accText scene.typingInfo with _ | acc
    · exact .undefined
    rcases wpmText scene.typingInfo with _ | wpm
    · exact .undefined
    rcases charsText scene.typingInfo with _ | chars
    · exact .undefined
    simp only [Option.bind_some]
    refine (h.text _ _ _ _ _).proceed fun _ _ h => ?_
    refine (h.text _ _ _ _ _).proceed fun _ _ h => ?_
    refine (h.text _ _ _ _ _).proceed fun _ _ h => ?_
    refine (h.text _ _ _ _ _).proceed fun _ _ h => ?_
    refine (h.text _ _ _ _ _).proceed fun _ _ h => ?_
    exact h.text _ _ _ _ _
  · exact .ends false h

theorem raceTest (h : Alike scene frame frame') :
    Related (Alike scene) (scene.raceTest frame) (scene.raceTest frame') := by
  unfold Scene.raceTest
  split
  · simp only [Frame.setReadyButtonText]
    rcases store 8 (if scene.racingInfo.readyMe then bytes "Unready" else bytes "Ready") with
      _ | text
    · exact .undefined
    have hset : Alike scene { frame with readyButtonText := text }
        { frame' with readyButtonText := text } := ⟨h.screen, h.popup⟩
    simp only [Option.map_some, proceed_done]
    refine (hset.onScreen _).proceed fun _ _ h => ?_
    exact h.text _ _ _ _ _
  · exact h.typingTest

theorem raceCountdown (h : Alike scene frame frame') (hrace : scene.currAppState = .raceState) :
    Related (Alike scene) (scene.raceCountdown frame) (scene.raceCountdown frame') := by
  unfold Scene.raceCountdown
  split
  · rename_i hready
    rw [h.popup hrace hready]
    exact h.text _ _ _ _ _
  · exact .ends false h

theorem raceEnd (h : Alike scene frame frame') (hfixed : scene.ResetFixed) :
    Related (Alike scene) (scene.raceEnd frame) (scene.raceEnd frame') := by
  unfold Scene.raceEnd
  split
  · simp only [Frame.setPopupText]
    rcases store 5 (if scene.racingInfo.won then bytes "Won" else bytes "Lost") with _ | text
    · exact .undefined
    have hset : Alike scene { frame with popupText := text } { frame' with popupText := text } :=
      ⟨h.screen, fun _ _ => rfl⟩
    simp only [Option.map_some, proceed_done]
    refine (hset.text _ _ _ _ _).proceed fun frame frame' h => ?_
    have hdraw : drawButton scene.currentMode frame.readyButtonText 1 scene.buttons =
        drawButton scene.currentMode frame'.readyButtonText 1 scene.buttons := by
      funext s
      rw [drawButton, drawButton, dif_pos one_lt_buttons, dif_pos one_lt_buttons]
      cases hget : scene.buttons.get ⟨1, one_lt_buttons⟩ with
      | none => rfl
      | some b => exact congrFun (drawFace_fixed _ _ (hfixed b hget)) s
    rw [Scene.button, Scene.button, hdraw]
    exact h.onScreen _
  · exact .ends false h

/-- What a frame shows does not depend on the texts that were shown before. -/
theorem draw (h : Alike scene frame frame') (hfixed : scene.ResetFixed) :
    Related (Alike scene) (scene.draw frame) (scene.draw frame') := by
  have hclock : Related (Alike scene) (scene.clock frame) (scene.clock frame') := by
    unfold Scene.clock
    split
    · exact h.onScreen _
    · exact .ends false h
  refine hclock.proceed fun _ _ h => ?_
  refine (h.onScreen _).proceed fun frame frame' h => ?_
  have hbody : Related (Alike scene) (scene.body frame) (scene.body frame') := by
    unfold Scene.body
    split
    · refine (h.statistics _).proceed fun _ _ h => ?_
      split
      · exact h.typingTest
      · exact .ends false h
    · rename_i hrace
      refine h.raceTest.proceed fun _ _ h => ?_
      refine (h.statistics _).proceed fun _ _ h => ?_
      refine (h.raceCountdown hrace).proceed fun _ _ h => ?_
      exact h.raceEnd hfixed
    · exact .ends false h
  refine hbody.proceed fun _ _ h => ?_
  exact h.onScreen _

end Alike

end Alike

section Visible

/-- A scene without what its screen does not show. -/
def Scene.visible (scene : Scene) : Scene :=
  { scene with
    typingInfo :=
      if (scene.currAppState = .trainingState ∨ scene.currAppState = .raceState) ∧
        scene.typingInfo.status ≠ .unready then scene.typingInfo else {}
    racingInfo :=
      if scene.currAppState = .raceState then
        { readyMe := scene.racingInfo.readyMe
          readyYou := scene.racingInfo.readyYou
          won := scene.racingInfo.won }
      else {}
    rtcInfo := if scene.currAppState = .startState then {} else scene.rtcInfo }

variable (scene : Scene)

theorem clock_visible : scene.visible.clock = scene.clock := by
  funext frame
  unfold Scene.clock Scene.visible
  by_cases hstart : scene.currAppState = .startState
  · rw [if_neg (not_not.mpr hstart), if_neg (not_not.mpr hstart)]
  · rw [if_pos hstart, if_pos hstart, if_neg hstart]

theorem body_visible : scene.visible.body = scene.body := by
  funext frame
  obtain ⟨screen, typingInfo, racingInfo, mode, theme, cursor, rtcInfo, buttons⟩ := scene
  cases screen with
  | trainingState =>
    by_cases hs : typingInfo.status = .unready
    · simp [Scene.visible, Scene.body, Scene.training, Scene.statistics, hs]
    · simp [Scene.visible, Scene.body, Scene.training, Scene.statistics, hs, Scene.text,
        Scene.typingTest]
  | raceState =>
    by_cases hs : typingInfo.status = .unready
    · simp [Scene.visible, Scene.body, Scene.race, Scene.raceTest, Scene.raceCountdown,
        Scene.raceEnd, Scene.statistics, hs, Scene.text, Scene.button]
    · simp [Scene.visible, Scene.body, Scene.race, Scene.raceTest, Scene.raceCountdown,
        Scene.raceEnd, Scene.statistics, hs, Scene.text, Scene.button, Scene.typingTest]
  | _ => rfl

theorem draw_visible : scene.visible.draw = scene.draw := by
  funext frame
  rw [Scene.draw, Scene.draw, clock_visible, body_visible]
  rfl

end Visible

end WriteWise.Frames
