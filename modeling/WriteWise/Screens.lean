import WriteWise.Display

namespace WriteWise.Screens

open Library.Lines Library.Loops Library.WordWrap TextGeneration Graphics Program Video Text DrawText
  TextLayout TypingView VisibleMistakes WordLines ScreenFit Ui Application Display

structure Canvas where
  buttons : Buttons := noButtons
  screen : Screen
  deriving DecidableEq

/-- A call in the loading of a screen, behind `clearScreen` and `clearButtons`. -/
inductive Part
  | textXY (x y : UInt16) (str : List UInt8) (color : UInt32) (size : FontSize)
  | text (cx cy maxWidth : ℚ) (str : List UInt8) (color : UInt32) (size : FontSize)
  | add (button : Ui.Button Face) (index : Nat)
  | buttons
  deriving DecidableEq

section Run

def Canvas.onScreen (f : Screen → Result Screen) (c : Canvas) : Result Canvas :=
  (f c.screen).map fun r => ({ c with screen := r.1 }, r.2)

def Part.run (currentMode : MinixMode) (readyButtonText : List UInt8) (part : Part) (c : Canvas) :
    Result Canvas :=
  match part with
  | .textXY x y str color size =>
    c.onScreen (drawTextXYColor currentMode x y (UInt16.ofNat (2 ^ 16 - 1)) str color size)
  | .text cx cy maxWidth str color size =>
    c.onScreen (drawTextColor currentMode cx cy maxWidth str color size)
  | .add button index =>
    let r := addButton button index { buttons := c.buttons }
    some ({ c with buttons := r.1.buttons }, r.2)
  | .buttons => c.onScreen (drawButtons currentMode readyButtonText c.buttons)

end Run

section Screens

variable (currentMode : MinixMode) (currentTheme : AppTheme)

/-- Every button has the medium font, and is framed in the colour of texts. -/
def themeButton (px py width height : ℚ) (color : ThemeColorIndex) (text : ButtonText)
    (tColor : ThemeColorIndex) (callback : Callback) : Ui.Button Face where
  px := px
  py := py
  width := width
  height := height
  onClick :=
    { color := getThemeColor currentTheme color
      text := text
      tColor := getThemeColor currentTheme tColor
      tSize := getFontSize currentMode .medium
      bColor := getThemeColor currentTheme .textColor
      callback := callback }

def title (color : ThemeColorIndex) (name : String) : List Part :=
  [.textXY 10 10 (bytes "Write Wise") (getThemeColor currentTheme .textColor)
      (getFontSize currentMode .xxxlarge),
    .textXY 10 (UInt16.ofNat (15 + (getFontSize currentMode .xxxlarge).height)) (bytes name)
      (getThemeColor currentTheme color) (getFontSize currentMode .xlarge),
    .text 0.5 0.95 (-1) (bytes "Press ESC to go back to the menu...")
      (getThemeColor currentTheme .subtleColor) (getFontSize currentMode .small)]

def startScreenLoad : List Part :=
  [.text 0.5 0.30 (-1) (bytes "Write Wise") (getThemeColor currentTheme .textColor)
      (getFontSize currentMode .xxxlarge),
    .text 0.5 0.95 (-1) (bytes "Press any key to start...")
      (getThemeColor currentTheme .subtleColor) (getFontSize currentMode .medium)]

def mainScreenLoad : List Part :=
  let button := themeButton currentMode currentTheme
  [.text 0.5 0.15 (-1) (bytes "Write Wise") (getThemeColor currentTheme .textColor)
      (getFontSize currentMode .xxxlarge),
    .text 0.5 0.95 (-1) (bytes "Press ESC to exit...") (getThemeColor currentTheme .subtleColor)
      (getFontSize currentMode .small),
    .add (button 0.3 0.30 0.4 0.1 .trainingColor (.literal (bytes "Training")) .backColor
      (.button .mainTraining)) 0,
    .add (button 0.3 0.45 0.4 0.1 .raceColor (.literal (bytes "Race")) .backColor
      (.button .mainRace)) 1,
    .add (button 0.3 0.60 0.4 0.1 .infoColor (.literal (bytes "Instructions")) .backColor
      (.button .mainInstructions)) 2,
    .add (button 0.3 0.75 0.4 0.1 .buttonBackColor (.literal (bytes "Settings")) .buttonTextColor
      (.button .mainSettings)) 3,
    .buttons]

def trainingScreenLoad : List Part :=
  title currentMode currentTheme .trainingColor "Training" ++
  [.add (themeButton currentMode currentTheme 0.4 0.70 0.2 0.1 .buttonBackColor
      (.literal (bytes "New Test")) .buttonTextColor (.button .trainingReset)) 0,
    .buttons]

def raceScreenLoad : List Part :=
  let button := themeButton currentMode currentTheme
  title currentMode currentTheme .raceColor "Race" ++
  [.add (button 0.4 0.70 0.2 0.1 .buttonBackColor .readyButtonText .buttonTextColor
      (.button .raceReady)) 0,
    .add (button 0.4 0.70 0.2 0.1 .buttonBackColor (.literal (bytes "New Race")) .buttonTextColor
      (.button .raceReset)) 1]

def trainingInstructions : List UInt8 :=
  bytes "In the Training section you can " ++ bytes "train your typing speed before " ++
    bytes "you race others. It provides a " ++ bytes "safe environment where you can " ++
    bytes "practice without worrying about " ++ bytes "others."

def raceInstructions : List UInt8 :=
  bytes "In the Race section you will race " ++ bytes "an opponent and the first to " ++
    bytes "finish typing the given words " ++ bytes "will win!"

def heading (cy : ℚ) (color : ThemeColorIndex) (name : String) : Part :=
  .text 0.5 cy (-1) (bytes name) (getThemeColor currentTheme color)
    (getFontSize currentMode .xlarge)

def paragraph (cy : ℚ) (str : List UInt8) : Part :=
  .text 0.5 cy 0.8 str (getThemeColor currentTheme .textColor) (getFontSize currentMode .large)

def instructionScreenLoad : List Part :=
  title currentMode currentTheme .infoColor "Instructions" ++
  [heading currentMode currentTheme 0.2 .trainingColor "Training",
    paragraph currentMode currentTheme 0.3 trainingInstructions,
    heading currentMode currentTheme 0.5 .raceColor "Race",
    paragraph currentMode currentTheme 0.6 raceInstructions,
    .buttons]

/-- The button of the mode that is set, or of the theme, stands out. -/
def settingsScreenLoad : List Part :=
  let button := themeButton currentMode currentTheme
  let back (selected : Bool) : ThemeColorIndex :=
    if selected then .selectedButtonColor else .buttonBackColor
  let resolution (py : ℚ) (b : ResolutionButton) (text : String) : Ui.Button Face :=
    button 0.1 py 0.3 0.1 (back (currentMode = b.mode)) (.literal (bytes text)) .buttonTextColor
      (.resolution b)
  title currentMode currentTheme .subtleColor "Settings" ++
  [.text 0.25 0.15 (-1) (bytes "Resolution") (getThemeColor currentTheme .textColor)
      (getFontSize currentMode .medium),
    .add (resolution 0.30 .settingsButton480p "640x480") 0,
    .add (resolution 0.45 .settingsButton600p "800x600") 1,
    .add (resolution 0.60 .settingsButton864p "1152x864") 2,
    .add (resolution 0.75 .settingsButton1024p "1280x1024") 3,
    .text 0.75 0.15 (-1) (bytes "Theme") (getThemeColor currentTheme .textColor)
      (getFontSize currentMode .medium),
    .add (button 0.6 0.45 0.3 0.1 (back (currentTheme = .darkTheme)) (.literal (bytes "Dark"))
      .buttonTextColor .settingsButtonDarkTheme) 4,
    .add (button 0.6 0.60 0.3 0.1 (back (currentTheme = .lightTheme)) (.literal (bytes "Light"))
      .buttonTextColor .settingsButtonLightTheme) 5,
    .buttons]

def loadScreen : AppState → List Part
  | .startState => startScreenLoad currentMode currentTheme
  | .mainState => mainScreenLoad currentMode currentTheme
  | .trainingState => trainingScreenLoad currentMode currentTheme
  | .raceState => raceScreenLoad currentMode currentTheme
  | .instructionsState => instructionScreenLoad currentMode currentTheme
  | .settingsState => settingsScreenLoad currentMode currentTheme
  | .endState => []

end Screens

section Erasure

def eraseButton (button : Ui.Button Face) : Ui.Button Callback where
  px := button.px
  py := button.py
  width := button.width
  height := button.height
  onClick := button.onClick.callback

def erase (ui : UiState Face) : UiState Callback where
  video := ui.video
  cursor := ui.cursor
  moreMouseInfo := ui.moreMouseInfo
  buttons := ui.buttons.map (Option.map eraseButton)

def Part.erase : Part → Load
  | .add button index => .add (eraseButton button) index
  | _ => .draw

theorem erase_loadScreen (currentMode : MinixMode) (currentTheme : AppTheme) (screen : AppState) :
    (loadScreen currentMode currentTheme screen).map Part.erase =
      Application.loadScreen screen := by
  cases screen <;> rfl

theorem erase_addButton (button : Ui.Button Face) (index : Nat) (ui : UiState Face) :
    addButton (eraseButton button) index (erase ui) =
      (erase (addButton button index ui).1, (addButton button index ui).2) := by
  unfold addButton
  by_cases h : index < maxAmountOfButtons
  · rw [dif_pos h, dif_pos h]
    have hget : (erase ui).buttons.get ⟨index, h⟩ =
        (ui.buttons.get ⟨index, h⟩).map eraseButton := Vector.getElem_map ..
    rw [hget]
    cases ui.buttons.get ⟨index, h⟩ with
    | some b => rfl
    | none =>
      simp only [Option.map_none, erase]
      rw [Vector.map_set]
      rfl
  · rw [dif_neg h, dif_neg h]

end Erasure

section Fits

/-- A text whose lines have room in its box, and its box on the screen. -/
structure Wrapped (currentMode : MinixMode) (cx cy maxWidth : ℚ) (str : List UInt8) (p : Nat) :
    Prop where
  roomy : Roomy (textBox currentMode cx cy maxWidth str (fontSize p))
  right : (placeText currentMode cx cy maxWidth str (fontSize p)).1.toNat +
    (textBox currentMode cx cy maxWidth str (fontSize p)).maxWidth + 5 * p ≤
      currentMode.resolution.1
  bottom : (placeText currentMode cx cy maxWidth str (fontSize p)).2.1.toNat +
    ((textLines (textBox currentMode cx cy maxWidth str (fontSize p))).length - 1) *
      (textBox currentMode cx cy maxWidth str (fontSize p)).yStep + 7 * p ≤
        currentMode.resolution.2

def ButtonText.room : ButtonText → Nat
  | .literal text => text.length
  | .readyButtonText => 7

def Part.Short (currentMode : MinixMode) : Part → Prop
  | .textXY x y str _ size =>
    (0 < size.pixel ∧ size = fontSize size.pixel) ∧ str.length * (6 * size.pixel) < 2 ^ 16 ∧
      x.toNat + str.length * (6 * size.pixel) ≤ currentMode.resolution.1 ∧
      y.toNat + 7 * size.pixel ≤ currentMode.resolution.2
  | .text cx cy maxWidth str _ size =>
    (0 < size.pixel ∧ size = fontSize size.pixel) ∧ maxWidth = -1 ∧
      Centred currentMode cx cy str.length size.pixel
  | .add button _ =>
    Framed currentMode button (ButtonText.room button.onClick.text) button.onClick.tSize.pixel
  | .buttons => True

instance (currentMode : MinixMode) : DecidablePred (Part.Short currentMode)
  | .textXY .. => inferInstanceAs (Decidable (_ ∧ _))
  | .text .. => inferInstanceAs (Decidable (_ ∧ _))
  | .add .. => inferInstanceAs (Decidable (Framed ..))
  | .buttons => inferInstanceAs (Decidable True)

inductive Part.Fits (currentMode : MinixMode) : Part → Prop
  | short {part : Part} (h : part.Short currentMode) : Fits currentMode part
  | wrapped {cx cy maxWidth : ℚ} {str : List UInt8} {p : Nat} (hp : 0 < p)
    (h : Wrapped currentMode cx cy maxWidth str p) (color : UInt32) :
    Fits currentMode (.text cx cy maxWidth str color (fontSize p))

theorem placeText_wrapped (currentMode : MinixMode) {cx cy maxWidth : ℚ} (h : ¬ maxWidth < 0)
    (str : List UInt8) (size : FontSize) :
    placeText currentMode cx cy maxWidth str size =
      placeText currentMode cx cy maxWidth [] size := by
  rw [placeText, placeText, if_neg h, if_neg h, if_neg h]

/-- There is room for so many lines, on each of which 16 more characters go than `line`. -/
def Room (place : UInt16 × UInt16 × UInt16) (resolution : Nat × Nat) (line rows p : Nat) : Prop :=
  (0 < line ∧ p < 256) ∧ (line + 15) * (6 * p) ≤ place.2.2.toNat ∧
    place.1.toNat + place.2.2.toNat + 5 * p ≤ resolution.1 ∧
    place.2.1.toNat + rows * (10 * p) + 7 * p ≤ resolution.2

instance (place : UInt16 × UInt16 × UInt16) (resolution : Nat × Nat) (line rows p : Nat) :
    Decidable (Room place resolution line rows p) := inferInstanceAs (Decidable (_ ∧ _))

theorem wrapped_of_words {currentMode : MinixMode} {cx cy maxWidth : ℚ} {str : List UInt8}
    {line rows p : Nat} (hpos : ¬ maxWidth < 0)
    (hroom : Room (placeText currentMode cx cy maxWidth [] (fontSize p)) currentMode.resolution
      line rows p)
    (hwords : ∀ w ∈ str.splitOn space, w.length ≤ 16) (hrows : str.length < (rows + 1) * line) :
    Wrapped currentMode cx cy maxWidth str p := by
  obtain ⟨⟨hline, hp⟩, hwidth, hright, hbottom⟩ := hroom
  rw [← placeText_wrapped currentMode hpos str] at hwidth hright hbottom
  rcases hplace : placeText currentMode cx cy maxWidth str (fontSize p) with ⟨x, y, maxW⟩
  rw [hplace] at hwidth hright hbottom
  simp only at hwidth hright hbottom
  have hbox : textBox currentMode cx cy maxWidth str (fontSize p) =
      fontBox str maxW (UInt8.ofNat p) := by
    rw [textBox, hplace, fontBox, UInt8.toNat_ofNat_of_lt' hp]
    rfl
  have hx := fontBox_xStep str maxW (UInt8.ofNat p)
  have hy := fontBox_yStep str maxW (UInt8.ofNat p)
  rw [UInt8.toNat_ofNat_of_lt' hp] at hx hy
  have hfits : ∀ n < line + 16, Fits (fontBox str maxW (UInt8.ofNat p)) n := by
    intro n hn
    rw [Fits, hx]
    exact (Nat.mul_le_mul_right _ (by omega)).trans hwidth
  have hlines : (textLines (fontBox str maxW (UInt8.ofNat p))).length - 1 ≤ rows := by
    have hle := length_wrap_le space hfits hwords
    rw [List.intercalate_splitOn] at hle
    exact Nat.le_of_lt_succ (Nat.lt_of_mul_lt_mul_right (hle.trans_lt hrows))
  have hheight : ((textLines (fontBox str maxW (UInt8.ofNat p))).length - 1) * (10 * p) ≤
      rows * (10 * p) := Nat.mul_le_mul_right _ hlines
  have hres : currentMode.resolution.2 ≤ 1024 := (resolution_le currentMode).2
  refine ⟨?_, ?_, ?_⟩
  · rw [hbox]
    refine ⟨maxW.toNat_lt, fun w hw => ⟨notMem_of_mem_splitOn hw, hfits _ ?_, ?_⟩, ?_⟩
    · have hw := hwords w hw
      omega
    · have hw : (w.length + 1) * (6 * p) ≤ 17 * (6 * 255) :=
        Nat.mul_le_mul (Nat.succ_le_succ (hwords w hw)) (by omega)
      rw [hx]
      omega
    · rw [hy]
      omega
  · rw [hbox, hplace]
    exact hright
  · rw [hbox, hplace, hy]
    simp only
    omega

theorem trainingInstructions_words : trainingInstructions.length = 164 ∧
    ∀ w ∈ trainingInstructions.splitOn space, w.length ≤ 16 := by
  decide +kernel

theorem raceInstructions_words : raceInstructions.length = 102 ∧
    ∀ w ∈ raceInstructions.splitOn space, w.length ≤ 16 := by
  decide +kernel

variable (button : ResolutionButton) (currentTheme : AppTheme)

def largePixel : ResolutionButton → Nat
  | .settingsButton480p | .settingsButton600p => 2
  | .settingsButton864p | .settingsButton1024p => 3

theorem fits_instructionScreenLoad :
    ∀ part ∈ instructionScreenLoad button.mode currentTheme, part.Fits button.mode := by
  have hlarge : getFontSize button.mode .large = fontSize (largePixel button) := by
    cases button <;> rfl
  have hp : 0 < largePixel button := by
    cases button <;> decide
  have htraining : Wrapped button.mode 0.5 0.3 0.8 trainingInstructions (largePixel button) := by
    refine @wrapped_of_words _ _ _ _ _ 27 6 _ (by norm_num) ?_ trainingInstructions_words.2 ?_
    · cases button <;> decide +kernel
    · rw [trainingInstructions_words.1]
      decide
  have hrace : Wrapped button.mode 0.5 0.6 0.8 raceInstructions (largePixel button) := by
    refine @wrapped_of_words _ _ _ _ _ 27 3 _ (by norm_num) ?_ raceInstructions_words.2 ?_
    · cases button <;> decide +kernel
    · rw [raceInstructions_words.1]
      decide
  have htitle : ∀ part ∈ title button.mode currentTheme .infoColor "Instructions",
      part.Short button.mode := by
    cases button <;> cases currentTheme <;> decide +kernel
  have hheading : (heading button.mode currentTheme 0.2 .trainingColor "Training").Short
      button.mode ∧ (heading button.mode currentTheme 0.5 .raceColor "Race").Short button.mode := by
    cases button <;> cases currentTheme <;> decide +kernel
  intro part hpart
  rw [instructionScreenLoad, paragraph, paragraph, hlarge] at hpart
  simp only [List.mem_append, List.mem_cons, List.not_mem_nil, or_false] at hpart
  obtain htop | rfl | rfl | rfl | rfl | rfl := hpart
  · exact .short (htitle part htop)
  · exact .short hheading.1
  · exact .wrapped hp htraining _
  · exact .short hheading.2
  · exact .wrapped hp hrace _
  · exact .short trivial

theorem short_loadScreen (screen : AppState) (h : screen ≠ .instructionsState) :
    ∀ part ∈ loadScreen button.mode currentTheme screen, part.Short button.mode := by
  cases screen with
  | instructionsState => exact absurd rfl h
  | _ => cases button <;> cases currentTheme <;> decide +kernel

theorem fits_loadScreen (screen : AppState) :
    ∀ part ∈ loadScreen button.mode currentTheme screen, part.Fits button.mode := by
  by_cases h : screen = .instructionsState
  · subst h
    exact fits_instructionScreenLoad button currentTheme
  · exact fun part hpart => .short (short_loadScreen button currentTheme screen h part hpart)

end Fits

section Loading

variable {currentMode : MinixMode} {m : ModeInfo} {readyButtonText : List UInt8}

def indices : List Part → List Nat :=
  List.filterMap fun
    | .add _ index => some index
    | _ => none

theorem indices_eq (currentMode : MinixMode) (currentTheme : AppTheme) (screen : AppState) :
    indices (loadScreen currentMode currentTheme screen) = (buttonsOf screen).map Prod.snd := by
  cases screen <;> rfl

theorem indices_loadScreen (currentMode : MinixMode) (currentTheme : AppTheme) (screen : AppState) :
    (indices (loadScreen currentMode currentTheme screen)).Nodup ∧
      ∀ i ∈ indices (loadScreen currentMode currentTheme screen), i < maxAmountOfButtons := by
  rw [indices_eq]
  cases screen <;> decide

def AllFramed (currentMode : MinixMode) (buttons : Buttons) : Prop :=
  ∀ i b, buttons.get i = some b →
    ∃ p, Framed currentMode b (ButtonText.room b.onClick.text) p

theorem length_bytes_le {text : ButtonText} (h : readyButtonText.length ≤ 7) :
    (text.bytes readyButtonText).length ≤ ButtonText.room text := by
  cases text with
  | literal text => exact le_rfl
  | readyButtonText => exact h

theorem onScreen_yields {c : Canvas} {f : Screen → Result Screen} {P : Screen → Prop}
    (h : Yields P (fun _ => False) (f c.screen)) :
    Yields (fun c' => c'.buttons = c.buttons ∧ P c'.screen) (fun _ => False) (c.onScreen f) := by
  unfold Canvas.onScreen
  generalize f c.screen = r at h
  cases h with
  | done h => exact .done ⟨rfl, h⟩
  | failed h => exact h.elim

theorem drawButtons_inside {s : Screen} (h : InMode m s)
    (hm : (m.xResolution.toNat, m.yResolution.toNat) = currentMode.resolution) {buttons : Buttons}
    (hb : AllFramed currentMode buttons) (hready : readyButtonText.length ≤ 7) :
    Yields (InMode m) (fun _ => False) (drawButtons currentMode readyButtonText buttons s) := by
  refine .each (fun i _ s hs => ?_) h
  cases hget : buttons.get i with
  | none => exact .done hs
  | some b =>
    obtain ⟨p, hframed⟩ := hb i b hget
    exact drawFace_inside hs hm hframed (length_bytes_le hready)

theorem onScreen_depth {f : Screen → Result Screen} (hf : KeepsDepth f) :
    Preserves (fun c => c.screen.bytesPP) (Canvas.onScreen f) := by
  intro c r h
  obtain ⟨u, hu, rfl⟩ := Option.map_eq_some_iff.mp h
  exact hf _ u hu

theorem run_depth (currentMode : MinixMode) (readyButtonText : List UInt8) (part : Part) :
    Preserves (fun c => c.screen.bytesPP) (part.run currentMode readyButtonText) := by
  cases part with
  | textXY x y str color size =>
    exact onScreen_depth fun s => keepsDepth_text x y _ str
      (filteredColor currentMode s.modeInfo color) size s
  | text cx cy maxWidth str color size =>
    exact onScreen_depth (keepsDepth_textColor currentMode cx cy maxWidth str color size)
  | add button index =>
    intro c r h
    cases h
    rfl
  | buttons =>
    exact fun c => onScreen_depth (keepsDepth_buttons currentMode readyButtonText c.buttons) c

theorem addButton_free {button : Ui.Button Face} {index : Nat} {ui : UiState Face}
    (h : index < maxAmountOfButtons) (hfree : ui.buttons.get ⟨index, h⟩ = none) :
    addButton button index ui =
      ({ ui with buttons := ui.buttons.set index (some button) h }, false) := by
  rw [addButton, dif_pos h, hfree]

theorem run_drawing (hm : (m.xResolution.toNat, m.yResolution.toNat) = currentMode.resolution)
    (hready : readyButtonText.length ≤ 7) {part : Part} (hfits : part.Fits currentMode)
    (hpart : ∀ button index, part ≠ .add button index) {c : Canvas} (hc : InMode m c.screen)
    (hframed : AllFramed currentMode c.buttons) :
    Yields (fun c' => c'.buttons = c.buttons ∧ InMode m c'.screen) (fun _ => False)
      (part.run currentMode readyButtonText c) := by
  have hres := hm
  rw [Prod.ext_iff] at hres
  obtain ⟨hxr, hyr⟩ := hres
  simp only at hxr hyr
  cases hfits with
  | @wrapped cx cy maxWidth str p hp h color =>
    refine onScreen_yields (drawText_inside hc hp _ fun n hn => ?_)
    obtain ⟨hdx, hdy⟩ := h.roomy.bounds (Nat.le_of_lt hn)
    have hright := h.right
    have hbottom := h.bottom
    rw [← hxr] at hright
    rw [← hyr] at hbottom
    obtain ⟨l, hlook⟩ := (h.roomy.follows.1.cell
      (List.getElem?_eq_getElem (by rwa [length_textSlots]))).look
    rw [Nat.zero_add] at hlook
    have hx : (placeText currentMode cx cy maxWidth str (fontSize p)).1.toNat +
        (layoutAt (textBox currentMode cx cy maxWidth str (fontSize p)) n).dx + 5 * p ≤
          m.xResolution.toNat := by
      omega
    have hy : (placeText currentMode cx cy maxWidth str (fontSize p)).2.1.toNat +
        (layoutAt (textBox currentMode cx cy maxWidth str (fontSize p)) n).dy + 7 * p ≤
          m.yResolution.toNat := by
      omega
    exact ⟨⟨_, hlook⟩, hx, hy⟩
  | short h =>
    cases part with
    | textXY x y str color size =>
      obtain ⟨⟨hp, hsize⟩, hwidth, hright, hbottom⟩ := h
      obtain ⟨p, rfl⟩ : ∃ p, size = fontSize p := ⟨_, hsize⟩
      refine onScreen_yields (drawText_line hc hp _ ?_ ?_ ?_)
      · exact Nat.le_of_lt_succ hwidth
      · rw [hxr]
        exact hright.trans (Nat.le_add_right _ _)
      · rw [hyr]
        exact hbottom
    | text cx cy maxWidth str color size =>
      obtain ⟨⟨hp, hsize⟩, rfl, hcentre⟩ := h
      obtain ⟨p, rfl⟩ : ∃ p, size = fontSize p := ⟨_, hsize⟩
      exact onScreen_yields (drawTextColor_inside hc hm hcentre hp le_rfl color)
    | add button index => exact absurd rfl (hpart button index)
    | buttons => exact onScreen_yields (drawButtons_inside hc hm hframed hready)

/-- What a screen shows is drawn without failing, and its buttons are those that it adds. -/
theorem run_parts (hm : (m.xResolution.toNat, m.yResolution.toNat) = currentMode.resolution)
    (hready : readyButtonText.length ≤ 7) {parts : List Part}
    (hfits : ∀ part ∈ parts, part.Fits currentMode) (hnodup : (indices parts).Nodup)
    (hindex : ∀ i ∈ indices parts, i < maxAmountOfButtons) {c : Canvas} (hc : InMode m c.screen)
    (hframed : AllFramed currentMode c.buttons)
    (hfree : ∀ i b, c.buttons.get i = some b → i.1 ∉ indices parts) :
    Yields (fun c' => InMode m c'.screen ∧ AllFramed currentMode c'.buttons ∧
        ∀ i b, c'.buttons.get i = some b ↔ c.buttons.get i = some b ∨ .add b i.1 ∈ parts)
      (fun _ => False) (each (Part.run currentMode readyButtonText) parts c) := by
  induction parts generalizing c with
  | nil => exact .done ⟨hc, hframed, fun i b => by simp⟩
  | cons part parts ih =>
    have hrest : ∀ q ∈ parts, q.Fits currentMode := fun q hq => hfits q (List.mem_cons_of_mem _ hq)
    have hpart := hfits part List.mem_cons_self
    rw [each_cons]
    by_cases hadd : ∃ button index, part = .add button index
    · obtain ⟨button, index, rfl⟩ := hadd
      have hlist : indices (.add button index :: parts) = index :: indices parts := rfl
      rw [hlist] at hnodup hindex hfree
      obtain ⟨hnew, hnodup⟩ := List.nodup_cons.mp hnodup
      have hlt := hindex index List.mem_cons_self
      have hempty : c.buttons.get ⟨index, hlt⟩ = none := by
        rw [Option.eq_none_iff_forall_not_mem]
        exact fun b hb => hfree _ b hb List.mem_cons_self
      have hget : ∀ i b, (c.buttons.set index (some button) hlt).get i = some b ↔
          c.buttons.get i = some b ∨ i.1 = index ∧ b = button := by
        intro i b
        by_cases hi : i.1 = index
        · subst hi
          have hset : (c.buttons.set i.1 (some button) hlt).get i = some button :=
            Vector.getElem_set_self hlt
          rw [hset, hempty]
          simp [eq_comm]
        · have hset : (c.buttons.set index (some button) hlt).get i = c.buttons.get i :=
            Vector.getElem_set_ne hlt i.2 (Ne.symm hi)
          rw [hset, or_iff_left fun h => hi h.1]
      rw [Part.run, addButton_free hlt hempty, proceed_done]
      refine (ih hrest hnodup (fun i hi => hindex i (List.mem_cons_of_mem _ hi))
        (c := ⟨c.buttons.set index (some button) hlt, c.screen⟩) hc ?_ ?_).mono
        (fun c' hc' => ⟨hc'.1, hc'.2.1, fun i b => ?_⟩) fun _ h => h
      · intro i b hb
        obtain hb | ⟨-, rfl⟩ := (hget i b).mp hb
        · exact hframed i b hb
        · cases hpart with
          | short h => exact ⟨_, h⟩
      · intro i b hb
        obtain hb | ⟨hi, -⟩ := (hget i b).mp hb
        · exact fun h => hfree i b hb (List.mem_cons_of_mem _ h)
        · rwa [hi]
      · rw [hc'.2.2, hget, List.mem_cons, Part.add.injEq]
        tauto
    · have hne : ∀ button index, part ≠ .add button index := fun button index h =>
        hadd ⟨button, index, h⟩
      have hlist : indices (part :: parts) = indices parts := by
        cases part with
        | add button index => exact absurd rfl (hne button index)
        | _ => rfl
      rw [hlist] at hnodup hindex hfree
      refine (run_drawing hm hready hpart hne hc hframed).proceed fun c₁ h₁ => ?_
      refine (ih hrest hnodup hindex h₁.2 (by rwa [h₁.1]) (by rwa [h₁.1])).mono
        (fun c' hc' => ⟨hc'.1, hc'.2.1, fun i b => ?_⟩) fun _ h => h
      have hnot : Part.add b i.1 ≠ part := fun h => hne b i.1 h.symm
      rw [hc'.2.2, h₁.1, List.mem_cons, or_iff_right hnot]

def Part.fixed : Part → Bool
  | .add button _ => button.onClick.text ≠ .readyButtonText
  | _ => true

def Settled (parts : List Part) : Prop :=
  .buttons ∈ parts → ∀ part ∈ parts, part.fixed = true

theorem settled_loadScreen (currentMode : MinixMode) (currentTheme : AppTheme)
    (screen : AppState) : Settled (loadScreen currentMode currentTheme screen) := by
  intro hbuttons
  rw [← List.all_eq_true]
  cases screen with
  | raceState => simp [loadScreen, raceScreenLoad, title] at hbuttons
  | _ => rfl

theorem addButton_eq {κ : Type} (button : Ui.Button κ) (index : Nat) (ui : UiState κ) :
    addButton button index ui =
      ({ ui with buttons := (addButton button index { buttons := ui.buttons }).1.buttons },
        (addButton button index { buttons := ui.buttons }).2) := by
  unfold addButton
  split
  · simp only
    split
    · rfl
    · rfl
  · rfl

theorem onScreen_done {c c' : Canvas} {f : Screen → Result Screen} {failed : Bool}
    (h : c.onScreen f = some (c', failed)) : c'.buttons = c.buttons := by
  obtain ⟨r, -, hr⟩ := Option.map_eq_some_iff.mp h
  cases hr
  rfl

theorem run_get {part : Part} {c c' : Canvas} {failed : Bool} {i : Fin maxAmountOfButtons}
    {b : Ui.Button Face} (h : part.run currentMode readyButtonText c = some (c', failed))
    (hb : c'.buttons.get i = some b) : c.buttons.get i = some b ∨ part = .add b i := by
  cases part with
  | add button index =>
    rw [Part.run] at h
    cases h
    unfold addButton at hb
    split at hb
    · split at hb
      · exact .inl hb
      · simp only [Vector.get_eq_getElem] at hb ⊢
        rw [Vector.getElem_set] at hb
        split at hb
        · cases hb
          rename_i hindex
          rw [hindex]
          exact .inr rfl
        · exact .inl hb
    · exact .inl hb
  | _ =>
    rw [onScreen_done h] at hb
    exact .inl hb

theorem drawFace_fixed (readyButtonText readyButtonText' : List UInt8) {button : Ui.Button Face}
    (h : button.onClick.text ≠ .readyButtonText) :
    drawFace currentMode readyButtonText button = drawFace currentMode readyButtonText' button := by
  have htext : button.onClick.text.bytes readyButtonText =
      button.onClick.text.bytes readyButtonText' := by
    generalize button.onClick.text = text at h
    cases text with
    | literal text => rfl
    | readyButtonText => exact absurd rfl h
  funext s
  rw [drawFace, drawFace, htext]

theorem drawButtons_fixed (readyButtonText readyButtonText' : List UInt8) {buttons : Buttons}
    (h : ∀ i b, buttons.get i = some b → b.onClick.text ≠ .readyButtonText) :
    drawButtons currentMode readyButtonText buttons =
      drawButtons currentMode readyButtonText' buttons := by
  unfold drawButtons
  congr 1
  funext i s
  cases hget : buttons.get i with
  | none => rfl
  | some b => exact congrFun (drawFace_fixed readyButtonText readyButtonText' (h i b hget)) s

theorem run_fixed (readyButtonText readyButtonText' : List UInt8) {part : Part} {c : Canvas}
    (hc : part = .buttons → ∀ i b, c.buttons.get i = some b →
      b.onClick.text ≠ .readyButtonText) :
    part.run currentMode readyButtonText c = part.run currentMode readyButtonText' c := by
  cases part with
  | buttons => rw [Part.run, Part.run, drawButtons_fixed readyButtonText readyButtonText' (hc rfl)]
  | _ => rfl

theorem run_settled (readyButtonText readyButtonText' : List UInt8) {parts : List Part}
    {c : Canvas} (hparts : Settled parts)
    (hc : .buttons ∈ parts → ∀ i b, c.buttons.get i = some b →
      b.onClick.text ≠ .readyButtonText) :
    each (Part.run currentMode readyButtonText) parts c =
      each (Part.run currentMode readyButtonText') parts c := by
  induction parts generalizing c with
  | nil => rw [each_nil, each_nil]
  | cons part parts ih =>
    have hrest : Settled parts := fun hbuttons q hq =>
      hparts (List.mem_cons_of_mem _ hbuttons) q (List.mem_cons_of_mem _ hq)
    have hfirst := @run_fixed currentMode readyButtonText readyButtonText' part c fun hpart =>
      hc (hpart ▸ List.mem_cons_self)
    rw [each_cons, each_cons, hfirst]
    refine proceed_congr fun c₁ h₁ => ih hrest fun hbuttons i b hb => ?_
    obtain hb | rfl := run_get h₁ hb
    · exact hc (List.mem_cons_of_mem _ hbuttons) i b hb
    · exact of_decide_eq_true (hparts (List.mem_cons_of_mem _ hbuttons) _ List.mem_cons_self)

/-- Loading a screen without a failure is what the program without its looks does. -/
theorem run_erases {parts : List Part} {c c' : Canvas}
    (h : each (Part.run currentMode readyButtonText) parts c = some (c', false)) (drawings : Nat)
    {ui : UiState Face} (hui : ui.buttons = c.buttons) :
    loadParts (fun _ => true) drawings (parts.map Part.erase) (erase ui) =
      erase { ui with buttons := c'.buttons } := by
  induction parts generalizing c drawings ui with
  | nil =>
    cases h
    rw [← hui]
    rfl
  | cons part parts ih =>
    rw [each_cons] at h
    obtain ⟨c₁, h₁, h₂⟩ := proceed_eq_done h
    cases part with
    | add button index =>
      rw [Part.run] at h₁
      obtain ⟨rfl, hadded⟩ := Prod.mk.inj (Option.some.inj h₁)
      rw [List.map_cons, Part.erase, loadParts, erase_addButton, addButton_eq, hui, hadded]
      exact ih h₂ drawings rfl
    | _ => exact ih h₂ (drawings + 1) (hui.trans (onScreen_done h₁).symm)

end Loading

end WriteWise.Screens
