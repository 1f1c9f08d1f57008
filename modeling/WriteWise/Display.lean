import WriteWise.Application
import WriteWise.Library.Decimal
import WriteWise.ScreenFit

namespace WriteWise.Display

open Library.Decimal Library.Loops TextGeneration Graphics Video Text DrawText TextLayout TypingView
  VisibleMistakes WordLines ScreenFit Ui Application

section Theme

inductive AppTheme
  | darkTheme
  | lightTheme
  deriving DecidableEq, Repr

inductive ThemeColorIndex
  | backColor
  | textColor
  | subtleColor
  | buttonBackColor
  | buttonTextColor
  | selectedButtonColor
  | errorColor
  | trainingColor
  | raceColor
  | infoColor
  deriving DecidableEq, Repr

def darkThemeColor : ThemeColorIndex → UInt32
  | .backColor => 0x000000
  | .textColor => 0xFFFFFF
  | .subtleColor => 0x505050
  | .buttonBackColor => 0x303030
  | .buttonTextColor => 0xDDDDDD
  | .selectedButtonColor => 0x606060
  | .errorColor => 0xFF4040
  | .trainingColor => 0xFFDB58
  | .raceColor => 0x9B4FF0
  | .infoColor => 0x4050FF

def lightThemeColor : ThemeColorIndex → UInt32
  | .backColor => 0xFFFFFF
  | .textColor => 0x000000
  | .subtleColor => 0xA0A0A0
  | .buttonBackColor => 0xC0C0C0
  | .buttonTextColor => 0x222222
  | .selectedButtonColor => 0x909090
  | .errorColor => 0xAA3030
  | .trainingColor => 0xCCA854
  | .raceColor => 0x8B4FC0
  | .infoColor => 0x4040CC

def getThemeColor (currentTheme : AppTheme) (color : ThemeColorIndex) : UInt32 :=
  match currentTheme with
  | .darkTheme => darkThemeColor color
  | .lightTheme => lightThemeColor color

/-- The byte with which `clearScreen` fills the frame buffer. -/
def AppTheme.background : AppTheme → UInt8
  | .darkTheme => 0x00
  | .lightTheme => 0xFF

end Theme

def bytes (s : String) : List UInt8 := s.toList.map fun c => UInt8.ofNat c.toNat

/-- Write a C string into an array of so many bytes. Undefined if it does not fit. -/
def store (size : Nat) (text : List UInt8) : Option (List UInt8) :=
  if text.length < size then some text else none

/-- The text of a button, which may be a buffer of the program. -/
inductive ButtonText
  | literal (text : List UInt8)
  | readyButtonText
  deriving DecidableEq

structure Face where
  color : UInt32
  text : ButtonText
  tColor : UInt32
  tSize : FontSize
  bColor : UInt32
  callback : Callback
  deriving DecidableEq

abbrev Buttons := Vector (Option (Ui.Button Face)) maxAmountOfButtons

def noButtons : Buttons := .replicate maxAmountOfButtons none

section Drawing

def paint (x y : UInt16) (size : FontSize) (call : DrawCall) : Screen → Result Screen :=
  call.draw x y size

variable (currentMode : MinixMode)

def drawRectColor (px py width height : ℚ) (color : UInt32) (s : Screen) : Result Screen :=
  vgDrawRectangle (getXFromPercent currentMode px) (getYFromPercent currentMode py)
    (getXFromPercent currentMode width) (getYFromPercent currentMode height)
    (filteredColor currentMode s.modeInfo color) s

def drawTextXYColor (x y maxWidth : UInt16) (str : List UInt8) (color : UInt32) (size : FontSize)
    (s : Screen) : Result Screen :=
  drawText paint x y maxWidth str (filteredColor currentMode s.modeInfo color) size s

def drawTextColor (cx cy maxWidth : ℚ) (str : List UInt8) (color : UInt32) (size : FontSize)
    (s : Screen) : Result Screen :=
  DrawText.drawTextColor paint currentMode s.modeInfo cx cy maxWidth str color size s

section Buttons

variable (readyButtonText : List UInt8)

def ButtonText.bytes : ButtonText → List UInt8
  | .literal text => text
  | .readyButtonText => readyButtonText

def drawFace (button : Ui.Button Face) (s : Screen) : Result Screen :=
  proceed (drawRectColor currentMode button.px button.py button.width button.height
    button.onClick.color s) <|
  drawTextColor currentMode (button.px + button.width / 2) (button.py + button.height / 2) (-1)
    (button.onClick.text.bytes readyButtonText) button.onClick.tColor button.onClick.tSize

def drawButton (index : Nat) (buttons : Buttons) (s : Screen) : Result Screen :=
  if h : index < maxAmountOfButtons then
    match buttons.get ⟨index, h⟩ with
    | some button => drawFace currentMode readyButtonText button s
    | none => some (s, true)
  else some (s, true)

def drawButtons (buttons : Buttons) : Screen → Result Screen :=
  each (fun i s =>
    match buttons.get i with
    | some button => drawFace currentMode readyButtonText button s
    | none => some (s, false)) (List.finRange maxAmountOfButtons)

end Buttons

/-- The button at the place that `_getSelectedButton` finds. -/
def getSelectedButton (cursor : Cursor) (buttons : Buttons) : Option (Ui.Button Face) :=
  (List.finRange maxAmountOfButtons).findSome? fun i =>
    (buttons.get i).filter fun button => IsClickOnButton currentMode cursor.x cursor.y button

/-- The colour of the frame is not converted to the mode. -/
def drawSelectedButton (cursor : Cursor) (buttons : Buttons) (s : Screen) : Result Screen :=
  match getSelectedButton currentMode cursor buttons with
  | none => some (s, false)
  | some button =>
    let x := getXFromPercent currentMode button.px
    let y := getYFromPercent currentMode button.py
    let w := getXFromPercent currentMode button.width
    let h := getYFromPercent currentMode button.height
    let bColor := button.onClick.bColor
    proceed (vgDrawRectangle (x - 2) (y - 2) (w + 4) 2 bColor s) fun s =>
    proceed (vgDrawRectangle (x - 2) (y - 2) 2 (h + 4) bColor s) fun s =>
    proceed (vgDrawRectangle (x - 2) (y + h) (w + 4) 2 bColor s) fun s =>
    vgDrawRectangle (x + w) (y - 2) 2 (h + 4) bColor s

end Drawing

section Cursor

def cursorWidth : Nat := 10
def cursorHeight : Nat := 16

/-- The sixteen rows of ten bits, of which the highest is the left end. -/
def cursorMapMain : List Nat :=
  [0b0000000000, 0b0000000000, 0b0100000000, 0b0110000000, 0b0111000000, 0b0111100000,
    0b0111110000, 0b0111111000, 0b0111111100, 0b0111111100, 0b0111110000, 0b0110110000,
    0b0100011000, 0b0000011000, 0b0000001100, 0b0000000000]

def cursorMapBorder : List Nat :=
  [0b1000000000, 0b1100000000, 0b1010000000, 0b1001000000, 0b1000100000, 0b1000010000,
    0b1000001000, 0b1000000100, 0b1000000010, 0b1000000011, 0b1000001100, 0b1001001000,
    0b1010100100, 0b1100100100, 0b1000010010, 0b0000011110]

def cursorBit (map : List Nat) (dx dy : Nat) : Bool := (map.getD dy 0).testBit (cursorWidth - 1 - dx)

/-- A pixel that may lie outside the screen. -/
def tryPixel (x y : UInt16) (color : UInt32) (s : Screen) : Result Screen :=
  (vgDrawPixel x y color s).map fun r => (r.1, false)

/-- The colours of the cursor are those that `initUI` sets. -/
def drawCursor (cursor : Cursor) : Screen → Result Screen :=
  each (fun dy => each (fun dx s =>
    let x := cursor.x + UInt16.ofNat dx
    let y := cursor.y + UInt16.ofNat dy
    if cursorBit cursorMapBorder dx dy then tryPixel x y 0x000000 s
    else if cursorBit cursorMapMain dx dy then tryPixel x y 0xFFFFFF s
    else some (s, false)) (List.range cursorWidth)) (List.range cursorHeight)

end Cursor

section RealTime

structure RtcInfo where
  second : UInt8 := 0
  minute : UInt8 := 0
  hour : UInt8 := 0
  day : UInt8 := 0
  month : UInt8 := 0
  year : UInt8 := 0
  deriving DecidableEq

def realTime (rtcInfo : RtcInfo) : List UInt8 :=
  padded 2 rtcInfo.hour.toNat ++ bytes ":" ++ padded 2 rtcInfo.minute.toNat ++ bytes ":" ++
    padded 2 rtcInfo.second.toNat ++ bytes " " ++ padded 2 rtcInfo.day.toNat ++ bytes "/" ++
    padded 2 rtcInfo.month.toNat ++ bytes "/20" ++ padded 2 rtcInfo.year.toNat

def getRealTime (rtcInfo : RtcInfo) : Option (List UInt8) := store 50 (realTime rtcInfo)

def drawRealTime (currentMode : MinixMode) (rtcInfo : RtcInfo) (color : UInt32) (size : FontSize)
    (s : Screen) : Result Screen :=
  (getRealTime rtcInfo).bind fun realTimeStr =>
    let x := getXFromPercent currentMode 1 - getTextWidth realTimeStr size - 10
    drawText paint x 10 (UInt16.ofNat (2 ^ 16 - 1)) realTimeStr
      (filteredColor currentMode s.modeInfo color) size s

end RealTime

section Depth

/-- The bytes of a pixel stay as many. -/
abbrev KeepsDepth : (Screen → Result Screen) → Prop := Preserves Screen.bytesPP

theorem keepsDepth_pixel (x y : UInt16) (color : UInt32) : KeepsDepth (vgDrawPixel x y color) := by
  intro s r h
  unfold vgDrawPixel at h
  simp only at h
  split at h
  · cases h
    rfl
  split at h
  · cases h
  · obtain ⟨frameBuffer, -, rfl⟩ := Option.map_eq_some_iff.mp h
    rfl

theorem keepsDepth_rectangle (x y width height : UInt16) (color : UInt32) :
    KeepsDepth (vgDrawRectangle x y width height color) :=
  .each (fun _ => .each (fun _ => keepsDepth_pixel _ _ color) _) _

theorem keepsDepth_char (x y : UInt16) (c : UInt8) (color : UInt32) (size : FontSize) :
    KeepsDepth (drawChar x y c color size) := by
  refine .each (fun dy => .each (fun dx s r h => ?_) _) _
  split at h
  · cases h
  obtain ⟨on, -, h⟩ := Option.bind_eq_some_iff.mp h
  split at h
  · exact keepsDepth_pixel _ _ color s r h
  · cases h
    rfl

theorem keepsDepth_call (x y : UInt16) (size : FontSize) (call : DrawCall) :
    KeepsDepth (call.draw x y size) := by
  unfold DrawCall.draw
  split
  · exact keepsDepth_char _ _ _ _ _
  · exact keepsDepth_rectangle _ _ _ _ _
  · exact keepsDepth_rectangle _ _ _ _ _

theorem keepsDepth_calls (x y : UInt16) (size : FontSize) (items : List (Option DrawCall)) :
    KeepsDepth (each (defined (paint x y size)) items) := by
  refine .each (fun item => ?_) items
  cases item with
  | none =>
    intro s r h
    cases h
  | some call => exact keepsDepth_call x y size call

theorem keepsDepth_text (x y maxWidth : UInt16) (str : List UInt8) (color : UInt32)
    (size : FontSize) : KeepsDepth (drawText paint x y maxWidth str color size) := by
  intro s r h
  rw [drawText_eq] at h
  exact keepsDepth_calls x y size _ s r h

variable (currentMode : MinixMode)

theorem keepsDepth_textColor (cx cy maxWidth : ℚ) (str : List UInt8) (color : UInt32)
    (size : FontSize) : KeepsDepth (drawTextColor currentMode cx cy maxWidth str color size) :=
  fun s => keepsDepth_text _ _ _ str (filteredColor currentMode s.modeInfo color) size s

theorem keepsDepth_face (readyButtonText : List UInt8) (button : Ui.Button Face) :
    KeepsDepth (drawFace currentMode readyButtonText button) :=
  .proceed (fun s => keepsDepth_rectangle _ _ _ _
    (filteredColor currentMode s.modeInfo button.onClick.color) s)
    (keepsDepth_textColor currentMode _ _ _ _ _ _)

theorem keepsDepth_buttons (readyButtonText : List UInt8) (buttons : Buttons) :
    KeepsDepth (drawButtons currentMode readyButtonText buttons) := by
  refine .each (fun i => ?_) _
  cases buttons.get i with
  | none => exact .done false
  | some button => exact keepsDepth_face currentMode readyButtonText button

theorem keepsDepth_button (readyButtonText : List UInt8) (index : Nat) (buttons : Buttons) :
    KeepsDepth (drawButton currentMode readyButtonText index buttons) := by
  intro s r h
  unfold drawButton at h
  split at h
  · split at h
    · exact keepsDepth_face currentMode readyButtonText _ s r h
    · cases h
      rfl
  · cases h
    rfl

theorem keepsDepth_selectedButton (cursor : Cursor) (buttons : Buttons) :
    KeepsDepth (drawSelectedButton currentMode cursor buttons) := by
  intro s r h
  unfold drawSelectedButton at h
  split at h
  · cases h
    rfl
  · refine Preserves.proceed (keepsDepth_rectangle _ _ _ _ _) ?_ s r h
    refine Preserves.proceed (keepsDepth_rectangle _ _ _ _ _) ?_
    exact Preserves.proceed (keepsDepth_rectangle _ _ _ _ _) (keepsDepth_rectangle _ _ _ _ _)

theorem keepsDepth_cursor (cursor : Cursor) : KeepsDepth (drawCursor cursor) := by
  have hpixel : ∀ x y color, KeepsDepth (tryPixel x y color) := by
    intro x y color s r h
    obtain ⟨u, hu, rfl⟩ := Option.map_eq_some_iff.mp h
    exact keepsDepth_pixel x y color s u hu
  refine .each (fun dy => .each (fun dx s r h => ?_) _) _
  simp only at h
  split at h
  · exact hpixel _ _ _ s r h
  split at h
  · exact hpixel _ _ _ s r h
  · cases h
    rfl

theorem keepsDepth_realTime (rtcInfo : RtcInfo) (color : UInt32) (size : FontSize) :
    KeepsDepth (drawRealTime currentMode rtcInfo color size) := by
  intro s r h
  obtain ⟨str, -, h⟩ := Option.bind_eq_some_iff.mp h
  exact keepsDepth_text _ _ _ str _ size s r h

end Depth

section Lines

variable {b : TextBox} {n : Nat}

theorem look_line (hfit : Fits b b.str.length) (hmax : b.maxWidth < 2 ^ 16)
    (hlt : n < b.str.length) (h : At b n 0 n) :
    b.look n (layoutAt b n) = some (⟨n * b.xStep, 0 * b.yStep, strchr b.str (n + 1)⟩, false) := by
  have hdrop := List.drop_eq_getElem_cons hlt
  rw [h, TextBox.look]
  by_cases hspace : b.str[n] = space
  · rw [hspace] at hdrop
    have hnext : (strchr b.str (n + 1)).getD b.str.length ≤ b.str.length := by
      cases hs : strchr b.str (n + 1) with
      | none => exact le_rfl
      | some j => exact (strchr_lt hs).le
    have hsum : n * b.xStep + ((strchr b.str (n + 1)).getD b.str.length - n) * b.xStep ≤
        b.maxWidth := by
      rw [← Nat.add_mul]
      exact (Nat.mul_le_mul_right _ (by omega)).trans hfit
    have hword := @wordWidth_eq b n (strchr b.str (n + 1)) (by omega)
    rw [if_pos (strchr_space hdrop)]
    simp only [hword, Option.map_some]
    rw [if_neg (Nat.not_lt.mpr hsum)]
  · rw [if_neg (strchr_ne_self hdrop hspace), strchr_skip hdrop hspace]

theorem at_line (hfit : Fits b b.str.length) (hmax : b.maxWidth < 2 ^ 16)
    (hn : n ≤ b.str.length) : At b n 0 n := by
  induction n with
  | zero =>
    rw [At, Nat.zero_mul, Nat.zero_mul]
    rfl
  | succ n ih =>
    have hlook := look_line hfit hmax hn (ih (Nat.le_of_succ_le hn))
    have hlt : (n + 1) * b.xStep < 2 ^ 16 :=
      lt_of_le_of_lt ((Nat.mul_le_mul_right _ hn).trans hfit) hmax
    rw [At, layoutAt_drawn hlook, TextBox.advance]
    simp only
    rw [← Nat.succ_mul, u16_of_lt hlt]

end Lines

section Inside

variable {m : ModeInfo} {s : Screen}

def fontSize (p : Nat) : FontSize := ⟨5 * p, 7 * p, p⟩

theorem drawText_inside (h : InMode m s) {x y maxWidth : UInt16} {str : List UInt8} {p : Nat}
    (hp : 0 < p) (color : UInt32)
    (hcells : ∀ n < str.length,
      (∃ r, (⟨str, maxWidth.toNat, fontSize p⟩ : TextBox).look n
        (layoutAt ⟨str, maxWidth.toNat, fontSize p⟩ n) = some r) ∧
      x.toNat + (layoutAt ⟨str, maxWidth.toNat, fontSize p⟩ n).dx + 5 * p ≤ m.xResolution.toNat ∧
      y.toNat + (layoutAt ⟨str, maxWidth.toNat, fontSize p⟩ n).dy + 7 * p ≤ m.yResolution.toNat) :
    Yields (InMode m) (fun _ => False) (drawText paint x y maxWidth str color (fontSize p) s) := by
  rw [drawText_eq]
  refine .each (fun item hitem s hs => ?_) h
  obtain ⟨n, hn, hitem⟩ := List.mem_flatMap.mp hitem
  obtain ⟨hlook, hx, hy⟩ := hcells n (List.mem_range.mp hn)
  cases item with
  | none => exact absurd hitem (none_notMem_cellItems hlook)
  | some call =>
    rw [textItems, mem_cellItems, List.mem_singleton] at hitem
    obtain ⟨-, rfl⟩ := hitem
    have hxr := @toNat_add_index x m.xResolution
      (layoutAt ⟨str, maxWidth.toNat, fontSize p⟩ n).dx fun _ => by omega
    have hyr := @toNat_add_index y m.yResolution
      (layoutAt ⟨str, maxWidth.toNat, fontSize p⟩ n).dy fun _ => by omega
    refine drawChar_inside hs hp ?_ ?_ _ color
    · rwa [hxr]
    · rwa [hyr]

theorem drawText_line (h : InMode m s) {x y maxWidth : UInt16} {str : List UInt8} {p : Nat}
    (hp : 0 < p) (color : UInt32) (hwidth : str.length * (6 * p) ≤ maxWidth.toNat)
    (hx : x.toNat + str.length * (6 * p) ≤ m.xResolution.toNat + p)
    (hy : y.toNat + 7 * p ≤ m.yResolution.toNat) :
    Yields (InMode m) (fun _ => False) (drawText paint x y maxWidth str color (fontSize p) s) := by
  refine drawText_inside h hp color fun n hn => ?_
  have hcell : (n + 1) * (6 * p) ≤ str.length * (6 * p) := Nat.mul_le_mul_right _ hn
  rw [Nat.succ_mul] at hcell
  have hmax := maxWidth.toNat_lt
  have hstep : (⟨str, maxWidth.toNat, fontSize p⟩ : TextBox).xStep = 6 * p := by
    have hsum : 5 * p + p = 6 * p := (Nat.succ_mul 5 p).symm
    rw [TextBox.xStep, fontSize, hsum, u16_of_lt (by omega)]
  have hfit : Fits ⟨str, maxWidth.toNat, fontSize p⟩ str.length := by
    rw [Fits, hstep]
    exact hwidth
  have hat := at_line hfit hmax (Nat.le_of_lt hn)
  refine ⟨⟨_, look_line hfit hmax hn hat⟩, ?_, ?_⟩
  · rw [hat, hstep]
    simp only
    omega
  · rw [hat, Nat.zero_mul]
    exact hy

theorem getTextWidth_eq {str : List UInt8} {p : Nat} (hne : 0 < str.length)
    (hwidth : str.length * (6 * p) < 2 ^ 16) :
    (getTextWidth str (fontSize p)).toNat + p = str.length * (6 * p) := by
  have hp : 1 * (6 * p) ≤ str.length * (6 * p) := Nat.mul_le_mul_right _ hne
  have hsum : 5 * p + p = 6 * p := (Nat.succ_mul 5 p).symm
  have hall : (UInt16.ofNat (str.length * (6 * p))).toNat = str.length * (6 * p) :=
    UInt16.toNat_ofNat_of_lt' hwidth
  have hone : (UInt16.ofNat p).toNat = p := UInt16.toNat_ofNat_of_lt' (by rw [UInt16.size]; omega)
  have hle : UInt16.ofNat p ≤ UInt16.ofNat (str.length * (6 * p)) := by
    rw [UInt16.le_iff_toNat_le, hall, hone]
    omega
  rw [getTextWidth, fontSize, hsum, UInt16.toNat_sub_of_le _ _ hle, hall, hone]
  omega

variable {currentMode : MinixMode}

/-- The centre of a text of at most so many characters is far enough from the edges. -/
def Centred (currentMode : MinixMode) (cx cy : ℚ) (n p : Nat) : Prop :=
  n * (6 * p) < 2 ^ 16 ∧
  n * (3 * p) ≤ (getXFromPercent currentMode cx).toNat ∧
  (getXFromPercent currentMode cx).toNat + n * (3 * p) ≤ currentMode.resolution.1 ∧
  4 * p ≤ (getYFromPercent currentMode cy).toNat ∧
  (getYFromPercent currentMode cy).toNat + 4 * p ≤ currentMode.resolution.2

instance (currentMode : MinixMode) (cx cy : ℚ) (n p : Nat) :
    Decidable (Centred currentMode cx cy n p) := inferInstanceAs (Decidable (_ ∧ _))

theorem drawTextColor_inside (h : InMode m s)
    (hm : (m.xResolution.toNat, m.yResolution.toNat) = currentMode.resolution) {cx cy : ℚ}
    {n p : Nat} (hc : Centred currentMode cx cy n p) (hp : 0 < p) {str : List UInt8}
    (hlen : str.length ≤ n) (color : UInt32) :
    Yields (InMode m) (fun _ => False)
      (drawTextColor currentMode cx cy (-1) str color (fontSize p) s) := by
  obtain ⟨hwidth, hleft, hright, htop, hbottom⟩ := hc
  rw [← hm] at hright hbottom
  simp only at hright hbottom
  rw [drawTextColor, DrawText.drawTextColor, placeText, if_pos (by norm_num), if_pos (by norm_num)]
  obtain hnil | hne := Nat.eq_zero_or_pos str.length
  · rw [List.length_eq_zero_iff.mp hnil]
    exact .done h
  have hlong : str.length * (6 * p) ≤ n * (6 * p) := Nat.mul_le_mul_right _ hlen
  have hhalf : n * (6 * p) = 2 * (n * (3 * p)) := by ring
  have htw := @getTextWidth_eq str p hne (by omega)
  have hx : (getXFromPercent currentMode cx - (getTextWidth str (fontSize p) >>> 1)).toNat =
      (getXFromPercent currentMode cx).toNat - (getTextWidth str (fontSize p)).toNat / 2 := by
    have hshift : (getTextWidth str (fontSize p) >>> 1).toNat =
        (getTextWidth str (fontSize p)).toNat / 2 := by
      rw [UInt16.toNat_shiftRight]
      exact Nat.shiftRight_one _
    rw [UInt16.toNat_sub_of_le _ _ (UInt16.le_iff_toNat_le.mpr (by omega)), hshift]
  have hy : (getYFromPercent currentMode cy - UInt16.ofNat ((fontSize p).height >>> 1)).toNat =
      (getYFromPercent currentMode cy).toNat - 7 * p / 2 := by
    have hyt := (getYFromPercent currentMode cy).toNat_lt
    have hshift : (UInt16.ofNat ((fontSize p).height >>> 1)).toNat = 7 * p / 2 := by
      have hheight : (fontSize p).height >>> 1 = 7 * p / 2 := Nat.shiftRight_one _
      rw [hheight]
      exact UInt16.toNat_ofNat_of_lt' (by rw [UInt16.size]; omega)
    rw [UInt16.toNat_sub_of_le _ _ (UInt16.le_iff_toNat_le.mpr (by omega)), hshift]
  refine drawText_line h hp _ ?_ ?_ ?_
  · have hmax : (UInt16.ofNat (2 ^ 16 - 1)).toNat = 2 ^ 16 - 1 := rfl
    rw [hmax]
    omega
  · rw [hx]
    omega
  · rw [hy]
    omega

/-- A button whose area, frame and text are on the screen. Its text may be as long as `n`. -/
def Framed (currentMode : MinixMode) (button : Ui.Button Face) (n p : Nat) : Prop :=
  2 ≤ (getXFromPercent currentMode button.px).toNat ∧
  (getXFromPercent currentMode button.px).toNat +
    (getXFromPercent currentMode button.width).toNat + 2 ≤ currentMode.resolution.1 ∧
  2 ≤ (getYFromPercent currentMode button.py).toNat ∧
  (getYFromPercent currentMode button.py).toNat +
    (getYFromPercent currentMode button.height).toNat + 2 ≤ currentMode.resolution.2 ∧
  Centred currentMode (button.px + button.width / 2) (button.py + button.height / 2) n p ∧
  0 < p ∧ button.onClick.tSize = fontSize p

instance (currentMode : MinixMode) (button : Ui.Button Face) (n p : Nat) :
    Decidable (Framed currentMode button n p) := inferInstanceAs (Decidable (_ ∧ _))

variable {button : Ui.Button Face} {n p : Nat} {readyButtonText : List UInt8}

theorem drawFace_inside (h : InMode m s)
    (hm : (m.xResolution.toNat, m.yResolution.toNat) = currentMode.resolution)
    (hb : Framed currentMode button n p)
    (hlen : (button.onClick.text.bytes readyButtonText).length ≤ n) :
    Yields (InMode m) (fun _ => False) (drawFace currentMode readyButtonText button s) := by
  obtain ⟨-, hright, -, hbottom, hcentre, hp, hsize⟩ := hb
  have hres := hm
  rw [← hm] at hright hbottom
  rw [drawFace, hsize]
  refine Yields.proceed ?_ fun t ht => drawTextColor_inside ht hres hcentre hp hlen _
  exact rectangle_inside h (by omega) (by omega) _

theorem drawSelectedButton_inside (h : InMode m s)
    (hm : (m.xResolution.toNat, m.yResolution.toNat) = currentMode.resolution) {cursor : Cursor}
    {buttons : Buttons} (hb : ∀ i b, buttons.get i = some b → ∃ n p, Framed currentMode b n p) :
    Yields (InMode m) (fun _ => False)
      (drawSelectedButton currentMode cursor buttons s) := by
  unfold drawSelectedButton
  split
  · exact .done h
  · rename_i button hsel
    obtain ⟨i, -, hi⟩ := List.exists_of_findSome?_eq_some hsel
    obtain ⟨n, p, hleft, hright, htop, hbottom, -⟩ := hb i button (Option.filter_eq_some_iff.mp hi).1
    rw [← hm] at hright hbottom
    simp only at hright hbottom ⊢
    have hxr := m.xResolution.toNat_lt
    have hyr := m.yResolution.toNat_lt
    have hx : (getXFromPercent currentMode button.px - 2).toNat =
        (getXFromPercent currentMode button.px).toNat - 2 :=
      UInt16.toNat_sub_of_le _ _ (UInt16.le_iff_toNat_le.mpr hleft)
    have hy : (getYFromPercent currentMode button.py - 2).toNat =
        (getYFromPercent currentMode button.py).toNat - 2 :=
      UInt16.toNat_sub_of_le _ _ (UInt16.le_iff_toNat_le.mpr htop)
    have hw : (getXFromPercent currentMode button.width + 4).toNat =
        (getXFromPercent currentMode button.width).toNat + 4 :=
      @toNat_add_index _ m.xResolution 4 fun _ => by omega
    have hh : (getYFromPercent currentMode button.height + 4).toNat =
        (getYFromPercent currentMode button.height).toNat + 4 :=
      @toNat_add_index _ m.yResolution 4 fun _ => by omega
    have hxw : (getXFromPercent currentMode button.px +
        getXFromPercent currentMode button.width).toNat =
          (getXFromPercent currentMode button.px).toNat +
            (getXFromPercent currentMode button.width).toNat :=
      (UInt16.toNat_add _ _).trans (Nat.mod_eq_of_lt (by omega))
    have hyh : (getYFromPercent currentMode button.py +
        getYFromPercent currentMode button.height).toNat =
          (getYFromPercent currentMode button.py).toNat +
            (getYFromPercent currentMode button.height).toNat :=
      (UInt16.toNat_add _ _).trans (Nat.mod_eq_of_lt (by omega))
    have htwo : (2 : UInt16).toNat = 2 := rfl
    refine Yields.proceed (rectangle_inside h ?_ ?_ _) fun t ht =>
      Yields.proceed (rectangle_inside ht ?_ ?_ _) fun t ht =>
        Yields.proceed (rectangle_inside ht ?_ ?_ _) fun t ht => rectangle_inside ht ?_ ?_ _
    all_goals
      simp only [hx, hy, hw, hh, hxw, hyh, htwo]
      omega

/-- The pixels of the cursor that are not on the screen are left out. -/
theorem drawCursor_inside (h : InMode m s) (cursor : Cursor) :
    Yields (InMode m) (fun _ => False) (drawCursor cursor s) := by
  have hpixel : ∀ x y color, ∀ s, InMode m s → Yields (InMode m) (fun _ => False)
      (tryPixel x y color s) := by
    intro x y color s hs
    unfold tryPixel
    by_cases hshow : s.Shows x.toNat y.toNat
    · obtain ⟨t, ht, hdraws⟩ := pixel_inside hs.1 hshow color
      rw [ht]
      exact .done ⟨hdraws.sound hs.1, hdraws.modeInfo.trans hs.2⟩
    · rw [pixel_outside hshow]
      exact .done hs
  refine .each (fun dy _ s hs => .each (fun dx _ s hs => ?_) hs) h
  simp only
  split
  · exact hpixel _ _ _ s hs
  split
  · exact hpixel _ _ _ s hs
  · exact .done hs

theorem realTime_length (rtcInfo : RtcInfo) :
    ∃ str, getRealTime rtcInfo = some str ∧ 0 < str.length ∧ str.length ≤ 25 := by
  have hfield : ∀ n : UInt8, (padded 2 n.toNat).length ≤ 3 := by
    intro n
    have hlt : n.toNat < 10 ^ 3 := n.toNat_lt.trans (by decide)
    exact (@length_padded_le _ 3 2 (by decide) hlt).trans (by decide)
  have hour := hfield rtcInfo.hour
  have minute := hfield rtcInfo.minute
  have second := hfield rtcInfo.second
  have day := hfield rtcInfo.day
  have month := hfield rtcInfo.month
  have year := hfield rtcInfo.year
  have hlen : (realTime rtcInfo).length = 7 + (padded 2 rtcInfo.hour.toNat).length +
      (padded 2 rtcInfo.minute.toNat).length + (padded 2 rtcInfo.second.toNat).length +
      (padded 2 rtcInfo.day.toNat).length + (padded 2 rtcInfo.month.toNat).length +
      (padded 2 rtcInfo.year.toNat).length := by
    have hcolon : (bytes ":").length = 1 := rfl
    have hblank : (bytes " ").length = 1 := rfl
    have hslash : (bytes "/").length = 1 := rfl
    have hcentury : (bytes "/20").length = 3 := rfl
    simp only [realTime, List.length_append, hcolon, hblank, hslash, hcentury]
    omega
  refine ⟨realTime rtcInfo, ?_, by omega, by omega⟩
  rw [getRealTime, store, if_pos (by omega)]

theorem drawRealTime_inside (h : InMode m s)
    (hm : (m.xResolution.toNat, m.yResolution.toNat) = currentMode.resolution) (hp : 0 < p)
    (hwide : 25 * (6 * p) + 10 ≤ m.xResolution.toNat) (hhigh : 10 + 7 * p ≤ m.yResolution.toNat)
    (rtcInfo : RtcInfo) (color : UInt32) :
    Yields (InMode m) (fun _ => False)
      (drawRealTime currentMode rtcInfo color (fontSize p) s) := by
  obtain ⟨str, hstr, hne, hlen⟩ := realTime_length rtcInfo
  have hxr := m.xResolution.toNat_lt
  have hedge : (getXFromPercent currentMode 1).toNat = m.xResolution.toNat := by
    have hfloor : ((m.xResolution.toNat : ℕ) : ℚ).floor = m.xResolution.toNat := rfl
    rw [getXFromPercent, one_mul, ← hm, hfloor, Int.toNat_natCast]
    exact UInt16.toNat_ofNat_of_lt' hxr
  have hlong : str.length * (6 * p) ≤ 25 * (6 * p) := Nat.mul_le_mul_right _ hlen
  have htw := @getTextWidth_eq str p hne (by omega)
  have hx : (getXFromPercent currentMode 1 - getTextWidth str (fontSize p) - 10).toNat =
      m.xResolution.toNat - (getTextWidth str (fontSize p)).toNat - 10 := by
    have hsub := UInt16.toNat_sub_of_le (getXFromPercent currentMode 1)
      (getTextWidth str (fontSize p)) (UInt16.le_iff_toNat_le.mpr (by omega))
    have hten : (10 : UInt16).toNat = 10 := rfl
    rw [UInt16.toNat_sub_of_le _ _ (UInt16.le_iff_toNat_le.mpr (by omega)), hsub, hten, hedge]
  rw [drawRealTime, hstr, Option.bind_some]
  refine drawText_line h hp _ ?_ ?_ hhigh
  · have hmax : (UInt16.ofNat (2 ^ 16 - 1)).toNat = 2 ^ 16 - 1 := rfl
    rw [hmax]
    omega
  · rw [hx]
    omega

end Inside

end WriteWise.Display
