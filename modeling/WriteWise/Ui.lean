import WriteWise.Mouse
import WriteWise.Video

namespace WriteWise.Ui

open Graphics Mouse Video

section Constants

def maxAmountOfButtons : Nat := 10
def clickPxThreshold : UInt16 := 20

end Constants

/-- What a button is, but for its colours and its text. Callbacks are named in `κ`. -/
structure Button (κ : Type) where
  px : ℚ
  py : ℚ
  width : ℚ
  height : ℚ
  onClick : κ
  deriving DecidableEq

structure MouseInfo where
  leftPressed : Bool := false
  middlePressed : Bool := false
  rightPressed : Bool := false
  leftX : UInt16 := 0
  leftY : UInt16 := 0
  deriving DecidableEq

structure Cursor where
  x : UInt16 := 0
  y : UInt16 := 0
  deriving DecidableEq

/-- The globals of `ui.c` and of the mode. A place that is free holds no button. -/
structure UiState (κ : Type) where
  video : VideoState := {}
  cursor : Cursor := {}
  moreMouseInfo : MouseInfo := {}
  buttons : Vector (Option (Button κ)) maxAmountOfButtons := .replicate maxAmountOfButtons none
  deriving DecidableEq

section Code

variable {κ : Type}

def clearButtons (ui : UiState κ) : UiState κ :=
  { ui with buttons := .replicate maxAmountOfButtons none }

/-- The second component says that an error is returned. -/
def addButton (button : Button κ) (index : Nat) (ui : UiState κ) : UiState κ × Bool :=
  if h : index < maxAmountOfButtons then
    match ui.buttons.get ⟨index, h⟩ with
    | some _ => (ui, true)
    | none => ({ ui with buttons := ui.buttons.set index (some button) h }, false)
  else (ui, true)

def initUI (ui : UiState κ) : UiState κ :=
  clearButtons { ui with
    moreMouseInfo := {}
    cursor := { x := 200, y := 200 }
    video := Video.initUI ui.video }

def exitUI (ui : UiState κ) : UiState κ := { ui with video := Video.exitUI ui.video }

def IsClickOnButton (currentMode : MinixMode) (x y : UInt16) (button : Button κ) : Prop :=
  (getXFromPercent currentMode button.px ≤ x ∧
      x < getXFromPercent currentMode (button.px + button.width)) ∧
    (getYFromPercent currentMode button.py ≤ y ∧
      y < getYFromPercent currentMode (button.py + button.height))

instance (currentMode : MinixMode) (x y : UInt16) (button : Button κ) :
    Decidable (IsClickOnButton currentMode x y button) := inferInstanceAs (Decidable (_ ∧ _))

def clamp (x lower upper : Int) : Int := min upper (max x lower)

def UiState.moveCursor (packet : Packet) (ui : UiState κ) : UiState κ :=
  { ui with
    cursor :=
      { x := if packet.xOv then ui.cursor.x
          else UInt16.ofInt (clamp (ui.cursor.x.toNat + packet.deltaX.toInt) 0
            ui.video.modeInfo.xResolution.toNat)
        y := if packet.yOv then ui.cursor.y
          else UInt16.ofInt (clamp (ui.cursor.y.toNat - packet.deltaY.toInt) 0
            ui.video.modeInfo.yResolution.toNat) } }

def UiState.dist (ui : UiState κ) : UInt16 :=
  UInt16.ofNat ((ui.moreMouseInfo.leftX.toNat - ui.cursor.x.toNat : Int).natAbs +
    (ui.moreMouseInfo.leftY.toNat - ui.cursor.y.toNat : Int).natAbs)

/-- The left button goes up, close to where it went down. -/
def UiState.ValidClick (packet : Packet) (ui : UiState κ) : Prop :=
  (ui.moreMouseInfo.leftPressed = true ∧ packet.lb = false) ∧ ui.dist ≤ clickPxThreshold

instance (packet : Packet) (ui : UiState κ) : Decidable (ui.ValidClick packet) :=
  inferInstanceAs (Decidable (_ ∧ _))

def UiState.clicked (ui : UiState κ) (i : Fin maxAmountOfButtons) : Option (Button κ) :=
  (ui.buttons.get i).filter fun button =>
    IsClickOnButton ui.video.currentMode ui.moreMouseInfo.leftX ui.moreMouseInfo.leftY button

def UiState.pressButtons (packet : Packet) (ui : UiState κ) : UiState κ :=
  let info := if ui.moreMouseInfo.leftPressed = false ∧ packet.lb = true then
      { ui.moreMouseInfo with leftX := ui.cursor.x, leftY := ui.cursor.y }
    else ui.moreMouseInfo
  { ui with
    moreMouseInfo := { info with
      leftPressed := packet.lb
      middlePressed := packet.mb
      rightPressed := packet.rb } }

end Code

section Geometry

variable {κ : Type} {button button' : Button κ} {x y : UInt16}

theorem clicked_eq_some {ui : UiState κ} {i : Fin maxAmountOfButtons} :
    ui.clicked i = some button ↔ ui.buttons.get i = some button ∧
      IsClickOnButton ui.video.currentMode ui.moreMouseInfo.leftX ui.moreMouseInfo.leftY
        button := by
  rw [UiState.clicked, Option.filter_eq_some_iff, decide_eq_true_iff]

theorem clicked_eq_none {ui : UiState κ} {i : Fin maxAmountOfButtons}
    (h : ∀ b, ui.buttons.get i = some b →
      ¬ IsClickOnButton ui.video.currentMode ui.moreMouseInfo.leftX ui.moreMouseInfo.leftY b) :
    ui.clicked i = none := by
  apply Option.eq_none_iff_forall_not_mem.mpr
  intro b hb
  obtain ⟨hget, hclick⟩ := clicked_eq_some.mp hb
  exact h b hget hclick

theorem resolution_le (currentMode : MinixMode) :
    currentMode.resolution.1 ≤ 1280 ∧ currentMode.resolution.2 ≤ 1024 := by
  cases currentMode <;> decide

theorem percent_mono {size : Nat} (hsize : size ≤ 1280) {p q : ℚ} (h : p ≤ q) (hq : q ≤ 1) :
    UInt16.ofNat (p * size).floor.toNat ≤ UInt16.ofNat (q * size).floor.toNat := by
  have hscale : (0 : ℚ) ≤ size := Nat.cast_nonneg _
  have hmono : (p * size).floor.toNat ≤ (q * size).floor.toNat :=
    Int.toNat_le_toNat (Int.floor_mono (mul_le_mul_of_nonneg_right h hscale))
  have htop : (q * size).floor.toNat < UInt16.size := by
    have hfloor : (q * size).floor ≤ (size : Int) := by
      have hle := Int.floor_mono (mul_le_of_le_one_left hscale hq)
      rwa [Int.floor_natCast] at hle
    refine lt_of_le_of_lt ((Int.toNat_le_toNat hfloor).trans ?_) (by decide : 1280 < UInt16.size)
    rwa [Int.toNat_natCast]
  rw [UInt16.le_iff_toNat_le, UInt16.toNat_ofNat_of_lt' (lt_of_le_of_lt hmono htop),
    UInt16.toNat_ofNat_of_lt' htop]
  exact hmono

theorem getXFromPercent_mono (currentMode : MinixMode) {p q : ℚ} (h : p ≤ q) (hq : q ≤ 1) :
    getXFromPercent currentMode p ≤ getXFromPercent currentMode q :=
  percent_mono (resolution_le currentMode).1 h hq

theorem getYFromPercent_mono (currentMode : MinixMode) {p q : ℚ} (h : p ≤ q) (hq : q ≤ 1) :
    getYFromPercent currentMode p ≤ getYFromPercent currentMode q :=
  percent_mono ((resolution_le currentMode).2.trans (by decide)) h hq

theorem not_click_below {currentMode : MinixMode} (h : IsClickOnButton currentMode x y button)
    (hbelow : button.py + button.height ≤ button'.py) (hle : button'.py ≤ 1) :
    ¬ IsClickOnButton currentMode x y button' := by
  intro h'
  have hmono := getYFromPercent_mono currentMode hbelow hle
  have hy := UInt16.lt_of_lt_of_le h.2.2 hmono
  exact absurd h'.2.1 (UInt16.not_le.mpr hy)

theorem getYFromPercent_pos {currentMode : MinixMode} (h : currentMode ≠ .textMode) :
    0 < getYFromPercent currentMode 0.3 := by
  cases currentMode with
  | textMode => exact absurd rfl h
  | _ => decide +kernel

theorem not_click_corner (currentMode : MinixMode) (h : 0.3 ≤ button.py) (hle : button.py ≤ 1) :
    ¬ IsClickOnButton currentMode 0 0 button := by
  rintro ⟨-, htop, hbottom⟩
  by_cases hmode : currentMode = .textMode
  · rw [hmode, getYFromPercent, MinixMode.resolution, Nat.cast_zero, mul_zero] at hbottom
    exact absurd hbottom (by decide +kernel)
  · have hpos := UInt16.lt_of_lt_of_le (getYFromPercent_pos hmode)
      (getYFromPercent_mono currentMode h hle)
    exact absurd htop (UInt16.not_le.mpr hpos)

end Geometry

end WriteWise.Ui
