import WriteWise.Graphics
import WriteWise.Library.Runs

namespace WriteWise.Video

open Library.Runs Graphics

inductive MinixMode
  | textMode
  | vbe768pInd
  | vbe480pDc
  | vbe600pDc
  | vbe1024pDc
  | vbe864pDc
  deriving DecidableEq, Repr

/-- The screen size that `getXFromPercent` and `getYFromPercent` take a mode to have. -/
def MinixMode.resolution : MinixMode → Nat × Nat
  | .vbe480pDc => (640, 480)
  | .vbe600pDc => (800, 600)
  | .vbe768pInd => (1024, 768)
  | .vbe864pDc => (1152, 864)
  | .vbe1024pDc => (1280, 1024)
  | .textMode => (0, 0)

/-- The product is taken exactly, and truncated. -/
def getXFromPercent (currentMode : MinixMode) (px : ℚ) : UInt16 :=
  UInt16.ofNat (px * currentMode.resolution.1).floor.toNat

def getYFromPercent (currentMode : MinixMode) (py : ℚ) : UInt16 :=
  UInt16.ofNat (py * currentMode.resolution.2).floor.toNat

/-- The globals that change with the mode. A heap block is given by its allocated length. -/
structure VideoState where
  currentMode : MinixMode := .textMode
  modeInfo : ModeInfo := {}
  bytesPP : Nat := 0
  frameSize : Nat := 0
  frameBuffer : Nat := 0
  staticBuffer : Nat := 0
  deriving DecidableEq

/-- Which of the coming platform calls succeed: `sys_int86` for a graphic mode,
`vbe_get_mode_info`, `sys_privctl`, `vm_map_phys`, and `sys_int86` for the text mode. -/
structure Platform where
  graphicInt86 : Bool := true
  vbeGetModeInfo : Bool := true
  sysPrivctl : Bool := true
  vmMapPhys : Bool := true
  textInt86 : Bool := true
  deriving DecidableEq

section Driver

variable (vbe : MinixMode → ModeInfo) (platform : Platform)

/-- `vbe` gives the mode information that the call reads when it succeeds. -/
def setGraphicMode (submode : MinixMode) (v : VideoState) : VideoState × Bool :=
  if platform.graphicInt86 then
    if platform.vbeGetModeInfo then
      let modeInfo := vbe submode
      let bytesPP := (modeInfo.bitsPerPixel.toNat + 7) >>> 3
      ({ v with
        modeInfo := modeInfo
        bytesPP := bytesPP
        frameSize := modeInfo.xResolution.toNat * modeInfo.yResolution.toNat * bytesPP }, false)
    else ({ v with modeInfo := {} }, true)
  else (v, true)

def setTextMode (v : VideoState) : VideoState × Bool :=
  if platform.textInt86 then ({ v with modeInfo := {} }, false) else (v, true)

/-- The block of an earlier mode is not freed. -/
def setFrameBuffer (v : VideoState) : VideoState × Bool :=
  if platform.sysPrivctl then
    if platform.vmMapPhys then ({ v with frameBuffer := v.frameSize }, false) else (v, true)
  else (v, true)

def setMinixTextMode (v : VideoState) : VideoState × Bool :=
  let r := setTextMode platform v
  if r.2 then r else ({ r.1 with currentMode := .textMode }, false)

def setMinixMode (mode : MinixMode) (v : VideoState) : VideoState × Bool :=
  if mode = .textMode then setMinixTextMode platform v
  else
    let r := setGraphicMode vbe platform mode v
    if r.2 then r
    else
      let r := setFrameBuffer platform r.1
      if r.2 then ((setMinixTextMode platform r.1).1, true)
      else ({ r.1 with currentMode := mode }, false)

end Driver

def initUI (v : VideoState) : VideoState := { v with staticBuffer := v.frameSize }

def exitUI (v : VideoState) : VideoState := { v with staticBuffer := 0 }

inductive ResolutionButton
  | settingsButton480p
  | settingsButton600p
  | settingsButton864p
  | settingsButton1024p
  deriving DecidableEq, Repr

def ResolutionButton.mode : ResolutionButton → MinixMode
  | .settingsButton480p => .vbe480pDc
  | .settingsButton600p => .vbe600pDc
  | .settingsButton864p => .vbe864pDc
  | .settingsButton1024p => .vbe1024pDc

/-- The handlers ignore what `setMinixMode` returns. The screen that they draw at their
end changes none of these globals. -/
def press (vbe : MinixMode → ModeInfo) (v : VideoState) (p : ResolutionButton × Platform) : VideoState :=
  initUI (setMinixMode vbe p.2 p.1.mode (exitUI v)).1

def start (vbe : MinixMode → ModeInfo) : VideoState := initUI (setMinixMode vbe {} .vbe600pDc {}).1

def frameOf (m : ModeInfo) : Nat :=
  m.xResolution.toNat * m.yResolution.toNat * ((m.bitsPerPixel.toNat + 7) >>> 3)

/-- What a press leaves, by the first platform call that fails. -/
inductive Pressed (vbe : MinixMode → ModeInfo) (v : VideoState) (mode : MinixMode)
    (platform : Platform) : VideoState → Prop
  | refused (h : platform.graphicInt86 = false) :
    Pressed vbe v mode platform { v with staticBuffer := v.frameSize }
  | cleared (h1 : platform.graphicInt86 = true)
      (h2 : platform.vbeGetModeInfo = false) :
    Pressed vbe v mode platform { v with modeInfo := {}, staticBuffer := v.frameSize }
  | set (bytesPP : Nat) (h1 : platform.graphicInt86 = true)
      (h2 : platform.vbeGetModeInfo = true) (h3 : platform.sysPrivctl = true)
      (h4 : platform.vmMapPhys = true) :
    Pressed vbe v mode platform
      { currentMode := mode
        modeInfo := vbe mode
        bytesPP := bytesPP
        frameSize := frameOf (vbe mode)
        frameBuffer := frameOf (vbe mode)
        staticBuffer := frameOf (vbe mode) }
  | text (bytesPP : Nat) (h1 : platform.graphicInt86 = true)
      (h2 : platform.vbeGetModeInfo = true)
      (h3 : ¬ (platform.sysPrivctl = true ∧ platform.vmMapPhys = true))
      (h4 : platform.textInt86 = true) :
    Pressed vbe v mode platform
      { currentMode := .textMode
        modeInfo := {}
        bytesPP := bytesPP
        frameSize := frameOf (vbe mode)
        frameBuffer := v.frameBuffer
        staticBuffer := frameOf (vbe mode) }
  | stuck (bytesPP : Nat) (h1 : platform.graphicInt86 = true)
      (h2 : platform.vbeGetModeInfo = true)
      (h3 : ¬ (platform.sysPrivctl = true ∧ platform.vmMapPhys = true))
      (h4 : platform.textInt86 = false) :
    Pressed vbe v mode platform
      { currentMode := v.currentMode
        modeInfo := vbe mode
        bytesPP := bytesPP
        frameSize := frameOf (vbe mode)
        frameBuffer := v.frameBuffer
        staticBuffer := frameOf (vbe mode) }

theorem pressed (vbe : MinixMode → ModeInfo) (v : VideoState) (button : ResolutionButton)
    (platform : Platform) :
    Pressed vbe v button.mode platform (press vbe v (button, platform)) := by
  have hmode : button.mode ≠ .textMode := by
    cases button <;> decide
  obtain ⟨graphic, info, privctl, map, text⟩ := platform
  unfold press setMinixMode
  simp only
  rw [if_neg hmode]
  cases graphic with
  | false => exact .refused rfl
  | true =>
    cases info with
    | false => exact .cleared rfl rfl
    | true =>
      cases privctl with
      | false =>
        cases text with
        | false => exact .stuck _ rfl rfl (by simp) rfl
        | true => exact .text _ rfl rfl (by simp) rfl
      | true =>
        cases map with
        | false =>
          cases text with
          | false => exact .stuck _ rfl rfl (by simp) rfl
          | true => exact .text _ rfl rfl (by simp) rfl
        | true => exact .set _ rfl rfl rfl rfl

/-- The calls succeed, or the first one that fails leaves nothing behind that does not agree
with the state before. -/
def Kept (vbe : MinixMode → ModeInfo) (v : VideoState) (p : ResolutionButton × Platform) : Prop :=
  if p.2.graphicInt86 = false then True
  else if p.2.vbeGetModeInfo = false then v.currentMode = .textMode
  else if p.2.sysPrivctl = true ∧ p.2.vmMapPhys = true then True
  else frameOf (vbe p.1.mode) ≤ v.frameBuffer ∧
    (p.2.textInt86 = true ∨ v.currentMode = p.1.mode)

instance (vbe : MinixMode → ModeInfo) (v : VideoState) (p : ResolutionButton × Platform) :
    Decidable (Kept vbe v p) := by
  unfold Kept
  infer_instance

/-- The functions that clear or copy a whole frame. -/
inductive WholeFrame
  | clearScreen
  | calcStaticUI
  | loadStaticUI
  | flipFrame
  deriving DecidableEq, Repr

/-- The allocated blocks of which such a function reads or writes the first `frameSize` bytes. The
mapped video memory is not among them. -/
def WholeFrame.blocks (v : VideoState) : WholeFrame → List Nat
  | .clearScreen | .flipFrame => [v.frameBuffer]
  | .calcStaticUI | .loadStaticUI => [v.frameBuffer, v.staticBuffer]

def trueColor (mode : MinixMode) : ModeInfo where
  xResolution := UInt16.ofNat mode.resolution.1
  yResolution := UInt16.ofNat mode.resolution.2
  bitsPerPixel := 24

theorem trueColor_resolution : ∀ button : ResolutionButton,
    ((trueColor button.mode).xResolution.toNat, (trueColor button.mode).yResolution.toNat) =
      button.mode.resolution := by
  rintro (_ | _ | _ | _) <;> rfl

example : (press trueColor (start trueColor)
    (.settingsButton480p, { vbeGetModeInfo := false })).currentMode = .vbe600pDc ∧
      (press trueColor (start trueColor)
        (.settingsButton480p, { vbeGetModeInfo := false })).modeInfo = {} := by
  decide

end WriteWise.Video
