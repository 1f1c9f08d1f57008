import WriteWise.MouseUpdate

namespace WriteWise.Pointer

open Library.Runs Graphics Mouse Typing Program Video Ui Application MouseUpdate

/-- The hot spot of the cursor is a pixel of the screen. -/
def InScreen (ui : UiState Callback) : Prop :=
  ui.cursor.x < ui.video.modeInfo.xResolution ∧ ui.cursor.y < ui.video.modeInfo.yResolution

def Known (ui : UiState Callback) : Prop :=
  ∀ i b, ui.buttons.get i = some b → ∃ screen, .add b i ∈ loadScreen screen

/-- What is there besides: the mode is the one that is set, buttons belong to screens, and no
point lies beyond the borders. -/
structure Bounded (ui : UiState Callback) : Prop where
  resolution : (ui.video.modeInfo.xResolution.toNat, ui.video.modeInfo.yResolution.toNat) =
    ui.video.currentMode.resolution
  known : Known ui
  cursor : ui.cursor.x ≤ ui.video.modeInfo.xResolution ∧
    ui.cursor.y ≤ ui.video.modeInfo.yResolution
  press : ui.moreMouseInfo.leftX ≤ ui.video.modeInfo.xResolution ∧
    ui.moreMouseInfo.leftY ≤ ui.video.modeInfo.yResolution

section Move

variable {ui : UiState Callback}

theorem clamp_bounds {x upper : Int} (h : 0 ≤ upper) :
    0 ≤ clamp x 0 upper ∧ clamp x 0 upper ≤ upper := by
  unfold clamp
  omega

theorem toNat_clamp (x : Int) (upper : UInt16) :
    ((UInt16.ofInt (clamp x 0 upper.toNat)).toNat : Int) = clamp x 0 upper.toNat := by
  have hupper := upper.toNat_lt
  obtain ⟨hlow, hhigh⟩ := clamp_bounds (x := x) (Int.natCast_nonneg upper.toNat)
  rw [UInt16.ofInt, UInt16.toNat_ofNat']
  omega

theorem clamp_le (x : Int) (upper : UInt16) : UInt16.ofInt (clamp x 0 upper.toNat) ≤ upper := by
  have hclamp := toNat_clamp x upper
  have hbound := (clamp_bounds (x := x) (Int.natCast_nonneg upper.toNat)).2
  rw [UInt16.le_iff_toNat_le]
  omega

theorem clamp_lt_iff {x : Int} {upper : UInt16} (h : 0 < upper) :
    UInt16.ofInt (clamp x 0 upper.toNat) < upper ↔ x < upper.toNat := by
  have hclamp := toNat_clamp x upper
  rw [UInt16.lt_iff_toNat_lt] at h ⊢
  have hzero : (0 : UInt16).toNat = 0 := rfl
  have hdef : clamp x 0 upper.toNat = min (upper.toNat : Int) (max x 0) := rfl
  omega

/-- A report does not move the cursor onto the right or the lower border. -/
def StaysInside (report : Report) (ui : UiState Callback) : Prop :=
  (report.xOv = true ∨ ui.cursor.x.toNat + report.dx < ui.video.modeInfo.xResolution.toNat) ∧
    (report.yOv = true ∨ ui.cursor.y.toNat - report.dy < ui.video.modeInfo.yResolution.toNat)

instance (report : Report) (ui : UiState Callback) : Decidable (StaysInside report ui) :=
  inferInstanceAs (Decidable (_ ∧ _))

theorem inScreen_move_iff (h : InScreen ui) (report : Report) :
    InScreen (ui.moveCursor report.packet) ↔ StaysInside report ui := by
  obtain ⟨hx, hy⟩ := h
  have hposx : 0 < ui.video.modeInfo.xResolution := UInt16.lt_of_le_of_lt UInt16.zero_le hx
  have hposy : 0 < ui.video.modeInfo.yResolution := UInt16.lt_of_le_of_lt UInt16.zero_le hy
  obtain ⟨hdx, hdy⟩ := packet_deltas report
  unfold InScreen StaysInside UiState.moveCursor
  rw [hdx, hdy]
  refine and_congr ?_ ?_
  · cases hov : report.xOv with
    | true =>
      have hpacket : report.packet.xOv = true := hov
      simpa [hpacket] using hx
    | false =>
      have hpacket : report.packet.xOv = false := hov
      simpa [hpacket] using clamp_lt_iff hposx
  · cases hov : report.yOv with
    | true =>
      have hpacket : report.packet.yOv = true := hov
      simpa [hpacket] using hy
    | false =>
      have hpacket : report.packet.yOv = false := hov
      simpa [hpacket] using clamp_lt_iff hposy

theorem Bounded.move (h : Bounded ui) (packet : Packet) : Bounded (ui.moveCursor packet) := by
  refine ⟨h.resolution, h.known, ⟨?_, ?_⟩, h.press⟩
  · unfold UiState.moveCursor
    simp only
    split
    · exact h.cursor.1
    · exact clamp_le _ _
  · unfold UiState.moveCursor
    simp only
    split
    · exact h.cursor.2
    · exact clamp_le _ _

theorem Bounded.pressButtons (h : Bounded ui) (packet : Packet) :
    Bounded (ui.pressButtons packet) := by
  refine ⟨h.resolution, h.known, h.cursor, ?_⟩
  unfold UiState.pressButtons
  simp only
  split
  · exact h.cursor
  · exact h.press

theorem known_placed {screen : AppState} (h : Placed screen ui) : Known ui :=
  fun i b hb => ⟨screen, h i b hb⟩

theorem Bounded.buttons (h : Bounded ui) {ui' : UiState Callback}
    (hui : ui' = { ui with buttons := ui'.buttons }) (hknown : Known ui') : Bounded ui' := by
  rw [hui] at hknown ⊢
  exact ⟨h.resolution, hknown, h.cursor, h.press⟩

theorem inScreen_buttons {ui' : UiState Callback} (hui : ui' = { ui with buttons := ui'.buttons }) :
    InScreen ui' ↔ InScreen ui := by
  rw [hui]
  rfl

end Move

section Geometry

theorem modes_upper_left : ∀ screen, ∀ p ∈ buttonsOf screen, p.1.onClick.setsMode = true →
    p.1.px + p.1.width ≤ 0.4 ∧ p.1.py + p.1.height ≤ 0.85 := by
  intro screen
  cases screen <;> decide +kernel

theorem margin (currentMode : MinixMode) (h : currentMode ≠ .textMode) :
    (getXFromPercent currentMode 0.4).toNat + clickPxThreshold.toNat ≤ currentMode.resolution.1 ∧
      (getYFromPercent currentMode 0.85).toNat + clickPxThreshold.toNat ≤
        currentMode.resolution.2 := by
  cases currentMode with
  | textMode => exact absurd rfl h
  | _ => decide +kernel

theorem inScreen_of_click {ui : UiState Callback} (h : Bounded ui) {packet : Packet}
    (hvalid : ui.ValidClick packet) {i : Fin maxAmountOfButtons} {b : Ui.Button Callback}
    (hi : ui.clicked i = some b) (hmode : b.onClick.setsMode = true) : InScreen ui := by
  obtain ⟨hget, hclick⟩ := clicked_eq_some.mp hi
  obtain ⟨screen, hmem⟩ := h.known i b hget
  obtain ⟨hright, hlower⟩ := modes_upper_left screen _ (mem_buttonsOf hmem) hmode
  have hx := UInt16.lt_of_lt_of_le hclick.1.2
    (getXFromPercent_mono ui.video.currentMode hright (by norm_num))
  have hy := UInt16.lt_of_lt_of_le hclick.2.2
    (getYFromPercent_mono ui.video.currentMode hlower (by norm_num))
  have htext : ui.video.currentMode ≠ .textMode := by
    intro htext
    have hzero : getXFromPercent .textMode 0.4 = 0 := by
      decide +kernel
    rw [htext, hzero] at hx
    exact UInt16.not_lt_zero hx
  obtain ⟨hxm, hym⟩ := margin ui.video.currentMode htext
  have hres := h.resolution
  have hle := resolution_le ui.video.currentMode
  rw [← hres] at hxm hym hle
  have hdist := hvalid.2
  obtain ⟨hcx, hcy⟩ := h.cursor
  obtain ⟨hpx, hpy⟩ := h.press
  rw [UInt16.lt_iff_toNat_lt] at hx hy
  rw [UInt16.le_iff_toNat_le, UiState.dist, UInt16.toNat_ofNat'] at hdist
  rw [UInt16.le_iff_toNat_le] at hcx hcy hpx hpy
  constructor
  · rw [UInt16.lt_iff_toNat_lt]
    omega
  · rw [UInt16.lt_iff_toNat_lt]
    omega

end Geometry

variable {random : UInt32 → Nat → Nat} {vbe : MinixMode → ModeInfo} {outside : Outside}
  {d next : Desk} {c : Callback}

/-- Every mode information that is read is that of its mode. -/
def Truthful (vbe : MinixMode → ModeInfo) : Prop :=
  ∀ button : ResolutionButton,
    ((vbe button.mode).xResolution.toNat, (vbe button.mode).yResolution.toNat) =
      button.mode.resolution

section Callbacks

theorem press_set (v : VideoState) (button : ResolutionButton) :
    (press vbe v (button, {})).modeInfo = vbe button.mode ∧
      (press vbe v (button, {})).currentMode = button.mode := by
  have hp := pressed vbe v button {}
  generalize press vbe v (button, {}) = w at hp ⊢
  cases hp with
  | refused h => cases h
  | cleared h1 h2 => cases h2
  | set => exact ⟨rfl, rfl⟩
  | text bytesPP h1 h2 h3 => exact absurd ⟨rfl, rfl⟩ h3
  | stuck bytesPP h1 h2 h3 => exact absurd ⟨rfl, rfl⟩ h3

theorem middle (button : ResolutionButton) :
    200 < button.mode.resolution.1 ∧ 200 < button.mode.resolution.2 := by
  cases button <;> decide

theorem settingsButton_inside (hvbe : Truthful vbe) (hplatform : outside.platform = {})
    (button : ResolutionButton) (d : Desk) : InScreen (d.settingsButton vbe button outside).ui ∧
      Bounded (d.settingsButton vbe button outside).ui := by
  have hplaced : Placed .settingsState (d.settingsButton vbe button outside).ui :=
    placed_load _ _ _
  have hres := hvbe button
  obtain ⟨hx, hy⟩ := middle button
  obtain ⟨hinfo, hmode⟩ := @press_set vbe d.ui.video button
  rw [settingsButton_ui, hplatform] at hplaced ⊢
  rw [← hres] at hx hy
  have hin : 200 < (vbe button.mode).xResolution ∧ 200 < (vbe button.mode).yResolution := by
    rw [UInt16.lt_iff_toNat_lt, UInt16.lt_iff_toNat_lt]
    exact ⟨hx, hy⟩
  rw [← hinfo] at hin
  refine ⟨hin, ?_, known_placed hplaced,
    ⟨UInt16.le_of_lt hin.1, UInt16.le_of_lt hin.2⟩, UInt16.zero_le, UInt16.zero_le⟩
  simp only
  rw [hinfo, hmode, hres]

theorem known_called (h : Called random vbe outside d c next) (hknown : Known d.ui) :
    Known next.ui := by
  cases h with
  | screen => exact known_placed (placed_loadScreen _ _)
  | stays => exact hknown
  | resolution => exact known_placed (placed_load _ .settingsState _)
  | theme => exact known_placed (placed_load _ .settingsState _)

theorem bounded_called (hvbe : Truthful vbe) (hplatform : outside.platform = {})
    (h : Called random vbe outside d c next) (hb : Bounded d.ui) :
    Bounded next.ui ∧ (InScreen d.ui → InScreen next.ui) := by
  cases hmode : c.setsMode with
  | true =>
    obtain ⟨button, rfl⟩ := h.mode hmode
    obtain ⟨hin, hbound⟩ := settingsButton_inside hvbe hplatform button d
    exact ⟨hbound, fun _ => hin⟩
  | false =>
    have hui := h.ui hmode
    exact ⟨hb.buttons hui (known_called h hb.known), (inScreen_buttons hui).mpr⟩

variable {answers : Fin maxAmountOfButtons → Outside} {rest : List (Fin maxAmountOfButtons)}

theorem clickButtons_bounded (hvbe : Truthful vbe) (hplatform : ∀ i, (answers i).platform = {})
    (hb : Bounded d.ui) (h : d.clickButtons random vbe answers rest = some next) :
    Bounded next.ui ∧ (InScreen d.ui → InScreen next.ui) := by
  induction rest generalizing d with
  | nil =>
    cases h
    exact ⟨hb, id⟩
  | cons i rest ih =>
    rw [Desk.clickButtons] at h
    cases hi : d.ui.clicked i with
    | none =>
      rw [hi] at h
      exact ih hb h
    | some b =>
      rw [hi] at h
      obtain ⟨v, hv, h⟩ := Option.bind_eq_some_iff.mp h
      obtain ⟨u, hu, rfl⟩ := Option.map_eq_some_iff.mp hv
      obtain ⟨hbound, hin⟩ := bounded_called hvbe (hplatform i) (onClick_called hu) hb
      obtain ⟨hbound', hin'⟩ := ih (d := { u with invoked := d.invoked ++ [b.onClick] }) hbound h
      exact ⟨hbound', hin' ∘ hin⟩

theorem clickButtons_outside (hb : Bounded d.ui) {packet : Packet}
    (hvalid : d.ui.ValidClick packet) (hout : ¬ InScreen d.ui)
    (h : d.clickButtons random vbe answers rest = some next) : ¬ InScreen next.ui := by
  induction rest generalizing d with
  | nil =>
    cases h
    exact hout
  | cons i rest ih =>
    rw [Desk.clickButtons] at h
    cases hi : d.ui.clicked i with
    | none =>
      rw [hi] at h
      exact ih hb hvalid hout h
    | some b =>
      rw [hi] at h
      obtain ⟨v, hv, h⟩ := Option.bind_eq_some_iff.mp h
      obtain ⟨u, hu, rfl⟩ := Option.map_eq_some_iff.mp hv
      have hmode : b.onClick.setsMode = false := by
        by_contra hmode
        exact hout (inScreen_of_click hb hvalid hi (Bool.eq_true_of_not_eq_false hmode))
      have hcall := onClick_called hu
      have hui := hcall.ui hmode
      have hbound : Bounded u.ui := hb.buttons hui (known_called hcall hb.known)
      refine ih (d := { u with invoked := d.invoked ++ [b.onClick] }) hbound ?_ ?_ h
      · simp only
        rw [hui]
        exact hvalid
      · exact mt (inScreen_buttons hui).mp hout

end Callbacks

section Steps

def succeeding (outside : Outside) : Outside := { outside with platform := {} }

/-- What may happen to the cursor: a packet with a movement report, a change of the resolution,
which also a click may cause, and every other round of the main loop. -/
inductive Change
  | mouse (report : Report) (enter : Outside) (outside : Fin maxAmountOfButtons → Outside)
  | resolution (button : ResolutionButton) (outside : Outside)
  | other (e : Input) (he : e.packet = none)

def change (random : UInt32 → Nat → Nat) (vbe : MinixMode → ModeInfo) (d : Desk) :
    Change → Option Desk
  | .mouse report enter outside =>
    mainLoop random vbe d (.mouse report.packet enter fun i => succeeding (outside i))
  | .resolution button outside => some (d.settingsButton vbe button (succeeding outside))
  | .other e _ => mainLoop random vbe d e

/-- The packet does not move the cursor onto the right or the lower border. -/
def Inside (d : Desk) : Change → Prop
  | .mouse report _ _ => StaysInside report d.ui
  | _ => True

instance (d : Desk) : DecidablePred (Inside d) := fun e => by
  cases e <;> dsimp only [Inside] <;> infer_instance

theorem change_mouse (hvbe : Truthful vbe) {report : Report} {enter : Outside}
    {answers : Fin maxAmountOfButtons → Outside} (hb : Bounded d.ui)
    (h : change random vbe d (.mouse report enter answers) = some next) : Bounded next.ui ∧
      (InScreen d.ui → (StaysInside report d.ui ↔ InScreen next.ui)) := by
  obtain ⟨u, hentered, h⟩ := mouseInterrupt_entered (mainLoop_mouse h)
  obtain ⟨v, hv, rfl⟩ := Option.map_eq_some_iff.mp h
  have hui := hentered.info.1
  have hplaced : Known u.ui := by
    cases hentered with
    | stays => exact hb.known
    | enters => exact known_placed (placed_loadScreen _ _)
  have hmoved := (hb.buttons hui hplaced).move report.packet
  have hiff (hin : InScreen d.ui) :
      InScreen (u.ui.moveCursor report.packet) ↔ StaysInside report d.ui := by
    have hstays := inScreen_move_iff ((inScreen_buttons hui).mpr hin) report
    rw [hui] at hstays ⊢
    exact hstays
  split at hv
  · rename_i hvalid
    obtain ⟨hbound, hkept⟩ := clickButtons_bounded
      (d := { u with ui := u.ui.moveCursor report.packet }) hvbe (fun _ => rfl) hmoved hv
    refine ⟨hbound.pressButtons report.packet, fun hin => ?_⟩
    rw [← hiff hin]
    refine ⟨hkept, fun hnext => ?_⟩
    by_contra hout
    exact clickButtons_outside (d := { u with ui := u.ui.moveCursor report.packet }) hmoved hvalid
      hout hv hnext
  · cases hv
    exact ⟨hmoved.pressButtons report.packet, fun hin => (hiff hin).symm⟩

theorem change_other {e : Input} {he : e.packet = none} (hb : Bounded d.ui)
    (h : change random vbe d (.other e he) = some next) : Bounded next.ui ∧
      (InScreen d.ui → InScreen next.ui) := by
  obtain ⟨hturn, -⟩ := mainLoop_turn he h
  have hknown : Known next.ui := by
    cases hturn with
    | stays ui => rw [ui]; exact hb.known
    | ends ui => rw [ui]; exact hb.known
    | home ui other screen placed => exact known_placed placed
  exact ⟨hb.buttons hturn.ui hknown, (inScreen_buttons hturn.ui).mpr⟩

theorem bounded_change (hvbe : Truthful vbe) {e : Change} (hb : Bounded d.ui)
    (h : change random vbe d e = some next) :
    Bounded next.ui ∧ (InScreen d.ui → (Inside d e ↔ InScreen next.ui)) := by
  cases e with
  | mouse report enter answers => exact change_mouse hvbe hb h
  | resolution button outside =>
    cases h
    obtain ⟨hin, hbound⟩ := @settingsButton_inside vbe (succeeding outside) hvbe rfl button d
    exact ⟨hbound, fun _ => ⟨fun _ => hin, fun _ => trivial⟩⟩
  | other e he =>
    obtain ⟨hbound, hin⟩ := change_other hb h
    exact ⟨hbound, fun hd => ⟨fun _ => hin hd, fun _ => trivial⟩⟩

theorem startUp_inside (hvbe : Truthful vbe) (dictionary : List Word) :
    InScreen (startUp vbe dictionary).ui ∧ Bounded (startUp vbe dictionary).ui := by
  obtain ⟨hx, hy⟩ := middle .settingsButton600p
  have hres := hvbe .settingsButton600p
  rw [← hres] at hx hy
  have hin : InScreen (Ui.initUI { video := (setMinixMode vbe {} .vbe600pDc {}).1 }) :=
    ⟨UInt16.lt_iff_toNat_lt.mpr hx, UInt16.lt_iff_toNat_lt.mpr hy⟩
  have hbound : Bounded (Ui.initUI { video := (setMinixMode vbe {} .vbe600pDc {}).1 }) := by
    refine ⟨hres, fun i b hb => ?_, ⟨UInt16.le_of_lt hin.1, UInt16.le_of_lt hin.2⟩,
      UInt16.zero_le, UInt16.zero_le⟩
    simp [Ui.initUI, clearButtons, Vector.get_eq_getElem] at hb
  exact ⟨(inScreen_buttons (loadScreen_ui _ _)).mpr hin,
    hbound.buttons (loadScreen_ui _ _) (known_placed (placed_loadScreen _ _))⟩

end Steps

/-- In a run of packets, changes of the resolution and other rounds the hot spot of the cursor
stays on the screen exactly if no packet moves the cursor onto the right or the lower border, and
then it is always drawn. -/
theorem hot_spot_iff (random : UInt32 → Nat → Nat) (vbe : MinixMode → ModeInfo)
    (hvbe : Truthful vbe) (dictionary : List Word) {es : List Change} {last : Desk}
    (h : run (change random vbe) (startUp vbe dictionary) es = some last) :
    ((∀ earlier, earlier <+: es → ∀ d,
        run (change random vbe) (startUp vbe dictionary) earlier = some d → InScreen d.ui) ↔
      Guarded (change random vbe) Inside (startUp vbe dictionary) es) ∧
    (Guarded (change random vbe) Inside (startUp vbe dictionary) es →
      ∀ earlier, earlier <+: es → ∀ d,
        run (change random vbe) (startUp vbe dictionary) earlier = some d →
          ∀ (color : UInt32) (s : Screen), Sound s → s.modeInfo = d.ui.video.modeInfo →
            ∃ s', vgDrawPixel d.ui.cursor.x d.ui.cursor.y color s = some (s', false)) := by
  obtain ⟨hin, hbound⟩ := startUp_inside hvbe dictionary
  have hiff := @invariant_iff_guarded_along _ _ (change random vbe) Inside
    (fun d => InScreen d.ui) (fun d => Bounded d.ui)
    (fun d e next hb he => (bounded_change hvbe hb he).1)
    (fun d e next hb hd he => (bounded_change hvbe hb he).2 hd) _ last es hbound hin h
  refine ⟨hiff, fun hg earlier hes d hd color s hs hmode => ?_⟩
  obtain ⟨hx, hy⟩ := hiff.mpr hg earlier hes d hd
  have hshows : s.Shows d.ui.cursor.x.toNat d.ui.cursor.y.toNat := by
    rw [← hmode] at hx hy
    exact ⟨UInt16.lt_iff_toNat_lt.mp hx, UInt16.lt_iff_toNat_lt.mp hy⟩
  obtain ⟨s', hs', -⟩ := pixel_inside hs hshows color
  exact ⟨s', hs'⟩

theorem truthful_trueColor : Truthful trueColor := trueColor_resolution

def right : Change :=
  .mouse ⟨false, false, false, false, false, 255, 0, Mouse.largest_range, by decide⟩ {} fun _ => {}

/-- Two steps to the right, and a larger screen before the third. -/
def towardsBorder : List Change := [right, right, .resolution .settingsButton1024p {}, right]

theorem hot_spot_iff_larger : ∃ d,
    run (change (fun _ _ => 0) trueColor) (startUp trueColor []) towardsBorder = some d ∧
      d.ui.cursor = ⟨455, 200⟩ ∧ InScreen d.ui := by
  obtain ⟨d, hd⟩ := Option.isSome_iff_exists.mp (by decide +kernel : (run
    (change (fun _ _ => 0) trueColor) (startUp trueColor []) towardsBorder).isSome = true)
  have hcursor : ∀ d ∈ run (change (fun _ _ => 0) trueColor) (startUp trueColor []) towardsBorder,
      d.ui.cursor = ⟨455, 200⟩ := by
    decide +kernel
  exact ⟨d, hd, hcursor d hd, (hot_spot_iff (fun _ _ => 0) trueColor truthful_trueColor []
    hd).1.mpr (by decide +kernel) towardsBorder List.prefix_rfl d hd⟩

/-- Three steps to the right. -/
theorem cursor_reaches_border : ∃ d,
    run (change (fun _ _ => 0) trueColor) (startUp trueColor []) [right, right, right] = some d ∧
      d.ui.cursor.x = d.ui.video.modeInfo.xResolution ∧ ¬ InScreen d.ui := by
  obtain ⟨d, hd⟩ := Option.isSome_iff_exists.mp (by decide +kernel : (run
    (change (fun _ _ => 0) trueColor) (startUp trueColor []) [right, right, right]).isSome = true)
  have hborder : ∀ d ∈ run (change (fun _ _ => 0) trueColor) (startUp trueColor [])
      [right, right, right], d.ui.cursor.x = d.ui.video.modeInfo.xResolution := by
    decide +kernel
  exact ⟨d, hd, hborder d hd, fun hin => UInt16.ne_of_lt hin.1 (hborder d hd)⟩

end WriteWise.Pointer
