import WriteWise.Library.LittleEndian
import WriteWise.Library.Loops
import WriteWise.Library.Raster

namespace WriteWise.Graphics

open Library.LittleEndian Library.Loops Library.Raster

/-- The fields of the VBE mode information that the program reads. -/
structure ModeInfo where
  xResolution : UInt16 := 0
  yResolution : UInt16 := 0
  bitsPerPixel : UInt8 := 0
  redMaskSize : UInt8 := 0
  redFieldPosition : UInt8 := 0
  greenMaskSize : UInt8 := 0
  greenFieldPosition : UInt8 := 0
  blueMaskSize : UInt8 := 0
  blueFieldPosition : UInt8 := 0
  deriving DecidableEq

/-- The globals of `graphics.c` through which pixels are drawn. -/
structure Screen where
  modeInfo : ModeInfo := {}
  bytesPP : UInt16 := 0
  frameBuffer : List UInt8 := []
  deriving DecidableEq

abbrev intBound : Nat := 2 ^ 31

def colorBytes (color : UInt32) : List UInt8 := encode 4 color.toNat

/-- Copy the first `n` bytes of an object into a block. Undefined outside either of them. -/
def memcpy (block : List UInt8) (i : Nat) (object : List UInt8) (n : Nat) : Option (List UInt8) :=
  if n ≤ object.length ∧ i + n ≤ block.length then some (splice block i (object.take n)) else none

/-- The index is computed in `int`, whose overflow is undefined. -/
def vgDrawPixel (x y : UInt16) (color : UInt32) (s : Screen) : Result Screen :=
  if s.modeInfo.xResolution ≤ x ∨ s.modeInfo.yResolution ≤ y then some (s, true)
  else
    let cell := s.modeInfo.xResolution.toNat * y.toNat + x.toNat
    let i := cell * s.bytesPP.toNat
    if intBound ≤ cell ∨ intBound ≤ i then none
    else
      (memcpy s.frameBuffer i (colorBytes color) s.bytesPP.toNat).map fun frameBuffer =>
        ({ s with frameBuffer := frameBuffer }, false)

def vgDrawHline (x y len : UInt16) (color : UInt32) : Screen → Result Screen :=
  each (fun i => vgDrawPixel (x + UInt16.ofNat i) y color) (List.range len.toNat)

def vgDrawRectangle (x y width height : UInt16) (color : UInt32) : Screen → Result Screen :=
  each (fun i => vgDrawHline x (y + UInt16.ofNat i) width color) (List.range height.toNat)

/-- The components of a colour as the mode packs them. Undefined for a mask of more than 8 bits,
for which nothing is shifted out here. -/
def rgbToColor (m : ModeInfo) (red green blue : UInt8) : UInt32 :=
  let pack (component maskSize fieldPosition : UInt8) : Nat :=
    (component.toNat >>> (8 - maskSize.toNat)) <<< fieldPosition.toNat
  UInt32.ofNat (pack red m.redMaskSize m.redFieldPosition |||
    pack green m.greenMaskSize m.greenFieldPosition |||
    pack blue m.blueMaskSize m.blueFieldPosition)

/-- The frame buffer holds the pixels of the mode, of one to four bytes each. -/
structure Sound (s : Screen) : Prop where
  depth_pos : 0 < s.bytesPP.toNat
  depth_le : s.bytesPP.toNat ≤ 4
  length : s.frameBuffer.length =
    s.modeInfo.xResolution.toNat * s.modeInfo.yResolution.toNat * s.bytesPP.toNat
  area : s.frameBuffer.length < intBound

def Screen.Shows (s : Screen) (px py : Nat) : Prop :=
  px < s.modeInfo.xResolution.toNat ∧ py < s.modeInfo.yResolution.toNat

/-- The pixels of a rectangle, which may lie outside the screen. -/
def InRect (x y width height px py : Nat) : Prop :=
  x ≤ px ∧ px < x + width ∧ y ≤ py ∧ py < y + height

def Screen.bytesOf (s : Screen) (color : UInt32) : List UInt8 :=
  (colorBytes color).take s.bytesPP.toNat

/-- The pixels of the area have been drawn, all of them on the screen. -/
structure Draws (area : Nat → Nat → Prop) (color : UInt32) (s s' : Screen) : Prop where
  modeInfo : s'.modeInfo = s.modeInfo
  bytesPP : s'.bytesPP = s.bytesPP
  shows : ∀ px py, area px py → s.Shows px py
  painted : Painted s.modeInfo.xResolution.toNat s.bytesPP.toNat area (s.bytesOf color)
    s.frameBuffer s'.frameBuffer

/-- Nothing has been drawn but pixels of the area. -/
structure Touches (area : Nat → Nat → Prop) (s s' : Screen) : Prop where
  modeInfo : s'.modeInfo = s.modeInfo
  bytesPP : s'.bytesPP = s.bytesPP
  confined : Confined s.modeInfo.xResolution.toNat s.bytesPP.toNat area s.frameBuffer s'.frameBuffer

section Drawing

variable {A B : Nat → Nat → Prop} {color : UInt32} {s s' t : Screen}

theorem Draws.sound (h : Draws A color s s') (hs : Sound s) : Sound s' := by
  have hlen := h.painted.length
  refine ⟨?_, ?_, ?_, ?_⟩
  · rw [h.bytesPP]
    exact hs.depth_pos
  · rw [h.bytesPP]
    exact hs.depth_le
  · rw [h.modeInfo, h.bytesPP, hlen, hs.length]
  · rw [hlen]
    exact hs.area

theorem Draws.empty (h : ∀ px py, ¬ A px py) (color : UInt32) (s : Screen) : Draws A color s s :=
  ⟨rfl, rfl, fun px py hp => absurd hp (h px py), .empty h _ _⟩

theorem Draws.trans (h : Draws A color s s') (h' : Draws B color s' t) :
    Draws (fun px py => A px py ∨ B px py) color s t := by
  have hB : ∀ px py, B px py → s.Shows px py := by
    intro px py hp
    have hshow := h'.shows px py hp
    rwa [Screen.Shows, h.modeInfo] at hshow
  have hp := h'.painted
  rw [h.modeInfo, h.bytesPP, Screen.bytesOf, h.bytesPP] at hp
  refine ⟨h'.modeInfo.trans h.modeInfo, h'.bytesPP.trans h.bytesPP, ?_,
    h.painted.trans hp (fun px py ha => (h.shows px py ha).1) fun px py hb => (hB px py hb).1⟩
  rintro px py (ha | hb)
  · exact h.shows px py ha
  · exact hB px py hb

theorem Draws.congr (h : Draws A color s s') (hAB : ∀ px py, A px py ↔ B px py) :
    Draws B color s s' := by
  obtain rfl : A = B := funext fun px => funext fun py => propext (hAB px py)
  exact h

theorem Draws.touches (h : Draws A color s s')
    (hAB : ∀ px py, A px py → s.Shows px py → B px py) : Touches B s s' :=
  ⟨h.modeInfo, h.bytesPP,
    h.painted.toConfined.mono fun px py ha => hAB px py ha (h.shows px py ha)⟩

theorem Touches.trans (h : Touches A s s') (h' : Touches A s' t) : Touches A s t := by
  have hc := h'.confined
  rw [h.modeInfo, h.bytesPP] at hc
  exact ⟨h'.modeInfo.trans h.modeInfo, h'.bytesPP.trans h.bytesPP,
    (h.confined.trans hc).mono fun px py hp => or_self_iff.mp hp⟩

theorem length_bytesOf (hs : Sound s) (color : UInt32) :
    (s.bytesOf color).length = s.bytesPP.toNat := by
  have hle := hs.depth_le
  rw [Screen.bytesOf, List.length_take, colorBytes, length_encode]
  omega

theorem pixel_outside {x y : UInt16} (h : ¬ s.Shows x.toNat y.toNat) (color : UInt32) :
    vgDrawPixel x y color s = some (s, true) := by
  refine if_pos ?_
  rw [UInt16.le_iff_toNat_le, UInt16.le_iff_toNat_le]
  unfold Screen.Shows at h
  omega

theorem pixel_inside (hs : Sound s) {x y : UInt16} (h : s.Shows x.toNat y.toNat)
    (color : UInt32) : ∃ s', vgDrawPixel x y color s = some (s', false) ∧
      Draws (fun px py => px = x.toNat ∧ py = y.toNat) color s s' := by
  have hin : ¬ (s.modeInfo.xResolution ≤ x ∨ s.modeInfo.yResolution ≤ y) := by
    rw [UInt16.le_iff_toNat_le, UInt16.le_iff_toNat_le]
    unfold Screen.Shows at h
    omega
  have hpos := hs.depth_pos
  have hlast : offset s.modeInfo.xResolution.toNat s.bytesPP.toNat x.toNat y.toNat 0 +
      s.bytesPP.toNat ≤ s.frameBuffer.length := by
    have hlt := offset_lt h.1 h.2 (Nat.sub_lt hpos Nat.one_pos)
    rw [← hs.length] at hlt
    unfold offset at hlt ⊢
    omega
  have hcell : s.modeInfo.xResolution.toNat * y.toNat + x.toNat ≤
      (s.modeInfo.xResolution.toNat * y.toNat + x.toNat) * s.bytesPP.toNat :=
    Nat.le_mul_of_pos_right _ hpos
  have harea := hs.area
  unfold offset at hlast
  rw [Nat.add_zero] at hlast
  have hint : ¬ (intBound ≤ s.modeInfo.xResolution.toNat * y.toNat + x.toNat ∨
      intBound ≤ (s.modeInfo.xResolution.toNat * y.toNat + x.toNat) * s.bytesPP.toNat) := by
    omega
  have hcopy : memcpy s.frameBuffer
      ((s.modeInfo.xResolution.toNat * y.toNat + x.toNat) * s.bytesPP.toNat) (colorBytes color)
      s.bytesPP.toNat = some (splice s.frameBuffer
        ((s.modeInfo.xResolution.toNat * y.toNat + x.toNat) * s.bytesPP.toNat)
        (s.bytesOf color)) := by
    refine if_pos ⟨?_, hlast⟩
    rw [colorBytes, length_encode]
    exact hs.depth_le
  refine ⟨{ s with
    frameBuffer := splice s.frameBuffer
      ((s.modeInfo.xResolution.toNat * y.toNat + x.toNat) * s.bytesPP.toNat) (s.bytesOf color) },
    ?_, rfl, rfl, ?_, painted_pixel (length_bytesOf hs color) hlast⟩
  · unfold vgDrawPixel
    simp only
    rw [if_neg hin, if_neg hint, hcopy, Option.map_some]
  · rintro px py ⟨rfl, rfl⟩
    exact h

def Screen.FitsRow (s : Screen) (x y len : Nat) : Prop :=
  len = 0 ∨ x + len ≤ s.modeInfo.xResolution.toNat ∧ y < s.modeInfo.yResolution.toNat

theorem toNat_add_index {x bound : UInt16} {i : Nat} (h : 0 < i → x.toNat + i ≤ bound.toNat) :
    (x + UInt16.ofNat i).toNat = x.toNat + i := by
  have hx := x.toNat_lt
  have hb := bound.toNat_lt
  have hsum : x.toNat + i < 2 ^ 16 := by
    obtain rfl | hi := Nat.eq_zero_or_pos i
    · omega
    · have hle := h hi
      omega
  rw [UInt16.toNat_add, UInt16.toNat_ofNat', Nat.mod_eq_of_lt (by omega : i < 2 ^ 16),
    Nat.mod_eq_of_lt hsum]

/-- A row is drawn to its end exactly if it lies on the screen. -/
theorem hline_spec (hs : Sound s) (x y len : UInt16) (color : UInt32) :
    Yields
      (fun t => s.FitsRow x.toNat y.toNat len.toNat ∧
        Draws (InRect x.toNat y.toNat len.toNat 1) color s t)
      (fun t => ¬ s.FitsRow x.toNat y.toNat len.toNat ∧
        Touches (fun px py => InRect x.toNat y.toNat len.toNat 1 px py ∧ s.Shows px py) s t)
      (vgDrawHline x y len color s) := by
  refine Yields.range
    (I := fun i t => s.FitsRow x.toNat y.toNat i ∧ Draws (InRect x.toNat y.toNat i 1) color s t)
    (fun i hi t hit => ?_) ⟨.inl rfl, .empty ?_ _ _⟩
  · obtain ⟨hfit, hdraws⟩ := hit
    have hindex : (x + UInt16.ofNat i).toNat = x.toNat + i :=
      toNat_add_index fun hpos => (hfit.resolve_left hpos.ne').1
    by_cases hshow : t.Shows (x + UInt16.ofNat i).toNat y.toNat
    · obtain ⟨u, hu, hpixel⟩ := pixel_inside (hdraws.sound hs) hshow color
      rw [hu]
      rw [hindex, Screen.Shows, hdraws.modeInfo] at hshow
      refine .done ⟨.inr ⟨hshow.1, hshow.2⟩, (hdraws.trans hpixel).congr fun px py => ?_⟩
      rw [hindex]
      unfold InRect
      omega
    · rw [pixel_outside hshow]
      rw [hindex, Screen.Shows, hdraws.modeInfo] at hshow
      refine .failed ⟨?_, hdraws.touches fun px py hp hpshow => ⟨?_, hpshow⟩⟩
      · rintro (h0 | hall)
        · omega
        · exact hshow ⟨by omega, hall.2⟩
      · unfold InRect at hp ⊢
        omega
  · rintro px py ⟨h1, h2, -⟩
    omega

def Screen.FitsRect (s : Screen) (x y width height : Nat) : Prop :=
  width = 0 ∨ height = 0 ∨
    x + width ≤ s.modeInfo.xResolution.toNat ∧ y + height ≤ s.modeInfo.yResolution.toNat

theorem rectangle_spec (hs : Sound s) (x y width height : UInt16) (color : UInt32) :
    Yields
      (fun t => s.FitsRect x.toNat y.toNat width.toNat height.toNat ∧
        Draws (InRect x.toNat y.toNat width.toNat height.toNat) color s t)
      (fun t => ¬ s.FitsRect x.toNat y.toNat width.toNat height.toNat ∧
        Touches (fun px py => InRect x.toNat y.toNat width.toNat height.toNat px py ∧
          s.Shows px py) s t)
      (vgDrawRectangle x y width height color s) := by
  refine Yields.range
    (I := fun i t => s.FitsRect x.toNat y.toNat width.toNat i ∧
      Draws (InRect x.toNat y.toNat width.toNat i) color s t)
    (fun i hi t hit => ?_) ⟨.inr (.inl rfl), .empty ?_ _ _⟩
  · obtain ⟨hfit, hdraws⟩ := hit
    -- without a width the row number may wrap around, and no pixel is drawn
    have hindex : width.toNat ≠ 0 → (y + UInt16.ofNat i).toNat = y.toNat + i := fun hw =>
      toNat_add_index fun hpos => ((hfit.resolve_left hw).resolve_left hpos.ne').2
    have hrow := hline_spec (hdraws.sound hs) x (y + UInt16.ofNat i) width color
    unfold Screen.FitsRow Screen.Shows at hrow
    rw [hdraws.modeInfo] at hrow
    refine hrow.mono (fun u hu => ⟨?_, ?_⟩) fun u hu => ⟨?_, ?_⟩
    · by_cases hw : width.toNat = 0
      · exact .inl hw
      · obtain ⟨hx, hy⟩ := hu.1.resolve_left hw
        rw [hindex hw] at hy
        exact .inr (.inr ⟨hx, hy⟩)
    · refine (hdraws.trans hu.2).congr fun px py => ?_
      unfold InRect
      by_cases hw : width.toNat = 0
      · omega
      · rw [hindex hw]
        omega
    · have hw : width.toNat ≠ 0 := fun hw => hu.1 (.inl hw)
      rintro (h0 | h0 | hall)
      · exact hw h0
      · omega
      · exact hu.1 (.inr ⟨hall.1, by rw [hindex hw]; omega⟩)
    · have hw : width.toNat ≠ 0 := fun hw => hu.1 (.inl hw)
      have htouch : Touches (fun px py => InRect x.toNat y.toNat width.toNat height.toNat px py ∧
          s.Shows px py) t u := by
        refine ⟨hu.2.modeInfo, hu.2.bytesPP, hu.2.confined.mono fun px py hp => ⟨?_, hp.2⟩⟩
        have hin := hp.1
        unfold InRect at hin ⊢
        rw [hindex hw] at hin
        omega
      refine Touches.trans ?_ htouch
      refine hdraws.touches fun px py hp hshow => ⟨?_, hshow⟩
      unfold InRect at hp ⊢
      omega
  · rintro px py ⟨-, -, h3, h4⟩
    omega

end Drawing

/-- A rectangle is drawn in full exactly if it has no pixel or lies on the screen. Then its pixels
hold the colour and nothing else has changed; otherwise only pixels of it on the screen may have.
It never writes outside the frame buffer. -/
theorem rectangle_paints_exactly (s : Screen) (hs : Sound s) (x y width height : UInt16)
    (color : UInt32) :
    ∃ t failed, vgDrawRectangle x y width height color s = some (t, failed) ∧
      t.frameBuffer.length = s.frameBuffer.length ∧
      (failed = false ↔ width = 0 ∨ height = 0 ∨
        x.toNat + width.toNat ≤ s.modeInfo.xResolution.toNat ∧
          y.toNat + height.toNat ≤ s.modeInfo.yResolution.toNat) ∧
      (failed = false →
        (∀ px py j, InRect x.toNat y.toNat width.toNat height.toNat px py → j < s.bytesPP.toNat →
          t.frameBuffer[offset s.modeInfo.xResolution.toNat s.bytesPP.toNat px py j]? =
            (colorBytes color)[j]?) ∧
        ∀ k, (∀ px py j, InRect x.toNat y.toNat width.toNat height.toNat px py →
          j < s.bytesPP.toNat → k ≠ offset s.modeInfo.xResolution.toNat s.bytesPP.toNat px py j) →
            t.frameBuffer[k]? = s.frameBuffer[k]?) ∧
      (failed = true →
        ∀ k, (∀ px py j, InRect x.toNat y.toNat width.toNat height.toNat px py →
          s.Shows px py → j < s.bytesPP.toNat →
            k ≠ offset s.modeInfo.xResolution.toNat s.bytesPP.toNat px py j) →
              t.frameBuffer[k]? = s.frameBuffer[k]?) := by
  have hfits : s.FitsRect x.toNat y.toNat width.toNat height.toNat ↔ width = 0 ∨ height = 0 ∨
      x.toNat + width.toNat ≤ s.modeInfo.xResolution.toNat ∧
        y.toNat + height.toNat ≤ s.modeInfo.yResolution.toNat := by
    rw [Screen.FitsRect, ← UInt16.toNat_inj, ← UInt16.toNat_inj]
    rfl
  rw [← hfits]
  obtain hspec := rectangle_spec hs x y width height color
  generalize vgDrawRectangle x y width height color s = r at hspec
  cases hspec with
  | done h =>
    obtain ⟨hfit, hdraws⟩ := h
    refine ⟨_, false, rfl, hdraws.painted.length, by simpa using hfit, fun _ => ⟨?_, ?_⟩, nofun⟩
    · intro px py j hp hj
      rw [hdraws.painted.inside px py j hp hj, Screen.bytesOf, List.getElem?_take_of_lt hj]
    · exact hdraws.painted.outside
  | failed h =>
    obtain ⟨hfit, htouch⟩ := h
    refine ⟨_, true, rfl, htouch.confined.length, by simpa using hfit, nofun, fun _ k hk => ?_⟩
    exact htouch.confined.outside k fun px py j hp hj => hk px py j hp.1 hp.2 hj

def tiny : Screen where
  modeInfo := { xResolution := 2, yResolution := 2 }
  bytesPP := 1
  frameBuffer := [0, 0, 0, 0]

theorem rectangle_paints_exactly_tiny : ∃ t failed,
    vgDrawRectangle 1 0 1 2 0x7F tiny = some (t, failed) ∧ failed = false := by
  obtain ⟨t, failed, hr, -, hfit, -⟩ := rectangle_paints_exactly tiny
    ⟨by decide, by decide, by decide, by decide⟩ 1 0 1 2 0x7F
  exact ⟨t, failed, hr, hfit.mpr (by decide)⟩

example : vgDrawRectangle 1 0 1 2 0x7F tiny =
    some ({ tiny with frameBuffer := [0, 0x7F, 0, 0x7F] }, false) := by
  decide

end WriteWise.Graphics
