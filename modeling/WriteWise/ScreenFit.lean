import WriteWise.GeneratedText
import WriteWise.VisibleMistakes
import WriteWise.WordLines

namespace WriteWise.ScreenFit

open Library.Loops Library.Runs Library.WordWrap Typing TypingSession Program RunInvariant TestEnd
  TextGeneration GeneratedText Graphics Video Text DrawText TextLayout TypingView VisibleMistakes
  WordLines

def InMode (m : ModeInfo) (s : Screen) : Prop := Sound s ∧ s.modeInfo = m

section Primitives

variable {m : ModeInfo} {s : Screen} {x y : UInt16} {p : Nat}

theorem drawChar_inside (h : InMode m s) (hp : 0 < p)
    (hx : x.toNat + 5 * p ≤ m.xResolution.toNat) (hy : y.toNat + 7 * p ≤ m.yResolution.toNat)
    (c : UInt8) (color : UInt32) :
    Yields (InMode m) (fun _ => False) (drawChar x y c color ⟨5 * p, 7 * p, p⟩ s) := by
  obtain ⟨glyph, hglyph, hrows⟩ := glyph_rows c
  rw [drawChar, hglyph]
  refine .each (fun dy hrow s hs => .each (fun dx hcol s hs => ?_) hs) h
  have hdy : dy < 7 * p := List.mem_range.mp hrow
  have hdx : dx < 5 * p := List.mem_range.mp hcol
  obtain ⟨on, hon⟩ := glyphBit_some hrows (Nat.div_lt_of_lt_mul (by rwa [Nat.mul_comm]) :
    dy / p < 7) (Nat.div_lt_of_lt_mul (by rwa [Nat.mul_comm]) : dx / p < 5)
  simp only
  rw [if_neg hp.ne', hon, Option.bind_some]
  cases on with
  | false => exact .done hs
  | true =>
    have hpx : (x + UInt16.ofNat dx).toNat = x.toNat + dx :=
      @toNat_add_index _ m.xResolution _ fun _ => by omega
    have hpy : (y + UInt16.ofNat dy).toNat = y.toNat + dy :=
      @toNat_add_index _ m.yResolution _ fun _ => by omega
    have hshow : s.Shows (x + UInt16.ofNat dx).toNat (y + UInt16.ofNat dy).toNat := by
      rw [hpx, hpy, Screen.Shows, hs.2]
      omega
    obtain ⟨t, ht, hdraws⟩ := pixel_inside hs.1 hshow color
    rw [if_pos rfl, ht]
    exact .done ⟨hdraws.sound hs.1, hdraws.modeInfo.trans hs.2⟩

theorem rectangle_inside (h : InMode m s) {width height : UInt16}
    (hx : x.toNat + width.toNat ≤ m.xResolution.toNat)
    (hy : y.toNat + height.toNat ≤ m.yResolution.toNat) (color : UInt32) :
    Yields (InMode m) (fun _ => False) (vgDrawRectangle x y width height color s) := by
  have hfit : s.FitsRect x.toNat y.toNat width.toNat height.toNat := by
    rw [Screen.FitsRect, h.2]
    exact .inr (.inr ⟨hx, hy⟩)
  refine (rectangle_spec h.1 x y width height color).mono (fun t ht => ?_) fun t ht => ht.1 hfit
  exact ⟨ht.2.sound h.1, ht.2.modeInfo.trans h.2⟩

theorem draw_inside (h : InMode m s) (hp : 0 < p) {call : DrawCall}
    (hx : x.toNat + call.dx + 5 * p ≤ m.xResolution.toNat)
    (hy : y.toNat + call.dy + 9 * p ≤ m.yResolution.toNat) :
    Yields (InMode m) (fun _ => False) (call.draw x y ⟨5 * p, 7 * p, p⟩ s) := by
  have hxr := m.xResolution.toNat_lt
  have hyr := m.yResolution.toNat_lt
  have hcx : (x + UInt16.ofNat call.dx).toNat = x.toNat + call.dx :=
    @toNat_add_index _ m.xResolution _ fun _ => by omega
  have hcy : (y + UInt16.ofNat call.dy).toNat = y.toNat + call.dy :=
    @toNat_add_index _ m.yResolution _ fun _ => by omega
  have hmark : (y + UInt16.ofNat (call.dy + 7 * p + p)).toNat = y.toNat + (call.dy + 7 * p + p) :=
    @toNat_add_index _ m.yResolution _ fun _ => by omega
  have hwidth : (UInt16.ofNat (5 * p)).toNat = 5 * p :=
    (UInt16.toNat_ofNat').trans (Nat.mod_eq_of_lt (by omega))
  have hheight : (UInt16.ofNat p).toNat = p :=
    (UInt16.toNat_ofNat').trans (Nat.mod_eq_of_lt (by omega))
  have hrect : Yields (InMode m) (fun _ => False) (vgDrawRectangle (x + UInt16.ofNat call.dx)
      (y + UInt16.ofNat (call.dy + 7 * p + p)) (UInt16.ofNat (5 * p)) (UInt16.ofNat p) call.color
      s) := by
    refine rectangle_inside h ?_ ?_ call.color
    · rw [hcx, hwidth]
      exact hx
    · rw [hmark, hheight]
      omega
  unfold DrawCall.draw
  cases call.shape with
  | char c =>
    refine drawChar_inside h hp ?_ ?_ c call.color
    · rw [hcx]
      exact hx
    · rw [hcy]
      omega
  | cursor => exact hrect
  | underline => exact hrect

end Primitives

section Calls

variable {b : TextBox} {typed : List UInt8} {cursor : Nat}
  {rightColor wrongColor unwrittenColor : UInt32} {call : DrawCall}

def Standing (b : TextBox) (call : DrawCall) : Prop :=
  ∃ n ≤ b.str.length, call.dx = (layoutAt b n).dx ∧ call.dy = (layoutAt b n).dy

theorem standing_cursorItems {n : Nat} (hn : n ≤ b.str.length)
    (h : some call ∈ cursorItems b cursor rightColor n) : Standing b call := by
  unfold cursorItems at h
  split at h
  · cases List.mem_singleton.mp h
    exact ⟨n, hn, rfl, rfl⟩
  · cases h

theorem standing_viewItems (hle : typed.length ≤ b.str.length)
    (h : some call ∈ viewItems b typed cursor rightColor wrongColor unwrittenColor) :
    Standing b call := by
  rw [viewItems, List.mem_append, List.mem_append, List.mem_flatMap, List.mem_flatMap] at h
  obtain ⟨n, hn, hcall⟩ | ⟨n, hn, hcall⟩ | hend := h
  · have hlt := (List.mem_range.mp hn).le.trans hle
    obtain hcursor | ⟨-, rfl | ⟨-, rfl⟩⟩ := mem_typedItems.mp hcall
    · exact standing_cursorItems hlt hcursor
    · exact ⟨n, hlt, rfl, rfl⟩
    · exact ⟨n, hlt, rfl, rfl⟩
  · have hlt : n ≤ b.str.length := by
      have hrange := List.mem_range'_1.mp hn
      omega
    rw [unwrittenItems, List.mem_append, textItems, mem_cellItems, List.mem_singleton] at hcall
    obtain hcursor | ⟨-, rfl⟩ := hcall
    · exact standing_cursorItems hlt hcursor
    · exact ⟨n, hlt, rfl, rfl⟩
  · exact standing_cursorItems le_rfl hend

theorem view_inside {m : ModeInfo} {s : Screen} (h : InMode m s) {x y : UInt16} {p : Nat}
    (hp : 0 < p) (hroomy : Roomy b) (hint : b.str.length * b.xStep < intBound)
    (hle : typed.length ≤ b.str.length)
    (hx : x.toNat + b.maxWidth + 5 * p ≤ m.xResolution.toNat)
    (hy : y.toNat + ((textLines b).length - 1) * b.yStep + 9 * p ≤ m.yResolution.toNat) :
    Yields (InMode m) (fun _ => False)
      (each (defined fun call => call.draw x y ⟨5 * p, 7 * p, p⟩)
        (viewItems b typed cursor rightColor wrongColor unwrittenColor) s) := by
  refine .each (fun item hitem s hs => ?_) h
  cases item with
  | none => exact absurd hitem (none_notMem_viewItems fun n => look_defined hint n _)
  | some call =>
    obtain ⟨n, hn, hdx, hdy⟩ := standing_viewItems hle hitem
    obtain ⟨hwidth, hheight⟩ := hroomy.bounds hn
    exact draw_inside hs hp (by omega) (by omega)

end Calls

section Modes

def mediumPixel : ResolutionButton → UInt8
  | .settingsButton480p => 1
  | _ => 2

/-- A line of the test has as many characters, unless it is the last one. -/
def shortLine : ResolutionButton → Nat
  | .settingsButton480p => 70
  | .settingsButton600p => 38
  | .settingsButton864p => 61
  | .settingsButton1024p => 70

/-- The box of the test, at `0.5`, `0.4` and `0.8` of the screen. -/
def testPlace : ResolutionButton → UInt16 × UInt16 × UInt16
  | .settingsButton480p => (64, 189, 512)
  | .settingsButton600p => (80, 233, 640)
  | .settingsButton864p => (116, 338, 921)
  | .settingsButton1024p => (128, 402, 1024)

variable (button : ResolutionButton)

theorem medium_size : getFontSize button.mode .medium =
    ⟨5 * (mediumPixel button).toNat, 7 * (mediumPixel button).toNat, (mediumPixel button).toNat⟩ := by
  cases button <;> rfl

theorem mediumPixel_le : (mediumPixel button).toNat ≤ 2 := by
  cases button <;> decide

theorem placeText_test (g : List UInt8) :
    placeText button.mode (1 / 2) (2 / 5) (4 / 5) g (getFontSize button.mode .medium) =
      testPlace button := by
  have hpos : ¬ ((4 : ℚ) / 5 < 0) := by norm_num
  rw [placeText, if_neg hpos, if_neg hpos]
  cases button <;> decide +kernel

theorem fits_shortLine {n : Nat} (hn : n < shortLine button + 16) :
    n * (6 * (mediumPixel button).toNat) ≤ (testPlace button).2.2.toNat := by
  have hlast : (shortLine button + 15) * (6 * (mediumPixel button).toNat) ≤
      (testPlace button).2.2.toNat := by
    cases button <;> decide
  exact (Nat.mul_le_mul_right _ (by omega)).trans hlast

theorem test_width : (testPlace button).1.toNat + (testPlace button).2.2.toNat +
    5 * (mediumPixel button).toNat ≤ button.mode.resolution.1 := by
  cases button <;> decide

theorem test_height {rows : Nat} (h : rows * shortLine button ≤ 424) :
    (testPlace button).2.1.toNat + rows * (10 * (mediumPixel button).toNat) +
      9 * (mediumPixel button).toNat ≤ button.mode.resolution.2 := by
  cases button with
  | settingsButton480p =>
    change 189 + rows * 10 + 9 ≤ 480
    change rows * 70 ≤ 424 at h
    omega
  | settingsButton600p =>
    change 233 + rows * 20 + 18 ≤ 600
    change rows * 38 ≤ 424 at h
    omega
  | settingsButton864p =>
    change 338 + rows * 20 + 18 ≤ 864
    change rows * 61 ≤ 424 at h
    omega
  | settingsButton1024p =>
    change 402 + rows * 20 + 18 ≤ 1024
    change rows * 70 ≤ 424 at h
    omega

end Modes

section Words

/-- A word of 1 to 16 characters, none of them the space. -/
def Short (w : Word) : Prop := 1 ≤ w.1.length ∧ w.1.length ≤ 16 ∧ space ∉ w.1

theorem splitOn_joined {words : List Word} (hwords : ∀ w ∈ words, Short w) (hne : words ≠ []) :
    (joined words).splitOn space = words.map (·.1) := by
  refine List.splitOn_intercalate space (fun l hl => ?_)
    fun hnil => hne (List.map_eq_nil_iff.mp hnil)
  obtain ⟨w, hw, rfl⟩ := List.mem_map.mp hl
  exact (hwords w hw).2.2

/-- A text of 25 short words has room in the box of the test, and its lines on the screen. -/
theorem roomy_joined (button : ResolutionButton) {words : List Word}
    (hwords : ∀ w ∈ words, Short w) (hlen : words.length = 25) :
    (joined words).length ≤ 424 ∧
      ((textLines (fontBox (joined words) (testPlace button).2.2 (mediumPixel button))).length - 1) *
        shortLine button ≤ 424 ∧
      Roomy (fontBox (joined words) (testPlace button).2.2 (mediumPixel button)) := by
  have hne : words ≠ [] := by
    rintro rfl
    cases hlen
  have hlength := length_joined_le fun w hw => (hwords w hw).2.1
  rw [hlen] at hlength
  have hx := fontBox_xStep (joined words) (testPlace button).2.2 (mediumPixel button)
  have hy := fontBox_yStep (joined words) (testPlace button).2.2 (mediumPixel button)
  have hsplit := splitOn_joined hwords hne
  have hfits : ∀ n < shortLine button + 16,
      Fits (fontBox (joined words) (testPlace button).2.2 (mediumPixel button)) n := by
    intro n hn
    rw [Fits, hx]
    exact fits_shortLine button hn
  have hshort : ∀ w ∈ (joined words).splitOn space, space ∉ w ∧ w.length ≤ 16 := by
    intro w hw
    rw [hsplit] at hw
    obtain ⟨word, hword, rfl⟩ := List.mem_map.mp hw
    exact ⟨(hwords word hword).2.2, (hwords word hword).2.1⟩
  have hrows : ((textLines (fontBox (joined words) (testPlace button).2.2
      (mediumPixel button))).length - 1) * shortLine button ≤ 424 := by
    refine (length_wrap_le space hfits fun w hw => (hshort w hw).2).trans ?_
    rw [List.intercalate_splitOn]
    exact hlength
  have hpixel := mediumPixel_le button
  have hline : 1 ≤ shortLine button := by
    cases button <;> decide
  refine ⟨hlength, hrows, (testPlace button).2.2.toNat_lt, fun w hw => ?_, ?_⟩
  · obtain ⟨hspace, hle⟩ := hshort w hw
    refine ⟨hspace, hfits _ (by omega), ?_⟩
    rw [hx]
    have hprod : (w.length + 1) * (6 * (mediumPixel button).toNat) ≤ 17 * (6 * 2) :=
      Nat.mul_le_mul (by omega) (by omega)
    omega
  · have hheight := test_height button hrows
    have hres : button.mode.resolution.2 ≤ 1024 := by
      cases button <;> decide
    rw [hy]
    omega

end Words

/-- The part of `drawScreen` that draws the test, with the calls `before` and `after` it. -/
def drawTest (before after : Screen → Result Screen) (currentMode : MinixMode) (m : ModeInfo)
    (app : App) (rightColor wrongColor unwrittenColor : UInt32) (fuel : Nat) (s : Screen) :
    Result Screen :=
  proceed (before s) fun s =>
  proceed
    (if (app.currAppState = .trainingState ∨ app.currAppState = .raceState) ∧
        app.typingInfo.status ≠ .unready then
      drawTypingTest (fun x y size call => call.draw x y size) currentMode m app.typingInfo (1 / 2)
        (2 / 5) (4 / 5) rightColor wrongColor unwrittenColor (getFontSize currentMode .medium) fuel
        s
    else some (s, false)) after

/-- In every reachable state of a test with a text of short words, and in each mode that can be
selected, the whole view is drawn on the screen, and the calls after it follow. -/
theorem test_never_leaves_screen {random : UInt32 → Nat → Nat} {dictionary : List Word}
    (hdict : ∀ w ∈ dictionary, 1 ≤ w.1.length ∧ w.1.length ≤ 16 ∧ space ∉ w.1)
    {es : List Event} {app : App} (hr : run (step random) (initial dictionary) es = some app)
    (hs : app.typingInfo.status ≠ .unready) (button : ResolutionButton) {m : ModeInfo}
    (hm : (m.xResolution.toNat, m.yResolution.toNat) = button.mode.resolution) {s : Screen}
    (hsound : Sound s) (hmode : s.modeInfo = m) (rightColor wrongColor unwrittenColor : UInt32) :
    ∃ n t, Sound t ∧ t.modeInfo = m ∧ ∀ fuel ≥ n,
      drawTypingTest (fun x y size call => call.draw x y size) button.mode m app.typingInfo (1 / 2)
          (2 / 5) (4 / 5) rightColor wrongColor unwrittenColor (getFontSize button.mode .medium)
          fuel s = some (t, false) ∧
        ∀ before after start, before start = some (s, false) →
          ∃ u, (u = s ∨ u = t) ∧ drawTest before after button.mode m app rightColor wrongColor
            unwrittenColor fuel start = after u := by
  obtain ⟨g, typed, marks, hsess⟩ := reachable_session hr hs
  obtain ⟨words, hwords, rfl⟩ : ∃ words : List Word,
      (words.length = 25 ∧ ∀ w ∈ words, Short w) ∧ joined words = g := by
    obtain hnone | ⟨words, hlen, hmem, htext⟩ := text_of_words hr
    · cases hnone.symm.trans hsess.generated
    · have heq := htext.symm.trans hsess.generated
      rw [Option.some.injEq] at heq
      exact ⟨words, ⟨hlen, fun w hw => hdict w (hmem w hw)⟩, List.append_cancel_right heq⟩
  obtain ⟨hlength, hrows, hroomy⟩ := roomy_joined button hwords.2 hwords.1
  have hview := View.of_session hsess
  have hplace := placeText_test button (joined words)
  rw [Prod.mk.injEq] at hm
  have hwidth := test_width button
  have hheight := test_height button hrows
  have hpos : 0 < (mediumPixel button).toNat := by
    cases button <;> decide
  rw [← hm.1] at hwidth
  rw [← hm.2, ← fontBox_yStep (joined words) (testPlace button).2.2] at hheight
  have hint : (joined words).length *
      (fontBox (joined words) (testPlace button).2.2 (mediumPixel button)).xStep < intBound := by
    have hpixel := mediumPixel_le button
    rw [fontBox_xStep]
    exact (Nat.mul_le_mul hlength (by omega : _ ≤ 12)).trans_lt (by decide)
  obtain ⟨t, ht, hmode'⟩ := (@view_inside _ _ app.typingInfo.typingCursor
    (filteredColor button.mode m rightColor) (filteredColor button.mode m wrongColor)
    (filteredColor button.mode m unwrittenColor) m s ⟨hsound, hmode⟩ _ _ _ hpos hroomy hint
    hview.length hwidth hheight).done_of_not_failed
  refine ⟨(joined words).length + 1, t, hmode'.1, hmode'.2, fun fuel hfuel => ?_⟩
  have hdraw : drawTypingTest (fun x y size call => call.draw x y size) button.mode m app.typingInfo
      (1 / 2) (2 / 5) (4 / 5) rightColor wrongColor unwrittenColor
      (getFontSize button.mode .medium) fuel s = some (t, false) := by
    rw [drawTypingTest_eq button.mode m hview (by omega) _ _ _ _ _ _ _ hfuel s hplace,
      medium_size]
    exact ht
  refine ⟨hdraw, fun before after start hbefore => ?_⟩
  rw [drawTest, hbefore, proceed_done]
  split
  · exact ⟨t, .inr rfl, by rw [hdraw, proceed_done]⟩
  · exact ⟨s, .inl rfl, proceed_done _ _⟩

def smallMode : ModeInfo where
  xResolution := 640
  yResolution := 480
  bitsPerPixel := 8

def smallScreen : Screen where
  modeInfo := smallMode
  bytesPP := 1
  frameBuffer := List.replicate 307200 0

theorem test_never_leaves_screen_small : ∃ fuel t,
    drawTypingTest (fun x y size call => call.draw x y size) .vbe480pDc smallMode
      ((run (step fun _ _ => 0) (initial [⟨[97], by decide⟩])
        [.mousePress 1, .click .mainTraining 5]).getD {}).typingInfo
      (1 / 2) (2 / 5) (4 / 5) 1 2 3 (getFontSize .vbe480pDc .medium) fuel smallScreen =
        some (t, false) := by
  have hsound : Sound smallScreen := by
    refine ⟨by decide, by decide, List.length_replicate, ?_⟩
    rw [smallScreen, List.length_replicate]
    decide
  obtain ⟨n, t, -, -, hdraw⟩ := @test_never_leaves_screen (fun _ _ => 0) [⟨[97], by decide⟩]
    (by decide) [.mousePress 1, .click .mainTraining 5]
    ((run (step fun _ _ => 0) (initial [⟨[97], by decide⟩])
      [.mousePress 1, .click .mainTraining 5]).getD {})
    (by decide +kernel) (by decide +kernel) .settingsButton480p smallMode (by decide) smallScreen
    hsound rfl 1 2 3
  exact ⟨n, t, (hdraw n le_rfl).1⟩

end WriteWise.ScreenFit
