import WriteWise.Library.Progress
import WriteWise.ApplicationRun
import WriteWise.TextGeneration
import WriteWise.KeyboardCodes

namespace WriteWise.Ending

open Library.Lines Library.Runs Library.Progress Library.Rounding Scancode Serial Typing TypingSession Data
  TextGeneration Program RunInvariant Graphics Mouse Video Ui Application MouseUpdate Clicks
  KeyboardCodes RaceSteps

section Texts

def Servable (random : UInt32 → Nat → Nat) (dictionary : List Word) : Prop :=
  ∀ seed, ∃ t, Typing.generateText dictionary random 25 seed = some t

variable {random : UInt32 → Nat → Nat} {dictionary words : List Word} {bound : Nat}

/-- The first number that becomes the power of two behind `RAND_MAX` as a `float`. -/
abbrev firstTooFar : Nat := 0x7fffffc0

/-- A draw below it is at least one place of a `float` away from the power of two. -/
theorem toFloat_le {n : Nat} (hn : n < firstTooFar) : toFloat n ≤ 2 ^ 31 - 2 ^ 7 := by
  have hbound : firstTooFar = 2147483584 := rfl
  have herror := two_mul_nearest_le 24 n
  have hplace := dvd_nearest 24 n
  unfold toFloat
  by_cases h0 : n < 2 ^ 30
  · have hdigits : n.log2 + 1 - 24 ≤ 6 := by
      by_cases hz : n = 0
      · subst hz
        decide
      · have hlog := (Nat.log2_lt hz).mpr h0
        omega
    have hpow := Nat.pow_le_pow_right (Nat.two_pos) hdigits
    omega
  · have hz : n ≠ 0 := by omega
    have hlog : n.log2 = 30 := by
      have hlow := (Nat.le_log2 hz).mpr (not_lt.mp h0)
      have hhigh : n.log2 < 31 := (Nat.log2_lt hz).mpr (by omega)
      omega
    rw [hlog] at herror hplace
    omega

/-- The last 64 draws select the word behind the last one. -/
theorem wordIndex_lt {n size : Nat} (hn : n < firstTooFar) (hsize : 0 < size)
    (hsmall : size < 2 ^ 24) : wordIndex n size < size := by
  have hmax : toFloat randMax = 2 ^ 31 := by decide
  have hexact : toFloat size = size := nearest_of_lt hsmall
  have hfactor := Nat.mul_le_mul_right size (toFloat_le hn)
  have herror := two_pow_mul_nearest_le 24 (toFloat n * size)
  rw [wordIndex, hmax, hexact, Nat.div_lt_iff_lt_mul (by decide)]
  unfold toFloat at hfactor herror ⊢
  omega

example : wordIndex firstTooFar 1000 = 1000 := by decide

theorem servable (hrandom : ∀ seed i, random seed i < firstTooFar) (hne : dictionary ≠ [])
    (hsmall : dictionary.length < 2 ^ 24) (hwords : ∀ w ∈ dictionary, w.1.length ≤ bound)
    (hfit : 25 * (bound + 1) + 1 < sizeBound) : Servable random dictionary := by
  intro seed
  have hpos := List.length_pos_of_ne_nil hne
  have hchoice : ∀ i, ∃ w, dictionary[wordIndex (random seed i) dictionary.length]? = some w :=
    fun i => ⟨_, List.getElem?_eq_getElem (wordIndex_lt (hrandom seed i) hpos hsmall)⟩
  choose word hword using hchoice
  have hlen : ((List.range 25).map word).length = 25 := by rw [List.length_map, List.length_range]
  have hbound : ∀ w ∈ (List.range 25).map word, w.1.length ≤ bound := by
    intro w hw
    obtain ⟨i, -, rfl⟩ := List.mem_map.mp hw
    exact hwords _ (List.mem_of_getElem? (hword i))
  have hjoined := length_joined_le hbound
  rw [hlen] at hjoined
  have htext := (generateText_joined dictionary random seed ((List.range 25).map word)
    (by simp [hword]) (by omega)).1
  rw [hlen] at htext
  exact ⟨_, htext⟩

theorem length_line_le {line file : List UInt8} (h : line ∈ lines lineFeed file) :
    line.length ≤ file.length := by
  induction file generalizing line with
  | nil => cases h
  | cons b bs ih =>
    unfold lines at h
    split at h
    · obtain rfl | h := List.mem_cons.mp h
      · simp
      · exact (ih h).trans (Nat.le_succ _)
    · split at h
      · rw [List.mem_singleton.mp h]
        simp
      · rename_i l ls hls
        rw [hls] at ih
        obtain rfl | h := List.mem_cons.mp h
        · exact Nat.succ_le_succ (ih List.mem_cons_self)
        · exact (ih (List.mem_cons_of_mem _ h)).trans (Nat.le_succ _)

theorem mem_mapM {α β : Type} {f : α → Option β} {as : List α} {bs : List β}
    (h : as.mapM f = some bs) : ∀ b ∈ bs, ∃ a ∈ as, f a = some b := by
  induction as generalizing bs with
  | nil =>
    cases h
    exact fun b hb => absurd hb List.not_mem_nil
  | cons a as ih =>
    rw [List.mapM_cons] at h
    obtain ⟨c, hc, h⟩ := Option.bind_eq_some_iff.mp h
    obtain ⟨cs, hcs, heq⟩ := Option.bind_eq_some_iff.mp h
    cases heq
    intro b hb
    obtain rfl | hb := List.mem_cons.mp hb
    · exact ⟨a, List.mem_cons_self, hc⟩
    · obtain ⟨a', ha', hb'⟩ := ih hcs b hb
      exact ⟨a', List.mem_cons_of_mem a ha', hb'⟩

theorem length_block_le {file block : List UInt8} {bs : List (List UInt8)}
    (h : blocks file = some bs) (hb : block ∈ bs) : block.length ≤ file.length := by
  obtain ⟨line, hline, hcopy⟩ := mem_mapM h block hb
  have hle := length_line_le (List.mem_of_mem_take hline)
  rw [copyLine_eq] at hcopy
  split at hcopy
  · cases hcopy
    rw [List.length_append, List.length_take, List.length_singleton]
    omega
  · cases hcopy

variable {file : List UInt8} {old d : Dictionary} {failed : Bool}

theorem mem_wordsOf (h : loadDictionary (some file) old = some (d, failed)) {w : Word}
    (hw : w ∈ wordsOf d) : ∃ bs, blocks file = some bs ∧ ∃ block ∈ bs, w = wordOf block := by
  obtain ⟨bs, hblocks, -, -, hget⟩ := loadDictionary_some h
  obtain ⟨slot, hslot, hmap⟩ := List.mem_filterMap.mp hw
  obtain ⟨block, rfl, rfl⟩ := Option.map_eq_some_iff.mp hmap
  obtain ⟨i, hi, hdi⟩ := List.getElem_of_mem (List.mem_of_mem_take hslot)
  have hmax : i < maxWordAmmount := by simpa using hi
  have hblock : bs[i]? = some block := by
    rw [← hget i hmax, ← hdi, Vector.getElem_toList]
  exact ⟨bs, hblocks, block, List.mem_of_getElem? hblock, rfl⟩

theorem length_word_le (h : loadDictionary (some file) old = some (d, failed)) :
    ∀ w ∈ wordsOf d, w.1.length ≤ file.length := by
  intro w hw
  obtain ⟨bs, hblocks, block, hblock, rfl⟩ := mem_wordsOf h hw
  exact (List.takeWhile_prefix _).length_le.trans (length_block_le hblocks hblock)

theorem wordsOf_ne_nil (h : loadDictionary (some file) old = some (d, failed)) (hne : file ≠ []) :
    wordsOf d ≠ [] := by
  obtain ⟨bs, hblocks, -, hsize, -⟩ := loadDictionary_some h
  have hlines : (lines lineFeed file).length ≠ 0 := by
    rw [lines_eq_cut lineFeed hne]
    exact Nat.succ_ne_zero _
  rw [← List.length_pos_iff, length_wordsOf h, hsize, blocks_length hblocks]
  exact Nat.lt_min.mpr ⟨Nat.pos_of_ne_zero hlines, by decide⟩

theorem length_wordsOf_lt (h : loadDictionary (some file) old = some (d, failed)) :
    (wordsOf d).length < 2 ^ 24 := by
  obtain ⟨bs, hblocks, -, hsize, -⟩ := loadDictionary_some h
  have hmost := Nat.min_le_right (lines lineFeed file).length maxWordAmmount
  rw [length_wordsOf h, hsize, blocks_length hblocks]
  exact lt_of_le_of_lt hmost (by decide)

theorem servable_wordsOf (hrandom : ∀ seed i, random seed i < firstTooFar)
    (h : loadDictionary (some file) old = some (d, failed)) (hne : file ≠ [])
    (hfile : file.length < 2 ^ 27) : Servable random (wordsOf d) := by
  apply servable hrandom (wordsOf_ne_nil h hne) (length_wordsOf_lt h) (length_word_le h)
  have hbound : sizeBound = 4294967296 := rfl
  omega

end Texts

section Steps

structure Served (random : UInt32 → Nat → Nat) (app : App) : Prop where
  valid : Valid app.typingInfo
  texts : Servable random app.dictionary

variable {random : UInt32 → Nat → Nat} {app next : App}

theorem Served.keeps (h : Served random app) (hk : Keeps app next) : Served random next :=
  ⟨hk.valid h.valid, hk.dictionary.symm ▸ h.texts⟩

theorem Served.of_eq {app' : App} (h : Served random app) (ht : app'.typingInfo = app.typingInfo)
    (hd : app'.dictionary = app.dictionary) : Served random app' :=
  ⟨ht ▸ h.valid, hd ▸ h.texts⟩

theorem Served.gives (h : Served random app) {r : Option App} (hr : r.isSome)
    (hk : ∀ next, r = some next → Keeps app next) : Gives (Served random) r := by
  obtain ⟨next, hnext⟩ := Option.isSome_iff_exists.mp hr
  exact ⟨next, hnext, h.keeps (hk next hnext)⟩

theorem Served.generateText (h : Served random app) (seed : UInt32) :
    Gives (Served random) (app.generateText random 25 seed) := by
  obtain ⟨t, ht⟩ := h.texts seed
  refine h.gives ?_ fun next => keeps_generateText
  rw [App.generateText, ht]
  rfl

theorem Served.checkIfReady (h : Served random app) :
    Gives (Served random) (app.checkIfReady random) := by
  unfold App.checkIfReady
  apply Gives.ite
  · intro _
    exact (h.generateText _).map fun s hs => hs.of_eq rfl rfl
  · exact fun _ => .pure h

theorem Served.handleAck (h : Served random app) (byte : UInt8) :
    Gives (Served random) (app.handleAck random byte) := by
  unfold App.handleAck
  apply Gives.ite
  · intro _
    refine Gives.map (P := Served random) ?_ fun s hs => hs.of_eq rfl rfl
    apply Gives.ite
    · exact fun _ => .pure h
    intro _
    apply Gives.ite
    · intro _
      have hme : Served random
          { app with racingInfo := { app.racingInfo with readyMe := true } } := h.of_eq rfl rfl
      exact hme.checkIfReady
    intro _
    apply Gives.ite
    · exact fun _ => .pure (h.of_eq rfl rfl)
    · exact fun _ => .pure (h.of_eq rfl rfl)
  · exact fun _ => .pure h

theorem Served.handleControl (h : Served random app) (byte : UInt8) :
    Gives (Served random) (app.handleControl random byte) := by
  unfold App.handleControl
  apply Gives.ite
  · exact fun _ => .pure (h.of_eq rfl rfl)
  intro _
  apply Gives.ite
  · exact fun _ => .pure (h.of_eq rfl rfl)
  · intro _
    exact ((h.keeps (keeps_handleWon byte app)).keeps (keeps_handleExit byte _)).handleAck byte

theorem Served.handleMessage (h : Served random app) (m : Message) :
    Gives (Served random) (app.handleMessage random m) := by
  cases m with
  | ulong receivedULong =>
    refine Gives.map (P := Served random) ?_ fun s hs => hs.of_eq rfl rfl
    apply Gives.ite
    · intro _
      have hseed : Served random
          { app with racingInfo := { app.racingInfo with seedYou := receivedULong } } :=
        h.of_eq rfl rfl
      exact hseed.checkIfReady.map fun s hs => hs.of_eq rfl rfl
    · exact fun _ => .pure h
  | control byte => exact h.handleControl byte
  | _ => exact .pure (h.of_eq rfl rfl)

theorem Served.serialInterrupt (h : Served random app) (input : UartInput) :
    Gives (Served random) (app.serialInterrupt random input) := by
  unfold App.serialInterrupt
  apply Gives.ite
  · exact fun _ => .pure h
  · intro _
    have hport : Served random { app with
        port := { app.port with decoder := (serialSwitch input app.port.decoder).1 } } :=
      h.of_eq rfl rfl
    simp only
    split
    · exact .pure hport
    · exact hport.handleMessage _

theorem Served.changeState (h : Served random app) (newState : AppState) (now : UInt64) :
    Gives (Served random) (app.changeState random newState now) := by
  refine h.gives ?_ fun next => keeps_changeState
  have hdict : ∀ screen (p : Prop) [Decidable p], (App.generateText random 25 now.toUInt32
      { (if p then app.call serialPortSendExit else app) with
        currAppState := screen }).isSome := by
    intro screen p _
    obtain ⟨t, ht⟩ := h.texts now.toUInt32
    have hd : (if p then app.call serialPortSendExit else app).dictionary = app.dictionary := by
      split <;> rfl
    rw [App.generateText, Option.isSome_map, hd, ht]
    rfl
  cases newState with
  | trainingState => exact hdict _ _
  | _ => rfl

theorem Served.typingInputHandler (h : Served random app) (isRace : Bool) :
    Gives (Served random) (app.typingInputHandler isRace) := by
  obtain ⟨next, hnext, -⟩ := handler_valid app h.valid isRace
  exact ⟨next, hnext, h.keeps (keeps_typingInputHandler hnext)⟩

theorem Served.onClick (h : Served random app) (b : Program.Button) (now : UInt64) :
    Gives (Served random) (app.onClick random b now) := by
  cases b with
  | mainTraining => exact h.changeState .trainingState now
  | mainRace => exact h.changeState .raceState now
  | mainInstructions => exact h.changeState .instructionsState now
  | mainSettings => exact h.changeState .settingsState now
  | trainingReset => exact h.generateText _
  | raceReady => exact .pure (h.keeps (keeps_raceReadyButton now app))
  | raceReset => exact .pure (h.keeps (keeps_raceResetButton app))

end Steps

section Rounds

variable {random : UInt32 → Nat → Nat} {vbe : MinixMode → ModeInfo} {d : Desk}

def Goes (random : UInt32 → Nat → Nat) (d : Desk) : Prop := Served random d.app

theorem Goes.changeState (h : Goes random d) (newState : AppState) (outside : Outside) :
    Gives (Goes random) (d.changeState random newState outside) := by
  refine (Served.changeState h newState outside.now).map fun app happ => ?_
  split
  · exact happ
  · exact happ

theorem Goes.onClick (h : Goes random d) (c : Callback) (outside : Outside) :
    Gives (Goes random) (d.onClick random vbe c outside) := by
  cases c with
  | button b =>
    cases b with
    | mainTraining => exact h.changeState .trainingState outside
    | mainRace => exact h.changeState .raceState outside
    | mainInstructions => exact h.changeState .instructionsState outside
    | mainSettings => exact h.changeState .settingsState outside
    | trainingReset => exact (Served.onClick h .trainingReset outside.now).map fun app happ => happ
    | raceReady => exact .pure (Served.keeps h (keeps_raceReadyButton outside.now d.app))
    | raceReset => exact .pure (Served.keeps h (keeps_raceResetButton d.app))
  | resolution button => exact .pure h
  | settingsButtonDarkTheme | settingsButtonLightTheme => exact .pure h

theorem Goes.clickButtons (h : Goes random d) (outside : Fin maxAmountOfButtons → Outside)
    (places : List (Fin maxAmountOfButtons)) :
    Gives (Goes random) (d.clickButtons random vbe outside places) := by
  induction places generalizing d with
  | nil => exact .pure h
  | cons i rest ih =>
    rw [Desk.clickButtons]
    split
    · exact ih h
    · rename_i button _
      have hinvoke : Gives (Goes random) (d.invoke random vbe button.onClick (outside i)) :=
        (h.onClick button.onClick (outside i)).map fun next hnext => hnext
      exact hinvoke.bind fun next hnext => ih hnext

theorem Goes.mouseUpdate (h : Goes random d) (packet : Packet)
    (outside : Fin maxAmountOfButtons → Outside) :
    Gives (Goes random) (d.mouseUpdate random vbe packet outside) := by
  have hcursor : Goes random { d with ui := d.ui.moveCursor packet } := h
  refine Gives.map (P := Goes random) ?_ fun next hnext => hnext
  apply Gives.ite
  · exact fun _ => hcursor.clickButtons outside _
  · exact fun _ => .pure hcursor

theorem Goes.mouseInterrupt (h : Goes random d) (packet : Packet) (enter : Outside)
    (outside : Fin maxAmountOfButtons → Outside) :
    Gives (Goes random) (d.mouseInterrupt random vbe packet enter outside) := by
  have hpress : Goes random (d.notePress packet) := h
  refine Gives.bind (P := Goes random) ?_ fun next hnext => hnext.mouseUpdate packet outside
  apply Gives.ite
  · exact fun _ => hpress.changeState .mainState enter
  · exact fun _ => .pure hpress

theorem Goes.keyboardScancodeHandler (h : Goes random d) (outside : Outside) :
    Gives (Goes random) (d.keyboardScancodeHandler random outside) := by
  unfold Desk.keyboardScancodeHandler
  simp only
  apply Gives.ite
  · intro _
    apply Gives.ite
    · intro _
      split
      · exact h.changeState .endState outside
      · exact h.changeState .mainState outside
    · exact fun _ => .pure h
  intro _
  apply Gives.ite
  · exact fun _ => .pure h
  intro _
  apply Gives.ite
  · exact fun _ => h.changeState .mainState outside
  intro _
  apply Gives.ite
  · exact fun _ => (Served.typingInputHandler h _).map fun app happ => happ
  · exact fun _ => .pure h

/-- Every round that is not in the end state is defined, whatever it is about. -/
theorem Goes.mainLoop (h : Goes random d) (hend : d.app.currAppState ≠ .endState) (e : Input) :
    Gives (Goes random) (mainLoop random vbe d e) := by
  unfold Application.mainLoop
  rw [if_neg hend]
  cases e with
  | mouse packet enter outside =>
    have hclear : Goes random { d with invoked := [] } := h
    exact hclear.mouseInterrupt packet enter outside
  | keyboard byte outside =>
    have hkey : Goes random { d with
        app := { d.app with keyboard := (keyboardIh byte d.app.keyboard).1 }, invoked := [] } :=
      Served.of_eq h rfl rfl
    apply Gives.ite
    · exact fun _ => hkey.keyboardScancodeHandler outside
    · exact fun _ => .pure hkey
  | timer => exact .pure (Served.keeps h (keeps_timerInterrupt d.app))
  | serial input => exact (Served.serialInterrupt h input).map fun app happ => happ
  | kernel answers => exact .pure (Served.of_eq h rfl rfl)

theorem goes_startUp {dictionary : List Word} (h : Servable random dictionary) :
    Goes random (startUp vbe dictionary) :=
  ⟨.reset, h⟩

/-- The program that has loaded a dictionary, and whose frames are all drawn, never follows a null
pointer or leaves a buffer, whatever comes from outside: it stops in the end state only. -/
theorem runs_until_end {file : List UInt8} {old dictionary : Dictionary}
    (h : loadDictionary (some file) old = some (dictionary, false)) (hne : file ≠ [])
    (hfile : file.length < 2 ^ 27) (hrandom : ∀ seed i, random seed i < firstTooFar)
    (vbe : MinixMode → ModeInfo) (es : List Input) :
    Proceeds (mainLoop random vbe) (fun d => d.app.currAppState = .endState)
      (startUp vbe (wordsOf dictionary)) es :=
  progress (P := fun _ => True) (fun _ e hd _ hend => hd.mainLoop hend e)
    (goes_startUp (servable_wordsOf hrandom h hne hfile)) fun _ _ => trivial

theorem runs_until_end_letter : ∃ dictionary,
    loadDictionary (some [97, carriageReturn, lineFeed]) {} = some (dictionary, false) ∧
      ∀ es, Proceeds (mainLoop (fun _ _ => 0) trueColor) (fun d => d.app.currAppState = .endState)
        (startUp trueColor (wordsOf dictionary)) es := by
  have hblocks : blocks [97, carriageReturn, lineFeed] = some [[97, 0]] := by decide
  have hload := loadDictionary_eq [97, carriageReturn, lineFeed] {}
  rw [hblocks, Option.map_some] at hload
  exact ⟨_, hload, runs_until_end hload (by decide) (by decide) (fun _ _ => by decide) trueColor⟩

end Rounds

section Escape

variable {random : UInt32 → Nat → Nat} {vbe : MinixMode → ModeInfo} {d next : Desk}

def escape (outside : Outside) : Input := .keyboard (some breakEsc) outside

theorem keyboardIh_escape (k : Keyboard) : keyboardIh (some breakEsc) k =
    ({ k with scancode := breakEsc, isScancodeTwoBytes := k.isTwoBytes, isTwoBytes := false },
      true) :=
  keyboardIh_key (by decide) (by decide) k

theorem keyboard_changeState {app app' : App} {newState : AppState} {now : UInt64}
    (h : app.changeState random newState now = some app') : app'.keyboard = app.keyboard := by
  have hexit : ∀ p : Prop, [Decidable p] →
      (if p then app.call serialPortSendExit else app).keyboard = app.keyboard := by
    intro p _
    split <;> rfl
  unfold App.changeState at h
  cases newState with
  | trainingState =>
    obtain ⟨t, -, rfl⟩ := Option.map_eq_some_iff.mp h
    exact hexit _
  | _ =>
    cases h
    exact hexit _

variable (random)

theorem changes {newState : AppState} (hnew : newState = .mainState ∨ newState = .endState)
    (outside : Outside) : ∃ next, d.changeState random newState outside = some next ∧
      next.app.currAppState = newState ∧ next.app.keyboard = d.app.keyboard := by
  obtain ⟨app, happ⟩ : ∃ app, d.app.changeState random newState outside.now = some app := by
    obtain rfl | rfl := hnew
    · exact ⟨_, rfl⟩
    · exact ⟨_, rfl⟩
  have hscreen := (changeState_screen happ).1
  have hkeyboard := keyboard_changeState happ
  refine ⟨_, congrArg (Option.map _) happ, ?_⟩
  split
  · exact ⟨hscreen, hkeyboard⟩
  · exact ⟨hscreen, hkeyboard⟩

variable (vbe)

theorem handler_escape (outside : Outside) (hesc : d.app.keyboard.scancode = breakEsc) :
    d.keyboardScancodeHandler random outside =
      if d.app.keyboard.isScancodeTwoBytes then some d
      else d.changeState random
        (if d.app.currAppState = .mainState then .endState else .mainState) outside := by
  unfold Desk.keyboardScancodeHandler
  simp only [hesc]
  rw [if_pos (by decide)]
  cases d.app.keyboard.isScancodeTwoBytes with
  | true => rfl
  | false => cases d.app.currAppState <;> rfl

/-- The release of the Esc key leads to the main screen, and from there out of the program. Only
a prefix that came before can hide it. -/
theorem escape_step (hend : d.app.currAppState ≠ .endState) (outside : Outside) :
    ∃ next, mainLoop random vbe d (escape outside) = some next ∧
      next.app.keyboard.isTwoBytes = false ∧
      next.app.currAppState =
        if d.app.keyboard.isTwoBytes then d.app.currAppState
        else if d.app.currAppState = .mainState then .endState else .mainState := by
  have hround : mainLoop random vbe d (escape outside) =
      Desk.keyboardScancodeHandler random outside { d with
        app := { d.app with keyboard := (keyboardIh (some breakEsc) d.app.keyboard).1 }
        invoked := [] } :=
    if_neg hend
  rw [hround, keyboardIh_escape, handler_escape random outside rfl]
  cases d.app.keyboard.isTwoBytes with
  | true => exact ⟨_, rfl, rfl, rfl⟩
  | false =>
    have hnew : (if d.app.currAppState = .mainState then AppState.endState else .mainState) =
        .mainState ∨ (if d.app.currAppState = .mainState then AppState.endState
          else .mainState) = .endState := by
      split
      · exact .inr rfl
      · exact .inl rfl
    obtain ⟨next, hnext, hscreen, hkeyboard⟩ := changes random hnew outside
    refine ⟨next, hnext, ?_, hscreen⟩
    rw [hkeyboard]

variable {random vbe}

theorem keyboardIh_reports {byte : Option UInt8} {k : Keyboard} (h : (keyboardIh byte k).2 = true) :
    ∃ b, byte = some b ∧ (keyboardIh byte k).1.scancode = b ∧
      (keyboardIh byte k).1.isScancodeTwoBytes = k.isTwoBytes := by
  cases byte with
  | none => cases h
  | some b =>
    by_cases hp : b = twoBytes
    · subst hp
      cases h
    by_cases hmod : Modifier b
    · obtain ⟨shift, ctrl, alt, caps, hk⟩ := keyboardIh_modifier hmod k
      rw [hk] at h
      cases h
    · rw [keyboardIh_key hp hmod]
      exact ⟨b, rfl, rfl, rfl⟩

theorem handler_ends {outside : Outside} (hend : d.app.currAppState ≠ .endState)
    (h : d.keyboardScancodeHandler random outside = some next)
    (hnext : next.app.currAppState = .endState) :
    d.app.keyboard.scancode = breakEsc ∧ d.app.keyboard.isScancodeTwoBytes = false ∧
      d.app.currAppState = .mainState := by
  have hhome (h : d.changeState random .mainState outside = some next) : False := by
    obtain ⟨next', hnext', hscreen, -⟩ := changes random (d := d) (.inl rfl) outside
    obtain rfl := Option.some.inj (hnext'.symm.trans h)
    cases hscreen.symm.trans hnext
  unfold Desk.keyboardScancodeHandler at h
  simp only at h
  split at h
  · split at h
    · rename_i hesc
      split at h
      · exact ⟨hesc.2, hesc.1, ‹_›⟩
      · exact (hhome h).elim
    · cases h
      exact absurd hnext hend
  split at h
  · cases h
    exact absurd hnext hend
  split at h
  · exact (hhome h).elim
  split at h
  · obtain ⟨app, happ, rfl⟩ := Option.map_eq_some_iff.mp h
    exact absurd ((handler_screen happ).symm.trans hnext) hend
  · cases h
    exact absurd hnext hend

theorem called_not_end {c : Callback} {outside : Outside} (h : Called random vbe outside d c next)
    (hend : d.app.currAppState ≠ .endState) : next.app.currAppState ≠ .endState := by
  cases h with
  | screen loads does shows =>
    rename_i b newState app
    intro hnew
    obtain rfl := shows.symm.trans hnew
    cases b <;> cases loads
  | stays loads does same => exact fun hnew => hend (same.symm.trans hnew)
  | resolution => exact hend
  | theme => exact hend

theorem clicked_not_end {cs : List Callback} (h : Clicked random vbe d cs next)
    (hend : d.app.currAppState ≠ .endState) : next.app.currAppState ≠ .endState := by
  induction h with
  | done d => exact hend
  | last outside call =>
    have hlast := called_not_end call hend
    exact hlast
  | more outside call screen stays rest ih =>
    have hu := called_not_end call hend
    exact ih hu

/-- Only the release of the Esc key on the main screen ends the program. -/
theorem ends_iff {e : Input} (hplaced : Placed d.app.currAppState d.ui)
    (h : mainLoop random vbe d e = some next) : next.app.currAppState = .endState ↔
      d.app.currAppState = .mainState ∧ d.app.keyboard.isTwoBytes = false ∧
        ∃ outside, e = escape outside := by
  have hend := not_end h
  constructor
  swap
  · rintro ⟨hmain, htwo, outside, rfl⟩
    obtain ⟨next', hnext', -, hscreen⟩ :=
      escape_step random vbe hend outside
    obtain rfl := Option.some.inj (hnext'.symm.trans h)
    rw [hscreen, htwo, hmain]
    rfl
  intro hnext
  cases e with
  | mouse packet enter answers =>
    obtain ⟨u, hentered, hu⟩ := mouseInterrupt_entered (mainLoop_mouse h)
    obtain ⟨v, cs, hcs, -, rfl⟩ := mouseUpdate_clicked (hentered.placed hplaced) hu
    have huend : u.app.currAppState ≠ .endState := by
      cases hentered with
      | stays => exact hend
      | enters hstart does hmain => exact fun hu => by cases hmain.symm.trans hu
    have hvend := clicked_not_end hcs huend
    exact absurd hnext hvend
  | keyboard byte outside =>
    have hround : (if (keyboardIh byte d.app.keyboard).2 then
        Desk.keyboardScancodeHandler random outside { d with
          app := { d.app with keyboard := (keyboardIh byte d.app.keyboard).1 }, invoked := [] }
        else some { d with
          app := { d.app with keyboard := (keyboardIh byte d.app.keyboard).1 }
          invoked := [] }) = some next :=
      (if_neg hend).symm.trans h
    split at hround
    · obtain ⟨b, rfl, hb, htwo⟩ := keyboardIh_reports ‹_›
      obtain ⟨hesc, hlone, hmain⟩ := handler_ends (d := { d with
        app := { d.app with keyboard := (keyboardIh (some b) d.app.keyboard).1 }
        invoked := [] }) hend hround hnext
      obtain rfl : b = breakEsc := hb.symm.trans hesc
      exact ⟨hmain, htwo.symm.trans hlone, outside, rfl⟩
    · cases hround
      exact absurd hnext hend
  | timer =>
    cases (if_neg hend).symm.trans h
    exact absurd ((timerInterrupt_screen d.app).symm.trans hnext) hend
  | serial input =>
    obtain ⟨app, happ, rfl⟩ := Option.map_eq_some_iff.mp ((if_neg hend).symm.trans h)
    exact absurd ((serialInterrupt_screen happ).symm.trans hnext) hend
  | kernel answers =>
    cases (if_neg hend).symm.trans h
    exact absurd hnext hend

theorem escapes (hend : d.app.currAppState ≠ .endState) (a b c : Outside) :
    ∃ bytes, bytes <+: [escape a, escape b, escape c] ∧
      ∃ last, run (mainLoop random vbe) d bytes = some last ∧
        last.app.currAppState = .endState := by
  -- the first release may only take the prefix, and then the next one shows the main screen
  have hmain : ∀ {u : Desk} (b c : Outside), u.app.currAppState ≠ .endState →
      u.app.keyboard.isTwoBytes = false → ∃ bytes, bytes <+: [escape b, escape c] ∧
        ∃ last, run (mainLoop random vbe) u bytes = some last ∧
          last.app.currAppState = .endState := by
    intro u b c hu htwo
    obtain ⟨v, hv, htwo', hscreen⟩ := escape_step random vbe hu b
    rw [htwo] at hscreen
    by_cases hmain : u.app.currAppState = .mainState
    · rw [hmain] at hscreen
      exact ⟨[escape b], ⟨[escape c], rfl⟩, v, run_cons hv [], hscreen⟩
    · have hvmain : v.app.currAppState = .mainState := hscreen.trans (if_neg hmain)
      obtain ⟨w, hw, -, hends⟩ := escape_step random vbe
        (by rw [hvmain]; decide) c
      rw [htwo', hvmain] at hends
      have hrun : run (mainLoop random vbe) u [escape b, escape c] = some w :=
        (run_cons hv [escape c]).trans (run_cons hw [])
      exact ⟨[escape b, escape c], List.prefix_rfl, w, hrun, hends⟩
  cases htwo : d.app.keyboard.isTwoBytes with
  | false =>
    obtain ⟨bytes, hbytes, hlast⟩ := hmain a b hend htwo
    exact ⟨bytes, hbytes.trans ⟨[escape c], rfl⟩, hlast⟩
  | true =>
    obtain ⟨u, hu, htwo', hscreen⟩ := escape_step random vbe hend a
    rw [htwo] at hscreen
    have hscreen' : u.app.currAppState = d.app.currAppState := hscreen
    obtain ⟨bytes, hbytes, last, hlast, hends⟩ := hmain b c (by rw [hscreen']; exact hend) htwo'
    exact ⟨escape a :: bytes, List.cons_prefix_cons.mpr ⟨rfl, hbytes⟩, last,
      (run_cons hu bytes).trans hlast, hends⟩

/-- From everywhere in the program three releases of the Esc key at most lead out of it, and
nothing but the release of this key on the main screen does. -/
theorem escape_ends (dictionary : List Word) {es : List Input}
    (h : run (mainLoop random vbe) (startUp vbe dictionary) es = some d)
    (hend : d.app.currAppState ≠ .endState) :
    (∀ a b c, ∃ bytes, bytes <+: [escape a, escape b, escape c] ∧
      ∃ last, run (mainLoop random vbe) d bytes = some last ∧
        last.app.currAppState = .endState) ∧
      ∀ e next, mainLoop random vbe d e = some next → (next.app.currAppState = .endState ↔
        d.app.currAppState = .mainState ∧ d.app.keyboard.isTwoBytes = false ∧
          ∃ outside, e = escape outside) :=
  ⟨escapes hend, fun _ _ he => ends_iff ((reachable_tracks h).placed hend) he⟩

theorem escape_ends_start : ∃ bytes, bytes <+: [escape {}, escape {}, escape {}] ∧
    ∃ last, run (mainLoop (fun _ _ => 0) trueColor) (startUp trueColor []) bytes = some last ∧
      last.app.currAppState = .endState := by
  have hstart : (startUp trueColor []).app.currAppState ≠ .endState := by
    rintro ⟨⟩
  exact (@escape_ends (fun _ _ => 0) trueColor _ [] [] rfl hstart).1 {} {} {}

end Escape

end WriteWise.Ending
