import WriteWise.Data
import WriteWise.Library.Allocation
import WriteWise.Library.Runs

namespace WriteWise.MemoryUse

open Library.Allocation Library.Runs Data

/-- The heap of the program, and the pointers into it that its globals hold. -/
structure Memory where
  heap : Heap := {}
  generatedText : Pointer := none
  typedText : Pointer := none
  mistakes : Pointer := none
  frameBuffer : Pointer := none
  staticBuffer : Pointer := none
  dictionary : List Pointer := List.replicate maxWordAmmount none

namespace Memory

variable (m : Memory)

/-- `mistakes` is set to NULL without being freed. -/
def resetTypingInfo : Option Memory :=
  (free m.heap m.generatedText).bind fun h => (free h m.typedText).map fun h =>
    { m with heap := h, generatedText := none, typedText := none, mistakes := none }

/-- The loop over the words. Each word reallocates the text, which may move. -/
def appendWords : List Bool → Heap × Pointer → Option (Heap × Pointer)
  | [], text => some text
  | moves :: more, text => (realloc text.1 moves text.2).bind (appendWords more)

def generateText (moves : List Bool) : Option Memory :=
  m.resetTypingInfo.bind fun m => (appendWords moves (malloc m.heap)).map fun text =>
    let typed := malloc text.1
    let mistakes := malloc typed.1
    { m with
      heap := mistakes.1
      generatedText := text.2
      typedText := typed.2
      mistakes := mistakes.2 }

/-- A mode that the platform refuses leaves the frame buffer. Another one takes its place
without its being freed. -/
def setMinixMode (done : Bool) : Memory :=
  if done then { m with heap := (malloc m.heap).1, frameBuffer := (malloc m.heap).2 } else m

def initUI : Memory :=
  { m with heap := (malloc m.heap).1, staticBuffer := (malloc m.heap).2 }

def exitUI : Option Memory :=
  (free m.heap m.staticBuffer).map fun h => { m with heap := h }

def settingsButton (done : Bool) : Option Memory :=
  m.exitUI.map fun m => (m.setMinixMode done).initUI

/-- The text of the time is not freed when it cannot be drawn. -/
def drawRealTime (drawn : Bool) : Option Memory :=
  let realTimeStr := malloc m.heap
  if drawn then (free realTimeStr.1 realTimeStr.2).map fun h => { m with heap := h }
  else some { m with heap := realTimeStr.1 }

def freeDictionary : Option Memory :=
  (freeAll m.heap m.dictionary).map fun h => { m with heap := h }

/-- A file that is there, as the number of its lines, and of the blocks that `fopen` and
`getline` allocate for its stream. Closing the pointer to it as a descriptor does not free
them, nor is the line freed that `getline` allocates. -/
def loadDictionary (stream lines : Nat) : Option Memory :=
  Memory.freeDictionary { m with heap := (mallocs m.heap stream).1 } |>.map fun m =>
    let lineNum := min lines maxWordAmmount
    let words := mallocs (malloc m.heap).1 lineNum
    { m with
      heap := words.1
      dictionary := words.2 ++ List.replicate (maxWordAmmount - lineNum) none }

/-- Each attempt frees the frame buffer. `fails` is what `vg_exit` says, by the number of
attempts that are left. -/
def exitGraphMode (fails : Nat → Bool) : Nat → Memory → Option Memory
  | 0, m => some m
  | attempts + 1, m => (free m.heap m.frameBuffer).bind fun h =>
    if fails attempts then exitGraphMode fails attempts { m with heap := h }
    else some { m with heap := h }

def exitAll (fails : Nat → Bool) : Option Memory :=
  m.resetTypingInfo.bind fun m => m.freeDictionary.bind (exitGraphMode fails 10)

end Memory

/-- The program before its main loop, with a dictionary of so many lines. -/
def startUp (stream lines : Nat) : Option Memory :=
  (Memory.initUI (Memory.setMinixMode {} true)).loadDictionary stream lines

/-- What the main loop calls that allocates or frees. A text has 25 words. -/
inductive Call
  | generateText (moves : Fin 25 → Bool)
  | resetTypingInfo
  | settingsButton (done : Bool)
  | drawRealTime (drawn : Bool)

def step (m : Memory) : Call → Option Memory
  | .generateText moves => m.generateText (List.ofFn moves)
  | .resetTypingInfo => m.resetTypingInfo
  | .settingsButton done => m.settingsButton done
  | .drawRealTime drawn => m.drawRealTime drawn

/-- The calls after which one more block is lost, or will be. -/
def Call.leaks : Call → Bool
  | .generateText _ => true
  | .resetTypingInfo => false
  | .settingsButton done => done
  | .drawRealTime drawn => !drawn

section Invariant

variable {m : Memory} {k : Nat}

def Memory.pointers (m : Memory) : List Pointer :=
  m.generatedText :: m.typedText :: m.mistakes :: m.frameBuffer :: m.staticBuffer :: m.dictionary

/-- The pointers own what they name, and `k` blocks are lost or will be with `mistakes`. -/
structure Holds (m : Memory) (k : Nat) : Prop where
  owns : ∃ lost, Owns m.heap m.pointers lost ∧ (blocks [m.mistakes]).length + lost.length = k
  frameBuffer : m.frameBuffer ≠ none
  staticBuffer : m.staticBuffer ≠ none

theorem length_blocks {p : Pointer} (hp : p ≠ none) : (blocks [p]).length = 1 := by
  obtain ⟨b, rfl⟩ := Option.ne_none_iff_exists'.mp hp
  rfl

theorem reset_owns (h : Holds m k) : ∃ heap lost, m.resetTypingInfo =
      some { m with heap := heap, generatedText := none, typedText := none, mistakes := none } ∧
    Owns heap (m.frameBuffer :: m.staticBuffer :: m.dictionary) lost ∧ lost.length = k := by
  obtain ⟨lost, ho, hk⟩ := h.owns
  obtain ⟨h₁, hf₁, ho₁⟩ := Owns.free ho
  obtain ⟨h₂, hf₂, ho₂⟩ := ho₁.free
  refine ⟨h₂, blocks [m.mistakes] ++ lost, ?_, ho₂.lose, ?_⟩
  · rw [Memory.resetTypingInfo, hf₁, Option.bind_some, hf₂, Option.map_some]
  · rw [List.length_append, hk]

theorem Holds.resetTypingInfo (h : Holds m k) :
    ∃ m', m.resetTypingInfo = some m' ∧ Holds m' k := by
  obtain ⟨heap, lost, hm, ho, hk⟩ := reset_owns h
  exact ⟨_, hm, ⟨lost, ho.withNull.withNull.withNull, (Nat.zero_add _).trans hk⟩, h.frameBuffer,
    h.staticBuffer⟩

theorem appendWords_owns {ps : List Pointer} {lost : List Nat} (moves : List Bool)
    {text : Heap × Pointer} (ho : Owns text.1 (text.2 :: ps) lost) :
    ∃ text', Memory.appendWords moves text = some text' ∧ Owns text'.1 (text'.2 :: ps) lost := by
  induction moves generalizing text with
  | nil => exact ⟨text, rfl, ho⟩
  | cons b moves ih =>
    obtain ⟨text', hr, ho'⟩ := ho.realloc b
    obtain ⟨text'', ha, ho''⟩ := ih ho'
    refine ⟨text'', ?_, ho''⟩
    rw [Memory.appendWords, hr, Option.bind_some, ha]

theorem Holds.generateText (h : Holds m k) (moves : List Bool) :
    ∃ m', m.generateText moves = some m' ∧ Holds m' (k + 1) := by
  obtain ⟨heap, lost, hm, ho, hk⟩ := reset_owns h
  obtain ⟨text, ht, ho'⟩ := appendWords_owns moves ho.malloc
  have hall := ho'.malloc.malloc.reorder
    (blocks_perm ((List.reverse_perm [_, _, _]).symm.append_right _))
  have hgen : m.generateText moves = some { m with
      heap := (malloc (malloc text.1).1).1
      generatedText := text.2
      typedText := (malloc text.1).2
      mistakes := (malloc (malloc text.1).1).2 } := by
    rw [Memory.generateText, hm, Option.bind_some, ht, Option.map_some]
  refine ⟨_, hgen, ⟨lost, hall, ?_⟩, h.frameBuffer, h.staticBuffer⟩
  rw [hk]
  exact Nat.add_comm 1 k

theorem Holds.settingsButton (h : Holds m k) (done : Bool) :
    ∃ m', m.settingsButton done = some m' ∧ Holds m' (k + if done = true then 1 else 0) := by
  obtain ⟨lost, ho, hk⟩ := h.owns
  have hstatic := ho.reorder (blocks_perm (@List.perm_middle _ m.staticBuffer
    [m.generatedText, m.typedText, m.mistakes, m.frameBuffer] m.dictionary))
  obtain ⟨h', hf, ho'⟩ := hstatic.free
  have hexit : m.exitUI = some { m with heap := h' } := by
    rw [Memory.exitUI, hf, Option.map_some]
  refine ⟨_, by rw [Memory.settingsButton, hexit, Option.map_some], ?_⟩
  cases done with
  | false =>
    have hback := ho'.malloc.reorder (blocks_perm List.perm_middle.symm)
    exact ⟨⟨lost, hback, hk⟩, h.frameBuffer, nofun⟩
  | true =>
    have hframe := ho'.reorder (blocks_perm (@List.perm_middle _ m.frameBuffer
      [m.generatedText, m.typedText, m.mistakes] m.dictionary))
    have hnew := hframe.lose.malloc.reorder (blocks_perm List.perm_middle.symm)
    have hback := hnew.malloc.reorder (blocks_perm (@List.perm_middle _ _
      [m.generatedText, m.typedText, m.mistakes, (malloc h').2] m.dictionary).symm)
    refine ⟨⟨_, hback, ?_⟩, nofun, nofun⟩
    rw [List.length_append, length_blocks h.frameBuffer, ← hk]
    change (blocks [m.mistakes]).length + (1 + lost.length) = _
    rw [if_pos rfl]
    omega

theorem Holds.drawRealTime (h : Holds m k) (drawn : Bool) :
    ∃ m', m.drawRealTime drawn = some m' ∧ Holds m' (k + if drawn = true then 0 else 1) := by
  obtain ⟨lost, ho, hk⟩ := h.owns
  cases drawn with
  | true =>
    obtain ⟨h', hf, ho'⟩ := ho.malloc.free
    refine ⟨{ m with heap := h' }, ?_, ⟨lost, ho', hk⟩, h.frameBuffer, h.staticBuffer⟩
    rw [Memory.drawRealTime, if_pos rfl, hf, Option.map_some]
  | false =>
    refine ⟨{ m with heap := (malloc m.heap).1 }, rfl,
      ⟨_, ho.malloc.lose, ?_⟩, h.frameBuffer, h.staticBuffer⟩
    rw [List.length_append, ← hk]
    change (blocks [m.mistakes]).length + (1 + lost.length) =
      (blocks [m.mistakes]).length + lost.length + 1
    omega

theorem Holds.step (h : Holds m k) (c : Call) :
    ∃ m', step m c = some m' ∧ Holds m' (k + if c.leaks then 1 else 0) := by
  cases c with
  | generateText moves => exact h.generateText (List.ofFn moves)
  | resetTypingInfo => exact h.resetTypingInfo
  | settingsButton done => exact h.settingsButton done
  | drawRealTime drawn =>
    obtain ⟨m', hm, hh⟩ := h.drawRealTime drawn
    refine ⟨m', hm, ?_⟩
    cases drawn with
    | true => exact hh
    | false => exact hh

theorem Holds.run (h : Holds m k) (calls : List Call) :
    ∃ m', run MemoryUse.step m calls = some m' ∧ Holds m' (k + calls.countP Call.leaks) := by
  induction calls generalizing m k with
  | nil => exact ⟨m, rfl, h⟩
  | cons c calls ih =>
    obtain ⟨m₁, hm, h₁⟩ := h.step c
    obtain ⟨m', hr, h'⟩ := ih h₁
    refine ⟨m', by rw [Library.Runs.run, hm, Option.bind_some, hr], ?_⟩
    rw [List.countP_cons]
    convert h' using 1
    omega

theorem holds_startUp (stream lines : Nat) :
    ∃ m, startUp stream lines = some m ∧ Holds m (1 + stream) := by
  have hui := ((owns_empty maxWordAmmount).malloc.malloc.mallocs stream).loseAll
  have hdict := hui.reorder (blocks_perm (@List.perm_append_comm _ [_, _] _))
  obtain ⟨heap, hf, ho⟩ := Owns.freeAll hdict
  have hwords := ho.malloc.lose.mallocs (min lines maxWordAmmount)
  have hstart : startUp stream lines = some {
      heap := (mallocs (malloc heap).1 (min lines maxWordAmmount)).1
      frameBuffer := (malloc {}).2
      staticBuffer := (malloc (malloc {}).1).2
      dictionary := (mallocs (malloc heap).1 (min lines maxWordAmmount)).2 ++
        List.replicate (maxWordAmmount - min lines maxWordAmmount) none } := by
    have hfree : Memory.freeDictionary { Memory.initUI (Memory.setMinixMode {} true) with
          heap := (mallocs (malloc (malloc {}).1).1 stream).1 } =
        some { Memory.initUI (Memory.setMinixMode {} true) with heap := heap } := by
      rw [Memory.freeDictionary]
      exact congrArg (Option.map _) hf
    rw [startUp, Memory.loadDictionary]
    exact congrArg (Option.map _) hfree
  have hlost := length_blocks_mallocs (malloc (malloc {}).1).1 stream
  refine ⟨_, hstart, ⟨_, hwords.reorder ?_, ?_⟩, nofun, nofun⟩
  swap
  · rw [List.length_append, List.length_append, hlost]
    exact Nat.zero_add _
  change (blocks (_ ++ [(malloc (malloc {}).1).2, (malloc {}).2])).Perm
    (blocks ([(malloc {}).2, (malloc (malloc {}).1).2] ++ (_ ++ List.replicate _ none)))
  rw [blocks_append, blocks_append, blocks_append, blocks_replicate, List.append_nil]
  exact List.perm_append_comm.trans ((List.Perm.swap _ _ _).append_right _)

theorem Holds.exitAll (h : Holds m k) (fails : Nat → Bool) :
    (fails 9 = true → m.exitAll fails = none) ∧
      (fails 9 = false → ∃ m', m.exitAll fails = some m' ∧ m'.heap.live.length = k + 1) := by
  obtain ⟨heap, lost, hm, ho, hk⟩ := reset_owns h
  have hdict := ho.reorder (blocks_perm (@List.perm_append_comm _
    [m.frameBuffer, m.staticBuffer] m.dictionary))
  obtain ⟨h₁, hf₁, ho₁⟩ := Owns.freeAll hdict
  obtain ⟨h₂, hf₂, ho₂⟩ := Owns.free ho₁
  obtain ⟨b, hb⟩ := Option.ne_none_iff_exists'.mp h.frameBuffer
  have hexit : m.exitAll fails = if fails 9 = true then
      Memory.exitGraphMode fails 9 { m with
        heap := h₂, generatedText := none, typedText := none, mistakes := none }
      else some { m with
        heap := h₂, generatedText := none, typedText := none, mistakes := none } := by
    rw [Memory.exitAll, hm, Option.bind_some, Memory.freeDictionary, hf₁, Option.map_some,
      Option.bind_some, Memory.exitGraphMode, hf₂, Option.bind_some]
  constructor
  · intro hfail
    rw [hb] at hf₂ ho₁
    rw [hexit, if_pos hfail, Memory.exitGraphMode]
    simp only [hb, ho₁.free_twice hf₂, Option.bind_none]
  · intro hfine
    rw [hfine] at hexit
    refine ⟨_, hexit, ?_⟩
    rw [ho₂.length, length_blocks h.staticBuffer, hk, Nat.add_comm]

/-- Whatever the main loop calls, every pointer of the program is NULL or names an allocated
block of its own, and nothing is freed twice. At the end the program frees the frame buffer
twice exactly if the first `vg_exit` fails, and otherwise leaves these blocks behind. -/
theorem memory_discipline (stream lines : Nat) (calls : List Call) (fails : Nat → Bool) :
    ∃ m, ((startUp stream lines).bind fun m => run step m calls) = some m ∧
      (∀ b, some b ∈ m.pointers → b ∈ m.heap.live) ∧ (blocks m.pointers).Nodup ∧
      (m.exitAll fails = none ↔ fails 9 = true) ∧
      ∀ m', m.exitAll fails = some m' →
        m'.heap.live.length = 2 + stream + calls.countP Call.leaks := by
  obtain ⟨m₀, hstart, h₀⟩ := holds_startUp stream lines
  obtain ⟨m, hrun, h⟩ := h₀.run calls
  obtain ⟨lost, ho, -⟩ := h.owns
  obtain ⟨hbad, hgood⟩ := h.exitAll fails
  refine ⟨m, by rw [hstart, Option.bind_some, hrun], fun b => ho.mem, ho.distinct,
    ⟨fun hnone => ?_, hbad⟩, fun m' hm' => ?_⟩
  · by_contra hfine
    obtain ⟨m', hm', -⟩ := hgood ((Bool.not_eq_true _).mp hfine)
    rw [hnone] at hm'
    cases hm'
  · cases hfails : fails 9 with
    | true =>
      rw [hbad hfails] at hm'
      cases hm'
    | false =>
      obtain ⟨m'', hm'', hlen⟩ := hgood hfails
      rw [hm'] at hm''
      cases hm''
      rw [hlen]
      omega

end Invariant

end WriteWise.MemoryUse
