import WriteWise.Typing

namespace WriteWise.TypingSession

open Typing

/-- Number of positions below `n` where the typed text differs from the wanted one. -/
def wrongBelow (g s : List UInt8) (n : Nat) : Nat := Nat.count (fun i => s[i]? ≠ g[i]?) n

/-- Number of positions below `n` that are marked as mistaken. -/
def mistakesBelow (m : List Bool) (n : Nat) : Nat := Nat.count (fun i => m[i]? = some true) n

/-- The session of a text `g`, with the typed text `s` and the marks `m` in the
other two buffers. The counters are functions of the buffers and the cursor. -/
structure Session (t : TypingInfo) (g s : List UInt8) (m : List Bool) : Prop where
  generated : t.generatedText = some (g ++ [0])
  nulFree : 0 ∉ g
  typed : t.typedText = some s
  mistakes : t.mistakes = some m
  size : t.generatedTextSize = g.length
  bound : g.length + 1 < sizeBound
  typedLength : s.length = g.length + 1
  mistakesLength : m.length = g.length
  cursor : t.typingCursor ≤ g.length
  typedChars : t.typedChars = t.typingCursor
  shown : ∀ i b, s[i]? = some b → (b ≠ 0 ↔ i < t.typingCursor)
  wrong : t.wrongChars = wrongBelow g s t.typingCursor
  total : t.totalWrongChars = mistakesBelow m t.typingCursor
  sticky : ∀ i < t.typingCursor, s[i]? ≠ g[i]? → m[i]? = some true

/-- What `resetTypingInfo` leaves: null buffers and zero counters. -/
structure Cleared (t : TypingInfo) : Prop where
  generated : t.generatedText = none
  typed : t.typedText = none
  mistakes : t.mistakes = none
  size : t.generatedTextSize = 0
  cursor : t.typingCursor = 0
  typedChars : t.typedChars = 0
  wrong : t.wrongChars = 0
  total : t.totalWrongChars = 0

structure Valid (t : TypingInfo) : Prop where
  cleared : t.status = .unready → Cleared t
  session : t.status ≠ .unready → ∃ g s m, Session t g s m
  acc : 0 ≤ t.acc ∧ t.acc ≤ 100

theorem count_congr {p q : Nat → Prop} [DecidablePred p] [DecidablePred q] {n : Nat}
    (h : ∀ i < n, p i ↔ q i) : Nat.count p n = Nat.count q n :=
  le_antisymm (Nat.count_mono_left fun i hi => (h i hi).mp)
    (Nat.count_mono_left fun i hi => (h i hi).mpr)

theorem wrongBelow_set (g s : List UInt8) (k : Nat) (c : UInt8) :
    wrongBelow g (s.set k c) k = wrongBelow g s k :=
  count_congr fun i hi => by rw [List.getElem?_set_ne (Nat.ne_of_gt hi)]

theorem mistakesBelow_set (m : List Bool) (k : Nat) (b : Bool) :
    mistakesBelow (m.set k b) k = mistakesBelow m k :=
  count_congr fun i hi => by rw [List.getElem?_set_ne (Nat.ne_of_gt hi)]

theorem wrongBelow_succ (g s : List UInt8) (k : Nat) :
    wrongBelow g s (k + 1) = wrongBelow g s k + if s[k]? ≠ g[k]? then 1 else 0 :=
  Nat.count_succ ..

theorem mistakesBelow_succ (m : List Bool) (k : Nat) :
    mistakesBelow m (k + 1) = mistakesBelow m k + if m[k]? = some true then 1 else 0 :=
  Nat.count_succ ..

theorem wrongBelow_le (g s : List UInt8) (n : Nat) : wrongBelow g s n ≤ n := Nat.count_le _

theorem mistakesBelow_le (m : List Bool) (n : Nat) : mistakesBelow m n ≤ n := Nat.count_le _

theorem sizeInc_of_lt {n : Nat} (h : n + 1 < sizeBound) : sizeInc n = n + 1 := Nat.mod_eq_of_lt h

theorem sizeSub_of_le {n m : Nat} (hn : n < sizeBound) (h : m ≤ n) : sizeSub n m = n - m := by
  unfold sizeSub
  rw [show n + sizeBound - m = n - m + sizeBound by omega, Nat.add_mod_right]
  exact Nat.mod_eq_of_lt (by omega)

theorem sizeDec_succ {n : Nat} (h : n + 1 < sizeBound) : sizeDec (n + 1) = n :=
  sizeSub_of_le h (by omega)

theorem peek_some {α : Type} {block : Option (List α)} {l : List α} (h : block = some l) (i : Nat) :
    peek block i = l[i]? := by
  subst h
  rfl

theorem poke_some {α : Type} {block : Option (List α)} {l : List α} (h : block = some l) {i : Nat}
    (hi : i < l.length) (x : α) : poke block i x = some (some (l.set i x)) := by
  subst h
  exact if_pos hi

namespace Session

variable {t : TypingInfo} {g s : List UInt8} {m : List Bool}

theorem congr {u : TypingInfo} (h : Session t g s m) (hg : u.generatedText = t.generatedText)
    (hs : u.typedText = t.typedText) (hm : u.mistakes = t.mistakes)
    (hn : u.generatedTextSize = t.generatedTextSize) (hc : u.typingCursor = t.typingCursor)
    (ht : u.typedChars = t.typedChars) (hw : u.wrongChars = t.wrongChars)
    (htw : u.totalWrongChars = t.totalWrongChars) : Session u g s m where
  generated := hg.trans h.generated
  nulFree := h.nulFree
  typed := hs.trans h.typed
  mistakes := hm.trans h.mistakes
  size := hn.trans h.size
  bound := h.bound
  typedLength := h.typedLength
  mistakesLength := h.mistakesLength
  cursor := hc ▸ h.cursor
  typedChars := by rw [ht, hc, h.typedChars]
  shown := by rw [hc]; exact h.shown
  wrong := by rw [hw, hc, h.wrong]
  total := by rw [htw, hc, h.total]
  sticky := by rw [hc]; exact h.sticky

theorem calcTypingStatus (h : Session t g s m) : Session (Typing.calcTypingStatus t) g s m :=
  h.congr rfl rfl rfl rfl rfl rfl rfl rfl

theorem total_le (h : Session t g s m) : t.totalWrongChars ≤ t.typedChars := by
  rw [h.total, h.typedChars]
  exact mistakesBelow_le m _

theorem typedChars_lt (h : Session t g s m) : t.typedChars < sizeBound := by
  have := h.bound
  have := h.cursor
  rw [h.typedChars]
  omega

theorem acc_calc (h : Session t g s m) :
    0 ≤ (Typing.calcTypingStatus t).acc ∧ (Typing.calcTypingStatus t).acc ≤ 100 := by
  simp only [Typing.calcTypingStatus]
  by_cases hz : t.typedChars = 0
  · simp [hz]
  · rw [if_neg hz, sizeSub_of_le h.typedChars_lt h.total_le]
    have hpos : (0 : ℚ) < t.typedChars := by exact_mod_cast Nat.pos_of_ne_zero hz
    have hle : ((t.typedChars - t.totalWrongChars : Nat) : ℚ) ≤ t.typedChars := by
      exact_mod_cast Nat.sub_le _ _
    constructor
    · positivity
    · rw [div_le_iff₀ hpos]
      gcongr

/-- One character is added at the cursor: the cell of the marks may change. -/
theorem advance (h : Session t g s m) (hlt : t.typingCursor < g.length) {c : UInt8} (hc : c ≠ 0)
    (mark : Bool) (hnew : some c ≠ g[t.typingCursor]? → mark = true) {u : TypingInfo}
    (hg : u.generatedText = t.generatedText) (hs : u.typedText = some (s.set t.typingCursor c))
    (hm : u.mistakes = some (m.set t.typingCursor mark))
    (hn : u.generatedTextSize = t.generatedTextSize) (hcur : u.typingCursor = t.typingCursor + 1)
    (ht : u.typedChars = t.typedChars + 1)
    (hw : u.wrongChars = t.wrongChars + if some c ≠ g[t.typingCursor]? then 1 else 0)
    (htw : u.totalWrongChars = t.totalWrongChars + if mark = true then 1 else 0) :
    Session u g (s.set t.typingCursor c) (m.set t.typingCursor mark) := by
  have hsl : t.typingCursor < s.length := by rw [h.typedLength]; omega
  have hml : t.typingCursor < m.length := by rw [h.mistakesLength]; exact hlt
  refine ⟨hg.trans h.generated, h.nulFree, hs, hm, hn.trans h.size, h.bound, ?_, ?_, ?_, ?_, ?_, ?_,
    ?_, ?_⟩
  · rw [List.length_set, h.typedLength]
  · rw [List.length_set, h.mistakesLength]
  · rw [hcur]
    exact hlt
  · rw [ht, hcur, h.typedChars]
  · intro i b hb
    rw [hcur]
    by_cases hi : i = t.typingCursor
    · subst hi
      rw [List.getElem?_set_self hsl, Option.some.injEq] at hb
      subst hb
      simp [hc]
    · rw [List.getElem?_set_ne (Ne.symm hi)] at hb
      rw [h.shown i b hb]
      omega
  · rw [hw, hcur, wrongBelow_succ, wrongBelow_set, h.wrong, List.getElem?_set_self hsl]
  · rw [htw, hcur, mistakesBelow_succ, mistakesBelow_set, h.total, List.getElem?_set_self hml]
    simp only [Option.some.injEq]
  · intro i hi hne
    rw [hcur] at hi
    by_cases hk : i = t.typingCursor
    · subst hk
      rw [List.getElem?_set_self hsl] at hne
      rw [List.getElem?_set_self hml, hnew hne]
    · rw [List.getElem?_set_ne (Ne.symm hk)] at hne ⊢
      exact h.sticky i (by omega) hne

/-- The last character is taken back: its mark stays. -/
theorem retreat (h : Session t g s m) {k : Nat} (hk : t.typingCursor = k + 1) {u : TypingInfo}
    (hg : u.generatedText = t.generatedText) (hs : u.typedText = some (s.set k 0))
    (hm : u.mistakes = t.mistakes) (hn : u.generatedTextSize = t.generatedTextSize)
    (hcur : u.typingCursor = k) (ht : u.typedChars + 1 = t.typedChars)
    (hw : u.wrongChars + (if s[k]? ≠ g[k]? then 1 else 0) = t.wrongChars)
    (htw : u.totalWrongChars + (if m[k]? = some true then 1 else 0) = t.totalWrongChars) :
    Session u g (s.set k 0) m := by
  have hlen := h.cursor
  have hsl : k < s.length := by rw [h.typedLength]; omega
  refine ⟨hg.trans h.generated, h.nulFree, hs, hm.trans h.mistakes, hn.trans h.size, h.bound, ?_,
    h.mistakesLength, ?_, ?_, ?_, ?_, ?_, ?_⟩
  · rw [List.length_set, h.typedLength]
  · omega
  · have := h.typedChars
    omega
  · intro i b hb
    rw [hcur]
    by_cases hi : i = k
    · subst hi
      rw [List.getElem?_set_self hsl, Option.some.injEq] at hb
      simp [← hb]
    · rw [List.getElem?_set_ne (Ne.symm hi)] at hb
      rw [h.shown i b hb]
      omega
  · have hwt := h.wrong
    rw [hk, wrongBelow_succ] at hwt
    rw [hcur, wrongBelow_set]
    omega
  · have htt := h.total
    rw [hk, mistakesBelow_succ] at htt
    rw [hcur]
    omega
  · intro i hi hne
    rw [hcur] at hi
    rw [List.getElem?_set_ne (Nat.ne_of_gt hi)] at hne
    exact h.sticky i (by omega) hne

theorem set_getElem? {α : Type} {l : List α} {i : Nat} {x : α} (h : l[i]? = some x) :
    l.set i x = l := by
  obtain ⟨hi, rfl⟩ := List.getElem?_eq_some_iff.mp h
  exact List.set_getElem_self hi

theorem typeChar (h : Session t g s m) (hlt : t.typingCursor < g.length) {c : UInt8}
    (hc : 0 < c.toInt8) : ∃ u, Typing.typeChar c t = some u ∧ u.status = t.status ∧ u.acc = t.acc ∧
      u.typingCursor = t.typingCursor + 1 ∧
        ∃ mark, (mark = true ↔ m[t.typingCursor]? = some true ∨ some c ≠ g[t.typingCursor]?) ∧
          Session u g (s.set t.typingCursor c) (m.set t.typingCursor mark) := by
  have hc0 : c ≠ 0 := by
    rintro rfl
    exact absurd hc (by decide)
  have hb := h.bound
  have hcount : t.totalWrongChars ≤ t.typingCursor := by
    rw [h.total]
    exact mistakesBelow_le m _
  have hwrong : t.wrongChars ≤ t.typingCursor := by
    rw [h.wrong]
    exact wrongBelow_le g s _
  have hchars := h.typedChars
  obtain ⟨b, hmb⟩ : ∃ b, m[t.typingCursor]? = some b :=
    ⟨_, List.getElem?_eq_getElem (by rw [h.mistakesLength]; exact hlt)⟩
  obtain ⟨w, hgw⟩ : ∃ w, g[t.typingCursor]? = some w := ⟨_, List.getElem?_eq_getElem hlt⟩
  have hgw' : (g ++ [0])[t.typingCursor]? = some w := by
    rw [List.getElem?_append_left hlt, hgw]
  have hpoke : poke t.typedText t.typingCursor c = some (some (s.set t.typingCursor c)) :=
    poke_some h.typed (by rw [h.typedLength]; omega) c
  have hpokem : poke t.mistakes t.typingCursor true = some (some (m.set t.typingCursor true)) :=
    poke_some h.mistakes (by rw [h.mistakesLength]; exact hlt) true
  have hinc : ∀ n ≤ t.typingCursor, sizeInc n = n + 1 := fun n hn => sizeInc_of_lt (by omega)
  simp only [Typing.typeChar, if_pos hc, peek_some h.mistakes, peek_some h.generated, hmb, hgw',
    Option.bind_some, hpoke, hpokem, Option.map_some]
  by_cases hcw : c = w
  · subst hcw
    rw [if_neg (by simp)]
    refine ⟨_, rfl, rfl, rfl, hinc _ le_rfl, b, by simp [hgw], ?_⟩
    refine h.advance hlt hc0 b (by rw [hgw]; simp) rfl rfl ?_ rfl
      (hinc _ le_rfl) (hinc _ hchars.le) ?_ ?_
    · rw [set_getElem? hmb]
      exact h.mistakes
    · simp [hgw]
    · cases b with
      | false => simp
      | true => simp [hinc _ hcount]
  · cases b with
    | false =>
      rw [if_pos ⟨hcw, rfl⟩]
      refine ⟨_, rfl, rfl, rfl, hinc _ le_rfl, true, by simp [hgw, hcw], ?_⟩
      refine h.advance hlt hc0 true (fun _ => rfl) rfl rfl rfl rfl
        (hinc _ le_rfl) (hinc _ hchars.le) ?_ ?_
      · simp [hgw, hcw, hinc _ hwrong]
      · simp [hinc _ hcount]
    | true =>
      rw [if_neg (by simp)]
      refine ⟨_, rfl, rfl, rfl, hinc _ le_rfl, true, by simp [hgw, hcw], ?_⟩
      refine h.advance hlt hc0 true (fun _ => rfl) rfl rfl ?_ rfl
        (hinc _ le_rfl) (hinc _ hchars.le) ?_ ?_
      · rw [set_getElem? hmb]
        exact h.mistakes
      · simp [hgw, hcw, hinc _ hwrong]
      · simp [hinc _ hcount]

theorem eraseChar (h : Session t g s m) : ∃ u, Typing.eraseChar t = some u ∧ u.status = t.status ∧
    u.acc = t.acc ∧ u.typingCursor = t.typingCursor - 1 ∧
      Session u g (s.set (t.typingCursor - 1) 0) m := by
  have hb := h.bound
  have hle := h.cursor
  have hcount := h.total
  have hwrong := h.wrong
  unfold Typing.eraseChar
  cases hk : t.typingCursor with
  | zero =>
    have hs0 : s[0]? = some 0 := by
      have hs : 0 < s.length := by rw [h.typedLength]; omega
      have h0 := (h.shown 0 s[0] (List.getElem?_eq_getElem hs)).not
      rw [hk] at h0
      rw [List.getElem?_eq_getElem hs]
      simpa using h0
    refine ⟨t, if_pos rfl, rfl, rfl, hk, ?_⟩
    rw [set_getElem? hs0]
    exact h
  | succ k =>
    have hkg : k < g.length := by omega
    have hks : k < s.length := by rw [h.typedLength]; omega
    obtain ⟨b, hmb⟩ : ∃ b, m[k]? = some b :=
      ⟨_, List.getElem?_eq_getElem (by rw [h.mistakesLength]; exact hkg)⟩
    obtain ⟨w, hgw⟩ : ∃ w, g[k]? = some w := ⟨_, List.getElem?_eq_getElem hkg⟩
    obtain ⟨c, hsc⟩ : ∃ c, s[k]? = some c := ⟨_, List.getElem?_eq_getElem hks⟩
    have hgw' : (g ++ [0])[k]? = some w := by rw [List.getElem?_append_left hkg, hgw]
    have hdec : sizeDec (k + 1) = k := sizeDec_succ (by omega)
    have hdecc : sizeDec t.typedChars + 1 = t.typedChars := by
      rw [h.typedChars, hk, hdec]
    have hpoke : poke t.typedText k 0 = some (some (s.set k 0)) := poke_some h.typed hks 0
    rw [hk, mistakesBelow_succ, hmb] at hcount
    rw [hk, wrongBelow_succ, hsc, hgw] at hwrong
    have hmle := mistakesBelow_le m k
    have hwle := wrongBelow_le g s k
    rw [if_neg (Nat.succ_ne_zero k)]
    simp only [hdec, peek_some h.mistakes, peek_some h.typed, peek_some h.generated, hmb, hsc, hgw',
      Option.bind_some, Nat.add_sub_cancel]
    cases b with
    | false =>
      -- an unmarked position is typed as wanted
      have hcw : c = w := by
        have hst := h.sticky k (by omega)
        rw [hmb, hsc, hgw] at hst
        by_contra hne
        simpa using hst (by simpa using hne)
      simp only [Bool.false_eq_true, if_false, Option.bind_some, hpoke, Option.map_some]
      refine ⟨_, rfl, rfl, rfl, rfl, h.retreat hk rfl rfl rfl rfl rfl hdecc ?_ ?_⟩
      · simp [hsc, hgw, hcw]
      · simp [hmb]
    | true =>
      have hdect : sizeDec t.totalWrongChars + 1 = t.totalWrongChars := by
        rw [hcount]
        simp only [if_true]
        rw [sizeDec_succ (by omega)]
      simp only [if_true, Option.bind_some, hpoke, Option.map_some]
      refine ⟨_, rfl, rfl, rfl, rfl, h.retreat hk rfl rfl rfl rfl rfl hdecc ?_ ?_⟩
      · by_cases hcw : c = w
        · simp [hsc, hgw, hcw]
        · have hdecw : sizeDec t.wrongChars + 1 = t.wrongChars := by
            rw [hwrong, if_pos (by simpa using hcw), sizeDec_succ (by omega)]
          simp [hsc, hgw, hcw, hdecw]
      · simp [hmb, hdect]

end Session

theorem strcat_some {size : Nat} {dst src r : List UInt8} (h : strcat size dst src = some r) :
    r = dst ++ src := by
  unfold strcat at h
  split at h
  · exact (Option.some.inj h).symm
  · cases h

theorem appendWords_succ {dictionary : List Word} {random : Nat → Nat} {n i size : Nat}
    {text : List UInt8} {r : Nat × List UInt8}
    (h : appendWords dictionary random (n + 1) i (size, text) = some r) :
    ∃ word : Word, dictionary[wordIndex (random i) dictionary.length]? = some word ∧
      size + (word.1.length + 1) < sizeBound ∧
      appendWords dictionary random n (i + 1) (size + (word.1.length + 1),
        (if i = 0 then text else text ++ [UInt8.ofNat ' '.toNat]) ++ word.1) = some r := by
  simp only [appendWords] at h
  obtain ⟨word, hw, h⟩ := Option.bind_eq_some_iff.mp h
  split at h
  · cases h
  · rename_i hsize
    obtain ⟨text', ht, h⟩ := Option.bind_eq_some_iff.mp h
    obtain ⟨text'', ht', h⟩ := Option.bind_eq_some_iff.mp h
    have hspace : text' = if i = 0 then text else text ++ [UInt8.ofNat ' '.toNat] := by
      split at ht
      · rw [if_pos ‹_›]
        exact (Option.some.inj ht).symm
      · rw [if_neg ‹_›]
        exact strcat_some ht
    rw [strcat_some ht', hspace] at h
    exact ⟨word, hw, not_le.mp hsize, h⟩

/-- The running size counts the text and its terminator from the first word on. -/
theorem appendWords_size {dictionary : List Word} {random : Nat → Nat} {n i size : Nat}
    {text : List UInt8} {r : Nat × List UInt8} (hnul : 0 ∉ text)
    (hsize : size = if i = 0 ∧ 0 < n then text.length else text.length + 1)
    (hb : size < sizeBound) (h : appendWords dictionary random n i (size, text) = some r) :
    r.1 = r.2.length + 1 ∧ 0 ∉ r.2 ∧ r.1 < sizeBound := by
  induction n generalizing i size text with
  | zero =>
    obtain rfl := (Option.some.inj h).symm
    exact ⟨by simpa using hsize, hnul, hb⟩
  | succ n ih =>
    obtain ⟨word, -, hlt, h⟩ := appendWords_succ h
    refine ih ?_ ?_ hlt h
    · split <;> simp [hnul, word.2]
    · by_cases hi : i = 0
      · simp [hi, hsize]
        omega
      · simp [hi, hsize]
        omega

theorem generateText_session {dictionary : List Word} {random : UInt32 → Nat → Nat}
    {wordAmmount : Nat} {seed : UInt32} {t : TypingInfo}
    (h : generateText dictionary random wordAmmount seed = some t) :
    t.status = .ready ∧ t.typingCursor = 0 ∧ ∃ g s m, Session t g s m := by
  unfold generateText at h
  obtain ⟨⟨size, text⟩, hr, rfl⟩ := Option.map_eq_some_iff.mp h
  have hstart : (if wordAmmount = 0 then 1 else 0) < sizeBound := by split <;> decide
  obtain ⟨hs, hnul, hb⟩ := appendWords_size (by simp)
    (by rcases Nat.eq_zero_or_pos wordAmmount with h0 | h0 <;> simp [h0]; omega) hstart hr
  simp only at hs hnul hb
  subst hs
  have hdec : sizeDec (text.length + 1) = text.length := sizeDec_succ hb
  refine ⟨rfl, rfl, text, List.replicate (text.length + 1) 0, List.replicate text.length false, ?_⟩
  refine ⟨rfl, hnul, rfl, ?_, ?_, hb, ?_, ?_, Nat.zero_le _, rfl, ?_, ?_, ?_, ?_⟩
  · simp only [hdec]
  · simp only [hdec]
  · simp
  · simp
  · intro i b hib
    have hb0 := (List.getElem?_eq_some_iff.mp hib).2
    rw [List.getElem_replicate] at hb0
    simp [resetTypingInfo, ← hb0]
  · simp [resetTypingInfo, wrongBelow]
  · simp [resetTypingInfo, mistakesBelow]
  · intro i hi
    simp [resetTypingInfo] at hi

theorem generateText_acc {dictionary : List Word} {random : UInt32 → Nat → Nat}
    {wordAmmount : Nat} {seed : UInt32} {t : TypingInfo}
    (h : generateText dictionary random wordAmmount seed = some t) : t.acc = 100 := by
  unfold generateText at h
  obtain ⟨r, -, rfl⟩ := Option.map_eq_some_iff.mp h
  rfl

theorem status_update (t : TypingInfo) (now : Nat) :
    (updateTypingInfo now t).status = t.status := by
  unfold updateTypingInfo
  split
  · rfl
  · rfl

namespace Valid

theorem reset : Valid resetTypingInfo :=
  ⟨fun _ => ⟨rfl, rfl, rfl, rfl, rfl, rfl, rfl, rfl⟩, fun h => absurd rfl h, by
    norm_num [resetTypingInfo]⟩

theorem generate {dictionary : List Word} {random : UInt32 → Nat → Nat} {wordAmmount : Nat}
    {seed : UInt32} {t : TypingInfo}
    (h : generateText dictionary random wordAmmount seed = some t) : Valid t := by
  obtain ⟨hs, -, hsess⟩ := generateText_session h
  refine ⟨fun hu => ?_, fun _ => hsess, ?_⟩
  · rw [hs] at hu
    cases hu
  · rw [generateText_acc h]
    norm_num

theorem start {t : TypingInfo} (h : Valid t) (hs : t.status = .ready) (now : Nat) :
    Valid (startTyping now t) := by
  obtain ⟨g, s, m, hsess⟩ := h.session (by rw [hs]; decide)
  exact ⟨nofun, fun _ => ⟨g, s, m, hsess.congr rfl rfl rfl rfl rfl rfl rfl rfl⟩, h.acc⟩

theorem endTyping {t : TypingInfo} (h : Valid t) (hs : t.status ≠ .unready) (now : Nat) :
    Valid (Typing.endTyping now t) := by
  obtain ⟨g, s, m, hsess⟩ := h.session hs
  have hnew : Session { t with timeEnd := now, status := .finished } g s m :=
    hsess.congr rfl rfl rfl rfl rfl rfl rfl rfl
  exact ⟨nofun, fun _ => ⟨g, s, m, hnew.calcTypingStatus⟩, hnew.acc_calc⟩

theorem update {t : TypingInfo} (h : Valid t) (now : Nat) : Valid (updateTypingInfo now t) := by
  unfold updateTypingInfo
  split
  · rename_i hs
    obtain ⟨g, s, m, hsess⟩ := h.session (by rw [hs]; decide)
    have hnew : Session { t with timeEnd := now } g s m :=
      hsess.congr rfl rfl rfl rfl rfl rfl rfl rfl
    refine ⟨fun hu => ?_, fun _ => ⟨g, s, m, hnew.calcTypingStatus⟩, hnew.acc_calc⟩
    simp only [calcTypingStatus, hs] at hu
    cases hu
  · exact h

end Valid

end WriteWise.TypingSession
