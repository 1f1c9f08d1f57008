import WriteWise.Library.Runs
import WriteWise.RunInvariant
import WriteWise.SerialStream

namespace WriteWise.RaceRelation

open Library Library.Runs Scancode Serial SerialStream Typing Program

section Decoders

structure SameDecoder (d e : Decoder) : Prop where
  receiving : e.receivingSerialPort = d.receivingSerialPort
  index : e.indexSerialPort = d.indexSerialPort
  bits : e.bitsSerialPort.toList.take d.indexSerialPort =
    d.bitsSerialPort.toList.take d.indexSerialPort

variable {d e : Decoder}

theorem take_set_congr {xs ys : List UInt8} {i : Nat} (hlen : ys.length = xs.length)
    (h : ys.take i = xs.take i) (b : UInt8) :
    (ys.set i b).take (i + 1) = (xs.set i b).take (i + 1) := by
  by_cases hi : i < xs.length
  · rw [take_set_succ xs hi, take_set_succ ys (by omega), h]
  · have hx : xs.take i = xs := List.take_of_length_le (by omega)
    have hy : ys.take i = ys := List.take_of_length_le (by omega)
    rw [← hx, ← hy, h]

theorem sameDecoder_readValue (h : SameDecoder d e) (width : Nat) {input : UartInput} {b : UInt8}
    (hb : Delivers input b) :
    SameDecoder (serialPortReadValue width input d).1 (serialPortReadValue width input e).1 ∧
      (serialPortReadValue width input e).2 = (serialPortReadValue width input d).2 := by
  have ht : (e.bitsSerialPort.toList.set d.indexSerialPort b).take (d.indexSerialPort + 1) =
      (d.bitsSerialPort.toList.set d.indexSerialPort b).take (d.indexSerialPort + 1) :=
    take_set_congr (by simp) h.bits b
  simp only [serialPortReadValue, readByte_delivers hb, h.index]
  by_cases hw : d.indexSerialPort + 1 < width
  · rw [if_pos hw, if_pos hw]
    refine ⟨⟨h.receiving, rfl, ?_⟩, rfl⟩
    simpa only [Vector.toList_setIfInBounds] using ht
  · rw [if_neg hw, if_neg hw]
    refine ⟨⟨rfl, rfl, rfl⟩, ?_⟩
    have hle : width ≤ d.indexSerialPort + 1 := by omega
    have htw := congrArg (List.take width) ht
    rw [List.take_take, List.take_take, min_eq_left hle] at htw
    simp only [Vector.toList_setIfInBounds, htw]

theorem sameDecoder_serialSwitch (h : SameDecoder d e) {input : UartInput} {b : UInt8}
    (hb : Delivers input b) :
    SameDecoder (serialSwitch input d).1 (serialSwitch input e).1 ∧
      (serialSwitch input e).2 = (serialSwitch input d).2 := by
  have h8 := sameDecoder_readValue h 8 hb
  have h4 := sameDecoder_readValue h 4 hb
  simp only [serialSwitch, h.receiving]
  split
  · exact ⟨h8.1, by simp only [serialPortReadULong, Prod.map, h8.2]⟩
  split
  · exact ⟨h8.1, by simp only [serialPortReadLong, Prod.map, h8.2]⟩
  split
  · exact ⟨h4.1, by simp only [serialPortReadUInt, Prod.map, h4.2]⟩
  split
  · exact ⟨h4.1, by simp only [serialPortReadInt, Prod.map, h4.2]⟩
  split
  · exact ⟨h4.1, by simp only [serialPortReadFloat, Prod.map, h4.2]⟩
  split
  · exact ⟨h8.1, by simp only [serialPortReadDouble, Prod.map, h8.2]⟩
  · rw [ih_delivers hb, ih_delivers hb]
    split_ifs
    · exact ⟨⟨rfl, h.index, h.bits⟩, rfl⟩
    · exact ⟨⟨h.receiving, h.index, h.bits⟩, rfl⟩

end Decoders

section Clocks

def SameTime (k l : Nat) (t u : Nat) : Prop := t + l = u + k

variable {k l : Nat}

theorem ulongSub_sameTime {t u a b : Nat} (h : SameTime k l t u) (h' : SameTime k l a b) :
    ulongSub u b = ulongSub t a := by
  unfold SameTime at h h'
  unfold ulongSub
  split <;> split <;> omega

theorem SameTime.succ {t u : Nat} (h : SameTime k l t u) : SameTime k l (t + 1) (u + 1) := by
  unfold SameTime at *
  omega

/-- The same test, by two clocks. While it runs, its statistics are those of the
last half second of the clock, which the two clocks may end at different moments. -/
structure SameTest (k l : Nat) (t u : TypingInfo) : Prop where
  generated : u.generatedText = t.generatedText
  typed : u.typedText = t.typedText
  mistakes : u.mistakes = t.mistakes
  size : u.generatedTextSize = t.generatedTextSize
  cursor : u.typingCursor = t.typingCursor
  typedChars : u.typedChars = t.typedChars
  wrong : u.wrongChars = t.wrongChars
  total : u.totalWrongChars = t.totalWrongChars
  status : u.status = t.status
  started : t.status = .typing ∨ t.status = .finished → SameTime k l t.timeStart u.timeStart
  unstarted : ¬ (t.status = .typing ∨ t.status = .finished) →
    u.timeStart = t.timeStart ∧ u.timeEnd = t.timeEnd
  ended : t.status = .finished ∨ (t.status = .typing ∧ k % 30 = l % 30) →
    SameTime k l t.timeEnd u.timeEnd
  statistics : (t.status = .typing → k % 30 = l % 30) →
    u.wpm = t.wpm ∧ u.cpm = t.cpm ∧ u.acc = t.acc

def retime (v t : TypingInfo) : TypingInfo :=
  { t with
    timeStart := v.timeStart
    timeEnd := v.timeEnd
    wpm := v.wpm
    cpm := v.cpm
    acc := v.acc
    status := v.status }

theorem typeChar_retime (c : UInt8) (v t : TypingInfo) :
    typeChar c (retime v t) = (typeChar c t).map (retime v) := by
  simp only [typeChar, retime]
  split
  · rw [Option.map_bind]
    refine Option.bind_congr fun mistake _ => ?_
    simp only [Function.comp_apply, Option.map_bind]
    refine Option.bind_congr fun wanted _ => ?_
    refine Option.bind_congr fun marked _ => ?_
    simp only [Option.map_map]
    rfl
  · rfl

theorem eraseChar_retime (v t : TypingInfo) :
    eraseChar (retime v t) = (eraseChar t).map (retime v) := by
  simp only [eraseChar, retime]
  by_cases hz : t.typingCursor = 0
  · obtain ⟨⟩ := t
    simp only at hz
    subst hz
    rfl
  · simp only [hz, if_false, Option.map_bind]
    refine Option.bind_congr fun mistake _ => ?_
    cases mistake with
    | false =>
      simp only [Bool.false_eq_true, if_false, Option.bind_some, Function.comp_apply,
        Option.map_map]
      rfl
    | true =>
      simp only [if_true, Function.comp_apply, Option.map_bind, Option.bind_assoc]
      refine Option.bind_congr fun typed _ => ?_
      refine Option.bind_congr fun wanted _ => ?_
      simp only [Option.bind_some, Option.map_map]
      rfl

namespace SameTest

variable {t u : TypingInfo}

theorem eq_retime (h : SameTest k l t u) : u = retime u t := by
  obtain ⟨h1, h2, h3, h4, h5, h6, h7, h8, -, -, -, -, -⟩ := h
  cases u
  simp only at h1 h2 h3 h4 h5 h6 h7 h8
  subst h1 h2 h3 h4 h5 h6 h7 h8
  rfl

theorem refl (k l : Nat) (h : ¬ (t.status = .typing ∨ t.status = .finished)) :
    SameTest k l t t :=
  ⟨rfl, rfl, rfl, rfl, rfl, rfl, rfl, rfl, rfl, fun hc => absurd hc h, fun _ => ⟨rfl, rfl⟩,
    fun hc => absurd (hc.elim .inr fun hs => .inl hs.1) h, fun _ => ⟨rfl, rfl, rfl⟩⟩

theorem ofGenerateText {dictionary : List Word} {random : UInt32 → Nat → Nat} {n : Nat}
    {seed : UInt32} (k l : Nat) (h : generateText dictionary random n seed = some t) :
    SameTest k l t t := by
  apply refl
  rw [(TypingSession.generateText_session h).1]
  exact fun hc => hc.elim nofun nofun

theorem map {f : TypingInfo → Option TypingInfo}
    (hf : ∀ v t, f (retime v t) = (f t).map (retime v)) (h : SameTest k l t u) :
    Option.Rel (fun t' u' => SameTest k l t' u' ∧ t'.status = t.status) (f t) (f u) := by
  have ht : f t = (f t).map (retime t) := hf t t
  rw [h.eq_retime, hf, ht]
  cases f t with
  | none => exact .none
  | some t' =>
    exact .some ⟨⟨rfl, rfl, rfl, rfl, rfl, rfl, rfl, rfl, h.status, h.started, h.unstarted,
      h.ended, h.statistics⟩, rfl⟩

theorem start (h : SameTest k l t u) (hs : t.status = .ready) {now now' : Nat}
    (hn : SameTime k l now now') : SameTest k l (startTyping now t) (startTyping now' u) := by
  refine ⟨h.generated, h.typed, h.mistakes, h.size, h.cursor, h.typedChars, h.wrong, h.total, rfl,
    fun _ => hn, fun hc => absurd (.inl rfl) hc, fun _ => hn, fun _ => h.statistics fun hc => ?_⟩
  rw [hs] at hc
  cases hc

/-- The statistics are computed anew, from clock readings of the same moment. -/
theorem endTyping (h : SameTest k l t u) (hs : t.status = .typing) {now now' : Nat}
    (hn : SameTime k l now now') :
    SameTest k l (Typing.endTyping now t) (Typing.endTyping now' u) := by
  have hd := ulongSub_sameTime hn (h.started (.inl hs))
  refine ⟨h.generated, h.typed, h.mistakes, h.size, h.cursor, h.typedChars, h.wrong, h.total, rfl,
    fun _ => h.started (.inl hs), fun hc => absurd (.inr rfl) hc, fun _ => hn, fun _ => ?_⟩
  simp only [Typing.endTyping, calcTypingStatus, hd, h.typedChars, h.total, and_self]

theorem update (h : SameTest k l t u) {now now' : Nat} (hn : SameTime k l now now') :
    SameTest k l (updateTypingInfo now t) (updateTypingInfo now' u) := by
  unfold updateTypingInfo
  by_cases hs : t.status = .typing
  · rw [if_pos hs, if_pos (h.status.trans hs)]
    have hd := ulongSub_sameTime hn (h.started (.inl hs))
    refine ⟨h.generated, h.typed, h.mistakes, h.size, h.cursor, h.typedChars, h.wrong, h.total,
      h.status, fun _ => h.started (.inl hs), fun hc => absurd (.inl hs) hc, fun _ => hn,
      fun _ => ?_⟩
    simp only [calcTypingStatus, hd, h.typedChars, h.total, and_self]
  · rw [if_neg hs, if_neg fun hc => hs (h.status.symm.trans hc)]
    exact h

/-- Statistics that only one of the clocks brings up to date. -/
theorem update_left (h : SameTest k l t u) (hkl : k % 30 ≠ l % 30) (now : Nat) :
    SameTest k l (updateTypingInfo now t) u := by
  unfold updateTypingInfo
  split
  · rename_i hs
    refine ⟨h.generated, h.typed, h.mistakes, h.size, h.cursor, h.typedChars, h.wrong, h.total,
      h.status, h.started, fun hc => absurd (.inl hs) hc, ?_, fun hc => absurd (hc hs) hkl⟩
    rintro (hf | hm)
    · exact absurd (hs.symm.trans hf) (by decide)
    · exact absurd hm.2 hkl
  · exact h

theorem update_right (h : SameTest k l t u) (hkl : k % 30 ≠ l % 30) (now : Nat) :
    SameTest k l t (updateTypingInfo now u) := by
  unfold updateTypingInfo
  split
  · rename_i hu
    have hs := h.status.symm.trans hu
    refine ⟨h.generated, h.typed, h.mistakes, h.size, h.cursor, h.typedChars, h.wrong, h.total,
      h.status, h.started, fun hc => absurd (.inl hs) hc, ?_, fun hc => absurd (hc hs) hkl⟩
    rintro (hf | hm)
    · exact absurd (hs.symm.trans hf) (by decide)
    · exact absurd hm.2 hkl
  · exact h

end SameTest

end Clocks

/-- Two programs whose races go on in the same way. `k` and `l` are readings of
their clocks at one moment, `o` and `p` what their ports had written by then. -/
structure SameRace (k l : Nat) (o p : List PortWrite) (x y : App) : Prop where
  screen : y.currAppState = x.currAppState
  test : SameTest k l x.typingInfo y.typingInfo
  readyMe : y.racingInfo.readyMe = x.racingInfo.readyMe
  readyYou : y.racingInfo.readyYou = x.racingInfo.readyYou
  seedMe : y.racingInfo.seedMe = x.racingInfo.seedMe
  seedYou : y.racingInfo.seedYou = x.racingInfo.seedYou
  won : y.racingInfo.won = x.racingInfo.won
  startTime : y.racingInfo.startTime = x.racingInfo.startTime ∨
    SameTime k l x.racingInfo.startTime y.racingInfo.startTime
  countdown : x.currAppState = .raceState → x.typingInfo.status = .ready →
    SameTime k l x.racingInfo.startTime y.racingInfo.startTime
  waitingForSeed : y.waitingForSeed = x.waitingForSeed
  decoder : SameDecoder x.port.decoder y.port.decoder
  waitingAck : y.port.waitingAckSerialPort = x.port.waitingAckSerialPort
  ackStart : x.port.waitingAckSerialPort = true ∨ x.racingInfo.readyMe = true →
    SameTime k l x.port.waitingAckStartTime y.port.waitingAckStartTime
  reliable : x.port.answers = [] ∧ y.port.answers = []
  sent : ∃ ws, x.port.out = o ++ ws ∧ y.port.out = p ++ ws
  clock : SameTime k l x.timerCounter y.timerCounter
  keyboard : y.keyboard = x.keyboard
  dictionary : y.dictionary = x.dictionary

namespace SameRace

variable {k l : Nat} {o p : List PortWrite} {x y : App} {random : UInt32 → Nat → Nat}

theorem sent_append {a b : List PortWrite} (h : ∃ ws, a = o ++ ws ∧ b = p ++ ws)
    (ws : List PortWrite) : ∃ ws', a ++ ws = o ++ ws' ∧ b ++ ws = p ++ ws' := by
  obtain ⟨vs, rfl, rfl⟩ := h
  exact ⟨vs ++ ws, List.append_assoc .., List.append_assoc ..⟩

theorem call (h : SameRace k l o p x y) {f : Port → Port × Bool} {ws : List PortWrite}
    (hf : ∀ q : Port, q.answers = [] → f q = (q.writes ws, false)) :
    SameRace k l o p (x.call f) (y.call f) := by
  simp only [App.call, hf _ h.reliable.1, hf _ h.reliable.2]
  exact { h with sent := sent_append h.sent ws }

theorem clearFIFO (h : SameRace k l o p x y) :
    SameRace k l o p (x.call serialPortClearFIFO) (y.call serialPortClearFIFO) :=
  h.call fun _ hq => clearFIFO_reliable hq

theorem sendAck (h : SameRace k l o p x y) :
    SameRace k l o p (x.call serialPortSendAck) (y.call serialPortSendAck) :=
  h.call fun _ hq => clear_sendByte_reliable hq infoAck

theorem sendReadyAck (h : SameRace k l o p x y) :
    SameRace k l o p (x.call serialPortSendReadyAck) (y.call serialPortSendReadyAck) :=
  h.call fun _ hq => clear_sendByte_reliable hq infoReadyAck

theorem sendNReadyAck (h : SameRace k l o p x y) :
    SameRace k l o p (x.call serialPortSendNReadyAck) (y.call serialPortSendNReadyAck) :=
  h.call fun _ hq => clear_sendByte_reliable hq infoNReadyAck

theorem sendWon (h : SameRace k l o p x y) :
    SameRace k l o p (x.call serialPortSendWon) (y.call serialPortSendWon) :=
  h.call fun _ hq => sendByte_reliable hq infoWon

theorem sendExit (h : SameRace k l o p x y) :
    SameRace k l o p (x.call serialPortSendExit) (y.call serialPortSendExit) :=
  h.call fun _ hq => sendByte_reliable hq infoExit

/-- The time at which the wait for the answer began is the one that counts since the
last `READY`. -/
theorem sendNReady (h : SameRace k l o p x y) (hr : x.racingInfo.readyMe = true) :
    SameRace k l o p (x.call serialPortSendNReady) (y.call serialPortSendNReady) := by
  have hx : ({ x.port with waitingAckSerialPort := true } : Port).answers = [] := h.reliable.1
  have hy : ({ y.port with waitingAckSerialPort := true } : Port).answers = [] := h.reliable.2
  simp only [App.call, serialPortSendNReady, sendByte_reliable hx, sendByte_reliable hy]
  exact { h with
    waitingAck := rfl
    ackStart := fun _ => h.ackStart (.inr hr)
    sent := sent_append h.sent _ }

theorem sendSeed (h : SameRace k l o p x y) (seed : UInt64) :
    SameRace k l o p
      ((x.call serialPortSendReady).call (serialPortSendULong seed x.timerCounter))
      ((y.call serialPortSendReady).call (serialPortSendULong seed y.timerCounter)) := by
  have hx : ({ x.port with waitingAckSerialPort := true } : Port).answers = [] := h.reliable.1
  have hy : ({ y.port with waitingAckSerialPort := true } : Port).answers = [] := h.reliable.2
  have hx' : (Port.writes { x.port with waitingAckSerialPort := true } [.thr infoReady]).answers =
    [] := hx
  have hy' : (Port.writes { y.port with waitingAckSerialPort := true } [.thr infoReady]).answers =
    [] := hy
  simp only [App.call, serialPortSendReady, sendByte_reliable hx, sendByte_reliable hy,
    serialPortSendULong, sendValue_reliable hx', sendValue_reliable hy']
  exact { h with
    waitingAck := rfl
    ackStart := fun _ => h.clock
    sent := sent_append (sent_append h.sent _) _ }

theorem resetTypingInfo (h : SameRace k l o p x y) :
    SameRace k l o p x.resetTypingInfo y.resetTypingInfo :=
  { h with
    test := .refl k l fun hc => hc.elim nofun nofun
    countdown := fun _ hs => nomatch hs }

theorem resetRacingInfo (h : SameRace k l o p x y) (hs : x.typingInfo.status ≠ .ready) :
    SameRace k l o p x.resetRacingInfo y.resetRacingInfo :=
  { h with
    readyMe := rfl
    readyYou := rfl
    seedMe := rfl
    seedYou := rfl
    won := rfl
    startTime := .inl rfl
    countdown := fun _ hr => absurd hr hs
    ackStart := fun hw => h.ackStart (hw.imp id nofun) }

theorem startTyping (h : SameRace k l o p x y) (hs : x.typingInfo.status = .ready) :
    SameRace k l o p x.startTyping y.startTyping :=
  { h with
    test := h.test.start hs h.clock
    countdown := fun _ hr => nomatch hr }

theorem endTyping (h : SameRace k l o p x y) (hs : x.typingInfo.status = .typing) :
    SameRace k l o p x.endTyping y.endTyping :=
  { h with
    test := h.test.endTyping hs h.clock
    countdown := fun _ hr => nomatch hr }

theorem endRace (h : SameRace k l o p x y) : SameRace k l o p x.endRace y.endRace := by
  have hw : SameRace k l o p { x with racingInfo := { x.racingInfo with won := true } }
      { y with racingInfo := { y.racingInfo with won := true } } := { h with won := rfl }
  exact hw.sendWon

theorem generateText (h : SameRace k l o p x y) (hx : x.currAppState ≠ .raceState) (n : Nat)
    (seed : UInt32) :
    Option.Rel (SameRace k l o p) (x.generateText random n seed)
      (y.generateText random n seed) := by
  simp only [App.generateText, h.dictionary]
  cases hg : Typing.generateText x.dictionary random n seed with
  | none => exact .none
  | some t =>
    exact .some { h with
      test := .ofGenerateText k l hg
      countdown := fun hr => absurd hr hx
      dictionary := rfl }

theorem bothReady_iff (h : SameRace k l o p x y) :
    y.racingInfo.BothReady ↔ x.racingInfo.BothReady := by
  rw [RacingInfo.BothReady, RacingInfo.BothReady, h.readyMe, h.readyYou, h.seedMe, h.seedYou]

theorem checkIfReady (h : SameRace k l o p x y) :
    Option.Rel (SameRace k l o p) (x.checkIfReady random) (y.checkIfReady random) := by
  unfold App.checkIfReady
  by_cases hb : x.racingInfo.BothReady
  · rw [if_pos hb, if_pos (h.bothReady_iff.mpr hb), h.seedMe, h.seedYou]
    simp only [App.generateText, h.dictionary, Option.map_map]
    have htime :
        SameTime k l (5 * frameRate + x.timerCounter) (5 * frameRate + y.timerCounter) := by
      have hc := h.clock
      unfold SameTime at *
      omega
    cases hg : Typing.generateText x.dictionary random 25
      (x.racingInfo.seedMe + x.racingInfo.seedYou).toUInt32 with
    | none => exact .none
    | some t =>
      exact .some { h with
        test := .ofGenerateText k l hg
        startTime := .inr htime
        countdown := fun _ _ => htime
        dictionary := rfl }
  · rw [if_neg hb, if_neg fun hc => hb (h.bothReady_iff.mp hc)]
    exact .some h

theorem handler_typing (h : SameRace k l o p x y) (hs : x.typingInfo.status = .typing)
    (isRace : Bool) :
    Option.Rel (SameRace k l o p) (x.typingInputHandler isRace) (y.typingInputHandler isRace) := by
  have hsy : y.typingInfo.status = .typing := h.test.status.trans hs
  have hx : ¬ ((!isRace) = true ∧ x.typingInfo.status = .ready) := by
    rw [hs]
    exact fun hc => nomatch hc.2
  have hy : ¬ ((!isRace) = true ∧ y.typingInfo.status = .ready) := by
    rw [hsy]
    exact fun hc => nomatch hc.2
  simp only [App.typingInputHandler, if_neg hx, if_neg hy]
  simp only [hs, hsy, if_true, h.keyboard, h.test.cursor, h.test.size]
  split
  · refine rel_map (fun t u ht => ?_) (h.test.map eraseChar_retime)
    exact { h with
      test := ht.1
      countdown := fun _ hr => nomatch (ht.2.trans hs).symm.trans hr
      keyboard := rfl }
  split
  · refine rel_map (fun t u ht => ?_) (h.test.map (typeChar_retime _))
    have htyping : t.status = .typing := ht.2.trans hs
    have hkey : SameRace k l o p { x with typingInfo := t }
        { y with typingInfo := u, keyboard := x.keyboard } :=
      { h with
        test := ht.1
        countdown := fun _ hr => nomatch htyping.symm.trans hr
        keyboard := rfl }
    simp only [ht.1.typedChars, ht.1.size, ht.1.wrong]
    split
    · have hend := hkey.endTyping htyping
      split
      · exact hend.endRace
      · exact hend
    · exact hkey
  · exact .some h

theorem typingInputHandler (h : SameRace k l o p x y) (isRace : Bool) :
    Option.Rel (SameRace k l o p) (x.typingInputHandler isRace) (y.typingInputHandler isRace) := by
  by_cases hs : x.typingInfo.status = .typing
  · exact h.handler_typing hs isRace
  · by_cases hr : isRace = true ∨ x.typingInfo.status ≠ .ready
    · rw [RunInvariant.handler_idle hs hr,
        RunInvariant.handler_idle (by rwa [h.test.status]) (by rwa [h.test.status])]
      exact .some h
    · obtain ⟨rfl, hready⟩ : isRace = false ∧ x.typingInfo.status = .ready := by simpa using hr
      rw [RunInvariant.handler_start hready,
        RunInvariant.handler_start (h.test.status.trans hready)]
      exact (h.startTyping hready).handler_typing rfl false

theorem handleWon (h : SameRace k l o p x y) (byte : UInt8) :
    SameRace k l o p (x.handleWon byte) (y.handleWon byte) := by
  simp only [App.handleWon, h.test.status]
  split
  · rename_i hs
    exact { h.endTyping hs.1 with
      won := rfl }
  · exact h

theorem handleExit (h : SameRace k l o p x y) (byte : UInt8) :
    SameRace k l o p (x.handleExit byte) (y.handleExit byte) := by
  unfold App.handleExit
  split
  · exact h.resetTypingInfo.resetRacingInfo nofun
  · exact h

theorem acknowledged (h : SameRace k l o p x y) :
    SameRace k l o p { x with port := { x.port with waitingAckSerialPort := false } }
      { y with port := { y.port with waitingAckSerialPort := false } } :=
  { h with
    waitingAck := rfl
    ackStart := fun hw => h.ackStart (hw.imp nofun id) }

theorem handleAck (h : SameRace k l o p x y) (byte : UInt8) :
    Option.Rel (SameRace k l o p) (x.handleAck random byte) (y.handleAck random byte) := by
  simp only [App.handleAck, h.waitingAck]
  by_cases hw : x.port.waitingAckSerialPort = true
  · rw [if_pos hw, if_pos hw]
    refine rel_map (R := SameRace k l o p) (fun _ _ h' => h'.acknowledged) ?_
    split
    · exact .some h
    split
    · exact checkIfReady { h with
        readyMe := rfl
        ackStart := fun _ => h.ackStart (.inl hw) }
    split
    · exact .some { h with
        readyMe := rfl
        seedMe := rfl
        ackStart := fun _ => h.ackStart (.inl hw) }
    · exact .some h.clearFIFO
  · rw [if_neg hw, if_neg hw]
    exact .some h

theorem handleControl (h : SameRace k l o p x y) (byte : UInt8) :
    Option.Rel (SameRace k l o p) (x.handleControl random byte)
      (y.handleControl random byte) := by
  simp only [App.handleControl, h.test.status]
  split
  · have hr : SameRace k l o p
        { x with racingInfo := { x.racingInfo with readyYou := true }, waitingForSeed := true }
        { y with racingInfo := { y.racingInfo with readyYou := true }, waitingForSeed := true } :=
      { h with readyYou := rfl, waitingForSeed := rfl }
    exact .some hr.sendReadyAck
  split
  · have hr : SameRace k l o p { x with racingInfo := { x.racingInfo with readyYou := false } }
        { y with racingInfo := { y.racingInfo with readyYou := false } } :=
      { h with readyYou := rfl }
    exact .some hr.sendNReadyAck
  · exact ((h.handleWon byte).handleExit byte).handleAck byte

theorem handleMessage (h : SameRace k l o p x y) (m : Message) :
    Option.Rel (SameRace k l o p) (x.handleMessage random m) (y.handleMessage random m) := by
  cases m with
  | ulong v =>
    simp only [App.handleMessage, h.waitingForSeed]
    refine rel_map (R := SameRace k l o p) (fun _ _ h' => h'.sendAck) ?_
    split
    · refine rel_map (R := SameRace k l o p) (fun _ _ h' => { h' with waitingForSeed := rfl }) ?_
      exact checkIfReady { h with seedYou := rfl, waitingForSeed := rfl }
    · exact .some h
  | control byte => exact h.handleControl byte
  | _ => exact .some h.sendAck

theorem serialInterrupt (h : SameRace k l o p x y) {input : UartInput} {b : UInt8}
    (hb : Delivers input b) :
    Option.Rel (SameRace k l o p) (x.serialInterrupt random input)
      (y.serialInterrupt random input) := by
  obtain ⟨hd, hm⟩ := sameDecoder_serialSwitch h.decoder hb
  simp only [App.serialInterrupt, h.screen, hm]
  split
  · exact .some h
  have hr : SameRace k l o p
      { x with port := { x.port with decoder := (serialSwitch input x.port.decoder).1 } }
      { y with
        currAppState := x.currAppState
        port := { y.port with decoder := (serialSwitch input y.port.decoder).1 } } :=
    { h with screen := rfl, decoder := hd }
  split
  · exact .some hr
  · exact hr.handleMessage _

theorem halfSecond (h : SameRace k l o p x y) :
    SameRace k l o p x.halfSecond y.halfSecond := by
  have hclock := h.clock
  have hset {t u : TypingInfo} (ht : SameTest k l t u) (hs : t.status = x.typingInfo.status) :
      SameRace k l o p { x with typingInfo := t } { y with typingInfo := u } :=
    { h with
      test := ht
      countdown := fun hx hr => h.countdown hx (hs.symm.trans hr) }
  have hx : (Typing.updateTypingInfo x.timerCounter x.typingInfo).status = x.typingInfo.status :=
    TypingSession.status_update _ _
  unfold App.halfSecond
  by_cases hkl : k % 30 = l % 30
  · have hmod : y.timerCounter % (frameRate >>> 1) = x.timerCounter % (frameRate >>> 1) := by
      unfold SameTime at hclock
      change y.timerCounter % 30 = x.timerCounter % 30
      omega
    rw [hmod]
    split
    · exact hset (h.test.update hclock) hx
    · exact h
  · have hleft := hset (h.test.update_left hkl x.timerCounter) hx
    split <;> split
    · exact hset (h.test.update hclock) hx
    · exact hleft
    · exact hset (h.test.update_right hkl y.timerCounter) rfl
    · exact h

theorem halfSecond_screen (a : App) : a.halfSecond.currAppState = a.currAppState := by
  rw [halfSecond_frame]

theorem raceCountdown (h : SameRace k l o p x y) (hx : x.currAppState = .raceState) :
    SameRace k l o p x.countdown y.countdown := by
  simp only [App.countdown, h.test.status]
  split
  · rename_i hs
    have ht := h.countdown hx hs
    have hc := h.clock
    unfold SameTime at ht hc
    have he : (y.racingInfo.startTime : Int) - y.timerCounter =
        x.racingInfo.startTime - x.timerCounter := by omega
    rw [he]
    split
    · exact h.startTyping hs
    · exact h
  · exact h

theorem tick (h : SameRace k l o p x y) : SameRace k l o p x.tick y.tick := by
  have hc : SameRace k l o p { x with timerCounter := x.timerCounter + 1 }
      { y with timerCounter := y.timerCounter + 1, currAppState := x.currAppState } :=
    { h with screen := rfl, clock := h.clock.succ }
  simp only [App.tick, h.screen]
  split
  · exact hc.halfSecond
  split
  · rename_i hx
    exact hc.halfSecond.raceCountdown ((halfSecond_screen _).trans hx)
  · exact hc

theorem timerInterrupt (h : SameRace k l o p x y) :
    SameRace k l o p x.timerInterrupt y.timerInterrupt := by
  have ht := h.tick
  have hlate : y.tick.AckLate ↔ x.tick.AckLate := by
    rw [App.AckLate, App.AckLate, ht.waitingAck]
    refine and_congr_right fun hw => ?_
    rw [ulongSub_sameTime ht.clock (ht.ackStart (.inl hw))]
  simp only [App.timerInterrupt, hlate]
  split
  · exact ht.clearFIFO
  · exact ht

theorem leave (h : SameRace k l o p x y) :
    SameRace k l o p (if x.currAppState = .raceState then x.call serialPortSendExit else x)
      (if y.currAppState = .raceState then y.call serialPortSendExit else y) := by
  rw [h.screen]
  split
  · exact h.sendExit
  · exact h

theorem changeState (h : SameRace k l o p x y) (newState : AppState) (now : UInt64) :
    Option.Rel (SameRace k l o p) (x.changeState random newState now)
      (y.changeState random newState now) := by
  have hl := h.leave
  unfold App.changeState
  simp only
  generalize (if x.currAppState = .raceState then x.call serialPortSendExit else x) = x' at hl ⊢
  generalize (if y.currAppState = .raceState then y.call serialPortSendExit else y) = y' at hl ⊢
  have hto {s : AppState} (hs : s ≠ .raceState) :
      SameRace k l o p { x' with currAppState := s } { y' with currAppState := s } :=
    { hl with screen := rfl, countdown := fun hr => absurd hr hs }
  cases newState with
  | trainingState => exact (hto (s := .trainingState) nofun).generateText nofun 25 now.toUInt32
  | raceState =>
    have hr := hl.resetTypingInfo.resetRacingInfo nofun
    have hrace : SameRace k l o p
        { x'.resetTypingInfo.resetRacingInfo with currAppState := .raceState }
        { y'.resetTypingInfo.resetRacingInfo with currAppState := .raceState } :=
      { hr with screen := rfl, countdown := fun _ hs => nomatch hs }
    exact .some hrace.clearFIFO
  | _ => exact .some (hto nofun)

theorem keyboardScancodeHandler (h : SameRace k l o p x y) (now : UInt64) :
    Option.Rel (SameRace k l o p) (x.keyboardScancodeHandler random now)
      (y.keyboardScancodeHandler random now) := by
  simp only [App.keyboardScancodeHandler, h.keyboard, h.screen]
  split
  · split
    · split
      · exact h.changeState _ now
      · exact h.changeState _ now
    · exact .some h
  split
  · exact .some h
  split
  · exact h.changeState _ now
  split
  · exact h.typingInputHandler _
  · exact .some h

theorem raceReadyButton (h : SameRace k l o p x y) (now : UInt64) :
    SameRace k l o p (x.raceReadyButton now) (y.raceReadyButton now) := by
  simp only [App.raceReadyButton, h.test.status, h.readyMe]
  split
  · split
    · exact h.sendNReady ‹_›
    · have hs : SameRace k l o p { x with racingInfo := { x.racingInfo with seedMe := now } }
          { y with
            racingInfo := { y.racingInfo with seedMe := now, readyMe := x.racingInfo.readyMe } } :=
        { h with readyMe := rfl, seedMe := rfl }
      exact hs.sendSeed now
  · exact h

theorem raceResetButton (h : SameRace k l o p x y) :
    SameRace k l o p x.raceResetButton y.raceResetButton := by
  simp only [App.raceResetButton, h.test.status]
  split
  · exact h.resetTypingInfo.resetRacingInfo nofun
  · exact h

theorem onClick (h : SameRace k l o p x y) {button : Button} (hb : button.screen = x.currAppState)
    (now : UInt64) :
    Option.Rel (SameRace k l o p) (x.onClick random button now) (y.onClick random button now) := by
  unfold App.onClick
  cases button with
  | trainingReset => exact h.generateText (by rw [← hb]; exact nofun) 25 now.toUInt32
  | raceReady => exact .some (h.raceReadyButton now)
  | raceReset => exact .some h.raceResetButton
  | _ => exact h.changeState _ now

end SameRace

/-- An event without a failure: a serial interrupt brings a byte, and the kernel
calls of the sending functions go on succeeding. -/
def Smooth : Event → Prop
  | .serial input => ∃ b, Delivers input b
  | .kernel _ => False
  | _ => True

theorem SameRace.step {k l : Nat} {o p : List PortWrite} {x y : App}
    {random : UInt32 → Nat → Nat} (h : SameRace k l o p x y) {e : Event} (he : Smooth e) :
    Option.Rel (SameRace k l o p) (Program.step random x e) (Program.step random y e) := by
  unfold Program.step
  by_cases hend : x.currAppState = .endState
  · rw [if_pos hend, if_pos (h.screen.trans hend)]
    exact .none
  rw [if_neg hend, if_neg fun hc => hend (h.screen.symm.trans hc)]
  cases e with
  | timer => exact .some h.timerInterrupt
  | keyboard byte now =>
    have hk : SameRace k l o p { x with keyboard := (keyboardIh byte x.keyboard).1 }
        { y with keyboard := (keyboardIh byte x.keyboard).1 } := { h with keyboard := rfl }
    simp only [h.keyboard]
    split
    · exact hk.keyboardScancodeHandler now
    · exact .some hk
  | serial input =>
    obtain ⟨b, hb⟩ := he
    exact h.serialInterrupt hb
  | mousePress now =>
    simp only [h.screen]
    split
    · exact h.changeState _ now
    · exact .some h
  | click button now =>
    simp only [h.screen]
    split
    · exact h.onClick ‹_› now
    · exact .none
  | kernel answers => exact he.elim

end WriteWise.RaceRelation
