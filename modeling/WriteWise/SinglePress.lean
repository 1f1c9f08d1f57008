import WriteWise.HandshakeRefinement

namespace WriteWise.SinglePress

open Library.Duplex Library.Runs Serial Typing Program RaceLink Handshake HandshakeRefinement

def others (l : Lane) : List Note := l.notes.filter fun note => note.seed.isNone

theorem others_add (l : Lane) (notes : List Note) :
    others (l.add notes) = others l ++ notes.filter fun note => note.seed.isNone := by
  rw [others, add_notes, List.filter_append, others]

/-- The answers to a bid with its seed that a player has still to read. It is ready
from the first on. News of a win may follow. -/
inductive Answered (p : Racer) : List Note → Prop
  | both (hr : p.readyMe = false) (hw : p.waiting = true) (wins : List Note)
    (hwins : ∀ note ∈ wins, note = .won) : Answered p (.readyAck :: .ack :: wins)
  | one (hr : p.readyMe = true) (wins : List Note) (hwins : ∀ note ∈ wins, note = .won) :
    Answered p (.ack :: wins)
  | none (hr : p.readyMe = true) (wins : List Note) (hwins : ∀ note ∈ wins, note = .won) :
    Answered p wins

/-- How far the bid of a player `p` is that has pressed at most once. -/
inductive Stage (p q : Racer) (out inn : Lane) : Nat → Prop
  | silent (hm : p.seedMe = 0) (hr : p.readyMe = false) (ho : out.pending = none)
    (hb : out.bids = []) (hq : q.readyYou = false) (hy : q.seedYou = 0) (ha : others inn = []) :
    Stage p q out inn 0
  | asking (hm : p.seedMe ≠ 0) (hr : p.readyMe = false) (hw : p.waiting = true)
    (ho : out.pending = none) (hb : out.bids = [p.seedMe]) (hq : q.readyYou = false)
    (hy : q.seedYou = 0) (ha : others inn = []) : Stage p q out inn 1
  | heard (hm : p.seedMe ≠ 0) (ho : out.pending = some p.seedMe) (hb : out.bids = [])
    (hq : q.readyYou = true) (hy : q.seedYou = 0)
    (ha : others inn = [.readyAck] ∧ p.readyMe = false ∧ p.waiting = true ∨
      others inn = [] ∧ p.readyMe = true) : Stage p q out inn 1
  | agreed (hm : p.seedMe ≠ 0) (ho : out.pending = none) (hb : out.bids = [])
    (hq : q.readyYou = true) (hy : q.seedYou = p.seedMe) (ha : Answered p (others inn)) :
    Stage p q out inn 1

structure Half (i : Nat) (p q : Racer) (out inn : Lane) : Prop where
  stage : Stage p q out inn i
  begun : p.status = .unready ↔ ¬ p.BothReady
  texts : p.texts = if p.BothReady then 1 else 0

structure Inv (i j : Nat) (g : Game) : Prop where
  near : Half i g.near g.far g.out g.inn
  far : Half j g.far g.near g.inn g.out

section Hearing

variable {p q p' q' : Racer} {out inn out' inn' : Lane} {rest : List Note} {v : UInt64} {i : Nat}

theorem Stage.quiet (h : Stage p q out inn i) (hr : p'.readyMe = p.readyMe)
    (hw : p'.waiting = p.waiting) (hm : p'.seedMe = p.seedMe) (hq : q'.readyYou = q.readyYou)
    (hy : q'.seedYou = q.seedYou) (ho : out'.pending = out.pending) (hb : out'.bids = out.bids)
    (ha : others inn' = others inn) : Stage p' q' out' inn' i := by
  cases h with
  | silent h1 h2 h3 h4 h5 h6 h7 =>
    exact .silent (hm.trans h1) (hr.trans h2) (ho.trans h3) (hb.trans h4) (hq.trans h5)
      (hy.trans h6) (ha.trans h7)
  | asking h1 h2 h3 h4 h5 h6 h7 h8 =>
    rw [← hm] at h1 h5
    exact .asking h1 (hr.trans h2) (hw.trans h3) (ho.trans h4) (hb.trans h5) (hq.trans h6)
      (hy.trans h7) (ha.trans h8)
  | heard h1 h2 h3 h4 h5 h6 =>
    rw [← hm] at h1 h2
    rw [← ha, ← hr, ← hw] at h6
    exact .heard h1 (ho.trans h2) (hb.trans h3) (hq.trans h4) (hy.trans h5) h6
  | agreed h1 h2 h3 h4 h5 h6 =>
    rw [← hm] at h1 h5
    refine .agreed h1 (ho.trans h2) (hb.trans h3) (hq.trans h4) (hy.trans h5) ?_
    rw [ha]
    generalize others inn = l at h6 ⊢
    cases h6 with
    | both h7 h8 wins hwins => exact .both (hr.trans h7) (hw.trans h8) wins hwins
    | one h7 wins hwins => exact .one (hr.trans h7) wins hwins
    | none h7 wins hwins => exact .none (hr.trans h7) _ hwins

theorem Stage.bid (h : Stage p q ⟨none, .bid v :: rest⟩ inn i) :
    q.seedYou = 0 ∧ Stage p { q with readyYou := true } ⟨some v, rest⟩ (inn.add [.readyAck]) i := by
  cases h with
  | silent h1 h2 h3 h4 => cases h4
  | asking h1 h2 h3 h4 h5 h6 h7 h8 =>
    rw [bids_mk_cons] at h5
    obtain ⟨rfl, hrest⟩ := List.cons.inj h5
    refine ⟨h7, .heard h1 rfl hrest rfl h7 (.inl ⟨?_, h2, h3⟩)⟩
    rw [others_add, h8]
    rfl
  | heard h1 h2 => cases h2
  | agreed h1 h2 h3 => cases h3

theorem Stage.seed (h : Stage p q ⟨some v, rest⟩ inn i) (q' : Racer) (hq : q'.readyYou = q.readyYou)
    (hy : q'.seedYou = v) :
    q.seedYou = 0 ∧ v ≠ 0 ∧ Stage p q' ⟨none, rest⟩ (inn.add [.ack]) i := by
  cases h with
  | silent h1 h2 h3 => cases h3
  | asking h1 h2 h3 h4 => cases h4
  | heard h1 h2 h3 h4 h5 h6 =>
    obtain rfl := Option.some.inj h2
    refine ⟨h5, h1, .agreed h1 rfl h3 (hq.trans h4) hy ?_⟩
    rw [others_add]
    obtain ⟨h6, hr, hw⟩ | ⟨h6, hr⟩ := h6
    · rw [h6]
      exact .both hr hw [] nofun
    · rw [h6]
      exact .one hr [] nofun
  | agreed h1 h2 => cases h2

theorem Stage.readyAck (h : Stage p q out ⟨none, .readyAck :: rest⟩ i) (p' : Racer)
    (hr : p'.readyMe = true) (hm : p'.seedMe = p.seedMe) :
    p.readyMe = false ∧ p.waiting = true ∧ Stage p' q out ⟨none, rest⟩ i := by
  have hcons : others ⟨none, .readyAck :: rest⟩ = .readyAck :: others ⟨none, rest⟩ := rfl
  cases h with
  | silent h1 h2 h3 h4 h5 h6 h7 => cases h7
  | asking h1 h2 h3 h4 h5 h6 h7 h8 => cases h8
  | heard h1 h2 h3 h4 h5 h6 =>
    rw [hcons] at h6
    obtain ⟨h6, hf, hw⟩ | ⟨h6, -⟩ := h6
    · rw [← hm] at h1 h2
      exact ⟨hf, hw, .heard h1 h2 h3 h4 h5 (.inr ⟨(List.cons.inj h6).2, hr⟩)⟩
    · cases h6
  | agreed h1 h2 h3 h4 h5 h6 =>
    rw [hcons] at h6
    rw [← hm] at h1 h5
    generalize hl : Note.readyAck :: others ⟨none, rest⟩ = l at h6
    cases h6 with
    | both hf hw wins hwins =>
      refine ⟨hf, hw, .agreed h1 h2 h3 h4 h5 ?_⟩
      rw [(List.cons.inj hl).2]
      exact .one hr wins hwins
    | one hf wins hwins => cases hl
    | none hf wins hwins =>
      subst hl
      cases hwins _ List.mem_cons_self

theorem Stage.ack {note : Note} (h : Stage p q out ⟨none, note :: rest⟩ i)
    (hn : note = .ack ∨ note = .won) (hr : p'.readyMe = p.readyMe) (hm : p'.seedMe = p.seedMe) :
    Stage p' q out ⟨none, rest⟩ i := by
  have hcons : others ⟨none, note :: rest⟩ = note :: others ⟨none, rest⟩ := by
    obtain rfl | rfl := hn <;> rfl
  cases h with
  | silent h1 h2 h3 h4 h5 h6 h7 => cases hcons.symm.trans h7
  | asking h1 h2 h3 h4 h5 h6 h7 h8 => cases hcons.symm.trans h8
  | heard h1 h2 h3 h4 h5 h6 =>
    rw [hcons] at h6
    obtain ⟨h6, -⟩ | ⟨h6, -⟩ := h6
    · obtain ⟨rfl, -⟩ := List.cons.inj h6
      exact absurd hn (by decide)
    · cases h6
  | agreed h1 h2 h3 h4 h5 h6 =>
    rw [hcons] at h6
    rw [← hm] at h1 h5
    refine .agreed h1 h2 h3 h4 h5 ?_
    generalize hl : note :: others ⟨none, rest⟩ = l at h6
    cases h6 with
    | both hf hw wins hwins =>
      obtain ⟨rfl, -⟩ := List.cons.inj hl
      exact absurd hn (by decide)
    | one hf wins hwins =>
      rw [(List.cons.inj hl).2]
      exact .none (hr.trans hf) wins hwins
    | none hf wins hwins =>
      subst hl
      exact .none (hr.trans hf) _ fun note hmem => hwins note (List.mem_cons_of_mem _ hmem)

/-- No bid is ever withdrawn. -/
theorem Stage.not_withdrawn {note : Note} (h : Stage p q out ⟨none, note :: rest⟩ i) :
    note ≠ .nready ∧ note ≠ .nreadyAck := by
  have hcons (hn : note.seed = none) :
      others ⟨none, note :: rest⟩ = note :: others ⟨none, rest⟩ := by
    rw [others, List.filter_cons_of_pos (by rw [hn]; rfl), others]
  have hnot : note ∈ others ⟨none, note :: rest⟩ → note ≠ .nready ∧ note ≠ .nreadyAck := by
    intro hmem
    cases h with
    | silent h1 h2 h3 h4 h5 h6 h7 =>
      rw [h7] at hmem
      cases hmem
    | asking h1 h2 h3 h4 h5 h6 h7 h8 =>
      rw [h8] at hmem
      cases hmem
    | heard h1 h2 h3 h4 h5 h6 =>
      obtain ⟨h6, -⟩ | ⟨h6, -⟩ := h6
      · rw [h6] at hmem
        obtain rfl := List.mem_singleton.mp hmem
        decide
      · rw [h6] at hmem
        cases hmem
    | agreed h1 h2 h3 h4 h5 h6 =>
      generalize others ⟨none, note :: rest⟩ = l at h6 hmem
      have hwon {wins : List Note} (hwins : ∀ note ∈ wins, note = .won) (hm : note ∈ wins) :
          note ≠ .nready ∧ note ≠ .nreadyAck := by
        obtain rfl := hwins note hm
        decide
      cases h6 with
      | both hf hw wins hwins =>
        obtain rfl | hmem := List.mem_cons.mp hmem
        · decide
        obtain rfl | hmem := List.mem_cons.mp hmem
        · decide
        exact hwon hwins hmem
      | one hf wins hwins =>
        obtain rfl | hmem := List.mem_cons.mp hmem
        · decide
        exact hwon hwins hmem
      | none hf wins hwins => exact hwon hwins hmem
  constructor
  · rintro rfl
    exact (hnot (by rw [hcons rfl]; exact List.mem_cons_self)).1 rfl
  · rintro rfl
    exact (hnot (by rw [hcons rfl]; exact List.mem_cons_self)).2 rfl

theorem begun_check {r : Racer} (hs : r.status = .unready) (ht : r.texts = 0) :
    (r.check.status = .unready ↔ ¬ r.BothReady) ∧
      r.check.texts = if r.BothReady then 1 else 0 := by
  obtain ⟨hb, hc⟩ | ⟨hb, hc⟩ := check_cases r
  · rw [hc, if_pos hb, ht]
    exact ⟨⟨nofun, fun hn => absurd hb hn⟩, rfl⟩
  · rw [hc, if_neg hb]
    exact ⟨⟨fun _ => hb, fun _ => hs⟩, ht⟩

theorem Half.idle (h : Half i p q out inn) (hb : ¬ p.BothReady) :
    p.status = .unready ∧ p.texts = 0 :=
  ⟨h.begun.mpr hb, by rw [h.texts, if_neg hb]⟩

theorem Half.quiet (h : Half i p q out inn) (hst : Stage p' q' out' inn' i)
    (hb : p'.BothReady ↔ p.BothReady) (hs : p'.status = .unready ↔ p.status = .unready)
    (ht : p'.texts = p.texts) : Half i p' q' out' inn' := by
  refine ⟨hst, hs.trans (h.begun.trans (not_congr hb.symm)), ?_⟩
  rw [ht, h.texts]
  simp only [hb]

theorem Inv.hears {i j : Nat} {g g' : Game} (h : Inv i j g) (hg : hear g = some g') :
    Inv i j g' := by
  obtain ⟨p, q, out, inn⟩ := g
  obtain ⟨p', q', out', inn'⟩ := g'
  obtain ⟨rfl, hh⟩ := hears_of_hear hg
  obtain ⟨h1, h2⟩ := h
  dsimp only at hh h1 h2
  cases hh with
  | seed v hp hs =>
    obtain ⟨pending, notes⟩ := inn
    obtain rfl : pending = some v := hp
    obtain ⟨hy, -, hst⟩ := h2.stage.seed (Racer.check { p with seedYou := v }) (by simp)
      (by simp)
    obtain ⟨hu, ht⟩ := h1.idle fun hb => hb.2.2.2 hy
    obtain ⟨hbegun, htexts⟩ := begun_check (r := { p with seedYou := v }) hu ht
    have hb : (Racer.check { p with seedYou := v }).BothReady ↔
        Racer.BothReady { p with seedYou := v } := by simp [Racer.BothReady]
    refine ⟨⟨?_, hbegun.trans (not_congr hb.symm), ?_⟩, h2.quiet hst .rfl .rfl rfl⟩
    · exact h1.stage.quiet (by simp) (by simp) (by simp) rfl rfl rfl (by simp [Note.seed]) rfl
    · rw [htexts]
      simp only [hb]
  | lateSeed v hp hs =>
    obtain ⟨pending, notes⟩ := inn
    obtain rfl : pending = some v := hp
    obtain ⟨hy, -, -⟩ := h2.stage.seed { p with seedYou := v } rfl rfl
    exact absurd (h1.idle fun hb => hb.2.2.2 hy).1 hs
  | bid v rest hi hs =>
    subst hi
    obtain ⟨hy, hst⟩ := h2.stage.bid
    have hnot : ¬ p.BothReady := fun hb => hb.2.2.2 hy
    have hnot' : ¬ Racer.BothReady { p with readyYou := true } := fun hb => hb.2.2.2 hy
    refine ⟨h1.quiet ?_ (iff_of_false hnot' hnot) .rfl rfl, h2.quiet hst .rfl .rfl rfl⟩
    exact h1.stage.quiet rfl rfl rfl rfl rfl rfl (by simp [Note.seed]) rfl
  | lateBid v rest hi hs =>
    subst hi
    exact absurd (h1.idle fun hb => hb.2.2.2 h2.stage.bid.1).1 hs
  | nready rest hi hs | lateNReady rest hi hs =>
    subst hi
    exact absurd rfl h1.stage.not_withdrawn.1
  | readyAck rest hi hw =>
    subst hi
    obtain ⟨hr, -, hst⟩ := h1.stage.readyAck
      { Racer.check { p with readyMe := true } with waiting := false } (by simp) (by simp)
    obtain ⟨hu, ht⟩ := h1.idle fun hb => absurd (hr.symm.trans hb.1) (by decide)
    obtain ⟨hbegun, htexts⟩ := begun_check (r := { p with readyMe := true }) hu ht
    have hb : Racer.BothReady { Racer.check { p with readyMe := true } with waiting := false } ↔
        Racer.BothReady { p with readyMe := true } := by simp [Racer.BothReady]
    refine ⟨⟨hst, hbegun.trans (not_congr hb.symm), ?_⟩, h2.quiet ?_ .rfl .rfl rfl⟩
    · rw [htexts]
      simp only [hb]
    · exact h2.stage.quiet rfl rfl rfl (by simp) (by simp) rfl rfl rfl
  | lateReadyAck rest hi hw =>
    subst hi
    obtain ⟨-, hw', -⟩ := h1.stage.readyAck { p with readyMe := true } rfl rfl
    exact absurd (hw.symm.trans hw') (by decide)
  | nreadyAck rest hi hw | lateNReadyAck rest hi hw =>
    subst hi
    exact absurd rfl h1.stage.not_withdrawn.2
  | ack rest hi =>
    subst hi
    exact ⟨h1.quiet (h1.stage.ack (.inl rfl) rfl rfl) .rfl .rfl rfl,
      h2.quiet (h2.stage.quiet rfl rfl rfl rfl rfl rfl rfl rfl) .rfl .rfl rfl⟩
  | won rest hi status hst =>
    subst hi
    have hs : status = .unready ↔ p.status = .unready := by
      obtain rfl | ⟨hp, rfl⟩ := hst
      · rfl
      · simp [hp]
    exact ⟨h1.quiet (h1.stage.ack (.inr rfl) rfl rfl) .rfl hs rfl,
      h2.quiet (h2.stage.quiet rfl rfl rfl rfl rfl rfl rfl rfl) .rfl .rfl rfl⟩

end Hearing

section Steps

variable {i j : Nat} {g g' : Game}

theorem Inv.swap (h : Inv i j g) : Inv j i g.swap := ⟨h.far, h.near⟩

theorem Stage.win {p q : Racer} {out inn : Lane} (h : Stage q p inn out i) (hp : p.BothReady) :
    Stage q p inn (out.add [.won]) i := by
  cases h with
  | silent h1 h2 h3 h4 h5 h6 => exact absurd h6 hp.2.2.2
  | asking h1 h2 h3 h4 h5 h6 h7 => exact absurd h7 hp.2.2.2
  | heard h1 h2 h3 h4 h5 => exact absurd h5 hp.2.2.2
  | agreed h1 h2 h3 h4 h5 h6 =>
    refine .agreed h1 h2 h3 h4 h5 ?_
    rw [others_add]
    generalize others out = l at h6 ⊢
    have hwon {wins : List Note} (hwins : ∀ note ∈ wins, note = .won) :
        ∀ note ∈ wins ++ [.won], note = .won := by
      simpa [or_imp, forall_and] using hwins
    cases h6 with
    | both hr hw wins hwins => exact .both hr hw _ (hwon hwins)
    | one hr wins hwins => exact .one hr _ (hwon hwins)
    | none hr wins hwins => exact .none hr _ (hwon hwins)

theorem Inv.move (h : Inv i j g) (hm : Move g g') : Inv i j g' := by
  obtain ⟨p, q, out, inn⟩ := g
  obtain ⟨h1, h2⟩ := h
  cases hm with
  | idle => exact ⟨h1, h2⟩
  | hear _ hg => exact Inv.hears ⟨h1, h2⟩ hg
  | start hs =>
    have hs' : p.status = .ready := hs
    exact ⟨h1.quiet (h1.stage.quiet rfl rfl rfl rfl rfl rfl rfl rfl) .rfl (by simp [hs']) rfl,
      h2.quiet (h2.stage.quiet rfl rfl rfl rfl rfl rfl rfl rfl) .rfl .rfl rfl⟩
  | win hs =>
    have hs' : p.status = .typing := hs
    have hb : p.BothReady := by
      by_contra hb
      exact absurd ((h1.begun.mpr hb).symm.trans hs') nofun
    refine ⟨h1.quiet ?_ .rfl (by simp [hs']) rfl, h2.quiet ?_ .rfl .rfl rfl⟩
    · exact h1.stage.quiet rfl rfl rfl rfl rfl rfl (by simp [Note.seed]) rfl
    · exact (h2.stage.win hb).quiet rfl rfl rfl rfl rfl rfl rfl rfl

theorem Inv.press (h : Inv 0 j g) {seed : UInt64} (hseed : seed ≠ 0) : Inv 1 j (press seed g) := by
  obtain ⟨p, q, out, inn⟩ := g
  obtain ⟨h1, h2⟩ := h
  cases h1.stage with
  | silent hm hr ho hb hq hy ha =>
    have hnot (r : Racer) (hr' : r.readyMe = p.readyMe) : ¬ r.BothReady :=
      fun hb => absurd ((hr'.trans hr).symm.trans hb.1) nofun
    unfold Handshake.press Racer.press
    dsimp only
    rw [if_neg (by rw [hr]; nofun)]
    refine ⟨⟨.asking hseed hr rfl ho ?_ hq hy ha, ?_, ?_⟩, h2.quiet ?_ .rfl .rfl rfl⟩
    · rw [bids_add, hb]
      rfl
    · exact iff_of_true (h1.idle (hnot p rfl)).1 (hnot _ rfl)
    · exact (h1.idle (hnot p rfl)).2.trans
        (if_neg (hnot { p with seedMe := seed, waiting := true } rfl)).symm
    · refine h2.stage.quiet rfl rfl rfl rfl rfl rfl rfl ?_
      rw [others_add]
      exact List.append_nil _

theorem inv_start : Inv 0 0 ⟨{}, {}, {}, {}⟩ := by
  have hhalf : Half 0 {} {} {} {} := by
    have hnot : ¬ Racer.BothReady {} := fun hb => absurd hb.1 nofun
    exact ⟨.silent rfl rfl rfl rfl rfl rfl rfl, iff_of_true rfl hnot, by rw [if_neg hnot]⟩
  exact ⟨hhalf, hhalf⟩

theorem Stage.settled {p q : Racer} (h : Stage p q {} {} 1) :
    p.readyMe = true ∧ q.readyYou = true ∧ p.seedMe ≠ 0 ∧ q.seedYou = p.seedMe := by
  cases h with
  | asking h1 h2 h3 h4 h5 => cases h5
  | heard h1 h2 => cases h2
  | agreed h1 h2 h3 h4 h5 h6 =>
    generalize hl : others {} = l at h6
    cases h6 with
    | both hr hw wins hwins => cases hl
    | one hr wins hwins => cases hl
    | none hr wins hwins => exact ⟨hr, h4, h1, h5⟩

end Steps

section Main

def pressed : Act → Option UInt64
  | .ready now => some now
  | _ => none

def presses (side : Side) (es : List (Side × Act)) : List UInt64 :=
  es.filterMap fun e => if e.1 = side then pressed e.2 else none

/-- Both races have begun, once each, and each player has the seed of the other. -/
structure Completed (n : Race) : Prop where
  once : n.near.generated.length = 1 ∧ n.far.generated.length = 1
  begun : n.near.typingInfo.status ≠ .unready ∧ n.far.typingInfo.status ≠ .unready
  near : n.near.racingInfo.readyMe = true ∧ n.near.racingInfo.readyYou = true
  far : n.far.racingInfo.readyMe = true ∧ n.far.racingInfo.readyYou = true
  seeds : n.near.racingInfo.seedYou = n.far.racingInfo.seedMe ∧
    n.far.racingInfo.seedYou = n.near.racingInfo.seedMe

variable {random : UInt32 → Nat → Nat} {n n' : Race} {g : Game}

/-- A step of the near program, which has pressed at most once when it is done. -/
theorem act_inv {i j : Nat} (h : Refines random n g) (hi : Inv i j g) {a : Act}
    (hn : act random n a = some n') (ha : i + (pressed a).toList.length ≤ 1)
    (hz : ∀ seed ∈ pressed a, seed ≠ 0) :
    ∃ g', Refines random n' g' ∧ Inv (i + (pressed a).toList.length) j g' := by
  cases a with
  | ready now =>
    obtain rfl : i = 0 := by simpa [pressed] using ha
    have hs : g.near.status = .unready := by
      refine (hi.near.idle fun hb => ?_).1
      cases hi.near.stage with
      | silent hm hr => exact absurd (hr.symm.trans hb.1) nofun
    exact ⟨_, h.press hs hn, hi.press (hz now rfl)⟩
  | timer | key | receive =>
    obtain ⟨now, hc, -⟩ | ⟨g', hm, hg⟩ := h.act hn
    · cases hc
    · exact ⟨g', hg, hi.move hm⟩

theorem presses_concat (side : Side) (es : List (Side × Act)) (e : Side × Act) :
    presses side (es ++ [e]) =
      presses side es ++ if e.1 = side then (pressed e.2).toList else [] := by
  rw [presses, List.filterMap_append]
  congr 1
  split
  · rename_i h
    cases hp : pressed e.2 <;> simp [h, hp]
  · rename_i h
    simp [h]

theorem run_inv (hn : Start n) {es : List (Side × Act)} (hl : (presses .left es).length ≤ 1)
    (hr : (presses .right es).length ≤ 1) (hz : 0 ∉ presses .left es ∧ 0 ∉ presses .right es)
    (hrun : run (step (act random)) n es = some n') :
    ∃ g, Refines random n' g ∧
      Inv (presses .left es).length (presses .right es).length g := by
  revert hl hr hz
  apply history (I := fun es n' => (presses .left es).length ≤ 1 → (presses .right es).length ≤ 1 →
    0 ∉ presses .left es ∧ 0 ∉ presses .right es → ∃ g, Refines random n' g ∧
      Inv (presses .left es).length (presses .right es).length g) _ _ hrun
  · rintro es t ⟨side, a⟩ u ih hstep hl hr hz
    obtain ⟨d, hd, rfl⟩ := Option.map_eq_some_iff.mp hstep
    simp only [presses_concat] at hl hr hz ⊢
    cases side with
    | left =>
      simp only [if_true, reduceCtorEq, if_false, List.append_nil, List.length_append] at hl hr hz ⊢
      obtain ⟨g, hg, hi⟩ := ih (by omega) hr ⟨fun h0 => hz.1 (List.mem_append_left _ h0), hz.2⟩
      refine act_inv hg hi hd hl ?_
      rintro seed hs rfl
      exact hz.1 (List.mem_append_right _ (Option.mem_toList.mpr hs))
    | right =>
      simp only [if_true, reduceCtorEq, if_false, List.append_nil, List.length_append] at hl hr hz ⊢
      obtain ⟨g, hg, hi⟩ := ih hl (by omega) ⟨hz.1, fun h0 => hz.2 (List.mem_append_left _ h0)⟩
      obtain ⟨g', hg', hi'⟩ := act_inv hg.swap hi.swap hd hr fun seed hs h0 =>
        hz.2 (List.mem_append_right _ (Option.mem_toList.mpr (h0 ▸ hs)))
      exact ⟨g'.swap, hg'.swap, hi'.swap⟩
  · exact fun _ _ _ => ⟨_, refines_start hn, inv_start⟩

/-- When each player presses once, each race begins once, with both seeds. -/
theorem single_press_completes (hn : Start n) {es : List (Side × Act)}
    (hl : (presses .left es).length ≤ 1) (hr : (presses .right es).length ≤ 1)
    (hz : 0 ∉ presses .left es ∧ 0 ∉ presses .right es)
    (hrun : run (step (act random)) n es = some n') :
    (n'.near.generated.length ≤ 1 ∧ n'.far.generated.length ≤ 1) ∧
      ((presses .left es).length = 1 → (presses .right es).length = 1 → n'.out = [] → n'.inn = [] →
        Completed n') := by
  obtain ⟨g, hg, hi⟩ := run_inv hn hl hr hz hrun
  refine ⟨?_, fun hl1 hr1 hout hinn => ?_⟩
  · rw [hg.near.texts, hg.far.texts, hi.near.texts, hi.far.texts]
    constructor <;> split <;> omega
  · have ho := hg.out
    have hi' := hg.inn
    rw [hout] at ho
    rw [hinn] at hi'
    obtain ⟨h1, h2⟩ := hi
    rw [hl1, lane_of_nil ho, lane_of_nil hi'] at h1
    rw [hr1, lane_of_nil ho, lane_of_nil hi'] at h2
    obtain ⟨hp1, hq1, hp2, hq2⟩ := h1.stage.settled
    obtain ⟨hq3, hp3, hq4, hp4⟩ := h2.stage.settled
    have hp : g.near.BothReady := ⟨hp1, hp3, hp2, hp4 ▸ hq4⟩
    have hq : g.far.BothReady := ⟨hq3, hq1, hq4, hq2 ▸ hp2⟩
    refine ⟨⟨?_, ?_⟩, ⟨?_, ?_⟩, ⟨?_, ?_⟩, ⟨?_, ?_⟩, ?_, ?_⟩
    · rw [hg.near.texts, h1.texts, if_pos hp]
    · rw [hg.far.texts, h2.texts, if_pos hq]
    · rw [hg.near.status]
      exact fun hc => h1.begun.mp hc hp
    · rw [hg.far.status]
      exact fun hc => h2.begun.mp hc hq
    · rw [hg.near.readyMe, hp1]
    · rw [hg.near.readyYou, hp3]
    · rw [hg.far.readyMe, hq3]
    · rw [hg.far.readyYou, hq1]
    · rw [hg.near.seedYou, hg.far.seedMe, hp4]
    · rw [hg.far.seedYou, hg.near.seedMe, hq2]

theorem single_press_completes_plain : Completed (outcome noRandom oneWord plainRun) :=
  (@single_press_completes noRandom (duel oneWord) (outcome noRandom oneWord plainRun)
    (start_duel _) plainRun (by decide +kernel) (by decide +kernel) (by decide +kernel)
    (by decide +kernel)).2
    (by decide +kernel) (by decide +kernel) (by decide +kernel) (by decide +kernel)

end Main

end WriteWise.SinglePress
