import WriteWise.HandshakeRefinement

namespace WriteWise.TextAgreement

open Library.Duplex Library.Runs Serial Typing Program RaceLink Handshake HandshakeRefinement

/-- The seed that the reader of a lane will hold when it has read all its bids. -/
def lastBid (l : Lane) (reader : Racer) : UInt64 :=
  l.bids.getLast?.getD (l.pending.getD reader.seedYou)

/-- No bid comes after an acknowledged one. -/
def BidsFirst : List Note → Prop
  | [] => True
  | .readyAck :: notes => notes.filterMap Note.seed = []
  | _ :: notes => BidsFirst notes

/-- The invariant of one player `p` against the other. -/
structure Half (p q : Racer) (out inn : Lane) : Prop where
  started : p.text = none ↔ p.status = .unready
  bid : q.status = .unready → p.seedMe ≠ 0 → lastBid out q = p.seedMe
  late : out.bids ≠ [] → (p.readyMe = true ∨ p.status ≠ .unready ∨ .readyAck ∈ inn.notes ∨
    2 ≤ out.bids.length) → q.status = .unready ∧ q.readyMe = false ∧ BidsFirst out.notes
  kept : ∀ a b, p.text = some (a, b) → p.seedYou = b ∧ (p.seedMe = 0 ∨ p.seedMe = a)
  mine : ∀ x y, q.text = some (x, y) → p.status = .unready →
    (p.readyMe = true ∨ .readyAck ∈ inn.notes) → p.seedMe = 0 ∨ p.seedMe = y
  yours : ∀ x y, q.text = some (x, y) → p.status = .unready → lastBid inn p = x

def Agree (p q : Racer) : Prop :=
  ∀ a b x y, p.text = some (a, b) → q.text = some (x, y) → a = y ∧ b = x

structure Inv (g : Game) : Prop where
  near : Half g.near g.far g.out g.inn
  far : Half g.far g.near g.inn g.out
  agree : Agree g.near g.far

theorem bidsFirst_of_no_bids {notes : List Note} (h : notes.filterMap Note.seed = []) :
    BidsFirst notes := by
  induction notes with
  | nil => trivial
  | cons n notes ih =>
    cases n with
    | bid v => cases h
    | readyAck => exact h
    | nready => exact ih h
    | nreadyAck => exact ih h
    | ack => exact ih h
    | won => exact ih h

theorem bidsFirst_tail {n : Note} {notes : List Note} (h : BidsFirst (n :: notes)) :
    BidsFirst notes := by
  cases n with
  | readyAck => exact bidsFirst_of_no_bids h
  | _ => exact h

theorem bidsFirst_append {notes : List Note} (h : BidsFirst notes) {more : List Note}
    (hm : more.filterMap Note.seed = []) : BidsFirst (notes ++ more) := by
  induction notes with
  | nil => exact bidsFirst_of_no_bids hm
  | cons n notes ih =>
    cases n with
    | readyAck =>
      change (notes ++ more).filterMap Note.seed = []
      rw [List.filterMap_append, hm, List.append_nil]
      exact h
    | _ => exact ih h

theorem bidsFirst_append_of_notMem {notes : List Note} (h : .readyAck ∉ notes) (more : List Note)
    (hm : BidsFirst more) : BidsFirst (notes ++ more) := by
  induction notes with
  | nil => exact hm
  | cons n notes ih =>
    have ht := ih fun hn => h (List.mem_cons_of_mem _ hn)
    cases n with
    | readyAck => exact absurd List.mem_cons_self h
    | _ => exact ht

theorem notMem_readyAck_of_append {l : Lane} {notes : List Note} (hn : .readyAck ∉ notes)
    (h : Note.readyAck ∈ (l.add notes).notes) : Note.readyAck ∈ l.notes :=
  (List.mem_append.mp h).resolve_right hn

theorem bids_add_of_no_bids (l : Lane) {notes : List Note}
    (hn : notes.filterMap Note.seed = []) : (l.add notes).bids = l.bids := by
  rw [bids_add, hn, List.append_nil]

theorem lastBid_add (l : Lane) {notes : List Note} (hn : notes.filterMap Note.seed = [])
    (r : Racer) : lastBid (l.add notes) r = lastBid l r := by
  rw [lastBid, bids_add_of_no_bids l hn]
  rfl

theorem lastBid_add_bid (l : Lane) (seed : UInt64) (r : Racer) :
    lastBid (l.add [.bid seed]) r = seed := by
  have hb : (l.add [.bid seed]).bids = l.bids ++ [seed] := bids_add _ _
  rw [lastBid, hb, List.getLast?_concat]
  rfl

theorem lastBid_bid (v : UInt64) (rest : List Note) (r : Racer) :
    lastBid ⟨none, .bid v :: rest⟩ r = lastBid ⟨some v, rest⟩ r := by
  have hb : Lane.bids ⟨none, .bid v :: rest⟩ = v :: Lane.bids ⟨some v, rest⟩ := rfl
  rw [lastBid, hb, List.getLast?_cons]
  rfl

structure Alike (p p' : Racer) : Prop where
  status : p'.status = .unready ↔ p.status = .unready := by rfl
  readyMe : p'.readyMe = p.readyMe := by rfl
  seedMe : p'.seedMe = p.seedMe := by rfl
  seedYou : p'.seedYou = p.seedYou := by rfl
  text : p'.text = p.text := by rfl

structure SameBids (l l' : Lane) : Prop where
  pending : l'.pending = l.pending
  bids : l'.bids = l.bids
  readyAck : .readyAck ∈ l'.notes → .readyAck ∈ l.notes
  first : BidsFirst l.notes → BidsFirst l'.notes

theorem SameBids.refl (l : Lane) : SameBids l l := ⟨rfl, rfl, id, id⟩

theorem SameBids.tail {n : Note} {rest : List Note} (hn : n.seed = none) :
    SameBids ⟨none, n :: rest⟩ ⟨none, rest⟩ := by
  refine ⟨rfl, ?_, List.mem_cons_of_mem n, bidsFirst_tail⟩
  rw [bids_mk_cons, hn]
  rfl

theorem SameBids.add (l : Lane) {notes : List Note} (hb : notes.filterMap Note.seed = [])
    (ha : .readyAck ∉ notes) : SameBids l (l.add notes) :=
  ⟨rfl, bids_add_of_no_bids l hb, notMem_readyAck_of_append ha, fun hf => bidsFirst_append hf hb⟩

theorem SameBids.lastBid {l l' : Lane} (h : SameBids l l') {r r' : Racer} (hr : Alike r r') :
    TextAgreement.lastBid l' r' = TextAgreement.lastBid l r := by
  rw [TextAgreement.lastBid, h.bids, h.pending, hr.seedYou]
  rfl

section Hearing

variable {p q p' q' : Racer} {out inn out' inn' : Lane} {rest : List Note} {v : UInt64}

theorem Half.quiet (h : Half p q out inn) (hp : Alike p p') (hq : Alike q q')
    (ho : SameBids out out') (hi : SameBids inn inn') : Half p' q' out' inn' where
  started := by
    rw [hp.text, hp.status]
    exact h.started
  bid := by
    rw [hq.status, hp.seedMe, ho.lastBid hq]
    exact h.bid
  late := by
    have hnot : p'.status ≠ .unready ↔ p.status ≠ .unready := hp.status.not
    rw [ho.bids, hp.readyMe, hnot, hq.status, hq.readyMe]
    intro hne hl
    obtain ⟨h1, h2, h3⟩ := h.late hne (hl.imp_right (Or.imp_right (Or.imp_left hi.readyAck)))
    exact ⟨h1, h2, ho.first h3⟩
  kept := by
    rw [hp.text, hp.seedYou, hp.seedMe]
    exact h.kept
  mine := by
    rw [hq.text, hp.status, hp.readyMe, hp.seedMe]
    exact fun x y ht hs hm => h.mine x y ht hs (hm.imp_right hi.readyAck)
  yours := by
    rw [hq.text, hp.status, hi.lastBid hp]
    exact h.yours

/-- What concerns neither bids nor acknowledged ones leaves the invariant. -/
theorem Inv.quiet (h : Inv ⟨p, q, out, inn⟩) (hp : Alike p p') (ho : SameBids out out')
    (hi : SameBids inn inn') : Inv ⟨p', q, out', inn'⟩ := by
  refine ⟨h.near.quiet hp {} ho hi, h.far.quiet {} hp hi ho, ?_⟩
  rw [Agree, hp.text]
  exact h.agree

theorem Inv.drop {n : Note} (h : Inv ⟨p, q, out, ⟨none, n :: rest⟩⟩) (hn : n.seed = none)
    (hp : Alike p p') : Inv ⟨p', q, out, ⟨none, rest⟩⟩ :=
  h.quiet hp (.refl out) (.tail hn)

theorem Inv.say {notes : List Note} (h : Inv ⟨p, q, out, inn⟩) (hp : Alike p p')
    (hb : notes.filterMap Note.seed = []) (ha : .readyAck ∉ notes) :
    Inv ⟨p', q, out.add notes, inn⟩ :=
  h.quiet hp (.add out hb ha) (.refl inn)

/-- A player that is ready on both sides fixes the same seeds as its opponent. -/
theorem Inv.check (h : Inv ⟨p, q, out, ⟨none, rest⟩⟩) : Inv ⟨p.check, q, out, ⟨none, rest⟩⟩ := by
  obtain ⟨⟨hme, hyou, hm0, hy0⟩, hc⟩ | ⟨hb, hc⟩ := check_cases p
  swap
  · rwa [hc]
  rw [hc]
  by_cases hs : p.status = .unready
  swap
  · -- a text that is generated once more is the same
    obtain ⟨⟨a, b⟩, hab⟩ := Option.ne_none_iff_exists'.mp fun hn => hs (h.near.started.mp hn)
    obtain ⟨hy, hm⟩ := h.near.kept a b hab
    have ht : some (p.seedMe, p.seedYou) = p.text := by
      rw [hab, hm.resolve_left hm0, hy]
    exact h.quiet { status := iff_of_false nofun hs, text := ht } (.refl out) (.refl _)
  obtain ⟨h1, h2, h3⟩ := h
  have hnobids (hq : q.readyMe = true ∨ q.status ≠ .unready ∨ .readyAck ∈ out.notes ∨
      2 ≤ (Lane.bids ⟨none, rest⟩).length) : Lane.bids ⟨none, rest⟩ = [] := by
    by_contra hne
    exact absurd (hme.symm.trans (h2.late hne hq).2.1) nofun
  have hyours (hq : q.readyMe = true ∨ q.status ≠ .unready ∨ .readyAck ∈ out.notes) :
      lastBid ⟨none, rest⟩ p = p.seedYou := by
    rw [lastBid, hnobids (hq.imp_right (Or.imp_right .inl))]
    rfl
  refine ⟨⟨iff_of_false nofun nofun, h1.bid, fun hne _ => h1.late hne (.inl hme), ?_, nofun, nofun⟩,
    ⟨h2.started, nofun, fun hne hl => absurd (hnobids hl) hne, h2.kept, ?_, ?_⟩, ?_⟩
  · rintro a b ⟨⟩
    exact ⟨rfl, .inr rfl⟩
  · rintro x y ⟨⟩ hq hm
    by_cases hq0 : q.seedMe = 0
    · exact .inl hq0
    · exact .inr ((h2.bid hs hq0).symm.trans (hyours (hm.imp_right .inr)))
  · rintro x y ⟨⟩ hq
    exact h1.bid hq hm0
  · rintro a b x y ⟨⟩ hq
    have hst : q.status ≠ .unready := fun hu => nomatch hq.symm.trans (h2.started.mpr hu)
    exact ⟨(h1.mine x y hq hs (.inl hme)).resolve_left hm0,
      (hyours (.inr (.inl hst))).symm.trans (h1.yours x y hq hs)⟩

theorem Inv.text_none (h : Inv ⟨p, q, out, inn⟩) (hs : p.status = .unready) (a b : UInt64) :
    p.text ≠ some (a, b) := fun ht => nomatch ht.symm.trans (h.near.started.mpr hs)

theorem Inv.seed (h : Inv ⟨p, q, out, ⟨some v, rest⟩⟩) (hs : p.status = .unready) :
    Inv ⟨Racer.check { p with seedYou := v }, q, out.add [.ack], ⟨none, rest⟩⟩ := by
  have hread : Inv ⟨{ p with seedYou := v }, q, out, ⟨none, rest⟩⟩ := by
    have hkept := h.text_none hs
    obtain ⟨h1, h2, h3⟩ := h
    exact ⟨⟨h1.started, h1.bid, h1.late, fun a b ht => absurd ht (hkept a b), h1.mine, h1.yours⟩,
      ⟨h2.started, h2.bid, h2.late, h2.kept, h2.mine, h2.yours⟩, h3⟩
  exact hread.check.say {} rfl (by decide)

theorem Inv.lateSeed (h : Inv ⟨p, q, out, ⟨some v, rest⟩⟩) (hs : p.status ≠ .unready) :
    Inv ⟨p, q, out.add [.ack], ⟨none, rest⟩⟩ := by
  have hread : Inv ⟨p, q, out, ⟨none, rest⟩⟩ := by
    obtain ⟨h1, h2, h3⟩ := h
    exact ⟨⟨h1.started, h1.bid, h1.late, h1.kept, h1.mine, fun _ _ _ hu => absurd hu hs⟩,
      ⟨h2.started, fun hu => absurd hu hs, h2.late, h2.kept, h2.mine, h2.yours⟩, h3⟩
  exact hread.say {} rfl (by decide)

theorem Inv.bid (h : Inv ⟨p, q, out, ⟨none, .bid v :: rest⟩⟩) (hs : p.status = .unready) :
    Inv ⟨{ p with readyYou := true }, q, out.add [.readyAck], ⟨some v, rest⟩⟩ := by
  have hnone := h.text_none hs
  obtain ⟨h1, h2, h3⟩ := h
  refine ⟨⟨h1.started, ?_, ?_, h1.kept, ?_, ?_⟩, ⟨h2.started, ?_, ?_, h2.kept, ?_, ?_⟩, h3⟩
  · rw [lastBid_add out rfl]
    exact h1.bid
  · rw [bids_add_of_no_bids out rfl]
    intro hne hl
    have hl' := hl.imp_right (Or.imp_right (Or.imp_left (List.mem_cons_of_mem (.bid v))))
    obtain ⟨hu, hr, hf⟩ := h1.late hne hl'
    exact ⟨hu, hr, bidsFirst_append hf rfl⟩
  · exact fun x y hq hu hm => h1.mine x y hq hu (hm.imp_right (List.mem_cons_of_mem _))
  · exact fun x y hq hu => (lastBid_bid v rest p).symm.trans (h1.yours x y hq hu)
  · exact fun hu hq => (lastBid_bid v rest p).symm.trans (h2.bid hu hq)
  · -- two bids were on their way, so that the first of them was not answered
    intro hne hl
    have htwo : 2 ≤ (Lane.bids ⟨none, .bid v :: rest⟩).length := by
      have hpos : 0 < (Lane.bids ⟨some v, rest⟩).length := List.length_pos_iff.mpr hne
      exact Nat.succ_le_succ hpos
    exact h2.late (List.cons_ne_nil _ _) (.inr (.inr (.inr htwo)))
  · exact fun x y ht => absurd ht (hnone x y)
  · exact fun x y ht => absurd ht (hnone x y)

theorem Inv.lateBid (h : Inv ⟨p, q, out, ⟨none, .bid v :: rest⟩⟩) (hs : p.status ≠ .unready) :
    Inv ⟨{ p with waiting := false }, q, out, ⟨some v, rest⟩⟩ := by
  obtain ⟨h1, h2, h3⟩ := h
  have hmem {n : Note} : n ∈ rest → n ∈ .bid v :: rest := List.mem_cons_of_mem _
  refine ⟨⟨h1.started, h1.bid, ?_, h1.kept, ?_, fun _ _ _ hu => absurd hu hs⟩,
    ⟨h2.started, fun hu => absurd hu hs, ?_, h2.kept, h2.mine, h2.yours⟩, h3⟩
  · exact fun hne hl => h1.late hne (hl.imp_right (Or.imp_right (Or.imp_left hmem)))
  · exact fun x y hq hu hm => h1.mine x y hq hu (hm.imp_right hmem)
  · intro hne hl
    have hl' := hl.imp_right (Or.imp_right (Or.imp_right fun hlen =>
      hlen.trans (Nat.le_succ (Lane.bids ⟨some v, rest⟩).length)))
    exact absurd (h2.late (List.cons_ne_nil _ _) hl').1 hs

theorem Inv.readyAck (h : Inv ⟨p, q, out, ⟨none, .readyAck :: rest⟩⟩) :
    Inv ⟨{ Racer.check { p with readyMe := true } with waiting := false }, q, out,
      ⟨none, rest⟩⟩ := by
  have hready : Inv ⟨{ p with readyMe := true }, q, out, ⟨none, rest⟩⟩ := by
    obtain ⟨h1, h2, h3⟩ := h
    have hmem : Note.readyAck ∈ Note.readyAck :: rest := List.mem_cons_self
    exact ⟨⟨h1.started, h1.bid, fun hne _ => h1.late hne (.inr (.inr (.inl hmem))), h1.kept,
        fun x y hq hu _ => h1.mine x y hq hu (.inr hmem), h1.yours⟩,
      ⟨h2.started, h2.bid, fun hne hl => absurd (h2.late hne hl).2.2 hne, h2.kept, h2.mine,
        h2.yours⟩, h3⟩
  exact hready.check.quiet {} (.refl out) (.refl _)

theorem Inv.nreadyAck (h : Inv ⟨p, q, out, ⟨none, .nreadyAck :: rest⟩⟩) :
    Inv ⟨{ p with readyMe := false, seedMe := 0, waiting := false }, q, out, ⟨none, rest⟩⟩ := by
  obtain ⟨h1, h2, h3⟩ := h
  have hmem {n : Note} : n ∈ rest → n ∈ .nreadyAck :: rest := List.mem_cons_of_mem _
  refine ⟨⟨h1.started, fun _ hm => absurd rfl hm, ?_, fun a b ht => ⟨(h1.kept a b ht).1, .inl rfl⟩,
      fun _ _ _ _ _ => .inl rfl, h1.yours⟩,
    ⟨h2.started, h2.bid, ?_, h2.kept, h2.mine, h2.yours⟩, h3⟩
  · exact fun hne hl => h1.late hne (.inr ((hl.resolve_left nofun).imp_right (Or.imp_left hmem)))
  · intro hne hl
    obtain ⟨hu, -, hf⟩ := h2.late hne hl
    exact ⟨hu, rfl, hf⟩

theorem Inv.hears {g g' : Game} (h : Inv g) (hg : hear g = some g') : Inv g' := by
  obtain ⟨p, q, out, inn⟩ := g
  obtain ⟨p', q', out', inn'⟩ := g'
  obtain ⟨rfl, hh⟩ := hears_of_hear hg
  dsimp only at hh
  cases hh with
  | seed v hp hs =>
    obtain ⟨pending, notes⟩ := inn
    obtain rfl : pending = some v := hp
    exact h.seed hs
  | lateSeed v hp hs =>
    obtain ⟨pending, notes⟩ := inn
    obtain rfl : pending = some v := hp
    exact h.lateSeed hs
  | bid v rest hi hs =>
    subst hi
    exact h.bid hs
  | lateBid v rest hi hs =>
    subst hi
    exact h.lateBid hs
  | nready rest hi hs =>
    subst hi
    have hd : Inv ⟨p, _, out, ⟨none, rest⟩⟩ := h.drop rfl {}
    exact hd.say {} rfl (by decide)
  | lateNReady rest hi hs =>
    subst hi
    exact h.drop rfl {}
  | readyAck rest hi hw =>
    subst hi
    exact h.readyAck
  | lateReadyAck rest hi hw =>
    subst hi
    exact h.drop rfl {}
  | nreadyAck rest hi hw =>
    subst hi
    exact h.nreadyAck
  | lateNReadyAck rest hi hw =>
    subst hi
    exact h.drop rfl {}
  | ack rest hi =>
    subst hi
    exact h.drop rfl {}
  | won rest hi status hs =>
    subst hi
    have hst : status = .unready ↔ p.status = .unready := by
      obtain rfl | ⟨hp, rfl⟩ := hs
      · rfl
      · simp [hp]
    exact h.drop rfl { status := hst }

end Hearing

theorem Inv.move {g g' : Game} (h : Inv g) (hm : Move g g') : Inv g' := by
  cases hm with
  | idle => exact h
  | hear _ hg => exact h.hears hg
  | start hs => exact h.quiet { status := by simp [hs] } (.refl _) (.refl _)
  | win hs => exact h.say { status := by simp [hs] } rfl (by decide)

/-- `Prompt`, as the abstract protocol sees it. -/
def Timely (g : Game) : Prop :=
  g.near.readyMe = false → g.out.bids ≠ [] ∨ .readyAck ∈ g.inn.notes →
    g.far.status = .unready ∧ g.far.readyMe = false ∧ .readyAck ∉ g.out.notes

theorem Inv.press {g : Game} (h : Inv g) (hs : g.near.status = .unready) (ht : Timely g)
    (seed : UInt64) : Inv (press seed g) := by
  obtain ⟨p, q, out, inn⟩ := g
  unfold Handshake.press Racer.press
  by_cases hr : p.readyMe = true
  · simp only [if_pos hr]
    exact h.say {} rfl (by decide)
  simp only [if_neg hr]
  replace ht : out.bids ≠ [] ∨ .readyAck ∈ inn.notes →
      q.status = .unready ∧ q.readyMe = false ∧ .readyAck ∉ out.notes := ht (by simpa using hr)
  have hnone : ∀ a b, p.text ≠ some (a, b) := h.text_none hs
  obtain ⟨h1, h2, h3⟩ := h
  have hmem : .readyAck ∈ (out.add [.bid seed]).notes → .readyAck ∈ out.notes :=
    notMem_readyAck_of_append (by simp)
  refine ⟨⟨h1.started, fun _ _ => lastBid_add_bid out seed q, ?_, ?_, ?_, h1.yours⟩,
    ⟨h2.started, h2.bid, ?_, h2.kept, ?_, ?_⟩, fun a b x y hp => absurd hp (hnone a b)⟩
  · intro _ hl
    have hun : out.bids ≠ [] ∨ .readyAck ∈ inn.notes := by
      obtain hl | hl | hl | hl := hl
      · exact absurd hl hr
      · exact absurd hs hl
      · exact .inr hl
      · rw [bids_add, List.length_append] at hl
        exact .inl (List.length_pos_iff.mp (Nat.le_of_succ_le_succ hl))
    obtain ⟨hu, hf, hn⟩ := ht hun
    exact ⟨hu, hf, bidsFirst_append_of_notMem hn _ trivial⟩
  · exact fun a b hp => absurd hp (hnone a b)
  · intro x y hq _ hm
    have hu := (ht (.inr (hm.resolve_left hr))).1
    exact absurd (hq.symm.trans (h2.started.mpr hu)) nofun
  · exact fun hne hl => h2.late hne (hl.imp_right (Or.imp_right (Or.imp_left hmem)))
  · exact fun x y hp => absurd hp (hnone x y)
  · exact fun x y hp => absurd hp (hnone x y)

theorem inv_start : Inv ⟨{}, {}, {}, {}⟩ := by
  have hhalf : Half {} {} {} {} := by
    constructor
    all_goals simp [lastBid, Lane.bids]
  exact ⟨hhalf, hhalf, by simp [Agree]⟩

theorem Inv.swap {g : Game} (h : Inv g) : Inv g.swap :=
  ⟨h.far, h.near, fun a b x y hp hq => (h.agree x y a b hq hp).symm.imp Eq.symm Eq.symm⟩

section Main

/-- A Ready press before the last one is answered must not reach an opponent that
may start without it: the opponent is still to be told that its own bid was heard. -/
def Prompt (n : Race) : Act → Prop
  | .ready _ =>
    n.near.typingInfo.status = .unready → n.near.racingInfo.readyMe = false →
      Coming n.far n.out infoReady ∨ Coming n.near n.inn infoReadyAck →
      n.far.typingInfo.status = .unready ∧ n.far.racingInfo.readyMe = false ∧
        ¬ Coming n.far n.out infoReadyAck
  | _ => True

instance (n : Race) : (a : Act) → Decidable (Prompt n a)
  | .ready _ => inferInstanceAs (Decidable (_ → _))
  | .timer | .key _ | .receive => .isTrue trivial

/-- Both programs have generated their text from one seed, so that they show the same text. -/
def SameText (n : Race) : Prop :=
  ∃ seed, n.near.generated.getLast? = some seed ∧ n.far.generated.getLast? = some seed ∧
    (n.near.dictionary = n.far.dictionary →
      n.near.typingInfo.generatedText = n.far.typingInfo.generatedText)

variable {random : UInt32 → Nat → Nat} {n n' : Race} {g : Game}

theorem timely_of_prompt (h : Refines random n g) {now : UInt64} (hp : Prompt n (.ready now))
    (hs : g.near.status = .unready) : Timely g := by
  intro hr hun
  obtain ⟨h1, h2, h3⟩ := hp (h.near.status.trans hs) (h.near.readyMe.trans hr) (by
    rw [coming_ready h.out, show infoReadyAck = noteCode .readyAck from rfl, coming_note h.inn rfl]
    exact hun)
  rw [show infoReadyAck = noteCode .readyAck from rfl, coming_note h.out rfl] at h3
  exact ⟨h.far.status.symm.trans h1, h.far.readyMe.symm.trans h2, h3⟩

theorem sameText_of_inv (h : Refines random n g) (hi : Inv g)
    (hs : n.near.typingInfo.status ≠ .unready) (hs' : n.far.typingInfo.status ≠ .unready) :
    SameText n := by
  rw [h.near.status] at hs
  rw [h.far.status] at hs'
  obtain ⟨⟨a, b⟩, hab⟩ := Option.ne_none_iff_exists'.mp fun hn => hs (hi.near.started.mp hn)
  obtain ⟨⟨x, y⟩, hxy⟩ := Option.ne_none_iff_exists'.mp fun hn => hs' (hi.far.started.mp hn)
  obtain ⟨rfl, rfl⟩ := hi.agree a b x y hab hxy
  have hn : n.near.generated.getLast? = some (textSeed (a, b)) := by
    rw [h.near.generated, hab, Option.map_some]
  have hf : n.far.generated.getLast? = some (textSeed (a, b)) := by
    rw [h.far.generated, hxy, Option.map_some, textSeed, textSeed, UInt64.add_comm]
  refine ⟨_, hn, hf, fun hd => ?_⟩
  obtain ⟨t, ht, hg⟩ := h.near.written _ hn
  obtain ⟨u, hu, hg'⟩ := h.far.written _ hf
  rw [hd] at ht
  rw [hg, hg', Option.some.inj (ht.symm.trans hu)]

/-- Both players type the same text once both races have begun. -/
theorem text_agreement (hn : Start n) {es : List (Side × Act)}
    (hg : Guarded (step (act random)) (Seen Prompt) n es)
    (hr : run (step (act random)) n es = some n') (hs : n'.near.typingInfo.status ≠ .unready)
    (hs' : n'.far.typingInfo.status ≠ .unready) : SameText n' := by
  obtain ⟨g, hg, hi⟩ := invariant (I := Inv) (fun _ => Inv.swap) (fun _ _ _ _ _ _ => Inv.move)
    (fun _ now _ h hp hi hs => hi.press hs (timely_of_prompt h hp hs) now) inv_start hn hg hr
  exact sameText_of_inv hg hi hs hs'

end Main

section Runs

def parity : UInt32 → Nat → Nat := fun seed _ => seed.toNat % 2 * 1600000000

def twoWords : List Word := [⟨[97], letter_noZero⟩, ⟨[98], by decide⟩]

theorem text_agreement_plain : SameText (outcome parity twoWords plainRun) :=
  @text_agreement parity (duel twoWords) (outcome parity twoWords plainRun) (start_duel _) plainRun
    (by decide +kernel) (by decide +kernel) (by decide +kernel) (by decide +kernel)

/-- The right player presses again between the `READY` and the seed of the opponent,
which has heard its first bid only. -/
def hastyRun : List (Side × Act) :=
  [(.left, .ready 1), (.right, .ready 100)] ++ reads .right 1 ++ [(.right, .ready 201)] ++
    reads .right 9 ++ reads .left 1 ++ reads .right 1 ++ reads .left 10

theorem hasty_texts_differ :
    run (step (act parity)) (duel twoWords) hastyRun = some (outcome parity twoWords hastyRun) ∧
      (outcome parity twoWords hastyRun).near.typingInfo.status ≠ .unready ∧
      (outcome parity twoWords hastyRun).far.typingInfo.status ≠ .unready ∧
      ¬ SameText (outcome parity twoWords hastyRun) ∧
      (outcome parity twoWords hastyRun).near.generated = [101] ∧
      (outcome parity twoWords hastyRun).far.generated = [202] ∧
      (outcome parity twoWords hastyRun).near.typingInfo.generatedText ≠
        (outcome parity twoWords hastyRun).far.typingInfo.generatedText := by
  refine ⟨by decide +kernel, by decide +kernel, by decide +kernel, ?_, by decide +kernel,
    by decide +kernel, by decide +kernel⟩
  rintro ⟨seed, h1, h2, -⟩
  exact absurd (h1.trans h2.symm) (by decide +kernel)

end Runs

end WriteWise.TextAgreement
