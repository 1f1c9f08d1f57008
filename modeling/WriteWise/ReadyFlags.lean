import WriteWise.HandshakeRefinement

namespace WriteWise.ReadyFlags

open Library.Duplex Library.Runs Serial Typing Program RaceLink Handshake HandshakeRefinement

def IsReply : Note → Bool
  | .readyAck | .nreadyAck | .ack => true
  | _ => false

def replies (l : Lane) : List Note := l.notes.filter IsReply

@[simp] theorem replies_add (l : Lane) (notes : List Note) :
    replies (l.add notes) = replies l ++ notes.filter IsReply := by
  rw [replies, add_notes, List.filter_append, replies]

/-- Where a player `p` stands with its opponent `q`, while both are `unready`. Its bids
are in `out`, and the answers to them in `inn`. -/
inductive Phase (p q : Racer) (out inn : Lane) : Prop
  /-- The opponent has heard no bid since it last agreed that there was none. -/
  | asking (hp : p.readyMe = false) (hq : q.readyYou = false) (hr : replies inn = [])
    (ho : out.pending = none) (hn : .nready ∉ out.notes) (hw : out.bids = [] ∨ p.waiting = true)
  /-- The opponent has heard a bid, and the player will hear so first of all. -/
  | heard (hp : p.readyMe = false) (hq : q.readyYou = true) (hw : p.waiting = true)
    (rest : List Note) (hr : replies inn = .readyAck :: rest) (hn : .nready ∉ out.notes)
    (hrest : .nreadyAck ∉ rest)
  | agreed (hp : p.readyMe = true) (hq : q.readyYou = true) (hn : .nready ∉ out.notes)
    (hr : .nreadyAck ∉ replies inn)
  /-- The player has withdrawn its bid, and does not know yet whether the opponent has heard. -/
  | leaving (hp : p.readyMe = true) (hw : p.waiting = true) (hb : out.bids = [])
    (ho : out.pending = none) (hr : ∀ note ∈ replies inn, note = .nreadyAck)
    (hq : q.readyYou = true ↔ replies inn = []) (hn : .nready ∈ out.notes ∨ replies inn ≠ [])
  | apart (hp : p.readyMe = false) (hq : q.readyYou = false) (hb : out.bids = [])
    (ho : out.pending = none) (hr : ∀ note ∈ replies inn, note = .nreadyAck)

/-- The seed behind every bid that was heard is acknowledged later. -/
def Answered : List Note → Prop
  | [] => True
  | .readyAck :: notes => .ack ∈ notes ∧ Answered notes
  | _ :: notes => Answered notes

structure Half (p q : Racer) (out inn : Lane) : Prop where
  phase : p.status = .unready → q.status = .unready → Phase p q out inn
  answered : out.pending = none → Answered inn.notes
  running : p.status = .unready → .won ∉ out.notes

structure Inv (g : Game) : Prop where
  near : Half g.near g.far g.out g.inn
  far : Half g.far g.near g.inn g.out

theorem answered_append {notes : List Note} (h : Answered notes) {more : List Note}
    (hm : Answered more) : Answered (notes ++ more) := by
  induction notes with
  | nil => exact hm
  | cons n notes ih =>
    cases n with
    | readyAck => exact ⟨List.mem_append_left _ h.1, ih h.2⟩
    | _ => exact ih h

theorem answered_append_ack (notes : List Note) : Answered (notes ++ [.ack]) := by
  induction notes with
  | nil => trivial
  | cons n notes ih =>
    cases n with
    | readyAck => exact ⟨List.mem_append_right _ List.mem_cons_self, ih⟩
    | _ => exact ih

theorem answered_tail {n : Note} {notes : List Note} (h : Answered (n :: notes)) :
    Answered notes := by
  cases n with
  | readyAck => exact h.2
  | _ => exact h

theorem notMem_readyAck_of_answered {notes : List Note} (h : Answered notes)
    (ha : .ack ∉ notes) : .readyAck ∉ notes := by
  induction notes with
  | nil => exact List.not_mem_nil
  | cons n notes ih =>
    have hrest := ih (answered_tail h) fun hn => ha (List.mem_cons_of_mem _ hn)
    cases n with
    | readyAck => exact absurd (List.mem_cons_of_mem _ h.1) ha
    | _ => simpa using hrest

section Hearing

variable {p q p' q' : Racer} {out inn out' inn' : Lane} {rest : List Note} {v : UInt64}

/-- What concerns neither the player's bids nor the answers to them leaves its phase. -/
theorem Phase.quiet (h : Phase p q out inn) (hm : p'.readyMe = p.readyMe)
    (hw : p'.waiting = p.waiting) (hy : q'.readyYou = q.readyYou)
    (ho : out'.pending = out.pending) (hb : out'.bids = out.bids)
    (hn : .nready ∈ out'.notes ↔ .nready ∈ out.notes) (hr : replies inn' = replies inn) :
    Phase p' q' out' inn' := by
  cases h with
  | asking h1 h2 h3 h4 h5 h6 =>
    rw [← hb, ← hw] at h6
    exact .asking (hm.trans h1) (hy.trans h2) (hr.trans h3) (ho.trans h4) (mt hn.mp h5) h6
  | heard h1 h2 h3 rest h4 h5 h6 =>
    exact .heard (hm.trans h1) (hy.trans h2) (hw.trans h3) rest (hr.trans h4) (mt hn.mp h5) h6
  | agreed h1 h2 h3 h4 =>
    rw [← hr] at h4
    exact .agreed (hm.trans h1) (hy.trans h2) (mt hn.mp h3) h4
  | leaving h1 h2 h3 h4 h5 h6 h7 =>
    rw [← hr] at h5 h6 h7
    rw [← hy] at h6
    rw [← hn] at h7
    exact .leaving (hm.trans h1) (hw.trans h2) (hb.trans h3) (ho.trans h4) h5 h6 h7
  | apart h1 h2 h3 h4 h5 =>
    rw [← hr] at h5
    exact .apart (hm.trans h1) (hy.trans h2) (hb.trans h3) (ho.trans h4) h5

theorem Phase.bid (h : Phase p q ⟨none, .bid v :: rest⟩ inn) :
    Phase p { q with readyYou := true } ⟨some v, rest⟩ (inn.add [.readyAck]) := by
  have hadd : replies (inn.add [.readyAck]) = replies inn ++ [.readyAck] := replies_add _ _
  cases h with
  | asking h1 h2 h3 h4 h5 h6 =>
    refine .heard h1 rfl (h6.resolve_left nofun) [] ?_ (by simpa using h5) List.not_mem_nil
    rw [hadd, h3]
    rfl
  | heard h1 h2 h3 rest' h4 h5 h6 =>
    refine .heard h1 rfl h3 (rest' ++ [.readyAck]) ?_ (by simpa using h5) (by simpa using h6)
    rw [hadd, h4]
    rfl
  | agreed h1 h2 h3 h4 =>
    refine .agreed h1 rfl (by simpa using h3) ?_
    rw [hadd]
    simpa using h4
  | leaving h1 h2 h3 => cases h3
  | apart h1 h2 h3 => cases h3

theorem Phase.seed (h : Phase p q ⟨some v, rest⟩ inn) (hy : q'.readyYou = q.readyYou) :
    Phase p q' ⟨none, rest⟩ (inn.add [.ack]) := by
  have hadd : replies (inn.add [.ack]) = replies inn ++ [.ack] := replies_add _ _
  cases h with
  | asking h1 h2 h3 h4 => cases h4
  | heard h1 h2 h3 rest' h4 h5 h6 =>
    refine .heard h1 (hy.trans h2) h3 (rest' ++ [.ack]) ?_ h5 (by simpa using h6)
    rw [hadd, h4]
    rfl
  | agreed h1 h2 h3 h4 =>
    refine .agreed h1 (hy.trans h2) h3 ?_
    rw [hadd]
    simpa using h4
  | leaving h1 h2 h3 h4 => cases h4
  | apart h1 h2 h3 h4 => cases h4

theorem Phase.nready (h : Phase p q ⟨none, .nready :: rest⟩ inn) :
    Phase p { q with readyYou := false } ⟨none, rest⟩ (inn.add [.nreadyAck]) := by
  have hadd : replies (inn.add [.nreadyAck]) = replies inn ++ [.nreadyAck] := replies_add _ _
  cases h with
  | asking h1 h2 h3 h4 h5 => exact absurd List.mem_cons_self h5
  | heard h1 h2 h3 rest' h4 h5 => exact absurd List.mem_cons_self h5
  | agreed h1 h2 h3 => exact absurd List.mem_cons_self h3
  | leaving h1 h2 h3 h4 h5 h6 =>
    refine .leaving h1 h2 h3 rfl ?_ ?_ (.inr ?_)
    · rw [hadd]
      simpa [or_imp, forall_and] using h5
    · rw [hadd]
      simp
    · rw [hadd]
      simp
  | apart h1 h2 h3 h4 h5 =>
    refine .apart h1 rfl h3 rfl ?_
    rw [hadd]
    simpa [or_imp, forall_and] using h5

theorem Phase.readyAck (h : Phase p q out ⟨none, .readyAck :: rest⟩)
    (hp : p'.readyMe = true ∨ p.waiting = false ∧ p'.readyMe = p.readyMe) :
    Phase p' q out ⟨none, rest⟩ := by
  have hcons : replies ⟨none, .readyAck :: rest⟩ = .readyAck :: replies ⟨none, rest⟩ := rfl
  cases h with
  | asking h1 h2 h3 => cases h3
  | heard h1 h2 h3 rest' h4 h5 h6 =>
    rw [hcons] at h4
    cases h4
    rw [h3] at hp
    exact .agreed (hp.resolve_right nofun) h2 h5 h6
  | agreed h1 h2 h3 h4 =>
    rw [hcons] at h4
    exact .agreed (hp.elim id fun hp => hp.2.trans h1) h2 h3
      fun hn => h4 (List.mem_cons_of_mem _ hn)
  | leaving h1 h2 h3 h4 h5 => cases h5 _ List.mem_cons_self
  | apart h1 h2 h3 h4 h5 => cases h5 _ List.mem_cons_self

theorem Phase.nreadyAck (h : Phase p q out ⟨none, .nreadyAck :: rest⟩)
    (hp : p'.readyMe = false ∨ p.waiting = false ∧ p'.readyMe = p.readyMe) :
    Phase p' q out ⟨none, rest⟩ := by
  have hcons : replies ⟨none, .nreadyAck :: rest⟩ = .nreadyAck :: replies ⟨none, rest⟩ := rfl
  cases h with
  | asking h1 h2 h3 => cases h3
  | heard h1 h2 h3 rest' h4 => cases h4
  | agreed h1 h2 h3 h4 => exact absurd List.mem_cons_self h4
  | leaving h1 h2 h3 h4 h5 h6 =>
    rw [hcons] at h5 h6
    rw [h2] at hp
    refine .apart (hp.resolve_right nofun) ?_ h3 h4
      fun note hn => h5 note (List.mem_cons_of_mem _ hn)
    simpa using h6
  | apart h1 h2 h3 h4 h5 =>
    rw [hcons] at h5
    exact .apart (hp.elim id fun hp => hp.2.trans h1) h2 h3 h4
      fun note hn => h5 note (List.mem_cons_of_mem _ hn)

theorem Phase.ack (h : Phase p q out ⟨none, .ack :: rest⟩) (hp : p'.readyMe = p.readyMe) :
    Phase p' q out ⟨none, rest⟩ := by
  have hcons : replies ⟨none, .ack :: rest⟩ = .ack :: replies ⟨none, rest⟩ := rfl
  cases h with
  | asking h1 h2 h3 => cases h3
  | heard h1 h2 h3 rest' h4 => cases h4
  | agreed h1 h2 h3 h4 =>
    rw [hcons] at h4
    exact .agreed (hp.trans h1) h2 h3 fun hn => h4 (List.mem_cons_of_mem _ hn)
  | leaving h1 h2 h3 h4 h5 => cases h5 _ List.mem_cons_self
  | apart h1 h2 h3 h4 h5 => cases h5 _ List.mem_cons_self

/-- What the near player hears moves its own phase and that of its opponent. -/
theorem Phase.hears (h : Phase p q out inn) (h' : Phase q p inn out) (hs : p'.status = .unready)
    (hw : .won ∉ inn.notes) (hh : Hears p out inn p' out' inn') :
    Phase p' q out' inn' ∧ Phase q p' inn' out' := by
  cases hh with
  | seed v hp hu =>
    obtain ⟨pending, notes⟩ := inn
    obtain rfl : pending = some v := hp
    rw [(check_unready hs).1]
    exact ⟨h.quiet rfl rfl rfl rfl (by simp [Note.seed]) (by simp) rfl, h'.seed rfl⟩
  | lateSeed v hp hu => exact absurd hs hu
  | bid v rest hi hu =>
    subst hi
    exact ⟨h.quiet rfl rfl rfl rfl (by simp [Note.seed]) (by simp) rfl, h'.bid⟩
  | lateBid v rest hi hu => exact absurd hs hu
  | nready rest hi hu =>
    subst hi
    exact ⟨h.quiet rfl rfl rfl rfl (by simp [Note.seed]) (by simp) rfl, h'.nready⟩
  | lateNReady rest hi hu => exact absurd hs hu
  | readyAck rest hi hu =>
    subst hi
    have hc := (check_unready hs).1
    rw [hc]
    exact ⟨h.readyAck (.inl rfl), h'.quiet rfl rfl rfl rfl rfl (by simp) rfl⟩
  | lateReadyAck rest hi hu =>
    subst hi
    exact ⟨h.readyAck (.inr ⟨hu, rfl⟩), h'.quiet rfl rfl rfl rfl rfl (by simp) rfl⟩
  | nreadyAck rest hi hu =>
    subst hi
    exact ⟨h.nreadyAck (.inl rfl), h'.quiet rfl rfl rfl rfl rfl (by simp) rfl⟩
  | lateNReadyAck rest hi hu =>
    subst hi
    exact ⟨h.nreadyAck (.inr ⟨hu, rfl⟩), h'.quiet rfl rfl rfl rfl rfl (by simp) rfl⟩
  | ack rest hi =>
    subst hi
    exact ⟨h.ack rfl, h'.quiet rfl rfl rfl rfl rfl (by simp) rfl⟩
  | won rest hi status hst =>
    subst hi
    exact absurd List.mem_cons_self hw

theorem answered_hears (h : out.pending = none → Answered inn.notes)
    (h' : inn.pending = none → Answered out.notes) (hh : Hears p out inn p' out' inn') :
    (out'.pending = none → Answered inn'.notes) ∧ (inn'.pending = none → Answered out'.notes) := by
  cases hh with
  | seed v hp hu => exact ⟨h, fun _ => answered_append_ack _⟩
  | lateSeed v hp hu => exact ⟨h, fun _ => answered_append_ack _⟩
  | bid v rest hi hu =>
    subst hi
    exact ⟨fun hp => answered_tail (h hp), nofun⟩
  | lateBid v rest hi hu =>
    subst hi
    exact ⟨fun hp => answered_tail (h hp), nofun⟩
  | nready rest hi hu =>
    subst hi
    exact ⟨fun hp => answered_tail (h hp), fun hp => answered_append (h' hp) trivial⟩
  | lateNReady rest hi hu | readyAck rest hi hu | lateReadyAck rest hi hu | nreadyAck rest hi hu
  | lateNReadyAck rest hi hu =>
    subst hi
    exact ⟨fun hp => answered_tail (h hp), h'⟩
  | ack rest hi =>
    subst hi
    exact ⟨fun hp => answered_tail (h hp), h'⟩
  | won rest hi status hst =>
    subst hi
    exact ⟨fun hp => answered_tail (h hp), h'⟩

end Hearing

section Steps

variable {g g' : Game}

theorem Inv.swap (h : Inv g) : Inv g.swap := ⟨h.far, h.near⟩

theorem Inv.hears (h : Inv g) (hg : hear g = some g') : Inv g' := by
  obtain ⟨p, q, out, inn⟩ := g
  obtain ⟨p', q', out', inn'⟩ := g'
  obtain ⟨rfl, hh⟩ := hears_of_hear hg
  obtain ⟨h1, h2⟩ := h
  have hs := hh.unready
  obtain ⟨hinn, -⟩ := hh.reads
  obtain ⟨notes, hout, -, -, hwon⟩ := hh.writes
  obtain ⟨ha, ha'⟩ := answered_hears h1.answered h2.answered hh
  refine ⟨⟨fun hp hq => ?_, ha, fun hp => ?_⟩, ⟨fun hq hp => ?_, ha', fun hq => ?_⟩⟩
  · exact ((h1.phase (hs hp) hq).hears (h2.phase hq (hs hp)) hp (h2.running hq) hh).1
  · rw [hout]
    exact fun hn => (List.mem_append.mp hn).elim (h1.running (hs hp)) hwon
  · exact ((h1.phase (hs hp) hq).hears (h2.phase hq (hs hp)) hp (h2.running hq) hh).2
  · exact fun hn => h2.running hq (hinn _ hn)

theorem Inv.move (h : Inv g) (hm : Move g g') : Inv g' := by
  obtain ⟨h1, h2⟩ := h
  cases hm with
  | idle => exact ⟨h1, h2⟩
  | hear _ hg => exact Inv.hears ⟨h1, h2⟩ hg
  | start hs => exact ⟨⟨nofun, h1.answered, nofun⟩, ⟨nofun, h2.answered, h2.running⟩⟩
  | win hs =>
    exact ⟨⟨nofun, h1.answered, nofun⟩,
      ⟨nofun, fun hp => answered_append (h2.answered hp) trivial, h2.running⟩⟩

def Timely (g : Game) : Prop :=
  if g.near.readyMe = true then
    g.out.seeds = [] ∧ .ack ∉ g.inn.notes
  else .nready ∉ g.out.notes ∧ .nreadyAck ∉ g.inn.notes

theorem Phase.press {p q : Racer} {out inn : Lane} (h : Phase p q out inn)
    (ha : out.pending = none → Answered inn.notes) (ht : Timely ⟨p, q, out, inn⟩) (seed : UInt64) :
    Phase (p.press seed).1 q (out.add (p.press seed).2) inn := by
  have hmem {note : Note} (hr : IsReply note = true) (hn : note ∉ inn.notes) :
      note ∉ replies inn := fun hc => hn (List.mem_filter.mp hc).1
  unfold Racer.press
  by_cases hr : p.readyMe = true
  · simp only [if_pos hr]
    rw [Timely, if_pos hr] at ht
    obtain ⟨hseeds, hack⟩ := ht
    obtain ⟨ho, hb⟩ := seeds_eq_nil.mp hseeds
    have hbids : (out.add [.nready]).bids = [] := by rw [bids_add, hb]; rfl
    cases h with
    | asking h1 => exact absurd (h1.symm.trans hr) nofun
    | heard h1 => exact absurd (h1.symm.trans hr) nofun
    | agreed h1 h2 h3 h4 =>
      have hnone : replies inn = [] := by
        rw [List.eq_nil_iff_forall_not_mem]
        intro note hn
        have hra := notMem_readyAck_of_answered (ha ho) hack
        cases note <;> simp_all [replies, IsReply]
      refine .leaving hr rfl hbids ho ?_ ?_ (.inl (by simp))
      · rw [hnone]
        exact nofun
      · rw [hnone, h2]
        exact iff_of_true rfl rfl
    | leaving h1 h2 h3 h4 h5 h6 => exact .leaving hr rfl hbids ho h5 h6 (.inl (by simp))
    | apart h1 => exact absurd (h1.symm.trans hr) nofun
  · simp only [if_neg hr]
    rw [Timely, if_neg hr] at ht
    obtain ⟨hn, hna⟩ := ht
    have hn' : .nready ∉ (out.add [.bid seed]).notes := by simpa using hn
    cases h with
    | asking h1 h2 h3 h4 => exact .asking h1 h2 h3 h4 hn' (.inr rfl)
    | heard h1 h2 h3 rest h4 h5 h6 => exact .heard h1 h2 rfl rest h4 hn' h6
    | agreed h1 => exact absurd h1 hr
    | leaving h1 => exact absurd h1 hr
    | apart h1 h2 h3 h4 h5 =>
      refine .asking h1 h2 ?_ h4 hn' (.inr rfl)
      rw [List.eq_nil_iff_forall_not_mem]
      intro note hn
      obtain rfl := h5 note hn
      exact hmem rfl hna hn

theorem Inv.press (h : Inv g) (ht : Timely g) (seed : UInt64) : Inv (press seed g) := by
  obtain ⟨p, q, out, inn⟩ := g
  obtain ⟨h1, h2⟩ := h
  have hp : (p.press seed).1.status = p.status ∧ (p.press seed).1.readyYou = p.readyYou ∧
      Answered (p.press seed).2 ∧ .won ∉ (p.press seed).2 ∧
      (p.press seed).2.filter IsReply = [] := by
    unfold Racer.press
    split
    · exact ⟨rfl, rfl, trivial, by simp, rfl⟩
    · exact ⟨rfl, rfl, trivial, by simp, rfl⟩
  obtain ⟨hst, hy, ha, hw, hr⟩ := hp
  refine ⟨⟨fun hs hq => ?_, h1.answered, fun hs => ?_⟩, ⟨fun hq hs => ?_, ?_, h2.running⟩⟩
  · exact (h1.phase (hst.symm.trans hs) hq).press h1.answered ht seed
  · exact fun hn => (List.mem_append.mp hn).elim (h1.running (hst.symm.trans hs)) hw
  · refine (h2.phase hq (hst.symm.trans hs)).quiet rfl rfl hy rfl rfl .rfl ?_
    change replies (out.add (p.press seed).2) = _
    rw [replies_add, hr, List.append_nil]
  · exact fun hp => answered_append (h2.answered hp) ha

theorem inv_start : Inv ⟨{}, {}, {}, {}⟩ := by
  have hhalf : Half {} {} {} {} :=
    ⟨fun _ _ => .asking rfl rfl rfl rfl List.not_mem_nil (.inl rfl), fun _ => trivial,
      fun _ => List.not_mem_nil⟩
  exact ⟨hhalf, hhalf⟩

/-- With nothing on its way the phases agree on the flags. -/
theorem Phase.settled {p q : Racer} (h : Phase p q {} {}) : p.readyMe = q.readyYou := by
  cases h with
  | asking h1 h2 => rw [h1, h2]
  | heard h1 h2 h3 rest h4 => cases h4
  | agreed h1 h2 => rw [h1, h2]
  | leaving h1 h2 h3 h4 h5 h6 => rw [h1, h6.mpr rfl]
  | apart h1 h2 => rw [h1, h2]

end Steps

section Main

/-- An Unready press must wait until the opponent has acknowledged the seed, and
a Ready press until it has acknowledged that there was none any more. -/
def Patient (n : Race) : Act → Prop
  | .ready _ =>
    n.near.typingInfo.status = .unready →
      if n.near.racingInfo.readyMe = true then
        seeds n.far n.out = [] ∧ ¬ Coming n.near n.inn infoAck
      else ¬ Coming n.far n.out infoNReady ∧ ¬ Coming n.near n.inn infoNReadyAck
  | _ => True

instance (n : Race) : (a : Act) → Decidable (Patient n a)
  | .ready _ => inferInstanceAs (Decidable (_ → _))
  | .timer | .key _ | .receive => .isTrue trivial

variable {random : UInt32 → Nat → Nat} {n n' : Race} {g : Game}

theorem timely_of_patient (h : Refines random n g) {now : UInt64} (hp : Patient n (.ready now))
    (hs : g.near.status = .unready) : Timely g := by
  have hpat := hp (h.near.status.trans hs)
  rw [h.near.readyMe, seeds_eq h.out, show infoAck = noteCode .ack from rfl,
    show infoNReady = noteCode .nready from rfl, show infoNReadyAck = noteCode .nreadyAck from rfl,
    coming_note h.inn rfl, coming_note h.out rfl, coming_note h.inn rfl] at hpat
  unfold Timely
  split
  · rename_i hr
    rw [if_pos hr] at hpat
    exact hpat
  · rename_i hr
    rwa [if_neg hr] at hpat

/-- What each player takes itself for is what the opponent takes it for. -/
def FlagsAgree (n : Race) : Prop :=
  n.near.racingInfo.readyMe = n.far.racingInfo.readyYou ∧
    n.far.racingInfo.readyMe = n.near.racingInfo.readyYou

theorem ready_flags_agree (hn : Start n) {es : List (Side × Act)}
    (hg : Guarded (step (act random)) (Seen Patient) n es)
    (hr : run (step (act random)) n es = some n') (hout : n'.out = []) (hinn : n'.inn = [])
    (hs : n'.near.typingInfo.status = .unready) (hs' : n'.far.typingInfo.status = .unready) :
    FlagsAgree n' := by
  obtain ⟨g, hg, hi⟩ := invariant (I := Inv) (fun _ => Inv.swap) (fun _ _ _ _ _ _ => Inv.move)
    (fun _ now _ h hp hi hs => hi.press (timely_of_patient h hp hs) now) inv_start hn hg hr
  have ho := hg.out
  have hi' := hg.inn
  rw [hout] at ho
  rw [hinn] at hi'
  obtain ⟨h1, h2⟩ := hi
  rw [lane_of_nil ho, lane_of_nil hi'] at h1 h2
  have hp := hg.near.status.symm.trans hs
  have hq := hg.far.status.symm.trans hs'
  rw [FlagsAgree, hg.near.readyMe, hg.far.readyMe, hg.near.readyYou, hg.far.readyYou]
  exact ⟨(h1.phase hp hq).settled, (h2.phase hq hp).settled⟩

end Main

section Runs

/-- The left player alone presses, and withdraws when it has been answered. -/
def patientRun : List (Side × Act) :=
  [(.left, .ready 5)] ++ reads .right 10 ++ reads .left 2 ++ [(.left, .ready 6)] ++
    reads .right 1 ++ reads .left 1

theorem ready_flags_agree_patient : FlagsAgree (outcome noRandom [] patientRun) :=
  @ready_flags_agree noRandom (duel []) (outcome noRandom [] patientRun) (start_duel _) patientRun
    (by decide +kernel) (by decide +kernel) (by decide +kernel) (by decide +kernel)
    (by decide +kernel) (by decide +kernel)

/-- The left player withdraws its bid before the acknowledgement of the seed comes,
which then ends the wait for the answer. -/
def hastyRun : List (Side × Act) :=
  [(.left, .ready 5)] ++ reads .right 10 ++ reads .left 1 ++ [(.left, .ready 6)] ++
    reads .right 1 ++ reads .left 2

theorem hasty_flags_disagree :
    run (step (act noRandom)) (duel []) hastyRun = some (outcome noRandom [] hastyRun) ∧
      (outcome noRandom [] hastyRun).out = [] ∧ (outcome noRandom [] hastyRun).inn = [] ∧
      (outcome noRandom [] hastyRun).near.typingInfo.status = .unready ∧
      (outcome noRandom [] hastyRun).far.typingInfo.status = .unready ∧
      ¬ FlagsAgree (outcome noRandom [] hastyRun) ∧
      (outcome noRandom [] hastyRun).near.racingInfo.readyMe = true ∧
      (outcome noRandom [] hastyRun).far.racingInfo.readyYou = false := by
  refine ⟨by decide +kernel, by decide +kernel, by decide +kernel, by decide +kernel,
    by decide +kernel, fun h => ?_, by decide +kernel, by decide +kernel⟩
  exact absurd h.1 (by decide +kernel)

end Runs

end WriteWise.ReadyFlags
