import WriteWise.ReadyFlags

namespace WriteWise.RaceStart

open Library.Duplex Library.Runs Serial Typing Program RaceLink Handshake HandshakeRefinement
open ReadyFlags (IsReply Phase Timely replies replies_add)

/-- No bid comes before the answer to a withdrawn one. -/
def BidsAfter : List Note → Prop
  | [] => True
  | .nreadyAck :: _ => True
  | .bid _ :: _ => False
  | _ :: notes => BidsAfter notes

/-- What is still to come for a player whose opponent has begun: the seed or the answer
with which it begins as well. -/
structure Behind (p : Racer) (inn : Lane) : Prop where
  readyYou : p.readyYou = true
  seedMe : p.seedMe ≠ 0
  nready : .nready ∉ inn.notes
  nreadyAck : .nreadyAck ∉ inn.notes
  next : p.readyMe = true ∧ inn.pending ≠ none ∨
    p.readyMe = false ∧ p.waiting = true ∧ ∃ rest, replies inn = .readyAck :: rest

/-- The invariant of one player against the other, as long as nobody has finished. -/
structure Half (p q : Racer) (out inn : Lane) : Prop where
  nonzero : 0 ∉ out.seeds
  won : .won ∉ out.notes
  bidding : p.status = .unready → q.status = .unready →
    p.seedMe ≠ 0 ∨ p.readyMe = false ∧ q.readyYou = false ∧ out.bids = []
  due : p.status = .unready → p.readyYou = true →
    inn.pending ≠ none ∨ p.seedYou ≠ 0 ∧ p.readyMe = false
  leaving : p.status = .unready → q.status = .unready → p.readyMe = true →
    .nready ∈ out.notes ∨ .nreadyAck ∈ inn.notes →
      p.readyYou = false ∧ inn.pending = none ∧ BidsAfter inn.notes
  behind : p.status = .unready → q.status ≠ .unready → Behind p inn

structure Inv (g : Game) : Prop where
  flags : ReadyFlags.Inv g
  near : Half g.near g.far g.out g.inn
  far : Half g.far g.near g.inn g.out

theorem bidsAfter_of_no_bids {notes : List Note} (h : notes.filterMap Note.seed = []) :
    BidsAfter notes := by
  induction notes with
  | nil => trivial
  | cons n notes ih =>
    cases n with
    | bid v => cases h
    | nreadyAck => trivial
    | nready => exact ih h
    | readyAck => exact ih h
    | ack => exact ih h
    | won => exact ih h

theorem bidsAfter_append {notes : List Note} (h : BidsAfter notes) {more : List Note}
    (hm : .nreadyAck ∈ notes ∨ more.filterMap Note.seed = []) : BidsAfter (notes ++ more) := by
  induction notes with
  | nil => exact bidsAfter_of_no_bids (hm.resolve_left List.not_mem_nil)
  | cons n notes ih =>
    cases n with
    | bid v => exact h.elim
    | nreadyAck => trivial
    | nready => exact ih h (by simpa using hm)
    | readyAck => exact ih h (by simpa using hm)
    | ack => exact ih h (by simpa using hm)
    | won => exact ih h (by simpa using hm)

theorem mem_replies {l : Lane} {note : Note} (hr : IsReply note = true) :
    note ∈ replies l ↔ note ∈ l.notes := by
  rw [replies, List.mem_filter]
  exact and_iff_left hr

theorem mem_of_leaving {out inn : Lane} (h : ∀ note ∈ replies inn, note = .nreadyAck)
    (hn : .nready ∈ out.notes ∨ replies inn ≠ []) :
    .nready ∈ out.notes ∨ .nreadyAck ∈ inn.notes := by
  refine hn.imp_right fun hne => ?_
  obtain ⟨note, hnote⟩ := List.exists_mem_of_ne_nil _ hne
  obtain rfl := h note hnote
  exact (mem_replies rfl).mp hnote

section Hearing

variable {p q p' : Racer} {out inn out' inn' : Lane}

/-- A player that is behind stays behind until it begins. -/
theorem Behind.hears (h : Behind p inn) (hs : p'.status = .unready) (hz : 0 ∉ inn.seeds)
    (hwon : .won ∉ inn.notes) (hdue : p.readyYou = true →
      inn.pending ≠ none ∨ p.seedYou ≠ 0 ∧ p.readyMe = false)
    (hh : Hears p out inn p' out' inn') : Behind p' inn' := by
  obtain ⟨h1, h2, h3, h4, h5⟩ := h
  cases hh with
  | seed v hp hu =>
    obtain ⟨hc, -, hb⟩ := check_unready hs
    rw [hc]
    have hv : v ≠ 0 := by
      rintro rfl
      exact hz (by simp [Lane.seeds, hp])
    refine ⟨h1, h2, h3, h4, .inr (h5.resolve_left fun hn => ?_)⟩
    exact hb ⟨hn.1, h1, h2, hv⟩
  | lateSeed v hp hu => exact absurd hs hu
  | bid v rest hi hu =>
    subst hi
    refine ⟨rfl, h2, by simpa using h3, by simpa using h4, .inr (h5.resolve_left fun hn => ?_)⟩
    exact hn.2 rfl
  | lateBid v rest hi hu => exact absurd hs hu
  | nready rest hi hu =>
    subst hi
    exact absurd List.mem_cons_self h3
  | lateNReady rest hi hu => exact absurd hs hu
  | readyAck rest hi hw =>
    subst hi
    obtain ⟨-, -, hb⟩ := check_unready (r := { p with readyMe := true }) hs
    exact absurd ⟨rfl, h1, h2, ((hdue h1).resolve_left fun hn => hn rfl).1⟩ hb
  | lateReadyAck rest hi hw =>
    subst hi
    rw [hw] at h5
    exact absurd (h5.resolve_right fun hn => absurd hn.2.1 (by decide)).2 (fun hn => hn rfl)
  | nreadyAck rest hi hw =>
    subst hi
    exact absurd List.mem_cons_self h4
  | lateNReadyAck rest hi hw =>
    subst hi
    exact absurd List.mem_cons_self h4
  | ack rest hi =>
    subst hi
    obtain ⟨-, hn⟩ | ⟨-, -, rest', hr⟩ := h5
    · exact absurd rfl hn
    · cases hr
  | won rest hi status hst =>
    subst hi
    exact absurd List.mem_cons_self hwon

theorem Behind.ack (h : Behind p inn) : Behind p (inn.add [.ack]) := by
  obtain ⟨h1, h2, h3, h4, h5⟩ := h
  refine ⟨h1, h2, by simpa using h3, by simpa using h4, h5.imp_right ?_⟩
  rintro ⟨hr, hw, rest, hre⟩
  refine ⟨hr, hw, rest ++ [.ack], ?_⟩
  rw [replies_add, hre]
  rfl

/-- A player that begins leaves its opponent behind. -/
theorem behind_of_start (h : Half q p inn out) (hph : Phase q p inn out)
    (hp : p.status = .unready) (hq : q.status = .unready) (hpy : p.readyYou = true)
    (hqy : q.readyYou = true) (hn : .nready ∉ out.notes) : Behind q out := by
  have hseed : q.seedMe ≠ 0 := (h.bidding hq hp).resolve_right fun hb => by
    rw [hpy] at hb
    exact absurd hb.2.1 nofun
  cases hph with
  | asking h1 h2 => exact absurd (h2.symm.trans hpy) nofun
  | heard h1 h2 h3 rest h4 h5 h6 =>
    refine ⟨hqy, hseed, hn, ?_, .inr ⟨h1, h3, rest, h4⟩⟩
    rw [← mem_replies rfl, h4]
    simpa using h6
  | agreed h1 h2 h3 h4 =>
    refine ⟨hqy, hseed, hn, by rwa [← mem_replies rfl], .inl ⟨h1, ?_⟩⟩
    exact (h.due hq hqy).resolve_right fun hd => absurd (hd.2.symm.trans h1) nofun
  | leaving h1 h2 h3 h4 h5 h6 h7 =>
    exact absurd ((h.leaving hq hp h1 (mem_of_leaving h5 h7)).1.symm.trans hqy) nofun
  | apart h1 h2 => exact absurd (h2.symm.trans hpy) nofun

theorem bidding_hears (h : Half p q out inn) (hph : Phase p q out inn) (hph' : Phase p' q out' inn')
    (hs : p.status = .unready) (hs' : p'.status = .unready) (hq : q.status = .unready)
    (hh : Hears p out inn p' out' inn') :
    p'.seedMe ≠ 0 ∨ p'.readyMe = false ∧ q.readyYou = false ∧ out'.bids = [] := by
  have hbids : out'.bids = out.bids := by
    obtain ⟨notes, rfl, hnotes, -⟩ := hh.writes
    rw [bids_add, hnotes, List.append_nil]
  rw [hbids]
  have hold := h.bidding hs hq
  cases hh with
  | seed v hp hu =>
    rw [(check_unready hs').1]
    exact hold
  | lateSeed v hp hu => exact absurd hs hu
  | lateBid v rest hi hu => exact absurd hs hu
  | lateNReady rest hi hu => exact absurd hs hu
  | readyAck rest hi hw =>
    subst hi
    rw [(check_unready (r := { p with readyMe := true }) hs').1]
    refine .inl (hold.resolve_right fun ⟨hr, hy, _⟩ => ?_)
    -- the bid that is acknowledged has been heard
    cases hph with
    | asking h1 h2 h3 => cases h3
    | heard h1 h2 => exact absurd (hy.symm.trans h2) nofun
    | agreed h1 h2 => exact absurd (hy.symm.trans h2) nofun
    | leaving h1 => exact absurd (hr.symm.trans h1) nofun
    | apart h1 h2 h3 h4 h5 => cases h5 _ List.mem_cons_self
  | nreadyAck rest hi hw =>
    cases hph' with
    | asking h1 h2 h3 h4 h5 h6 => exact .inr ⟨rfl, h2, hbids.symm.trans (h6.resolve_right nofun)⟩
    | heard h1 h2 h3 => cases h3
    | agreed h1 => cases h1
    | leaving h1 => cases h1
    | apart h1 h2 h3 => exact .inr ⟨rfl, h2, hbids.symm.trans h3⟩
  | _ => exact hold

theorem due_hears (h : Half p q out inn) (h' : Half q p inn out)
    (hph : q.status = .unready → Phase p q out inn) (hs : p.status = .unready)
    (hs' : p'.status = .unready) (hh : Hears p out inn p' out' inn') (hy : p'.readyYou = true) :
    inn'.pending ≠ none ∨ p'.seedYou ≠ 0 ∧ p'.readyMe = false := by
  -- a player that is ready, or hears that it is, has told a seed
  have hseed : p.readyMe = true ∨ (∃ rest, inn = ⟨none, .readyAck :: rest⟩) → p.seedMe ≠ 0 := by
    intro hr
    by_cases hq : q.status = .unready
    · refine (h.bidding hs hq).resolve_right fun hb => ?_
      obtain ⟨hm, hqy, -⟩ := hb
      obtain hr | ⟨rest, rfl⟩ := hr
      · exact absurd (hm.symm.trans hr) (by decide)
      · cases hph hq with
        | asking h1 h2 h3 => cases h3
        | heard h1 h2 => exact absurd (hqy.symm.trans h2) (by decide)
        | agreed h1 h2 => exact absurd (hqy.symm.trans h2) (by decide)
        | leaving h1 => exact absurd (hm.symm.trans h1) (by decide)
        | apart h1 h2 h3 h4 h5 => cases h5 _ List.mem_cons_self
    · exact (h.behind hs hq).seedMe
  cases hh with
  | seed v hp hu =>
    obtain ⟨hc, -, hb⟩ := check_unready hs'
    rw [hc] at hy ⊢
    have hv : v ≠ 0 := by
      rintro rfl
      exact h'.nonzero (by simp [Lane.seeds, hp])
    refine .inr ⟨hv, ?_⟩
    by_contra hr
    have hr' : p.readyMe = true := by simpa using hr
    exact hb ⟨hr', hy, hseed (.inl hr'), hv⟩
  | lateSeed v hp hu => exact absurd hs hu
  | bid v rest hi hu => exact .inl (Option.some_ne_none v)
  | lateBid v rest hi hu => exact absurd hs hu
  | nready rest hi hu => cases hy
  | lateNReady rest hi hu => exact absurd hs hu
  | readyAck rest hi hw =>
    subst hi
    obtain ⟨hc, -, hb⟩ := check_unready (r := { p with readyMe := true }) hs'
    rw [hc] at hy
    have hsy := ((h.due hs hy).resolve_left fun hn => hn rfl).1
    exact absurd ⟨rfl, hy, hseed (.inr ⟨rest, rfl⟩), hsy⟩ hb
  | lateReadyAck rest hi hw =>
    subst hi
    exact h.due hs hy
  | nreadyAck rest hi hw =>
    subst hi
    exact .inr ⟨((h.due hs hy).resolve_left fun hn => hn rfl).1, rfl⟩
  | lateNReadyAck rest hi hw =>
    subst hi
    exact h.due hs hy
  | ack rest hi =>
    subst hi
    exact h.due hs hy
  | won rest hi status hst =>
    subst hi
    exact h.due hs hy

theorem leaving_hears (h : Half p q out inn) (hph : Phase p q out inn)
    (hph' : Phase p' q out' inn') (hs : p.status = .unready) (hs' : p'.status = .unready)
    (hq : q.status = .unready) (hh : Hears p out inn p' out' inn') (hr : p'.readyMe = true)
    (hn : .nready ∈ out'.notes ∨ .nreadyAck ∈ inn'.notes) :
    p'.readyYou = false ∧ inn'.pending = none ∧ BidsAfter inn'.notes := by
  have hn' : .nready ∈ out.notes ∨ .nreadyAck ∈ inn.notes := by
    obtain ⟨notes, rfl, -, hnr, -⟩ := hh.writes
    exact hn.imp (fun hn => (List.mem_append.mp hn).resolve_right hnr) (hh.reads.1 _)
  have hold := fun hr => h.leaving hs hq hr hn'
  cases hh with
  | seed v hp hu =>
    rw [(check_unready hs').1] at hr
    exact absurd (hp.symm.trans (hold hr).2.1) nofun
  | lateSeed v hp hu => exact absurd hs hu
  | bid v rest hi hu =>
    subst hi
    exact (hold hr).2.2.elim
  | lateBid v rest hi hu => exact absurd hs hu
  | nready rest hi hu =>
    subst hi
    exact ⟨rfl, rfl, (hold hr).2.2⟩
  | lateNReady rest hi hu => exact absurd hs hu
  | readyAck rest hi hw =>
    subst hi
    -- the first answer is a `readyAck`, so that nothing was withdrawn
    cases hph with
    | asking h1 h2 h3 => cases h3
    | heard h1 h2 h3 rest' h4 h5 h6 =>
      refine absurd hn' (not_or.mpr ⟨h5, mt (mem_replies rfl).mpr ?_⟩)
      rw [h4]
      simpa using h6
    | agreed h1 h2 h3 h4 =>
      exact absurd hn' (not_or.mpr ⟨h3, mt (mem_replies rfl).mpr h4⟩)
    | leaving h1 h2 h3 h4 h5 => cases h5 _ List.mem_cons_self
    | apart h1 h2 h3 h4 h5 => cases h5 _ List.mem_cons_self
  | lateReadyAck rest hi hw =>
    subst hi
    exact hold hr
  | nreadyAck rest hi hw => cases hr
  | lateNReadyAck rest hi hw =>
    subst hi
    cases hph with
    | asking h1 => exact absurd (h1.symm.trans hr) nofun
    | heard h1 => exact absurd (h1.symm.trans hr) nofun
    | agreed h1 h2 h3 h4 => exact absurd List.mem_cons_self h4
    | leaving h1 h2 => exact absurd (hw.symm.trans h2) nofun
    | apart h1 => exact absurd (h1.symm.trans hr) nofun
  | ack rest hi =>
    subst hi
    exact hold hr
  | won rest hi status hst =>
    subst hi
    exact hold hr

theorem Half.hears_near (h : Half p q out inn) (h' : Half q p inn out)
    (hf : ReadyFlags.Inv ⟨p, q, out, inn⟩) (hf' : ReadyFlags.Inv ⟨p', q, out', inn'⟩)
    (hh : Hears p out inn p' out' inn') : Half p' q out' inn' := by
  obtain ⟨notes, hout, hnotes, -, hwon⟩ := hh.writes
  have hs := hh.unready
  refine ⟨?_, ?_, fun hp hq => ?_, fun hp => ?_, fun hp hq => ?_, fun hp hq => ?_⟩
  · rw [hout, seeds_add, hnotes, List.append_nil]
    exact h.nonzero
  · rw [hout]
    exact fun hn => (List.mem_append.mp hn).elim h.won hwon
  · exact bidding_hears h (hf.near.phase (hs hp) hq) (hf'.near.phase hp hq) (hs hp) hp hq hh
  · exact due_hears h h' (hf.near.phase (hs hp)) (hs hp) hp hh
  · exact leaving_hears h (hf.near.phase (hs hp) hq) (hf'.near.phase hp hq) (hs hp) hp hq hh
  · exact (h.behind (hs hp) hq).hears hp h'.nonzero h'.won (h.due (hs hp)) hh

/-- A player that begins, by the seed or by the answer that it hears, leaves its opponent behind. -/
theorem behind_hears (h : Half p q out inn) (h' : Half q p inn out)
    (hph : Phase p q out inn) (hph' : Phase q p inn out) (hs : p.status = .unready)
    (hs' : p'.status ≠ .unready) (hq : q.status = .unready) (hh : Hears p out inn p' out' inn') :
    Behind q out' := by
  cases hh with
  | seed v hp hu =>
    obtain ⟨⟨hr, hy, -, -⟩, -⟩ | ⟨-, hc⟩ := check_cases { p with seedYou := v }
    swap
    · rw [hc] at hs'
      exact absurd hs hs'
    have hr' : p.readyMe = true := hr
    cases hph with
    | asking h1 => exact absurd (h1.symm.trans hr') nofun
    | heard h1 => exact absurd (h1.symm.trans hr') nofun
    | agreed h1 h2 h3 h4 => exact (behind_of_start h' hph' hs hq hy h2 h3).ack
    | leaving h1 h2 h3 h4 h5 h6 h7 =>
      have hl := h.leaving hs hq h1 (mem_of_leaving h5 h7)
      exact absurd (hp.symm.trans hl.2.1) nofun
    | apart h1 => exact absurd (h1.symm.trans hr') nofun
  | readyAck rest hi hw =>
    subst hi
    obtain ⟨⟨-, hy, -, -⟩, -⟩ | ⟨-, hc⟩ := check_cases { p with readyMe := true }
    swap
    · rw [hc] at hs'
      exact absurd hs hs'
    cases hph with
    | asking h1 h2 h3 => cases h3
    | heard h1 h2 h3 rest' h4 h5 => exact behind_of_start h' hph' hs hq hy h2 h5
    | agreed h1 h2 h3 => exact behind_of_start h' hph' hs hq hy h2 h3
    | leaving h1 h2 h3 h4 h5 => cases h5 _ List.mem_cons_self
    | apart h1 h2 h3 h4 h5 => cases h5 _ List.mem_cons_self
  | won rest hi status hst =>
    obtain rfl | ⟨hp, -⟩ := hst
    · exact absurd hs hs'
    · exact absurd (hs.symm.trans hp) nofun
  | _ => exact absurd hs hs'

theorem Half.hears_far (h : Half p q out inn) (h' : Half q p inn out)
    (hf : ReadyFlags.Inv ⟨p, q, out, inn⟩) (hh : Hears p out inn p' out' inn') :
    Half q p' inn' out' := by
  have hs := hh.unready
  obtain ⟨hnotes, hseeds⟩ := hh.reads
  refine ⟨fun hz => h'.nonzero (hseeds _ hz), fun hw => h'.won (hnotes _ hw), fun hq hp => ?_,
    fun hq hy => ?_, fun hq hp hr hn => ?_, fun hq hp => ?_⟩
  · have hold := h'.bidding hq (hs hp)
    cases hh with
    | seed v hi hu =>
      rw [(check_unready hp).1]
      exact hold
    | bid v rest hi hu =>
      subst hi
      exact .inl (hold.resolve_right fun hb => absurd hb.2.2 nofun)
    | nready rest hi hu =>
      subst hi
      exact hold.imp_right fun hb => ⟨hb.1, rfl, hb.2.2⟩
    | readyAck rest hi hw =>
      subst hi
      rw [(check_unready (r := { p with readyMe := true }) hp).1]
      exact hold
    | lateSeed v hi hu | lateBid v rest hi hu | lateNReady rest hi hu => exact absurd (hs hp) hu
    | lateReadyAck rest hi hw | nreadyAck rest hi hw | lateNReadyAck rest hi hw =>
      subst hi
      exact hold
    | ack rest hi =>
      subst hi
      exact hold
    | won rest hi status hst =>
      subst hi
      exact hold
  · obtain ⟨notes, rfl, -⟩ := hh.writes
    exact h'.due hq hy
  · obtain ⟨notes, hout, hbids, -⟩ := hh.writes
    have hn' : .nready ∈ inn.notes ∨ .nreadyAck ∈ out.notes := by
      obtain hn | hn := hn
      · exact .inl (hnotes _ hn)
      · cases hh with
        | nready rest hi hu =>
          subst hi
          exact .inl List.mem_cons_self
        | seed v hi hu | lateSeed v hi hu | bid v rest hi hu => exact .inr (by simpa using hn)
        | _ => exact .inr hn
    obtain ⟨h1, h2, h3⟩ := h'.leaving hq (hs hp) hr hn'
    rw [hout]
    exact ⟨h1, h2, bidsAfter_append h3 (.inr hbids)⟩
  · by_cases hu : p.status = .unready
    · exact behind_hears h h' (hf.near.phase hu hq) (hf.far.phase hq hu) hu hp hq hh
    · have hb := h'.behind hq hu
      cases hh with
      | seed v hi hx | bid v rest hi hx | nready rest hi hx => exact absurd hx hu
      | lateSeed v hi hx => exact hb.ack
      | _ => exact hb

end Hearing

section Steps

variable {g g' : Game}

theorem Inv.swap (h : Inv g) : Inv g.swap := ⟨h.flags.swap, h.far, h.near⟩

theorem Inv.move (h : Inv g) (hm : Move g g') (hf : g'.near.status ≠ .finished) : Inv g' := by
  obtain ⟨p, q, out, inn⟩ := g
  obtain ⟨hflags, h1, h2⟩ := h
  have hflags' := hflags.move hm
  cases hm with
  | idle => exact ⟨hflags, h1, h2⟩
  | hear _ hg =>
    obtain ⟨p', q', out', inn'⟩ := g'
    obtain ⟨rfl, hh⟩ := hears_of_hear hg
    exact ⟨hflags', h1.hears_near h2 hflags hflags' hh, h1.hears_far h2 hflags hh⟩
  | start hs =>
    have hp : p.status ≠ .unready := fun hc => absurd (hc.symm.trans hs) nofun
    exact ⟨hflags', ⟨h1.nonzero, h1.won, nofun, nofun, nofun, nofun⟩, ⟨h2.nonzero, h2.won, nofun,
      h2.due, nofun, fun hq _ => h2.behind hq hp⟩⟩
  | win hs => exact absurd rfl hf

/-- `Careful`, as the abstract protocol sees it. -/
def Aware (g : Game) : Prop :=
  if g.near.readyMe = true then g.inn.seeds = [] else .nready ∉ g.inn.notes

theorem Half.press_near {p q : Racer} {out inn : Lane} (h : Half p q out inn)
    (hs : p.status = .unready) (ha : Aware ⟨p, q, out, inn⟩) {seed : UInt64} (hseed : seed ≠ 0) :
    Half (p.press seed).1 q (out.add (p.press seed).2) inn := by
  unfold Racer.press
  by_cases hr : p.readyMe = true
  · simp only [if_pos hr]
    rw [Aware, if_pos hr] at ha
    obtain ⟨hpending, hbids⟩ := seeds_eq_nil.mp ha
    have hyou : p.readyYou = false := by
      by_contra hy
      have hd := (h.due hs (by simpa using hy)).resolve_left fun hn => hn hpending
      exact absurd (hd.2.symm.trans hr) (by decide)
    refine ⟨?_, ?_, fun _ hq => .inl ?_, h.due, fun _ _ _ _ => ?_, fun _ hq => ?_⟩
    · rw [seeds_add]
      simpa [Note.seed] using h.nonzero
    · simpa using h.won
    · exact (h.bidding hs hq).resolve_right fun hb => absurd (hb.1.symm.trans hr) (by decide)
    · exact ⟨hyou, hpending, bidsAfter_of_no_bids hbids⟩
    · exact absurd ((h.behind hs hq).readyYou.symm.trans hyou) (by decide)
  · simp only [if_neg hr]
    refine ⟨?_, ?_, fun _ _ => .inl hseed, h.due, fun _ _ hr' => absurd hr' hr, fun _ hq => ?_⟩
    · rw [seeds_add]
      simpa [Note.seed] using ⟨h.nonzero, hseed.symm⟩
    · simpa using h.won
    · obtain ⟨h1, h2, h3, h4, h5⟩ := h.behind hs hq
      obtain ⟨hr', -, hrest⟩ := h5.resolve_left fun hn => hr hn.1
      exact ⟨h1, hseed, h3, h4, .inr ⟨hr', rfl, hrest⟩⟩

theorem Half.press_far {p q : Racer} {out inn : Lane} (h : Half q p inn out)
    (hs : p.status = .unready) (ha : Aware ⟨p, q, out, inn⟩) (seed : UInt64) :
    Half q (p.press seed).1 inn (out.add (p.press seed).2) := by
  unfold Racer.press
  by_cases hr : p.readyMe = true
  · simp only [if_pos hr]
    refine ⟨h.nonzero, h.won, h.bidding, h.due, fun hq hp hm hn => ?_, fun _ hp => absurd hs hp⟩
    obtain ⟨h1, h2, h3⟩ := h.leaving hq hp hm (by simpa using hn)
    exact ⟨h1, h2, bidsAfter_append h3 (.inr rfl)⟩
  · simp only [if_neg hr]
    rw [Aware, if_neg hr] at ha
    refine ⟨h.nonzero, h.won, h.bidding, h.due, fun hq hp hm hn => ?_, fun _ hp => absurd hs hp⟩
    have hn' : .nready ∈ inn.notes ∨ .nreadyAck ∈ out.notes := by simpa using hn
    obtain ⟨h1, h2, h3⟩ := h.leaving hq hp hm hn'
    exact ⟨h1, h2, bidsAfter_append h3 (.inl (hn'.resolve_left ha))⟩

theorem Inv.press (h : Inv g) (hs : g.near.status = .unready) (ht : Timely g) (ha : Aware g)
    {seed : UInt64} (hseed : seed ≠ 0) : Inv (press seed g) :=
  ⟨h.flags.press ht seed, h.near.press_near hs ha hseed, h.far.press_far hs ha seed⟩

theorem inv_start : Inv ⟨{}, {}, {}, {}⟩ := by
  have hhalf : Half {} {} {} {} :=
    ⟨List.not_mem_nil, List.not_mem_nil, fun _ _ => .inr ⟨rfl, rfl, rfl⟩, nofun, nofun,
      fun _ hq => absurd rfl hq⟩
  exact ⟨ReadyFlags.inv_start, hhalf, hhalf⟩

theorem not_behind {p : Racer} (h : Behind p {}) : False := by
  obtain ⟨-, hn⟩ | ⟨-, -, rest, hr⟩ := h.next
  · exact hn rfl
  · cases hr

end Steps

section Main

/-- Presses that are patient, and do not cross a seed or a withdrawal of the
opponent. The clock is never zero. -/
def Careful (n : Race) : Act → Prop
  | .ready now => ReadyFlags.Patient n (.ready now) ∧
    (n.near.typingInfo.status = .unready → now ≠ 0 ∧
      if n.near.racingInfo.readyMe = true then seeds n.near n.inn = []
      else ¬ Coming n.near n.inn infoNReady)
  | _ => True

instance (n : Race) : (a : Act) → Decidable (Careful n a)
  | .ready _ => inferInstanceAs (Decidable (_ ∧ _))
  | .timer | .key _ | .receive => .isTrue trivial

/-- Nobody has finished, by its own keys or because the opponent has won. -/
def Unfinished (n : Race) (_ : Act) : Prop :=
  n.near.typingInfo.status ≠ .finished ∧ n.far.typingInfo.status ≠ .finished

instance (n : Race) (a : Act) : Decidable (Unfinished n a) := by
  unfold Unfinished
  infer_instance

variable {random : UInt32 → Nat → Nat} {n n' : Race} {g : Game}

theorem aware_of_careful (h : Refines random n g) {now : UInt64} (hc : Careful n (.ready now))
    (hs : g.near.status = .unready) : now ≠ 0 ∧ Aware g := by
  obtain ⟨hnow, ha⟩ := hc.2 (h.near.status.trans hs)
  rw [h.near.readyMe, seeds_eq h.inn, show infoNReady = noteCode .nready from rfl,
    coming_note h.inn rfl] at ha
  exact ⟨hnow, ha⟩

theorem no_one_sided_start (hn : Start n) {es : List (Side × Act)}
    (hg : Guarded (step (act random)) (Seen Careful) n es)
    (hu : Guarded (step (act random)) (Seen Unfinished) n es)
    (hr : run (step (act random)) n es = some n') (hf : n'.near.typingInfo.status ≠ .finished)
    (hf' : n'.far.typingInfo.status ≠ .finished) (hout : n'.out = []) (hinn : n'.inn = []) :
    n'.near.typingInfo.status = .unready ↔ n'.far.typingInfo.status = .unready := by
  have hboth : Guarded (step (act random)) (Seen fun n a => Careful n a ∧ Unfinished n a) n es :=
    (hg.and hu).mono fun _ _ => id
  obtain ⟨g, hg, hi⟩ := invariant
    (I := fun g => g.near.status ≠ .finished → g.far.status ≠ .finished → Inv g)
    (fun g h hp hq => (h hq hp).swap)
    (fun n a g g' h hp hi hm hs _ => by
      have hi' := hi (h.near.status ▸ hp.2.1) (h.far.status ▸ hp.2.2)
      exact hi'.move hm hs)
    (fun n now g h hp hi hs _ hq => by
      obtain ⟨hnow, ha⟩ := aware_of_careful h hp.1 hs
      exact (hi (by rw [hs]; exact nofun) hq).press hs
        (ReadyFlags.timely_of_patient h hp.1.1 hs) ha hnow)
    (fun _ _ => inv_start) hn hboth hr
  have ho := hg.out
  have hi' := hg.inn
  rw [hout] at ho
  rw [hinn] at hi'
  rw [hg.near.status, hg.far.status]
  obtain ⟨-, h1, h2⟩ := hi (hg.near.status ▸ hf) (hg.far.status ▸ hf')
  rw [lane_of_nil ho, lane_of_nil hi'] at h1 h2
  constructor
  · intro hp
    by_contra hq
    exact not_behind (h1.behind hp hq)
  · intro hq
    by_contra hp
    exact not_behind (h2.behind hq hp)

end Main

section Runs

theorem no_one_sided_start_plain :
    (outcome noRandom oneWord plainRun).near.typingInfo.status = .unready ↔
      (outcome noRandom oneWord plainRun).far.typingInfo.status = .unready :=
  @no_one_sided_start noRandom (duel oneWord) (outcome noRandom oneWord plainRun) (start_duel _)
    plainRun (by decide +kernel) (by decide +kernel) (by decide +kernel) (by decide +kernel)
    (by decide +kernel) (by decide +kernel) (by decide +kernel)

/-- The left player withdraws its bid while the bid of the right one is on its way. -/
def crossingRun : List (Side × Act) :=
  [(.left, .ready 5)] ++ reads .right 1 ++ [(.right, .ready 7)] ++ reads .right 9 ++
    reads .left 1 ++ [(.left, .ready 8)] ++ reads .right 1 ++ reads .left 1 ++ reads .right 1 ++
    reads .left 11 ++ reads .right 1

/-- The right player has heard the withdrawal, but the left one begins all the same. -/
theorem crossing_starts_alone :
    run (step (act noRandom)) (duel oneWord) crossingRun =
        some (outcome noRandom oneWord crossingRun) ∧
      Guarded (step (act noRandom)) (Seen Unfinished) (duel oneWord) crossingRun ∧
      (outcome noRandom oneWord crossingRun).out = [] ∧
      (outcome noRandom oneWord crossingRun).inn = [] ∧
      ¬ ((outcome noRandom oneWord crossingRun).near.typingInfo.status = .unready ↔
        (outcome noRandom oneWord crossingRun).far.typingInfo.status = .unready) ∧
      (outcome noRandom oneWord crossingRun).near.typingInfo.status = .ready ∧
      (outcome noRandom oneWord crossingRun).far.typingInfo.status = .unready := by
  refine ⟨by decide +kernel, by decide +kernel, by decide +kernel, by decide +kernel,
    by decide +kernel, by decide +kernel, by decide +kernel⟩

end Runs

end WriteWise.RaceStart
