import ZondDaemon.Scans.Converge

/-!
# The tail is the log

What a watch has written at any moment of it, said of the log alone: snapshot frames stamped with a mark the
log stood at, then the entries numbered right after the mark, one after the other. Where the mark and the
snapshot came from is a fact about the run (`Marked`): two moments of it, the store being read at the later.
-/

namespace ZondDaemon

open Proto Sequence

variable {E : Engine}

namespace Watch

variable {w w' : Watch E} {entries : List (Event E.ScopedIp)} {scan : Scan E}

/-- The entries right after the mark, in their order. -/
def Continues (entries : List (Event E.ScopedIp)) (mark : Nat) (tail : List (Event E.ScopedIp)) : Prop :=
  ∀ (n : Nat) event, tail[n]? = some event → entries[mark + n]? = some event ∧ event.seq = mark + n + 1

theorem continues_slice (hn : Numbered Event.seq entries) (mark cursor : Nat) :
    Continues entries mark (slice mark cursor entries) := by
  intro n event hget
  rw [slice, List.getElem?_drop, List.getElem?_take] at hget
  split_ifs at hget
  exact ⟨hget, hn _ _ hget⟩

theorem Continues.pairwise {mark : Nat} {snapshot tail : List (Event E.ScopedIp)}
    (hsnapshot : ∀ event ∈ snapshot, event.seq = mark) (h : Continues entries mark tail) :
    (snapshot ++ tail).Pairwise fun one other => one.seq ≤ other.seq := by
  rw [List.pairwise_append]
  refine ⟨?_, ?_, ?_⟩
  · rw [List.pairwise_iff_forall_sublist]
    intro one other hsub
    have hone := hsnapshot one (hsub.subset List.mem_cons_self)
    have hother := hsnapshot other (hsub.subset (List.mem_cons_of_mem one List.mem_cons_self))
    omega
  · rw [List.pairwise_iff_getElem]
    intro i j hi hj hij
    have hone := (h i _ (List.getElem?_eq_getElem hi)).2
    have hother := (h j _ (List.getElem?_eq_getElem hj)).2
    omega
  · intro one hone other hother
    obtain ⟨n, hn⟩ := List.mem_iff_getElem?.mp hother
    have hseq := (h n other hn).2
    have hmark := hsnapshot one hone
    omega

/-- What a watch has written: so much of its snapshot, and once that is whole, entries past the mark. It does not
end before it is. -/
theorem Faithful.split (hn : Numbered Event.seq entries) (h : w.Faithful entries) :
    ∃ snapshot tail, w.events = snapshot ++ tail ∧ Continues entries w.start tail ∧
      (w.caughtUp = none → snapshot = []) ∧
      ∀ caughtUp, w.caughtUp = some caughtUp → snapshot <+: caughtUp ∧
        (tail = [] ∧ (∀ cursor, w.pc ≠ .ended cursor) ∨ snapshot = caughtUp) := by
  have hnil : Continues entries w.start [] := by
    intro n event hget
    cases hget
  have hupto : ∀ cursor, w.Upto entries cursor → ∃ snapshot tail, w.events = snapshot ++ tail ∧
      Continues entries w.start tail ∧ (w.caughtUp = none → snapshot = []) ∧
      ∀ caughtUp, w.caughtUp = some caughtUp → snapshot <+: caughtUp ∧
        (tail = [] ∧ (∀ cursor, w.pc ≠ .ended cursor) ∨ snapshot = caughtUp) := by
    intro cursor hupto
    refine ⟨_, _, hupto.told, continues_slice hn _ _, ?_, ?_⟩
    · intro hnone
      rw [hnone, Option.getD_none]
    · intro caughtUp hsome
      rw [hsome, Option.getD_some]
      exact ⟨List.prefix_refl _, .inr rfl⟩
  unfold Faithful at h
  split at h
  case h_1 hpc =>
    refine ⟨[], [], h.2.1, hnil, fun _ => rfl, fun caughtUp hsome => ?_⟩
    exact ⟨List.nil_prefix, .inl ⟨rfl, by simp [hpc]⟩⟩
  case h_2 hpc =>
    refine ⟨[], [], h.2.1, hnil, fun _ => rfl, fun caughtUp hsome => ?_⟩
    exact ⟨List.nil_prefix, .inl ⟨rfl, by simp [hpc]⟩⟩
  case h_3 left cursor hpc =>
    -- still writing the snapshot
    obtain ⟨-, -, hsnap⟩ := h
    refine ⟨w.events, [], (List.append_nil _).symm, hnil, ?_, ?_⟩
    · intro hnone
      rw [hnone] at hsnap
      cases hsnap
    · intro caughtUp hsome
      rw [hsnap] at hsome
      cases hsome
      exact ⟨List.prefix_append _ _, .inl ⟨rfl, by simp [hpc]⟩⟩
  case h_4 => exact hupto _ h.2.1
  case h_5 => exact hupto _ h.2.1
  case h_6 => exact hupto _ h.2
  case h_7 => exact hupto _ h.2

theorem Faithful.start_of_ne (h : w.Faithful entries) (hne : w.fromSeq ≠ 0) :
    w.start = w.fromSeq ∧ w.caughtUp = none := by
  have hbegun : w.Begun entries → w.start = w.fromSeq ∧ w.caughtUp = none := by
    rintro (⟨hzero, -⟩ | ⟨-, hstart, hnone⟩)
    · exact absurd hzero hne
    · exact ⟨hstart, hnone⟩
  unfold Faithful at h
  split at h
  case h_1 => exact absurd h.1 hne
  case h_2 => exact absurd h.1 hne
  all_goals exact hbegun h.1

theorem step_marked (h : w.step scan = some w') {seq : Nat} (hpc : w'.pc = .marked seq) :
    seq = scan.log.watermark := by
  unfold step at h
  split at h
  case h_1 =>
    cases h
    cases hpc
    rfl
  case h_7 =>
    obtain ⟨call', -, rfl⟩ := Option.map_eq_some_iff.mp h
    cases hpc
  all_goals
    cases h
    try cases hpc

theorem Faithful.opened (h : w.Faithful entries) (hzero : w.fromSeq = 0) :
    (w.events = [] ∧ w.caughtUp = none ∧ ∀ cursor, w.pc ≠ .ended cursor) ∨
      ∃ caughtUp, w.caughtUp = some caughtUp := by
  have hbegun : w.Begun entries → ∃ caughtUp, w.caughtUp = some caughtUp := by
    rintro (⟨-, -, caughtUp, hsome, -⟩ | ⟨hne, -⟩)
    · exact ⟨caughtUp, hsome⟩
    · exact absurd hzero hne
  unfold Faithful at h
  split at h
  case h_1 hpc => exact .inl ⟨h.2.1, h.2.2, by simp [hpc]⟩
  case h_2 hpc => exact .inl ⟨h.2.1, h.2.2.1, by simp [hpc]⟩
  all_goals exact .inr (hbegun h.1)

end Watch

namespace Live

variable {P : Live E → Act E → Prop} {s l m u : Live E} {a : Act E} {w : Watch E} {i : Nat}

/-- The log stood at the mark at some moment of the run from `s` to `l`, and at a later one, `m`, the store
was read. -/
def MarkedAt (P : Live E → Act E → Prop) (s l : Live E) (mark : Nat) (m : Live E) : Prop :=
  ∃ earlier, (machine E).Reach P s earlier ∧ earlier.log.watermark = mark ∧
    (machine E).Reach P earlier m ∧ (machine E).Reach P m l

/-- Where a watch's mark and its snapshot are from. -/
structure Marked (P : Live E → Act E → Prop) (s l : Live E) (w : Watch E) : Prop where
  mark : ∀ seq, w.pc = .marked seq → MarkedAt P s l seq l
  snapshot : ∀ caughtUp, w.caughtUp = some caughtUp →
    ∃ m, MarkedAt P s l w.start m ∧ caughtUp = m.sitting.scan.snapshotAt w.start

theorem MarkedAt.tail {mark : Nat} (h : MarkedAt P s l mark m) (hP : P l a) (hstep : l.step a = some u) :
    MarkedAt P s u mark m := by
  obtain ⟨earlier, hearlier, hmark, hm, hl⟩ := h
  exact ⟨earlier, hearlier, hmark, hm, hl.tail hP hstep⟩

theorem MarkedAt.on {mark : Nat} (h : MarkedAt P s l mark l) (hP : P l a) (hstep : l.step a = some u) :
    MarkedAt P s u mark u := by
  obtain ⟨earlier, hearlier, hmark, hm, -⟩ := h
  exact ⟨earlier, hearlier, hmark, hm.tail hP hstep, .refl⟩

theorem Marked.tail (h : Marked P s l w) (hP : P l a) (hstep : l.step a = some u) : Marked P s u w where
  mark seq hpc := (h.mark seq hpc).on hP hstep
  snapshot caughtUp hsome := by
    obtain ⟨m, hm, heq⟩ := h.snapshot caughtUp hsome
    exact ⟨m, hm.tail hP hstep, heq⟩

theorem step_marked (h : (machine E).Reach P s l) (hP : P l a) (hstep : l.step a = some u)
    (hl : ∀ i w, (l.clients i).watching = some w → Marked P s l w) :
    ∀ i w, (u.clients i).watching = some w → Marked P s u w := by
  intro j w' hw'
  rcases step_cases hstep with ⟨act, sitting, -, -, rfl⟩ | ⟨i, c, rfl, -, hc⟩
  · exact (hl j w' hw').tail hP hstep
  · by_cases hj : j = i
    · subst hj
      have hself : (l.set j c).clients j = c := Function.update_self ..
      rw [hself] at hw'
      rcases hc with ⟨cursor, rfl⟩ | ⟨fromSeq, rfl⟩ | hclient | ⟨w, hw, rfl⟩
      · cases hw'
      · cases hw'
        refine ⟨fun seq hpc => ?_, fun caughtUp hsome => ?_⟩
        · by_cases hzero : fromSeq = 0 <;> simp [Watch.call, hzero] at hpc
        · cases hsome
      · cases hlw : l.clients j with
        | watch w =>
          rw [hlw] at hclient
          obtain ⟨w'', hstepped, rfl⟩ := Option.map_eq_some_iff.mp hclient
          cases hw'
          have hmarked := hl j w (by rw [hlw]; rfl)
          refine ⟨fun seq hpc => ?_, fun caughtUp hsome => ?_⟩
          · have hseq := Watch.step_marked hstepped hpc
            exact ⟨l, h, hseq.symm, Machine.Reach.refl.tail hP hstep, .refl⟩
          · rcases Watch.step_caughtUp hstepped with ⟨hsame, hstart⟩ | ⟨seq, hpc, hsnap, hstart⟩
            · rw [hsame] at hsome
              obtain ⟨m, hm, heq⟩ := hmarked.snapshot caughtUp hsome
              rw [hstart]
              exact ⟨m, hm.tail hP hstep, heq⟩
            · rw [hsnap] at hsome
              cases hsome
              rw [hstart]
              exact ⟨l, (hmarked.mark seq hpc).tail hP hstep, rfl⟩
        | _ =>
          rw [hlw] at hclient
          first
          | cases hclient
          | obtain ⟨call, -, rfl⟩ := Option.map_eq_some_iff.mp hclient
            cases hw'
      · cases hw'
        exact (hl j w' (by rw [hw]; rfl)).tail hP hstep
    · have hother : (l.set i c).clients j = l.clients j := Function.update_of_ne hj ..
      rw [hother] at hw'
      exact (hl j w' hw').tail hP hstep

section runs
variable {id : String} {progress : Engine.Progress} {redaction : Redaction}

theorem reach_marked (h : (machine E).Reach P (start (.fresh id progress redaction)) l) :
    ∀ i w, (l.clients i).watching = some w → Marked P (start (.fresh id progress redaction)) l w :=
  h.invariant
    (I := fun l => ∀ i w, (l.clients i).watching = some w → Marked P (start (.fresh id progress redaction)) l w)
    (fun _ _ hw => by cases hw) fun ht hl hP hstep => step_marked ht hP hstep hl

/-- **What a watch has written is so much of a snapshot stamped with a mark the log stood at, and then the
log's entries right after the mark, in order and each once**, at any moment, and from any number. -/
theorem tail_of_reach (h : (machine E).Reach P (start (.fresh id progress redaction)) l)
    (hw : (l.clients i).watching = some w) :
    (w.events.Pairwise fun one other => one.seq ≤ other.seq) ∧
    ∃ mark snapshot tail, w.events = snapshot ++ tail ∧
      (∀ (n : Nat) event, tail[n]? = some event →
        l.log.entries[mark + n]? = some event ∧ event.seq = mark + n + 1) ∧
      (w.fromSeq ≠ 0 → mark = w.fromSeq ∧ snapshot = []) ∧
      (w.fromSeq = 0 → (∀ event ∈ snapshot, event.seq = mark) ∧
        ∃ m, MarkedAt P (start (.fresh id progress redaction)) l mark m ∧
          snapshot <+: m.sitting.scan.snapshotAt mark ∧
          (tail = [] ∨ snapshot = m.sitting.scan.snapshotAt mark)) := by
  have hfaithful := (reach_faithful h i).watching hw
  have hmarked := reach_marked h i w hw
  obtain ⟨snapshot, tail, hevents, hcontinues, hnone, hsome⟩ := hfaithful.split (reach_wellNumbered h)
  by_cases hzero : w.fromSeq = 0
  · rcases hfaithful.opened hzero with ⟨hnothing, -⟩ | ⟨caughtUp, hcaughtUp⟩
    · -- nothing is written yet, so any mark will do
      rw [hnothing]
      refine ⟨.nil, l.log.watermark, [], [], rfl, nofun, fun hne => absurd hzero hne, fun _ => ⟨nofun, l, ?_⟩⟩
      exact ⟨⟨l, h, rfl, .refl, .refl⟩, List.nil_prefix, .inl rfl⟩
    · obtain ⟨m, hm, rfl⟩ := hmarked.snapshot caughtUp hcaughtUp
      obtain ⟨hpre, htail⟩ := hsome _ hcaughtUp
      have hseq : ∀ event ∈ snapshot, event.seq = w.start := fun event hmem =>
        Scan.snapshotAt_seq (hpre.subset hmem)
      refine ⟨?_, w.start, snapshot, tail, hevents, hcontinues, fun hne => absurd hzero hne, fun _ => ?_⟩
      · rw [hevents]
        exact hcontinues.pairwise hseq
      · exact ⟨hseq, m, hm, hpre, htail.imp_left And.left⟩
  · obtain ⟨hstart, hcaughtUp⟩ := hfaithful.start_of_ne hzero
    have hsnapshot := hnone hcaughtUp
    subst hsnapshot
    refine ⟨?_, w.start, [], tail, hevents, hcontinues, fun _ => ⟨hstart, rfl⟩, fun heq => absurd heq hzero⟩
    rw [hevents]
    exact hcontinues.pairwise (by simp)

end runs

/-- A watch whose snapshot is newer than entries past its mark. -/
theorem tail_of_reach_crossing : (crossed.clients 0).watching = some crossedWatch ∧
    (crossedWatch.events.Pairwise fun one other => one.seq ≤ other.seq) ∧
    crossedWatch.events.map Event.seq = [0, 0, 1, 2, 3] := by
  have hw : (crossed.clients 0).watching = some crossedWatch := (Option.some_get _).symm
  exact ⟨hw, (tail_of_reach crossed_reach hw).1, by decide +kernel⟩

end Live

end ZondDaemon
