import ZondDaemon.Server.Tasks

/-!
# Nobody reads

`unread` is a daemon without its readers: the registry, the calls, the scans, the directory, and nobody
watching. Every step that is not a reader's does to the one what it does to the other (`step_unread`), so
readers leave no trace and hold nothing up, whatever they are at and whether or not they are still there
(`traceless`).
-/

namespace ZondDaemon

variable {E : Engine}

namespace Live

/-- The scan with nobody reading it. -/
def unread (l : Live E) : Live E := .start l.sitting

variable {l : Live E} {a : Sitting.Act E}

theorem step_unread : (l.step (.sitting a)).map unread = l.unread.step (.sitting a) := by
  simp only [step, unread, start, Option.map_map]
  rfl

theorem unread_of_reads {m : Live E} {act : Act E} (hact : ∀ a, act ≠ .sitting a) (h : l.step act = some m) :
    m.unread = l.unread := by
  rcases step_sitting h with heq | ⟨a, rfl, -⟩
  · rw [unread, heq, unread]
  · exact absurd rfl (hact a)

end Live

namespace Daemon

/-- The daemon with nobody reading anything. -/
def unread (d : Daemon E) : Daemon E := { d with scans := d.scans.map Live.unread, watches := [] }

/-- A step of a reader. -/
def onlyReads : Act E → Bool
  | .watch _ _ _ => true
  | .read _ => true
  | .scan _ (.sitting _) => false
  | .scan _ _ => true
  | _ => false

variable {rules : Rules E} {d d' e : Daemon E} {a : Act E} {i j : Nat} {call : Call E} {l : Live E}

theorem getElem?_unread (j : Nat) : d.unread.scans[j]? = (d.scans[j]?).map Live.unread := List.getElem?_map

theorem scans_unread (m : Live E) : (d.scans.set j m).map Live.unread = d.unread.scans.set j m.unread :=
  List.map_set

theorem proceed_unread : (d.proceed i call).map unread = d.unread.proceed i call := by
  obtain ⟨request, pc⟩ := call
  cases pc with
  | running program slot =>
    cases program with
    | ret sitting => simp [proceed, unread, goes, Live.unread, Live.start]
    | fail | ask => rfl
  | filing j slot =>
    simp only [proceed, getElem?_unread, Option.map_map]
    rfl
  | following j slot =>
    simp only [proceed, getElem?_unread]
    cases d.scans[j]? with
    | none => rfl
    | some l =>
      simp only [Option.map_some, Option.bind_some, ← Live.step_unread, Option.map_map]
      refine congrArg (Option.map · _) (funext fun m => ?_)
      simp only [Function.comp, unread, goes, scans_unread]
      rfl
  | loading | reserving | dropping | returned => rfl

theorem within_unread {act : Sitting.Act E} :
    (d.within j (.sitting act) l).map unread = d.unread.within j (.sitting act) l.unread := by
  simp only [within, ← Live.step_unread, Option.map_map]
  refine congrArg (Option.map · _) (funext fun m => ?_)
  simp only [Function.comp, unread, scans_unread]
  rfl

theorem reserve_unread {spurious : Bool} :
    (d.reserve rules i spurious call).map unread = d.unread.reserve rules i spurious call := by
  obtain ⟨request, pc⟩ := call
  cases pc with
  | reserving taken =>
    unfold reserve
    dsimp only
    by_cases hmost : rules.most ≤ taken
    · rw [if_pos hmost, if_pos hmost]
      rfl
    · rw [if_neg hmost, if_neg hmost]
      by_cases hsame : (!spurious && d.taken == taken) = true
      · rw [if_pos hsame]
        exact (if_pos hsame).symm
      · rw [if_neg hsame]
        exact (if_neg hsame).symm
  | loading | running | filing | following | dropping | returned => rfl

theorem answer_unread {world : (q : Query E) → Option q.Answer} :
    (d.answer i world call).map unread = d.unread.answer i world call := by
  obtain ⟨request, pc⟩ := call
  cases pc with
  | running program slot =>
    cases program with
    | ask q k =>
      simp only [answer, Option.map_map]
      refine congrArg (Option.map · _) (funext fun answer => ?_)
      cases q <;> rfl
    | ret | fail => rfl
  | loading | reserving | filing | following | dropping | returned => rfl

theorem abandon_unread : (d.abandon i call).map unread = d.unread.abandon i call := by
  obtain ⟨request, pc⟩ := call
  cases pc with
  | running program slot =>
    cases program with
    | ask q k =>
      simp only [abandon]
      split_ifs <;> rfl
    | ret | fail => rfl
  | loading | reserving | filing | following | dropping | returned => rfl

/-- **A step that is not a reader's is the same with nobody reading.** -/
theorem step_unread (ha : onlyReads a = false) : (d.step rules a).map unread = d.unread.step rules a := by
  have hcall : ∀ {f g : Call E → Option (Daemon E)} {i : Nat}, (∀ call, (f call).map unread = g call) →
      ((d.calls[i]?).bind f).map unread = (d.unread.calls[i]?).bind g := by
    intro f g i hfg
    rw [Option.map_bind]
    exact congrArg (Option.bind _) (funext hfg)
  cases a with
  | arrive request | store entries => rfl
  | reserve i spurious => exact hcall fun _ => reserve_unread
  | answer i world => exact hcall fun _ => answer_unread
  | proceed i => exact hcall fun _ => proceed_unread
  | abandon i => exact hcall fun _ => abandon_unread
  | scan j act =>
    cases act with
    | sitting act =>
      cases hfree : freely (.sitting act : Live.Act E) with
      | false => simp [step, hfree]
      | true =>
        simp only [step, hfree, if_true, getElem?_unread, Option.map_bind, Option.bind_map]
        exact congrArg (Option.bind _) (funext fun _ => within_unread)
    | after | watch | client | lose => cases ha
  | watch | read => cases ha

/-- **A step of a reader is no step at all.** -/
theorem unread_of_reads (ha : onlyReads a = true) (h : d.step rules a = some d') : d'.unread = d.unread := by
  have hset : ∀ {j : Nat} {l m : Live E}, d.scans[j]? = some l → m.unread = l.unread →
      (d.scans.set j m).map Live.unread = d.scans.map Live.unread := by
    intro j l m hl hm
    obtain ⟨hlt, rfl⟩ := List.getElem?_eq_some_iff.mp hl
    rw [List.map_set, hm, ← List.map_set, List.set_getElem_self]
  cases a with
  | watch i id fromSeq =>
    simp only [step, watch] at h
    split at h
    · cases h
      rfl
    · cases h
      rfl
    · obtain ⟨l, hl, h⟩ := Option.bind_eq_some_iff.mp h
      obtain ⟨m, hm, rfl⟩ := Option.map_eq_some_iff.mp h
      simp only [unread, hset hl (Live.unread_of_reads (by simp) hm)]
  | read k =>
    obtain ⟨v, -, h⟩ := Option.bind_eq_some_iff.mp h
    obtain ⟨w, -, rfl⟩ := Option.map_eq_some_iff.mp h
    rfl
  | scan j act =>
    have hsitting : ∀ a, act ≠ .sitting a := by
      rintro a rfl
      cases ha
    simp only [step] at h
    split_ifs at h
    obtain ⟨l, hl, h⟩ := Option.bind_eq_some_iff.mp h
    obtain ⟨m, hm, rfl⟩ := Option.map_eq_some_iff.mp h
    have hunread := Live.unread_of_reads hsitting hm
    have hsame : m.sitting = l.sitting := (Live.mk.inj hunread).1
    simp only [unread, hset hl hunread, hsame, Bool.and_not_self]
    rfl
  | arrive | reserve | answer | proceed | abandon | store => cases ha

/-! ## Over whole runs -/

/-- What becomes of a daemon becomes of it with nobody reading. -/
theorem unread_reach {P : Daemon E → Act E → Prop} (h : (machine rules).Reach P d d') :
    (machine rules).Reach (fun _ a => onlyReads a = false) d.unread d'.unread := by
  induction h with
  | refl => exact .refl
  | @tail t u a _ _ hstep ih =>
    cases ha : onlyReads a with
    | true => exact unread_of_reads ha hstep ▸ ih
    | false =>
      refine ih.tail ha ?_
      exact (step_unread ha).symm.trans (congrArg (Option.map unread) hstep)

/-- And what could become of it with nobody reading can become of it. -/
theorem reach_unread {P : Act E → Prop} (hP : ∀ a, P a → onlyReads a = false)
    (h : (machine rules).Reach (fun _ a => P a) d.unread e) :
    ∃ d', (machine rules).Reach (fun _ a => P a) d d' ∧ d'.unread = e := by
  induction h with
  | refl => exact ⟨d, .refl, rfl⟩
  | @tail t u a _ ha hstep ih =>
    obtain ⟨t', ht', rfl⟩ := ih
    obtain ⟨u', hu', rfl⟩ := Option.map_eq_some_iff.mp ((step_unread (hP a ha)).trans hstep)
    exact ⟨u', ht'.tail ha hu', rfl⟩

end Daemon

namespace Server

variable {o : Outside E} {rules : Rules E} {s s' : Server E} {d : Daemon E}

theorem reach_daemon (h : (Daemon.machine rules).Reach (fun _ a => own a = true) s.daemon d) :
    (machine o rules).Reach Machine.Always s { s with daemon := d } := by
  induction h with
  | refl => exact .refl
  | @tail t u a _ ha hstep ih =>
    refine ih.tail (a := .daemon a) trivial ?_
    have hu : t.step rules a = some u := hstep
    simp only [machine, step, ha, if_true, hu, Option.map_some]

theorem onlyReads_of_own {a : Daemon.Act E} (h : own a = true) : Daemon.onlyReads a = false := by
  cases a with
  | scan j act =>
    cases act with
    | sitting => rfl
    | after | watch | client | lose => cases h
  | watch | read => cases h
  | arrive | reserve | answer | proceed | abandon | store => rfl

/-- **Readers leave no trace and hold nothing up**: what becomes of the scans, the calls, the registry and the
directory in a run of the server becomes of them in a run in which nobody reads; and from every state the
server can be in, with whatever readers, at whatever point, the daemon's own work can go every way it could go
with nobody reading, every connection left as it is. -/
theorem traceless {P : Server E → Act E → Prop} (h : (machine o rules).Reach P s s') :
    (Daemon.machine rules).Reach (fun _ a => Daemon.onlyReads a = false) s.daemon.unread s'.daemon.unread ∧
      ∀ e, (Daemon.machine rules).Reach (fun _ a => own a = true) s'.daemon.unread e →
        ∃ d, (machine o rules).Reach Machine.Always s' { s' with daemon := d } ∧ d.unread = e := by
  refine ⟨Daemon.unread_reach (daemon_later h), fun e he => ?_⟩
  obtain ⟨d, hd, hunread⟩ := Daemon.reach_unread (fun _ => onlyReads_of_own) he
  exact ⟨d, reach_daemon hd, hunread⟩

theorem traceless_answered :
    (Daemon.machine Daemon.recording).Reach (fun _ a => Daemon.onlyReads a = false)
        (Daemon.fresh (.ok [])).unread
      answered.daemon.unread ∧ answered.daemon.unread.scans.length = 1 := by
  have hlength : answered.daemon.unread.scans.length = answered.daemon.scans.length := by
    rw [Daemon.unread, List.length_map]
  exact ⟨(traceless (reach_started.trans reach_answered)).1, hlength.trans answered_seen.2.2⟩

end Server

end ZondDaemon
