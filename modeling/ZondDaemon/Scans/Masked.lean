import ZondDaemon.Scans.Live

/-!
# What nobody sees of a scan that is masked

`Veil` says which hosts, and which reports, differ in nothing but what is masked. Two live scans are alike
where they differ in no more than that and their findings are handed out masked: whatever can happen to the
one can happen to the other, and whoever watches them is told the same (`Live.mirrors`).
-/

namespace ZondDaemon

open Proto Sequence

variable {E : Engine}

/-- Which hosts, and which reports, differ only in what is masked: what is written of them masked is the
same. -/
structure Veil (E : Engine) where
  host : E.Host → E.Host → Prop
  report : E.ScanReport → E.ScanReport → Prop
  host_refl : ∀ x, host x x
  report_refl : ∀ r, report r r
  scopedIp : ∀ x y, host x y → E.scopedIp x = E.scopedIp y
  document : ∀ x y, host x y → E.document .standard x = E.document .standard y
  exportReport : ∀ r s writer, report r s →
    E.exportReport writer .standard r = E.exportReport writer .standard s
  merge : ∀ rs ss, List.Forall₂ (fun one other => one.1 = other.1 ∧ report one.2 other.2) rs ss →
    report (E.merge rs) (E.merge ss)

namespace Veil

variable (v : Veil E)

/-- What the engine's task came to, but for what is masked in a report. -/
inductive Outcome : Except EngineError E.ScanReport → Except EngineError E.ScanReport → Prop
  | ok {r s : E.ScanReport} : v.report r s → Outcome (.ok r) (.ok s)
  | error (e : EngineError) : Outcome (.error e) (.error e)

theorem Outcome.refl (outcome : Except EngineError E.ScanReport) : v.Outcome outcome outcome := by
  cases outcome with
  | ok r => exact .ok (v.report_refl r)
  | error e => exact .error e

theorem rel_report_refl (report : Option E.ScanReport) : Option.Rel v.report report report := by
  cases report with
  | none => exact .none
  | some report => exact .some (v.report_refl report)

end Veil

namespace Scan

/-- Scans handed out masked that differ in nothing else than what is masked of their hosts and reports. -/
structure Alike (v : Veil E) (s t : Scan E) : Prop where
  masked : s.redaction = .standard
  id : t.id = s.id
  hosts : List.Forall₂ v.host s.hosts.items t.hosts.items
  reckoning : t.reckoning = s.reckoning
  handle : t.handle = s.handle
  log : t.log = s.log
  redaction : t.redaction = s.redaction
  report : Option.Rel v.report s.report t.report

variable {v : Veil E} {s t : Scan E}

theorem Alike.refl (v : Veil E) (h : s.redaction = .standard) : s.Alike v s where
  masked := h
  id := rfl
  hosts := List.forall₂_same.mpr fun host _ => v.host_refl host
  reckoning := rfl
  handle := rfl
  log := rfl
  redaction := rfl
  report := v.rel_report_refl s.report

theorem Alike.document (h : s.Alike v t) {x y : E.Host} (hxy : v.host x y) :
    E.document t.redaction y = E.document s.redaction x := by
  rw [h.redaction, h.masked]
  exact (v.document x y hxy).symm

theorem Alike.documentOf (h : s.Alike v t) (address : E.ScopedIp) :
    t.documentOf address = s.documentOf address := by
  have hget := Keyed.get_rel v.scopedIp h.hosts address
  unfold Scan.documentOf
  generalize s.hosts.get address = one, t.hosts.get address = other at hget
  cases hget with
  | none => rfl
  | some hxy => exact h.document hxy

theorem Alike.progress (h : s.Alike v t) : t.progress = s.progress := by
  rw [Scan.progress, Scan.progress, h.reckoning]

theorem Alike.snapshotAt (h : s.Alike v t) (seq : Nat) : t.snapshotAt seq = s.snapshotAt seq := by
  have hhosts := h.hosts
  rw [Scan.snapshotAt, Scan.snapshotAt, h.progress]
  congr 1
  generalize s.hosts.items = items, t.hosts.items = items' at hhosts
  induction hhosts with
  | nil => rfl
  | cons hxy _ ih => rw [List.filterMap_cons, List.filterMap_cons, ih, h.document hxy, v.scopedIp _ _ hxy]

end Scan

namespace Sitting

/-- Where the followers stand, but for what is masked in the report they carry. -/
inductive FollowerAlike (v : Veil E) : Follower E → Follower E → Prop
  | same (f : Follower E) : FollowerAlike v f f
  | settling {o o' : Except EngineError E.ScanReport} : v.Outcome o o' →
      FollowerAlike v (.settling o) (.settling o')
  | concluding {o o' : Except EngineError E.ScanReport} : v.Outcome o o' →
      FollowerAlike v (.concluding o) (.concluding o')

structure Alike (v : Veil E) (s t : Sitting E) : Prop where
  scan : s.scan.Alike v t.scan
  events : t.events = s.events
  hungUp : t.hungUp = s.hungUp
  task : Option.Rel v.Outcome s.task t.task
  follower : FollowerAlike v s.follower t.follower
  slot : t.slot = s.slot
  past : t.past = s.past
  owed : t.owed = s.owed

/-- The same thing happens, but for what is masked of the host stored or of the report come to. -/
inductive Act.Alike (v : Veil E) : Act E → Act E → Prop
  | same (a : Act E) : Alike v a a
  | update {x y : E.Host} : v.host x y → Alike v (.update x) (.update y)
  | finish {o o' : Except EngineError E.ScanReport} : v.Outcome o o' → Alike v (.finish o) (.finish o')

variable {v : Veil E} {s t s' : Sitting E}

theorem Alike.refl (v : Veil E) (h : s.scan.redaction = .standard) : s.Alike v s where
  scan := .refl v h
  events := rfl
  hungUp := rfl
  task := by
    cases s.task with
    | none => exact .none
    | some outcome => exact .some (.refl v outcome)
  follower := .same s.follower
  slot := rfl
  past := rfl
  owed := rfl

theorem Alike.update (h : s.Alike v t) {x y : E.Host} (hxy : v.host x y)
    (hstep : s.step (.update x) = some s') : ∃ t', t.step (.update y) = some t' ∧ s'.Alike v t' := by
  have hpast : t.pastWith y = s.pastWith x := by
    rw [Sitting.pastWith, Sitting.pastWith, h.past, h.scan.documentOf, h.scan.document hxy, v.scopedIp x y hxy]
  cases hstep
  refine ⟨_, rfl, { h with scan := { h.scan with hosts := ?_ }, past := ?_, owed := ?_ }⟩
  · exact Keyed.put_forall₂ v.scopedIp h.scan.hosts hxy
  · show Function.update t.past _ _ = Function.update s.past _ _
    rw [h.past, hpast, v.scopedIp x y hxy]
  · show E.scopedIp y :: t.owed = E.scopedIp x :: s.owed
    rw [h.owed, v.scopedIp x y hxy]

theorem Alike.finish (h : s.Alike v t) {o o' : Except EngineError E.ScanReport} (ho : v.Outcome o o')
    (hstep : s.step (.finish o) = some s') : ∃ t', t.step (.finish o') = some t' ∧ s'.Alike v t' := by
  have htask := h.task
  simp only [step] at hstep ⊢
  cases hs : s.task with
  | some outcome =>
    rw [hs] at hstep
    cases hstep
  | none =>
    rw [hs] at hstep htask
    cases hstep
    cases ht : t.task with
    | some outcome =>
      rw [ht] at htask
      cases htask
    | none => exact ⟨_, rfl, { h with task := .some ho }⟩

theorem FollowerAlike.eq {f g : Follower E} (h : FollowerAlike v f g) (hsettling : ∀ o, f ≠ .settling o)
    (hconcluding : ∀ o, f ≠ .concluding o) : g = f := by
  cases h with
  | same => rfl
  | settling => exact absurd rfl (hsettling _)
  | concluding => exact absurd rfl (hconcluding _)

theorem FollowerAlike.of_settling {o : Except EngineError E.ScanReport} {g : Follower E}
    (h : FollowerAlike v (.settling o) g) : ∃ o', g = .settling o' ∧ v.Outcome o o' := by
  cases h with
  | same => exact ⟨o, rfl, .refl v o⟩
  | settling ho => exact ⟨_, rfl, ho⟩

theorem FollowerAlike.of_concluding {o : Except EngineError E.ScanReport} {g : Follower E}
    (h : FollowerAlike v (.concluding o) g) : ∃ o', g = .concluding o' ∧ v.Outcome o o' := by
  cases h with
  | same => exact ⟨o, rfl, .refl v o⟩
  | concluding ho => exact ⟨_, rfl, ho⟩

theorem Alike.follow (h : s.Alike v t) (hstep : s.follow = some s') :
    ∃ t', t.follow = some t' ∧ s'.Alike v t' := by
  have hsame : ∀ f, s.follower = f → (∀ o, f ≠ .settling o) → (∀ o, f ≠ .concluding o) → t.follower = f := by
    intro f hf hsettling hconcluding
    exact (hf ▸ h.follower).eq hsettling hconcluding
  cases follows_of_follow hstep with
  | hears hevents hf =>
    refine ⟨_, follow_of_follows (.hears (h.events.trans hevents) (hsame _ hf nofun nofun)), ?_⟩
    exact { h with events := rfl, follower := .same _ }
  | joins hevents hhung hf =>
    refine ⟨_, follow_of_follows (.joins (h.events.trans hevents) (h.hungUp.trans hhung)
      (hsame _ hf nofun nofun)), ?_⟩
    exact { h with follower := .same _ }
  | looks hdocument hf =>
    refine ⟨_, follow_of_follows (.looks ((h.scan.documentOf _).trans hdocument) (hsame _ hf nofun nofun)), ?_⟩
    exact { h with follower := .same _ }
  | passes hnone hf =>
    refine ⟨_, follow_of_follows (.passes ((h.scan.documentOf _).trans hnone) (hsame _ hf nofun nofun)), ?_⟩
    exact { h with follower := .same _ }
  | knows hseen hf =>
    refine ⟨_, follow_of_follows (.knows (h.scan.log ▸ hseen) (hsame _ hf nofun nofun)), ?_⟩
    exact { h with scan := { h.scan with log := by rw [h.scan.log] }, follower := .same _ }
  | learns hseen hf =>
    refine ⟨_, follow_of_follows (.learns (h.scan.log ▸ hseen) (hsame _ hf nofun nofun)), ?_⟩
    exact { h with scan := { h.scan with log := by rw [h.scan.log] }, follower := .same _ }
  | measures hf =>
    refine ⟨_, follow_of_follows (.measures (hsame _ hf nofun nofun)), ?_⟩
    exact { h with follower := h.scan.progress ▸ .same _ }
  | pushes hf =>
    refine ⟨_, follow_of_follows (.pushes (hsame _ hf nofun nofun)), ?_⟩
    exact { h with scan := { h.scan with log := by rw [h.scan.log] }, follower := .same _ }
  | notifies hf =>
    refine ⟨_, follow_of_follows (.notifies (hsame _ hf nofun nofun)), ?_⟩
    exact { h with scan := { h.scan with log := by rw [h.scan.log] }, follower := .same _ }
  | meets htask hf =>
    have hrel := h.task
    rw [htask] at hrel
    generalize htask' : t.task = task at hrel
    cases hrel with
    | some ho =>
      refine ⟨_, follow_of_follows (.meets htask' (hsame _ hf nofun nofun)), ?_⟩
      exact { h with follower := .settling ho }
  | settles hf =>
    obtain ⟨o', hf', ho⟩ := (hf ▸ h.follower).of_settling
    refine ⟨_, follow_of_follows (.settles hf'), ?_⟩
    refine { h with scan := { h.scan with report := ?_ }, follower := .concluding ho }
    cases ho with
    | ok hreport => exact .some hreport
    | error e => exact h.scan.report
  | @concludes o hf =>
    obtain ⟨o', hf', ho⟩ := (hf ▸ h.follower).of_concluding
    have hcause : t.concludes o' = s.concludes o := by
      cases ho with
      | ok => rw [Sitting.concludes, Sitting.concludes, h.scan.handle]
      | error => rfl
    refine ⟨_, follow_of_follows (.concludes hf'), ?_⟩
    exact { h with follower := hcause ▸ .same _ }
  | shuts hf =>
    refine ⟨_, follow_of_follows (.shuts (hsame _ hf nofun nofun)), ?_⟩
    exact { h with scan := { h.scan with log := by rw [h.scan.log] }, follower := .same _ }
  | wakes hf =>
    refine ⟨_, follow_of_follows (.wakes (hsame _ hf nofun nofun)), ?_⟩
    exact { h with scan := { h.scan with log := by rw [h.scan.log] }, follower := .same _ }
  | releases hf =>
    refine ⟨_, follow_of_follows (.releases (hsame _ hf nofun nofun)), ?_⟩
    exact { h with slot := rfl, follower := .same _ }

theorem Alike.raise (h : s.Alike v t) (i : Nat) (hstep : s.step (.raise i) = some s') :
    ∃ t', t.step (.raise i) = some t' ∧ s'.Alike v t' := by
  cases hstep
  exact ⟨_, rfl, { h with scan := { h.scan with hosts := Keyed.raise_forall₂ h.scan.hosts i } }⟩

theorem mirrors (v : Veil E) : (machine E).Mirrors (Alike v) (Act.Alike v) := by
  intro s t a a' s' h ha hstep
  cases ha with
  | update hxy => exact h.update hxy hstep
  | finish ho => exact h.finish ho hstep
  | same =>
    cases a with
    | update host => exact h.update (v.host_refl host) hstep
    | finish outcome => exact h.finish (.refl v outcome) hstep
    | follow => exact h.follow hstep
    | raise i => exact h.raise i hstep
    | announce event =>
      simp only [machine, step] at hstep ⊢
      rw [h.hungUp]
      split at hstep <;> cases hstep
      rename_i hopen
      rw [if_neg hopen]
      exact ⟨_, rfl, { h with events := by rw [h.events], hungUp := rfl, owed := by rw [h.owed] }⟩
    | lag missed =>
      simp only [machine, step] at hstep ⊢
      rw [h.events]
      split at hstep <;> cases hstep
      rename_i hle
      rw [if_pos hle]
      exact ⟨_, rfl, { h with events := rfl }⟩
    | hangUp =>
      cases hstep
      exact ⟨_, rfl, { h with hungUp := rfl }⟩
    | moves progress =>
      cases hstep
      exact ⟨_, rfl, { h with scan := { h.scan with reckoning := rfl } }⟩
    | halts cause =>
      cases hstep
      exact ⟨_, rfl, { h with scan := { h.scan with handle := rfl } }⟩
    | stop reports =>
      cases hstep
      exact ⟨_, rfl, { h with scan := { h.scan with handle := rfl } }⟩
    | spawn slot =>
      simp only [machine, step] at hstep ⊢
      split at hstep <;> cases hstep
      rename_i hunborn
      have hunborn' : t.follower = .unborn :=
        (hunborn ▸ h.follower).eq (fun _ heq => by cases heq) (fun _ heq => by cases heq)
      rw [hunborn']
      exact ⟨_, rfl, { h with follower := .same _, slot := rfl }⟩

end Sitting

namespace Client

variable {v : Veil E} {s t : Scan E}

theorem step_alike (h : s.Alike v t) (c : Client E) : c.step t = c.step s := by
  have hafter : ∀ (cursor : Nat) (call : After E), call.step t cursor = call.step s cursor := by
    intro cursor call
    cases call <;> simp only [After.step, h.log]
  cases c with
  | after cursor call => simp only [step, hafter]
  | watch w =>
    simp only [step]
    congr 1
    unfold Watch.step
    simp only [h.log, h.snapshotAt, hafter]
  | _ => rfl

end Client

namespace Live

/-- Live scans alike, with the same clients at the same points of their calls. -/
structure Alike (v : Veil E) (l m : Live E) : Prop where
  sitting : l.sitting.Alike v m.sitting
  clients : m.clients = l.clients

inductive Act.Alike (v : Veil E) : Act E → Act E → Prop
  | same (a : Act E) : Alike v a a
  | sitting {a b : Sitting.Act E} : a.Alike v b → Alike v (.sitting a) (.sitting b)

variable {v : Veil E} {l m l' : Live E}

theorem Alike.set (h : l.Alike v m) (i : Nat) (c : Client E) : (l.set i c).Alike v (m.set i c) where
  sitting := h.sitting
  clients := by
    show Function.update m.clients i c = Function.update l.clients i c
    rw [h.clients]

theorem Alike.step_sitting (h : l.Alike v m) {a b : Sitting.Act E} (hab : a.Alike v b)
    (hstep : l.step (.sitting a) = some l') : ∃ m', m.step (.sitting b) = some m' ∧ l'.Alike v m' := by
  obtain ⟨s, hs, rfl⟩ := Option.map_eq_some_iff.mp hstep
  obtain ⟨t, ht, hst⟩ := Sitting.mirrors v _ _ _ _ _ h.sitting hab hs
  exact ⟨_, Option.map_eq_some_iff.mpr ⟨t, ht, rfl⟩, hst, h.clients⟩

/-- **Whatever can happen to a scan that is masked can happen to one alike, and everybody who watches them is
told the same.** -/
theorem mirrors (v : Veil E) : (machine E).Mirrors (Alike v) (Act.Alike v) := by
  intro l m a b l' h hab hstep
  cases hab with
  | sitting hab => exact h.step_sitting hab hstep
  | same =>
    cases a with
    | sitting a => exact h.step_sitting (.same a) hstep
    | after i cursor =>
      simp only [machine, step] at hstep ⊢
      rw [h.clients]
      split at hstep <;> cases hstep
      exact ⟨_, rfl, h.set i _⟩
    | watch i fromSeq =>
      simp only [machine, step] at hstep ⊢
      rw [h.clients]
      split at hstep <;> cases hstep
      exact ⟨_, rfl, h.set i _⟩
    | client i =>
      obtain ⟨c, hc, rfl⟩ := Option.map_eq_some_iff.mp hstep
      refine ⟨_, Option.map_eq_some_iff.mpr ⟨c, ?_, rfl⟩, h.set i c⟩
      rw [h.clients, Client.step_alike h.sitting.scan, hc]
    | lose i =>
      simp only [machine, step] at hstep ⊢
      rw [h.clients]
      split at hstep <;> cases hstep
      exact ⟨_, rfl, h.set i _⟩

end Live

end ZondDaemon
