import ZondDaemon.Daemon.Slots
import ZondDaemon.Scans.Over

/-!
# One name, one numbering

A log numbers its own entries, and a name is a log's as long as no other scan is filed under it. In a run of
`Novel` steps a scan is filed only under a name nobody has been told of, so a scan has its name to itself
from the first entry of its log on (`Named`), and a number a client was given for the name stays where it is.
-/

namespace ZondDaemon

open Proto Sequence

variable {E : Engine}

namespace Live

variable {l m : Live E} {a : Act E}

/-- Nothing has been said in the scan's log, and nobody has asked. -/
structure Untouched (l : Live E) : Prop where
  phase : l.sitting.follower.phase = .unborn
  entries : l.log.entries = []
  clients : ∀ i, l.clients i = .idle

theorem untouched_start (id : String) (progress : Engine.Progress) (redaction : Redaction) :
    (start (.fresh id progress redaction) : Live E).Untouched :=
  ⟨rfl, rfl, fun _ => rfl⟩

theorem Untouched.step (hl : l.Untouched) (hfree : Daemon.freely a = true) (h : l.step a = some m) :
    m.Untouched := by
  have hgoing : l.sitting.follower.phase ≠ .going := by
    rw [hl.phase]
    nofun
  have hphase : m.sitting.follower.phase = .unborn := by
    rcases Daemon.step_phase h (Daemon.spawn_of_freely hfree) with ⟨hsame, -⟩ | ⟨hwas, -, -⟩
    · exact hsame.trans hl.phase
    · exact absurd hwas hgoing
  cases a with
  | sitting act =>
    obtain ⟨s, hs, rfl⟩ := Option.map_eq_some_iff.mp h
    refine ⟨hphase, ?_, hl.clients⟩
    rcases Sitting.step_log hs with ⟨hsame, -, -⟩ | ⟨body, next, hf, -, -⟩ | ⟨-, hf, -, -⟩
    · exact hsame.trans hl.entries
    · rw [hf] at hgoing
      exact absurd rfl hgoing
    · rw [hf] at hgoing
      exact absurd rfl hgoing
  | client i =>
    simp only [Live.step, hl.clients i] at h
    cases h
  | lose i =>
    simp only [Live.step, hl.clients i] at h
    cases h
  | _ => cases hfree

end Live

namespace Daemon

variable {rules : Rules E} {d d' : Daemon E} {a : Act E} {i j : Nat} {call : Call E} {pc : CallPc E}
  {l l' : Live E}

/-- A scan is filed only under a name no scan is filed under and no watch was answered from the record of,
and a scan's flag is set behind no reader's back. -/
def Novel (d : Daemon E) : Act E → Prop
  | .proceed i => ∀ call j slot l, d.calls[i]? = some call → call.pc = .filing j slot →
      d.scans[j]? = some l → d.inner l.sitting.scan.id = none ∧
        ∀ v ∈ d.watches, v.recorded.id ≠ l.sitting.scan.id
  | .scan j act => ∀ l, d.scans[j]? = some l → l.Unhurried act
  | _ => True

/-- A scan that is not filed is one nobody knows of, and nobody has read a record of a name that is filed. -/
structure Named (d : Daemon E) : Prop where
  unfiled : ∀ j l, d.scans[j]? = some l → d.inner l.sitting.scan.id ≠ some j → l.Untouched
  following : ∀ call ∈ d.calls, ∀ j slot, call.pc = .following j slot →
    ∃ l, d.scans[j]? = some l ∧ d.inner l.sitting.scan.id = some j
  recorded : ∀ v ∈ d.watches, d.inner v.recorded.id = none

theorem fresh_named (store : Except EngineError (List (Entry E.toEngineTypes))) :
    Named (fresh store : Daemon E) where
  unfiled j l hl := by simp [fresh] at hl
  following _ h := by cases h
  recorded _ h := by cases h

theorem Named.same (h : Named d) (hinner : d'.inner = d.inner) (hscans : d'.scans = d.scans)
    (hcalls : ∀ call ∈ d'.calls, call ∈ d.calls ∨ ∀ j slot, call.pc ≠ .following j slot)
    (hwatches : ∀ v ∈ d'.watches, d.inner v.recorded.id = none) : Named d' where
  unfiled j l hl hj := h.unfiled j l (hscans ▸ hl) (hinner ▸ hj)
  following call hcall j slot hpc := by
    rw [hscans, hinner]
    rcases hcalls call hcall with hcall | hnot
    · exact h.following call hcall j slot hpc
    · exact absurd hpc (hnot j slot)
  recorded v hv := by
    rw [hinner]
    exact hwatches v hv

theorem Named.step (h : Named d) (hl : d.scans[j]? = some l)
    (hid : l'.sitting.scan.id = l.sitting.scan.id)
    (huntouched : d.inner l.sitting.scan.id ≠ some j → l.Untouched → l'.Untouched)
    (hinner : d'.inner = d.inner) (hscans : d'.scans = d.scans.set j l')
    (hcalls : ∀ call ∈ d'.calls, call ∈ d.calls ∨ ∀ j slot, call.pc ≠ .following j slot)
    (hwatches : d'.watches = d.watches) : Named d' := by
  have hself : d'.scans[j]? = some l' := by
    rw [hscans, List.getElem?_set_self (List.getElem?_eq_some_iff.mp hl).1]
  have hother : ∀ k, j ≠ k → d'.scans[k]? = d.scans[k]? := by
    intro k hk
    rw [hscans, List.getElem?_set_ne hk]
  -- whatever was in some place is there still, under the same name
  have hkept : ∀ (k : Nat) (m : Live E), d.scans[k]? = some m →
      ∃ m' : Live E, d'.scans[k]? = some m' ∧ m'.sitting.scan.id = m.sitting.scan.id := by
    intro k m hm
    by_cases hjk : j = k
    · subst hjk
      cases hl.symm.trans hm
      exact ⟨l', hself, hid⟩
    · exact ⟨m, (hother k hjk).trans hm, rfl⟩
  constructor
  · intro k m hm hk
    rw [hinner] at hk
    by_cases hjk : j = k
    · subst hjk
      cases hself.symm.trans hm
      rw [hid] at hk
      exact huntouched hk (h.unfiled j l hl hk)
    · rw [hother k hjk] at hm
      exact h.unfiled k m hm hk
  · intro call hcall k slot hpc
    rw [hinner]
    rcases hcalls call hcall with hcall | hnot
    · obtain ⟨m, hm, hfiled⟩ := h.following call hcall k slot hpc
      obtain ⟨m', hm', hname⟩ := hkept k m hm
      exact ⟨m', hm', hname ▸ hfiled⟩
    · exact absurd hpc (hnot k slot)
  · rw [hinner, hwatches]
    exact h.recorded

theorem Named.build (h : Named d) {id : String} {progress : Engine.Progress} {redaction : Redaction}
    (hinner : d'.inner = d.inner)
    (hscans : d'.scans = d.scans ++ [Live.start (.fresh id progress redaction)])
    (hcalls : ∀ call ∈ d'.calls, call ∈ d.calls ∨ ∀ j slot, call.pc ≠ .following j slot)
    (hwatches : d'.watches = d.watches) : Named d' := by
  constructor
  · intro k m hm hk
    rw [hscans] at hm
    rw [hinner] at hk
    by_cases hlt : k < d.scans.length
    · rw [List.getElem?_append_left hlt] at hm
      exact h.unfiled k m hm hk
    · rw [List.getElem?_append_right (by omega)] at hm
      obtain ⟨hone, rfl⟩ := List.getElem?_eq_some_iff.mp hm
      rw [List.getElem_singleton]
      exact Live.untouched_start id progress redaction
  · intro call hcall k slot hpc
    rw [hscans, hinner]
    rcases hcalls call hcall with hcall | hnot
    · obtain ⟨m, hm, hfiled⟩ := h.following call hcall k slot hpc
      refine ⟨m, ?_, hfiled⟩
      rw [List.getElem?_append_left (List.getElem?_eq_some_iff.mp hm).1, hm]
    · exact absurd hpc (hnot k slot)
  · rw [hinner, hwatches]
    exact h.recorded

theorem Named.file (h : Named d) (hl : d.scans[j]? = some l) (hnone : d.inner l.sitting.scan.id = none)
    (hunread : ∀ v ∈ d.watches, v.recorded.id ≠ l.sitting.scan.id)
    (hinner : d'.inner = Function.update d.inner l.sitting.scan.id (some j)) (hscans : d'.scans = d.scans)
    (hcalls : ∀ call ∈ d'.calls, call ∈ d.calls ∨ ∀ k slot, call.pc = .following k slot → k = j)
    (hwatches : d'.watches = d.watches) : Named d' := by
  -- the name was nobody's, so every name that was somebody's is what it was
  have hother : ∀ name k, d.inner name = some k → d'.inner name = some k := by
    intro name k hk
    rw [hinner, Function.update_of_ne]
    · exact hk
    · rintro rfl
      rw [hnone] at hk
      cases hk
  constructor
  · intro k m hm hk
    rw [hscans] at hm
    exact h.unfiled k m hm fun hfiled => hk (hother _ _ hfiled)
  · intro call hcall k slot hpc
    rw [hscans]
    rcases hcalls call hcall with hcall | hfiles
    · obtain ⟨m, hm, hfiled⟩ := h.following call hcall k slot hpc
      exact ⟨m, hm, hother _ _ hfiled⟩
    · rw [hfiles k slot hpc]
      refine ⟨l, hl, ?_⟩
      rw [hinner, Function.update_self]
  · intro v hv
    rw [hwatches] at hv
    rw [hinner, Function.update_of_ne (hunread v hv)]
    exact h.recorded v hv

theorem following_goes (hpc : ∀ j slot, pc ≠ .following j slot) :
    ∀ other ∈ (d.goes i call pc).calls, other ∈ d.calls ∨ ∀ j slot, other.pc ≠ .following j slot := by
  intro other hother
  rcases mem_goes hother with hother | rfl
  · exact .inl hother
  · exact .inr hpc

theorem moves_named (h : Moves rules d a d') (hsound : ∀ call ∈ d.calls, Sound call) (hfiled : Filed d)
    (hP : Novel d a) (hd : Named d) : Named d' := by
  cases h with
  | arrives request =>
    refine hd.same rfl rfl (fun call hcall => ?_) hd.recorded
    rcases List.mem_append.mp hcall with hcall | hcall
    · exact .inl hcall
    · rw [List.mem_singleton.mp hcall]
      refine .inr fun j slot hpc => ?_
      have hnone := (arriving_slot rules request).2
      rw [hpc] at hnone
      cases hnone
  | tries hcall hpc hnext =>
    refine hd.same rfl rfl (following_goes ?_) hd.recorded
    rcases hnext with ⟨taken, rfl⟩ | rfl <;> exact fun _ _ => nofun
  | reserves hcall hpc hroom => exact hd.same rfl rfl (following_goes fun _ _ => nofun) hd.recorded
  | answers answer hcall hpc => exact hd.same rfl rfl (following_goes fun _ _ => nofun) hd.recorded
  | leaves hcall hpc => exact hd.same rfl rfl (following_goes fun _ _ => nofun) hd.recorded
  | drops hcall hpc => exact hd.same rfl rfl (following_goes fun _ _ => nofun) hd.recorded
  | @builds i call sitting slot hcall hpc =>
    obtain ⟨id, progress, redaction, rfl⟩ := (hsound call (List.mem_of_getElem? hcall)).fresh_of_ret hpc
    exact hd.build rfl rfl (following_goes fun _ _ => nofun) rfl
  | @files i j call slot l hcall hpc hl =>
    obtain ⟨hnone, hunread⟩ := hP call j slot l hcall hpc hl
    refine hd.file hl hnone hunread rfl rfl (fun other hother => ?_) rfl
    rcases mem_goes hother with hother | rfl
    · exact .inl hother
    · refine .inr fun k slot' hpc' => ?_
      cases hpc'
      rfl
  | @follows i j call slot l l' hcall hpc hl hstep =>
    obtain ⟨m, hm, hfiled⟩ := hd.following call (List.mem_of_getElem? hcall) j slot hpc
    cases hl.symm.trans hm
    exact hd.step hl (Live.step_id hstep) (fun hnot => absurd hfiled hnot) rfl rfl
      (following_goes fun _ _ => nofun) rfl
  | scan hl hfree hstep =>
    exact hd.step hl (Live.step_id hstep) (fun _ hl => hl.step hfree hstep) rfl rfl (fun _ => .inl) rfl
  | @watches i j id fromSeq l l' hinner hl hstep =>
    obtain ⟨m, hm, rfl⟩ := hfiled id j hinner
    cases hl.symm.trans hm
    exact hd.step hl (Live.step_id hstep) (fun hnot => absurd hinner hnot) rfl rfl (fun _ => .inl) rfl
  | @opens i id fromSeq record hinner hread =>
    refine hd.same rfl rfl (fun _ => .inl) fun v hv => ?_
    rcases List.mem_append.mp hv with hv | hv
    · exact hd.recorded v hv
    · rw [List.mem_singleton.mp hv, Recorded.id_of_read hread]
      exact hinner
  | misses => exact hd
  | @reads k v w hv hstep =>
    refine hd.same rfl rfl (fun _ => .inl) fun other hother => ?_
    rcases List.mem_or_eq_of_mem_set hother with hother | rfl
    · exact hd.recorded other hother
    · exact hd.recorded v (List.mem_of_getElem? hv)
  | stores entries => exact hd.same rfl rfl (fun _ => .inl) hd.recorded

/-! ## Over whole runs -/

/-- A client has been given this number for an event of the scan so named. -/
def Received (d : Daemon E) (id : String) (n : Nat) : Prop :=
  (∃ (j : Nat) (l : Live E), d.scans[j]? = some l ∧ l.sitting.scan.id = id ∧
      ∃ i w, (l.clients i).watching = some w ∧ ∃ event ∈ w.events, event.seq = n) ∨
  ∃ v ∈ d.watches, v.recorded.id = id ∧ ∃ event ∈ v.watch.events, event.seq = n

section runs
variable {store : Except EngineError (List (Entry E.toEngineTypes))}

theorem reach_named (h : (machine rules).Reach Novel (fresh store) d) : Named d :=
  h.invariant (I := Named) (fresh_named store) fun ht hd hP hstep =>
    moves_named (moves_of_step hstep) (reach_sound ht) (reach_filed ht) hP hd

theorem inner_stays {id : String} (h : (machine rules).Reach Novel d d') (hj : d.inner id = some j) :
    d'.inner id = some j := by
  refine h.invariant (I := fun d => d.inner id = some j) hj fun _ ht hP hstep => ?_
  rcases moves_inner (moves_of_step hstep) with hsame | ⟨i, k, call, slot, l, rfl, hcall, hpc, hl, hinner⟩
  · rw [hsame]
    exact ht
  · obtain ⟨hnone, -⟩ := hP call k slot l hcall hpc hl
    rw [hinner, Function.update_of_ne]
    · exact ht
    · rintro rfl
      rw [hnone] at ht
      cases ht

theorem watches_stay {P : Daemon E → Act E → Prop} {v : RecordedWatch E}
    (h : (machine rules).Reach P d d') (hv : v ∈ d.watches) :
    ∃ v' ∈ d'.watches, v'.recorded = v.recorded := by
  refine h.invariant (I := fun t : Daemon E => ∃ v' ∈ t.watches, v'.recorded = v.recorded) ⟨v, hv, rfl⟩
    fun {t u a} _ ht _ hstep => ?_
  obtain ⟨v', hv', heq⟩ := ht
  cases moves_of_step hstep with
  | opens hinner hread => exact ⟨v', List.mem_append_left _ hv', heq⟩
  | @reads k other w hother hstep =>
    obtain ⟨m, hm⟩ := List.getElem?_of_mem hv'
    by_cases hkm : k = m
    · subst hkm
      cases hother.symm.trans hm
      exact ⟨_, List.mem_set (List.getElem?_eq_some_iff.mp hother).1 _, heq⟩
    · refine ⟨v', List.mem_of_getElem? (i := m) ?_, heq⟩
      rw [List.getElem?_set_ne hkm, hm]
  | _ => exact ⟨v', hv', heq⟩

/-- A scan that has said something has its name to itself. -/
theorem inner_of_mem (h : (machine rules).Reach Novel (fresh store) d) (hl : d.scans[j]? = some l)
    {entry : Event E.ScopedIp} (hentry : entry ∈ l.log.entries) :
    d.inner l.sitting.scan.id = some j := by
  by_contra hnot
  rw [((reach_named h).unfiled j l hl hnot).entries] at hentry
  cases hentry

theorem scan_unhurried (h : (machine rules).Reach Novel (fresh store) d) (hl : d.scans[j]? = some l) :
    Begun Live.Unhurried l :=
  scan_reach (fun _ _ l _ hP hl => hP l hl) (fun _ _ => trivial) (fun _ _ _ _ _ _ => trivial) h hl

/-- Whatever number a client has been given for a name, the log that has the name has got there. -/
theorem received_le {id : String} {n : Nat} (h : (machine rules).Reach Novel (fresh store) d)
    (hn : d.Received id n) {entry : Event E.ScopedIp} (h' : (machine rules).Reach Novel d d')
    (hl' : d'.scans[j]? = some l') (hid : l'.sitting.scan.id = id) (hentry : entry ∈ l'.log.entries) :
    ∃ l, d.scans[j]? = some l ∧ n ≤ l.log.entries.length := by
  have hfiled := inner_of_mem (h.trans h') hl' hentry
  rw [hid] at hfiled
  rcases hn with ⟨k, l, hl, rfl, i, w, hw, event, hevent, rfl⟩ | ⟨v, hv, rfl, -⟩
  · have hown : d.inner l.sitting.scan.id = some k := by
      by_contra hnot
      rw [((reach_named h).unfiled k l hl hnot).clients i] at hw
      cases hw
    have hjk := (inner_stays h' hown).symm.trans hfiled
    cases hjk
    obtain ⟨id, progress, redaction, hreach⟩ := scan_unhurried h hl
    have hfaithful := (Live.reach_faithful hreach i).watching hw
    exact ⟨l, hl, hfaithful.seq_le (Live.reach_wellNumbered hreach) event hevent⟩
  · obtain ⟨v', hv', heq⟩ := watches_stay h' hv
    have hnone := (reach_named (h.trans h')).recorded v' hv'
    rw [heq, hfiled] at hnone
    cases hnone

/-- **No number is given to two entries of scans of one name, and a client that comes back from a number it
was given is told everything that was written under the name since.** -/
theorem numbering (h : (machine rules).Reach Novel (fresh store) d)
    (h' : (machine rules).Reach Novel d d') :
    (∀ (j k : Nat) (l l' : Live E), d.scans[j]? = some l → d'.scans[k]? = some l' →
      l.sitting.scan.id = l'.sitting.scan.id → ∀ one ∈ l.log.entries, ∀ other ∈ l'.log.entries,
        one.seq = other.seq → one = other) ∧
    ∀ id n, d.Received id n → 0 < n → ∀ (j : Nat) (l' : Live E), d'.scans[j]? = some l' →
      l'.sitting.scan.id = id → ∀ entry ∈ l'.log.entries,
        (∀ l, d.scans[j]? = some l → entry ∉ l.log.entries) →
        n < entry.seq ∧ d'.get rules id = .ok (.live j) ∧
        ∀ i w, l'.clients i = .watch w → w.fromSeq = n → Frame.ended ∈ w.written →
          .event entry ∈ w.written := by
  constructor
  · intro j k l l' hl hl' hid one hone other hother heq
    obtain ⟨m, hm, hreach⟩ := later h' hl
    have hone' : one ∈ m.log.entries := (Live.reach_grows hreach).subset hone
    have hj := inner_of_mem (h.trans h') hm hone'
    have hk := inner_of_mem (h.trans h') hl' hother
    rw [Live.reach_id hreach, hid, hk] at hj
    cases hj
    cases hm.symm.trans hl'
    obtain ⟨id, progress, redaction, hbegun⟩ := scan_unhurried (h.trans h') hl'
    exact (Live.reach_wellNumbered hbegun).inj hone' hother heq
  · intro id n hn hpos j l' hl' hid entry hentry hnew
    obtain ⟨l, hl, hle⟩ := received_le h hn h' hl' hid hentry
    obtain ⟨m, hm, hreach⟩ := later h' hl
    cases hm.symm.trans hl'
    obtain ⟨name, progress, redaction, hbegun⟩ := scan_unhurried (h.trans h') hl'
    have hnumbered := Live.reach_wellNumbered hbegun
    have hlt : n < entry.seq := by
      by_contra hge
      exact hnew l hl (hnumbered.mem_of_initial (Live.reach_grows hreach) hentry (by omega))
    have hfiled := inner_of_mem (h.trans h') hl' hentry
    rw [hid] at hfiled
    refine ⟨hlt, by rw [get, hfiled], fun i w hw hfrom hended => ?_⟩
    obtain ⟨-, hbegan, cursor, hupto, hpassed⟩ := Live.upto_of_over hbegun hw hended
    have hstart : w.start = n := by
      rcases hbegan with ⟨hzero, -⟩ | ⟨-, hsame, -⟩
      · omega
      · omega
    exact Watch.mem_events.mp (hupto.mem hnumbered hentry (by omega) (hpassed entry hentry))

end runs

/-! ### Runs of a few clients -/

/-- What `Novel` asks where the clients of a scan are the first `n`. -/
def novel (n : Nat) (d : Daemon E) : Act E → Bool
  | .proceed i => match (d.calls[i]?).map Call.pc with
    | some (.filing j _) => (d.scans[j]?).all fun l => (d.inner l.sitting.scan.id).isNone &&
        d.watches.all fun v => v.recorded.id != l.sitting.scan.id
    | _ => true
  | .scan j act => (d.scans[j]?).all fun l => Live.unhurried n l act
  | .watch i _ _ => i < n
  | _ => true

theorem novel_sound {n : Nat} (hidle : ∀ (j : Nat) (l : Live E), d.scans[j]? = some l →
    ∀ i, n ≤ i → l.clients i = .idle) (h : novel n d a = true) : Novel d a := by
  unfold Novel
  split
  · intro call j slot l hcall hpc hl
    simp only [novel, hcall, Option.map_some, hpc, hl, Option.all_some, Bool.and_eq_true,
      Option.isNone_iff_eq_none, List.all_eq_true, bne_iff_ne] at h
    exact h
  · intro l hl
    simp only [novel, hl, Option.all_some] at h
    exact Live.unhurried_sound (hidle _ l hl) h
  · trivial

theorem reach_novel {n : Nat} {store : Except EngineError (List (Entry E.toEngineTypes))}
    (h : (machine rules).Reach (fun d a => novel n d a = true) (fresh store) d)
    (h' : (machine rules).Reach (fun d a => novel n d a = true) d d') :
    (machine rules).Reach Novel d d' := by
  have hown : ∀ (d : Daemon E) (j : Nat) (l : Live E) (act : Live.Act E),
      novel n d (.scan j act) = true → d.scans[j]? = some l → Live.unhurried n l act = true := by
    intro d j l act hP hl
    simp only [novel, hl, Option.all_some] at hP
    exact hP
  refine h'.weaken fun t a ht hcheck => novel_sound (fun j l hl => ?_) hcheck
  obtain ⟨id, progress, redaction, hreach⟩ := scan_reach
    (Q := fun l act => Live.unhurried n l act = true) hown (fun _ _ => rfl) (fun _ _ _ _ _ hP => hP)
    (h.trans ht) hl
  exact Live.idle_of_le (fun _ _ h => h) hreach

/-- A daemon of the plain engine that writes its scans down. -/
def recording : Rules Plain.engine where
  root := true
  scope := ⟨none, Plain.engine.newSet⟩
  audit := ⟨false⟩
  ceiling := none
  ceiling_le := Rules.none_le

/-- The call `i` comes to a scan, all it asks going well. -/
def comesToScan (i : Nat) (request : Request Plain.engine) (asked : Nat) : List (Act Plain.engine) :=
  [.arrive request, .reserve i false, .reserve i false] ++
    List.replicate asked (.answer i fun q => some (Plain.world q)) ++ List.replicate 3 (.proceed i)

/-- The scan `j` finds a host and says so. -/
def finds (j : Nat) (host : Nat × String) : List (Act Plain.engine) :=
  [.scan j (.sitting (.update host)), .scan j (.sitting (.announce (.hostUpdated host.1)))] ++
    List.replicate 5 (.scan j (.sitting .follow))

/-- Client `i` of the scan `j` reads on. -/
def reads (i j steps : Nat) : List (Act Plain.engine) := List.replicate steps (.scan j (.client i))

/-- A client is told of a host, and its connection is lost. -/
def cutOff : List (Act Plain.engine) :=
  comesToScan 0 (.start { targets := ["10"] }) 7 ++ [.watch 0 "A" 0] ++ reads 0 0 4 ++
    finds 0 (1, "open 22") ++ reads 0 0 5 ++ [.scan 0 (.lose 0)]

/-- Another host is found, the scan ends, and the client comes back from where it was. -/
def comesBack : List (Act Plain.engine) :=
  finds 0 (2, "open 80") ++ untilOver 0 (.ok []) ++ [.watch 1 "A" 1] ++ reads 1 0 12

theorem cutOff_isSome : ((machine recording).runIf (novel 2) (fresh (.ok [])) cutOff).isSome := by
  decide +kernel

def wasCutOff : Daemon Plain.engine :=
  ((machine recording).runIf (novel 2) (fresh (.ok [])) cutOff).get cutOff_isSome

theorem comesBack_isSome : ((machine recording).runIf (novel 2) wasCutOff comesBack).isSome := by
  decide +kernel

def cameBack : Daemon Plain.engine :=
  ((machine recording).runIf (novel 2) wasCutOff comesBack).get comesBack_isSome

/-- What the daemon's first scan has come to. -/
def scanBefore : Live Plain.engine := (wasCutOff.scans[0]?).get (by decide +kernel)

def scanAfter : Live Plain.engine := (cameBack.scans[0]?).get (by decide +kernel)

def backWatch : Watch Plain.engine := (scanAfter.clients 1).watching.get (by decide +kernel)

theorem numbering_cameBack : wasCutOff.Received "A" 1 ∧
    ∀ entry ∈ scanAfter.log.entries, entry ∉ scanBefore.log.entries →
      1 < entry.seq ∧ .event entry ∈ backWatch.written := by
  have hcutOff := Machine.Reach.of_runIf (P := fun d a => novel 2 d a = true) (fun _ _ h => h)
    (Option.some_get cutOff_isSome).symm
  have hcomesBack := Machine.Reach.of_runIf (P := fun d a => novel 2 d a = true) (fun _ _ h => h)
    (Option.some_get comesBack_isSome).symm
  have hreceived : wasCutOff.Received "A" 1 := by
    refine .inl ⟨0, scanBefore, rfl, rfl, 0, _, rfl, ?_⟩
    decide +kernel
  refine ⟨hreceived, fun entry hentry hnew => ?_⟩
  obtain ⟨hlt, -, htold⟩ := (numbering (reach_novel .refl hcutOff) (reach_novel hcutOff hcomesBack)).2
    "A" 1 hreceived Nat.one_pos 0 scanAfter rfl rfl entry hentry fun l hl => by
      cases hl
      exact hnew
  exact ⟨hlt, htold 1 backWatch rfl rfl (by decide +kernel)⟩

/-- A scan is stopped part way, and a client is told all of it. -/
def firstSitting : List (Act Plain.engine) :=
  comesToScan 0 (.start { targets := ["10"] }) 7 ++ [.watch 0 "A" 0] ++ reads 0 0 4 ++
    finds 0 (1, "open 22") ++ reads 0 0 5 ++ [.scan 0 (.sitting (.stop (some .aborted)))] ++
    untilOver 0 (.ok [(1, "open 22")]) ++ reads 0 0 9

/-- The scan is resumed and finds another host, and the client comes back from where it was. -/
def secondSitting : List (Act Plain.engine) :=
  [.store (.ok [⟨"A", "A", 0, "1 probe", 1, .portScan, .free, false, none, .ok [(1, "open 22")]⟩])] ++
    comesToScan 1 (.resume "A") 4 ++ finds 1 (2, "open 80") ++ untilOver 1 (.ok []) ++
    [.watch 0 "A" 2] ++ reads 0 1 5

theorem firstSitting_isSome : ((machine recording).run (fresh (.ok [])) firstSitting).isSome := by
  decide +kernel

def satOnce : Daemon Plain.engine :=
  ((machine recording).run (fresh (.ok [])) firstSitting).get firstSitting_isSome

theorem secondSitting_isSome : ((machine recording).run satOnce secondSitting).isSome := by
  decide +kernel

def satTwice : Daemon Plain.engine :=
  ((machine recording).run satOnce secondSitting).get secondSitting_isSome

def firstScan : Live Plain.engine := (satOnce.scans[0]?).get (by decide +kernel)

def secondScan : Live Plain.engine := (satTwice.scans[1]?).get (by decide +kernel)

def firstWatch : Watch Plain.engine := (firstScan.clients 0).watching.get (by decide +kernel)

def secondWatch : Watch Plain.engine := (secondScan.clients 0).watching.get (by decide +kernel)

/-- Two sittings of one scan: the client is given the number 1 for one host of it, the number 1 is given to
another, and coming back from the highest number it was given, the client is told nothing. -/
theorem not_numbering : (machine recording).Reach Machine.Always (fresh (.ok [])) satOnce ∧
    (machine recording).Reach Machine.Always satOnce satTwice ∧
    firstScan.sitting.scan.id = "A" ∧ secondScan.sitting.scan.id = "A" ∧
    (∃ one ∈ firstScan.log.entries, .event one ∈ firstWatch.written ∧
      ∃ other ∈ secondScan.log.entries, one.seq = other.seq ∧ one ≠ other) ∧
    (satOnce.Received "A" 2 ∧ ∀ event ∈ firstWatch.events, event.seq ≤ 2) ∧
    secondScan.clients 0 = .watch secondWatch ∧ secondWatch.fromSeq = 2 ∧
    secondWatch.written = [.ended] ∧ secondScan.log.entries.length = 2 := by
  refine ⟨Machine.Reach.of_run (Option.some_get firstSitting_isSome).symm,
    Machine.Reach.of_run (Option.some_get secondSitting_isSome).symm, rfl, rfl, ?_, ⟨?_, ?_⟩, rfl, rfl,
    rfl, rfl⟩
  · decide +kernel
  · refine .inl ⟨0, firstScan, rfl, rfl, 0, _, rfl, ?_⟩
    decide +kernel
  · decide +kernel

end Daemon

end ZondDaemon
