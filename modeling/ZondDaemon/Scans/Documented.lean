import ZondDaemon.Scans.Tail

/-!
# Whose documents are told

A document a reader is told of an address is one the store had for it, written under the scan's own masking:
from the follower that looks it up to the log, and from the log and the snapshots to every watch (`Shows`).
-/

namespace ZondDaemon

open Proto Sequence

variable {E : Engine}

/-- The document is of a host of that address, under the masking. -/
def Shows (redaction : Redaction) (address : E.ScopedIp) (document : String) : Prop :=
  ∃ host, E.scopedIp host = address ∧ E.document redaction host = some document

theorem Scan.shows_of_documentOf {scan : Scan E} {address : E.ScopedIp} {document : String}
    (h : scan.documentOf address = some document) : Shows (E := E) scan.redaction address document := by
  obtain ⟨host, hget, hdocument⟩ := Option.bind_eq_some_iff.mp h
  exact ⟨host, (Keyed.get_eq_some.mp hget).2, hdocument⟩

namespace Sitting

variable {s t : Sitting E} {a : Act E}

/-- So is all that is spoken, and what the follower is about to judge. -/
structure Documented (s : Sitting E) : Prop where
  spoken : ∀ address document, Body.host ⟨address, document⟩ ∈ s.spoken →
    Shows (E := E) s.scan.redaction address document
  judging : ∀ address document, s.follower = .judging address document →
    Shows (E := E) s.scan.redaction address document

theorem fresh_documented (id : String) (progress : Engine.Progress) (redaction : Redaction) :
    (fresh id progress redaction : Sitting E).Documented where
  spoken address document h := by cases h
  judging address document h := by cases h

/-- A document is judged only right after it was looked up. -/
theorem judges_of_step {address : E.ScopedIp} {document : String} (h : s.step a = some t)
    (hf : t.follower = .judging address document) :
    s.follower = .judging address document ∨ s.scan.documentOf address = some document := by
  rcases step_follower h with heq | ⟨-, heq⟩ | rfl
  · exact .inl (heq.symm.trans hf)
  · cases heq.symm.trans hf
  · cases follows_of_follow h with
    | looks hlook =>
      cases hf
      exact .inr hlook
    | @hears event => cases event <;> cases hf
    | @notifies next => cases next <;> cases hf
    | _ => cases hf

theorem step_documented (h : s.step a = some t) (hs : s.Documented) : t.Documented where
  spoken address document hmem := by
    rw [step_redaction h]
    rcases step_spoken h with ⟨heq, -⟩ | ⟨body, next, htakes, heq, -⟩
    · rw [heq] at hmem
      exact hs.spoken address document hmem
    · rw [heq] at hmem
      rcases List.mem_append.mp hmem with hmem | hmem
      · exact hs.spoken address document hmem
      · cases List.mem_singleton.mp hmem
        cases htakes with
        | host _ _ hf => exact hs.judging address document hf
  judging address document hf := by
    rw [step_redaction h]
    rcases judges_of_step h hf with hf | hlook
    · exact hs.judging address document hf
    · exact Scan.shows_of_documentOf hlook

theorem reach_documented {P : Sitting E → Act E → Prop} {id : String} {progress : Engine.Progress}
    {redaction : Redaction} (h : (machine E).Reach P (fresh id progress redaction) s) : s.Documented :=
  h.invariant (I := Documented) (fresh_documented id progress redaction)
    fun _ ht _ hstep => step_documented hstep ht

end Sitting

namespace Live

variable {P : Live E → Act E → Prop} {l m : Live E} {w : Watch E} {i : Nat}

theorem step_redaction {a : Act E} (h : l.step a = some m) :
    m.sitting.scan.redaction = l.sitting.scan.redaction := by
  rcases step_sitting h with heq | ⟨own, -, hstep⟩
  · rw [heq]
  · exact Sitting.step_redaction hstep

theorem reach_redaction (h : (machine E).Reach P l m) :
    m.sitting.scan.redaction = l.sitting.scan.redaction :=
  h.invariant (I := fun m => m.sitting.scan.redaction = l.sitting.scan.redaction) rfl
    fun _ ht _ hstep => (step_redaction hstep).trans ht

variable {id : String} {progress : Engine.Progress} {redaction : Redaction}

/-- **Every document a watch has written is of a host, under the scan's masking.** -/
theorem shows_of_watching (h : (machine E).Reach P (start (.fresh id progress redaction)) l)
    (hw : (l.clients i).watching = some w) {event : Event E.ScopedIp} (hevent : event ∈ w.events)
    {address : E.ScopedIp} {document : String} (hsaid : event.said = some (address, document)) :
    Shows (E := E) l.sitting.scan.redaction address document := by
  obtain ⟨snapshot, tail, hevents, hcontinues, hnone, hsome⟩ :=
    ((reach_faithful h i).watching hw).split (reach_wellNumbered h)
  rw [hevents] at hevent
  rcases List.mem_append.mp hevent with hevent | hevent
  · -- in the snapshot, of the store as it was when that was taken
    cases hcaughtUp : w.caughtUp with
    | none =>
      rw [hnone hcaughtUp] at hevent
      cases hevent
    | some caughtUp =>
      obtain ⟨m, ⟨earlier, -, -, -, hl⟩, rfl⟩ := (reach_marked h i w hw).snapshot caughtUp hcaughtUp
      have hlook := Scan.snapshotAt_said.mp ⟨event, (hsome _ hcaughtUp).1.subset hevent, hsaid⟩
      rw [reach_redaction hl]
      exact Scan.shows_of_documentOf hlook
  · -- past it, in the log
    obtain ⟨n, hn⟩ := List.mem_iff_getElem?.mp hevent
    have hentry : event ∈ l.log.entries := List.mem_of_getElem? (hcontinues n event hn).1
    have hsitting := sitting_reach (Q := Machine.Always) (fun _ _ _ => trivial) h
    obtain ⟨body, hbody, hhost⟩ := Option.bind_eq_some_iff.mp hsaid
    refine (Sitting.reach_documented hsitting).spoken address document ?_
    refine List.mem_append_left _ (List.mem_filterMap.mpr ⟨event, hentry, ?_⟩)
    rw [hbody]
    cases body <;> cases hhost
    rfl

end Live

end ZondDaemon
