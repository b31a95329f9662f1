import ZondDaemon.Scans.Follow

/-!
# Why a scan ended, said twice

The follower settles the cause once, from the outcome of the engine's task and the handle, and writes it
into `Finished`; `state` works it out again from the handle each time it is asked. They agree as long as
the steps of `Steady` are the only ones taken.
-/

namespace ZondDaemon

open Proto Sequence

variable {E : Engine}

namespace Follower

/-- About to conclude from a task that failed. -/
def failed : Follower E → Bool
  | .concluding (.error _) => true
  | _ => false

end Follower

namespace Sitting

/-- The follower concludes from a task that failed only where the handle reports an abort, and once it has
concluded the handle reports nothing else. -/
def Steady (s : Sitting E) : Act E → Prop
  | .follow => s.follower.failed = true → Convert.stopCause s.scan.handle.stopped = .aborted
  | .halts cause => s.follower.concluded = true →
      Convert.stopCause cause = Convert.stopCause s.scan.handle.stopped
  | .stop reports => s.follower.concluded = true →
      Convert.stopCause reports = Convert.stopCause s.scan.handle.stopped
  | _ => True

instance (s : Sitting E) : (a : Act E) → Decidable (Steady s a)
  | .follow => inferInstanceAs (Decidable (_ → _))
  | .halts _ => inferInstanceAs (Decidable (_ → _))
  | .stop _ => inferInstanceAs (Decidable (_ → _))
  | .update _ | .raise _ | .announce _ | .lag _ | .hangUp | .moves _ | .finish _ | .spawn _ =>
    inferInstanceAs (Decidable True)

/-- Once concluded, what is spoken ends with the cause the handle gives. -/
def Agrees (s : Sitting E) : Prop :=
  s.follower.concluded = true → ∃ before, (∀ body ∈ before, body.cause = none) ∧
    s.spoken = before ++ [.finished ⟨number (Convert.stopCause s.scan.handle.stopped)⟩]

variable {s t : Sitting E} {a : Act E}

theorem step_agrees (hends : s.EndsOnce) (hP : Steady s a) (h : s.step a = some t) (hs : s.Agrees) :
    t.Agrees := by
  intro hc
  rcases step_spoken h with ⟨hspoken, hsame⟩ | ⟨body, next, htakes, hspoken, hf⟩
  · have hcs : s.follower.concluded = true := hsame.symm.trans hc
    obtain ⟨before, hbefore, heq⟩ := hs hcs
    refine ⟨before, hbefore, ?_⟩
    rw [hspoken, heq]
    -- the handle reports what it did, or something that reads the same
    rcases step_handle h with hhandle | ⟨cause, rfl | rfl, hhandle⟩
    · rw [hhandle]
    · rw [hhandle, hP hcs]
    · rw [hhandle, hP hcs]
  · cases htakes with
    | finished outcome hconcluding =>
      have hbefore : ∀ body ∈ s.spoken, body.cause = none := by
        simpa [EndsOnce, hconcluding, Follower.concluded] using hends
      have ha : a = .follow := by
        rcases step_follower h with hstays | ⟨hborn, -⟩ | hfollow
        · rw [hf, hconcluding] at hstays
          cases hstays
        · rw [hconcluding] at hborn
          cases hborn
        · exact hfollow
      subst ha
      refine ⟨s.spoken, hbefore, ?_⟩
      rw [hspoken, (follow_kept h).handle]
      cases outcome with
      | ok report => rfl
      | error error => rw [hP (by rw [hconcluding]; rfl), concludes]
    | _ =>
      rw [hf] at hc
      cases hc

section runs
variable {id : String} {progress : Engine.Progress} {redaction : Redaction}

theorem reach_agrees (h : (machine E).Reach Steady (fresh id progress redaction) s) : s.Agrees :=
  h.invariant (I := Agrees) (fun hc => by cases hc) fun ht hs hP hstep =>
    step_agrees (reach_endsOnce ht) hP hstep hs

/-- **The cause `get` answers is the cause of the `Finished` event**, in every run of steady steps. -/
theorem cause_of_steady (h : (machine E).Reach Steady (fresh id progress redaction) s)
    (hclosed : s.scan.log.closed = true) :
    ∃ cause, s.scan.state.cause = some cause ∧ (∃ entry ∈ s.scan.log.entries, entry.cause = some cause) ∧
      ∀ entry ∈ s.scan.log.entries, ∀ other, entry.cause = some other → other = cause := by
  have hshut : s.follower.shut = true := (reach_closed h).symm.trans hclosed
  obtain ⟨before, hbefore, hspoken⟩ := reach_agrees h (Follower.concluded_of_shut hshut)
  rw [spoken, Follower.pending_of_shut hshut, List.append_nil] at hspoken
  refine ⟨number (Convert.stopCause s.scan.handle.stopped), by simp [Scan.state, hclosed], ?_, ?_⟩
  · obtain ⟨entry, hentry, hbody⟩ := List.mem_filterMap.mp
      (hspoken ▸ List.mem_append_right before (List.mem_singleton_self _))
    exact ⟨entry, hentry, by rw [Event.cause, hbody]; rfl⟩
  · intro entry hentry other hother
    obtain ⟨body, hbody, hcause⟩ := Option.bind_eq_some_iff.mp hother
    have hmem := List.mem_filterMap.mpr ⟨entry, hentry, hbody⟩
    rw [hspoken, List.mem_append, List.mem_singleton] at hmem
    rcases hmem with hmem | rfl
    · rw [hbefore body hmem] at hcause
      cases hcause
    · cases hcause
      rfl

end runs

/-- The scan is stopped, its task fails, and it is stopped once more when it is over. -/
def stopped : List (Act Plain.engine) :=
  [.spawn true, .stop (some .aborted), .hangUp, .finish (.error ⟨"scan.aborted", "stopped"⟩)] ++
    List.replicate 7 .follow ++ [.stop (some .aborted)]

theorem cause_of_steady_stopped : ∃ s, (machine Plain.engine).Reach Steady plain s ∧
    s.scan.log.closed = true ∧
    ∃ cause, s.scan.state.cause = some cause ∧ (∃ entry ∈ s.scan.log.entries, entry.cause = some cause) ∧
      ∀ entry ∈ s.scan.log.entries, ∀ other, entry.cause = some other → other = cause := by
  have hrun : ((machine Plain.engine).runIf (fun t a => decide (Steady t a)) plain stopped).isSome := by
    decide
  have hs := Machine.Reach.of_runIf (fun _ _ => of_decide_eq_true) (Option.some_get hrun).symm
  exact ⟨_, hs, rfl, cause_of_steady hs rfl⟩

/-- The follower's whole way from an empty stream to the flag. -/
def overWith (outcome : Except EngineError (List (Nat × String))) : List (Act Plain.engine) :=
  [.spawn true, .hangUp, .finish outcome] ++ List.replicate 7 .follow

/-- The task fails and the handle reports nothing: `Finished` says aborted and `get` says completed. A
scan that completed and is stopped afterwards: `Finished` says completed and `get` says aborted. -/
theorem cause_differs :
    (∃ s, (machine Plain.engine).Reach Machine.Always plain s ∧ s.scan.log.closed = true ∧
      s.scan.log.entries.map Event.cause = [some (number Proto.StopCause.aborted)] ∧
      s.scan.state.cause = some (number Proto.StopCause.completed)) ∧
    (∃ s, (machine Plain.engine).Reach Machine.Always plain s ∧ s.scan.log.closed = true ∧
      s.scan.log.entries.map Event.cause = [some (number Proto.StopCause.completed)] ∧
      s.scan.state.cause = some (number Proto.StopCause.aborted)) := by
  have hfailed : ((machine Plain.engine).run plain
      (overWith (.error ⟨"scan.socket", "no socket"⟩))).isSome := by decide
  have hlate : ((machine Plain.engine).run plain
      (overWith (.ok []) ++ [.stop (some .aborted)])).isSome := by decide
  exact ⟨⟨_, Machine.Reach.of_run (Option.some_get hfailed).symm, rfl, rfl, rfl⟩,
    ⟨_, Machine.Reach.of_run (Option.some_get hlate).symm, rfl, rfl, rfl⟩⟩

end Sitting

end ZondDaemon
