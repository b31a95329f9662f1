import ZondDaemon.Scans.Live

/-!
# What the engine's task comes to, and the report

The follower stores a report where the task came to one, then settles the cause, and closes the log last:
so a scan that is over has what its task came to, a report or nothing, and keeps it.
-/

namespace ZondDaemon

open Proto

variable {E : Engine}

namespace Follower

/-- Past `if let Ok(finished) = &outcome`. -/
def stored : Follower E → Bool
  | .concluding _ => true
  | f => f.concluded

theorem stored_of_concluded {f : Follower E} (h : f.concluded = true) : f.stored = true := by
  cases f with
  | concluding _ => rfl
  | _ => exact h

end Follower

namespace Sitting

/-- The report is what the task came to, once the follower is past storing it. -/
structure Reported (s : Sitting E) : Prop where
  settling : ∀ outcome, s.follower = .settling outcome → s.task = some outcome
  before : s.follower.stored = false → s.scan.report = none
  after : s.follower.stored = true → ∃ outcome, s.task = some outcome ∧ s.scan.report = outcome.toOption

variable {s t : Sitting E} {a : Act E}

theorem step_task (h : s.step a = some t) {outcome : Except EngineError E.ScanReport}
    (hs : s.task = some outcome) : t.task = some outcome := by
  cases steps_of_step h with
  | follows => exact (follow_kept h).task.trans hs
  | finishes other hnone =>
    rw [hs] at hnone
    cases hnone
  | _ => exact hs

/-- What a step does to the report: nothing, or the follower stores what the task came to. -/
theorem step_report (h : s.step a = some t) :
    (t.scan.report = s.scan.report ∧ t.follower.stored = s.follower.stored ∧
      ∀ outcome, t.follower = .settling outcome → s.follower = .settling outcome ∨
        t.task = some outcome) ∨
    (∃ outcome, s.follower = .settling outcome ∧ t.follower = .concluding outcome ∧
      t.scan.report = match outcome with
        | .ok finished => some finished
        | .error _ => s.scan.report) := by
  cases steps_of_step h with
  | follows hfollows =>
    cases hfollows with
    | settles hf => exact .inr ⟨_, hf, rfl, rfl⟩
    | @meets outcome htask hf =>
      refine .inl ⟨rfl, by rw [hf]; rfl, fun other heq => .inr ?_⟩
      cases heq
      exact htask
    | @hears event _ _ hf => cases event <;> exact .inl ⟨rfl, by rw [hf]; rfl, fun _ => nofun⟩
    | @pushes body next hf => cases next <;> exact .inl ⟨rfl, by rw [hf]; rfl, fun _ => nofun⟩
    | @notifies next hf => cases next <;> exact .inl ⟨rfl, by rw [hf]; rfl, fun _ => nofun⟩
    | _ =>
      rename_i hf
      exact .inl ⟨rfl, by rw [hf]; rfl, fun _ => nofun⟩
  | spawns slot hf => exact .inl ⟨rfl, by rw [hf]; rfl, fun _ => nofun⟩
  | _ => exact .inl ⟨rfl, rfl, fun _ heq => .inl heq⟩

theorem step_reported (h : s.step a = some t) (hs : s.Reported) : t.Reported := by
  rcases step_report h with ⟨hreport, hstored, hsettling⟩ | ⟨outcome, hf, hf', hreport⟩
  · refine ⟨fun outcome hf => ?_, fun hnot => ?_, fun hafter => ?_⟩
    · rcases hsettling outcome hf with hwas | hnow
      · exact step_task h (hs.settling outcome hwas)
      · exact hnow
    · exact hreport.trans (hs.before (hstored ▸ hnot))
    · obtain ⟨outcome, htask, hsame⟩ := hs.after (hstored ▸ hafter)
      exact ⟨outcome, step_task h htask, hreport.trans hsame⟩
  · refine ⟨fun other heq => ?_, fun hnot => ?_, fun _ => ⟨outcome, ?_, ?_⟩⟩
    · rw [hf'] at heq
      cases heq
    · rw [hf'] at hnot
      cases hnot
    · exact step_task h (hs.settling outcome hf)
    · cases outcome with
      | ok finished => exact hreport
      | error error => exact hreport.trans (hs.before (by rw [hf]; rfl))

theorem reach_reported {id : String} {progress : Engine.Progress} {redaction : Redaction}
    (h : (machine E).Reach Machine.Always (fresh id progress redaction) s) : s.Reported := by
  refine h.invariant (I := Reported) ⟨?_, fun _ => rfl, ?_⟩ fun _ hs _ hstep => step_reported hstep hs
  · intro outcome heq
    cases heq
  · intro heq
    cases heq

end Sitting

namespace Live

variable {l m : Live E} {id : String} {progress : Engine.Progress} {redaction : Redaction}

theorem reach_reported (h : (machine E).Reach Machine.Always (start (.fresh id progress redaction)) l) :
    l.sitting.Reported :=
  Sitting.reach_reported (sitting_reach (fun _ _ _ => trivial) h)

theorem report_of_over (h : (machine E).Reach Machine.Always (start (.fresh id progress redaction)) l)
    (hclosed : l.log.closed = true) :
    ∃ outcome, l.sitting.task = some outcome ∧ l.sitting.scan.report = outcome.toOption := by
  rw [reach_closed h] at hclosed
  exact (reach_reported h).after (Follower.stored_of_concluded (Follower.concluded_of_shut hclosed))

theorem report_stays (h : (machine E).Reach Machine.Always (start (.fresh id progress redaction)) l)
    (hclosed : l.log.closed = true) (h' : (machine E).Reach Machine.Always l m) :
    m.sitting.scan.report = l.sitting.scan.report := by
  obtain ⟨outcome, htask, hreport⟩ := report_of_over h hclosed
  have hover : m.log.closed = true ∧ m.sitting.task = some outcome := by
    refine h'.invariant (I := fun m => m.log.closed = true ∧ m.sitting.task = some outcome)
      ⟨hclosed, htask⟩ fun {t u a} ht ⟨hclosed', htask'⟩ _ hstep => ?_
    rcases step_sitting hstep with heq | ⟨act, -, hs⟩
    · rw [log, heq]
      exact ⟨hclosed', htask'⟩
    · exact ⟨(Sitting.step_of_closed hs (reach_closed (h.trans ht)) hclosed').2,
        Sitting.step_task hs htask'⟩
  obtain ⟨other, htask', hreport'⟩ := report_of_over (h.trans h') hover.1
  cases hover.2.symm.trans htask'
  rw [hreport, hreport']

end Live

end ZondDaemon
