import ZondDaemon.Scans.Converge
import ZondDaemon.Scans.Over

/-!
# Nobody sleeps through what it waits for

A notification keeps no permit, so a reader that is told nothing has to have been created before whatever it
waits for was notified. `Stirs` says what a step does to what readers wait for, and `Heeds` what a call of
`Scan::after` knows of it at each point: while its notification has not come, nothing has happened since but
what the follower is about to notify.
-/

namespace ZondDaemon

open Proto Sequence

variable {E : Engine}

namespace Follower

/-- An entry is in and the readers are still to be told. -/
def notifies : Follower E → Bool
  | .notifying _ => true
  | _ => false

/-- The flag is set and the readers are still to be told. -/
def wakes : Follower E → Bool
  | .waking => true
  | _ => false

theorem notifies_iff {f : Follower E} : f.notifies = true ↔ ∃ next, f = .notifying next := by
  constructor
  · intro h
    cases f with
    | notifying next => exact ⟨next, rfl⟩
    | _ => cases h
  · rintro ⟨next, rfl⟩
    rfl

theorem wakes_iff {f : Follower E} : f.wakes = true ↔ f = .waking := by
  constructor
  · intro h
    cases f with
    | waking => rfl
    | _ => cases h
  · rintro rfl
    rfl

end Follower

namespace Sitting

variable {s t : Sitting E} {a : Act E}

/-- What a step does to the log as readers wait on it: nothing, an entry more or the flag, with the readers
still to be told, or they are told. -/
inductive Stirs (s t : Sitting E) : Prop
  | rests : t.scan.log.arrived = s.scan.log.arrived → t.scan.log.entries = s.scan.log.entries →
      t.scan.log.closed = s.scan.log.closed → t.follower.notifies = s.follower.notifies →
      t.follower.wakes = s.follower.wakes → Stirs s t
  | appends (body : Body E.ScopedIp) : s.follower.wakes = false → t.follower.notifies = true →
      t.scan.log = s.scan.log.append body → Stirs s t
  | shuts : s.follower.notifies = false → t.follower.wakes = true → t.scan.log = s.scan.log.shut → Stirs s t
  | tells : t.scan.log = s.scan.log.notifyWaiters → Stirs s t

theorem stirs_of_step (h : s.step a = some t) : Stirs s t := by
  cases steps_of_step h with
  | follows hfollows =>
    cases hfollows with
    | pushes hf => exact .appends _ (by rw [hf]; rfl) rfl rfl
    | shuts hf => exact .shuts (by rw [hf]; rfl) rfl rfl
    | notifies hf => exact .tells rfl
    | wakes hf => exact .tells rfl
    | @hears event _ _ hf =>
      cases event <;> exact .rests rfl rfl rfl (by rw [hf]; rfl) (by rw [hf]; rfl)
    | _ =>
      rename_i hf
      exact .rests rfl rfl rfl (by rw [hf]; rfl) (by rw [hf]; rfl)
  | spawns slot hf => exact .rests rfl rfl rfl (by rw [hf]; rfl) (by rw [hf]; rfl)
  | _ => exact .rests rfl rfl rfl rfl rfl

end Sitting

namespace After

/-- Nothing the call waits for has happened but an entry the readers are still to be told of. -/
def Still (s : Sitting E) (cursor : Nat) : Prop :=
  s.scan.log.after cursor = [] ∨ s.follower.notifies = true

/-- What a call knows, by where it stands, while its notification has not come. -/
def Heeds (s : Sitting E) (cursor : Nat) : After E → Prop
  | .starting => True
  | .noted waiting => waiting ≤ s.scan.log.arrived
  | .read waiting got => waiting ≤ s.scan.log.arrived ∧
      (got = [] → s.scan.log.arrived = waiting → Still s cursor)
  | .asleep waiting => waiting ≤ s.scan.log.arrived ∧
      (s.scan.log.arrived = waiting → Still s cursor ∧
        (s.scan.log.closed = true → s.follower.wakes = true))
  | .returned _ => True

variable {s t : Sitting E} {cursor : Nat} {call call' : After E}

theorem Heeds.stirs (h : call.Heeds s cursor) (hst : Sitting.Stirs s t) : call.Heeds t cursor := by
  cases hst with
  | rests harrived hentries hflag hnotifies hwakes =>
    have hstill : Still t cursor ↔ Still s cursor := by
      simp only [Still, Log.after, hentries, hnotifies]
    cases call with
    | starting => trivial
    | noted waiting =>
      simp only [Heeds, harrived]
      exact h
    | read waiting got =>
      simp only [Heeds, harrived, hstill]
      exact h
    | asleep waiting =>
      simp only [Heeds, harrived, hstill, hflag, hwakes]
      exact h
    | returned got => trivial
  | appends body hwakes hnotifies hlog =>
    have hstill : Still t cursor := .inr hnotifies
    cases call with
    | starting => trivial
    | noted waiting =>
      simp only [Heeds, hlog, Log.append_arrived]
      exact h
    | read waiting got =>
      simp only [Heeds, hlog, Log.append_arrived]
      exact ⟨h.1, fun _ _ => hstill⟩
    | asleep waiting =>
      simp only [Heeds, hlog, Log.append_arrived, Log.append_closed]
      refine ⟨h.1, fun heq => ⟨hstill, fun hset => ?_⟩⟩
      have hawake := (h.2 heq).2 hset
      rw [hwakes] at hawake
      cases hawake
    | returned got => trivial
  | shuts hnotifies hwakes hlog =>
    have hstill : Still s cursor → Still t cursor := by
      rintro (hnone | htold)
      · refine .inl ?_
        rw [hlog]
        exact hnone
      · rw [hnotifies] at htold
        cases htold
    cases call with
    | starting => trivial
    | noted waiting =>
      rw [Heeds, hlog]
      exact h
    | read waiting got =>
      rw [Heeds, hlog]
      exact ⟨h.1, fun hnil heq => hstill (h.2 hnil heq)⟩
    | asleep waiting =>
      rw [Heeds, hlog]
      exact ⟨h.1, fun heq => ⟨hstill (h.2 heq).1, fun _ => hwakes⟩⟩
    | returned got => trivial
  | tells hlog =>
    have harrived : t.scan.log.arrived = s.scan.log.arrived + 1 := by rw [hlog]; rfl
    cases call with
    | starting => trivial
    | noted waiting =>
      simp only [Heeds] at h ⊢
      omega
    | read waiting got =>
      simp only [Heeds] at h ⊢
      exact ⟨by omega, fun _ heq => by omega⟩
    | asleep waiting =>
      simp only [Heeds] at h ⊢
      exact ⟨by omega, fun heq => by omega⟩
    | returned got => trivial

theorem Heeds.step (h : call.Heeds s cursor) (hstep : call.step s.scan cursor = some call') :
    call'.Heeds s cursor := by
  cases call with
  | starting =>
    cases hstep
    exact Nat.le_refl _
  | noted waiting =>
    cases hstep
    exact ⟨h, fun hnil _ => .inl hnil⟩
  | read waiting got =>
    simp only [After.step] at hstep
    split at hstep
    · cases hstep
      trivial
    · rename_i hflag
      cases hstep
      simp only [Bool.or_eq_true, Bool.not_eq_true', not_or, Bool.not_eq_false, List.isEmpty_iff,
        Bool.not_eq_true] at hflag
      refine ⟨h.1, fun heq => ⟨h.2 hflag.1 heq, fun hset => ?_⟩⟩
      rw [hflag.2] at hset
      cases hset
  | asleep waiting =>
    simp only [After.step] at hstep
    split at hstep <;> cases hstep
    trivial
  | returned got => cases hstep

end After

namespace Client

variable {scan : Scan E} {c c' : Client E} {cursor : Nat} {call : After E}

theorem step_call (h : c.step scan = some c') (hc : c'.call = some (cursor, call)) :
    call = .starting ∨ ∃ before, c.call = some (cursor, before) ∧ before.step scan cursor = some call := by
  cases c with
  | after cursor' before =>
    obtain ⟨call', hcall, rfl⟩ := Option.map_eq_some_iff.mp h
    cases hc
    exact .inr ⟨before, rfl, hcall⟩
  | watch w =>
    obtain ⟨w', hw, rfl⟩ := Option.map_eq_some_iff.mp h
    rcases call_eq_some hc with heq | ⟨w'', heq, hpc⟩
    · cases heq
    · cases heq
      rcases watch_step_tailing hw hpc with hstarting | ⟨before, hbefore, hcall⟩
      · exact .inl hstarting
      · exact .inr ⟨before, by simp only [Client.call, hbefore], hcall⟩
  | _ => cases h

end Client

namespace Live

variable {P : Live E → Act E → Prop} {l m : Live E} {a : Act E} {i cursor waiting : Nat} {call : After E}

/-- Every reader heeds what it waits for. -/
def Heeds (l : Live E) : Prop :=
  ∀ i cursor call, (l.clients i).call = some (cursor, call) → call.Heeds l.sitting cursor

theorem start_heeds (s : Sitting E) : (start s).Heeds := by
  intro i cursor call hcall
  cases hcall

theorem step_heeds (h : l.step a = some m) (hl : l.Heeds) : m.Heeds := by
  intro j cursor call hcall
  rcases step_cases h with ⟨act, sitting, -, hs, rfl⟩ | ⟨i, c, rfl, -, hc⟩
  · exact (hl j cursor call hcall).stirs (Sitting.stirs_of_step hs)
  · by_cases hj : j = i
    · subst hj
      have hself : (l.set j c).clients j = c := Function.update_self ..
      rw [hself] at hcall
      rcases hc with ⟨cursor', rfl⟩ | ⟨fromSeq, rfl⟩ | hstep | ⟨w, -, rfl⟩
      · cases hcall
        trivial
      · by_cases hzero : fromSeq = 0 <;> simp only [Client.call, Watch.call, hzero, if_true, if_false] at hcall
        · cases hcall
        · cases hcall
          trivial
      · rcases Client.step_call hstep hcall with rfl | ⟨before, hbefore, hcall'⟩
        · trivial
        · exact (hl j cursor before hbefore).step hcall'
      · cases hcall
    · have hother : (l.set i c).clients j = l.clients j := Function.update_of_ne hj ..
      rw [hother] at hcall
      exact hl j cursor call hcall

section runs
variable {id : String} {progress : Engine.Progress} {redaction : Redaction}

theorem reach_heeds (h : (machine E).Reach P (start (.fresh id progress redaction)) l) : l.Heeds :=
  h.invariant (I := Heeds) (start_heeds _) fun _ hl _ hstep => step_heeds hstep hl

/-- **A reader asleep with something to wake to is woken already, or the follower is about to.** Once the
follower is through, every reader that was asleep can go on. -/
theorem wakes_of_reach (h : (machine E).Reach P (start (.fresh id progress redaction)) l)
    (hasleep : (l.clients i).call = some (cursor, .asleep waiting)) :
    (l.log.after cursor ≠ [] → l.log.arrived ≠ waiting ∨ ∃ next, l.sitting.follower = .notifying next) ∧
    (l.log.closed = true → l.log.arrived ≠ waiting ∨ l.sitting.follower = .waking) ∧
    (l.sitting.follower = .done → l.log.arrived ≠ waiting ∧
      ((l.clients i).step l.sitting.scan).isSome = true) := by
  obtain ⟨-, hheeds⟩ := reach_heeds h i cursor _ hasleep
  have hentry : l.log.after cursor ≠ [] →
      l.log.arrived ≠ waiting ∨ ∃ next, l.sitting.follower = .notifying next := by
    intro hsome
    by_cases heq : l.log.arrived = waiting
    · exact .inr (Follower.notifies_iff.mp ((hheeds heq).1.resolve_left hsome))
    · exact .inl heq
  have hflag : l.log.closed = true → l.log.arrived ≠ waiting ∨ l.sitting.follower = .waking := by
    intro hclosed
    by_cases heq : l.log.arrived = waiting
    · exact .inr (Follower.wakes_iff.mp ((hheeds heq).2 hclosed))
    · exact .inl heq
  refine ⟨hentry, hflag, fun hdone => ?_⟩
  have hclosed : l.log.closed = true := by
    rw [reach_closed h, hdone]
    rfl
  have hwoken : l.log.arrived ≠ waiting := by
    rcases hflag hclosed with hwoken | hwaking
    · exact hwoken
    · rw [hdone] at hwaking
      cases hwaking
  have hstep : After.step l.sitting.scan cursor (.asleep waiting) = some .starting :=
    if_pos (bne_iff_ne.mpr hwoken)
  refine ⟨hwoken, ?_⟩
  rcases Client.call_eq_some hasleep with hc | ⟨w, hc, hpc⟩
  · rw [hc, Client.step, hstep]
    rfl
  · rw [hc, Client.step, Watch.step, hpc]
    simp only [hstep, Option.map_some, Option.isSome_some]

end runs

/-- A reader falls asleep on an empty log, and the follower goes all the way to its end. -/
def sleeping : List (Act Plain.engine) :=
  [.after 0 0] ++ List.replicate 3 (.client 0) ++ [.sitting (.spawn true)] ++ hangingUp ++ following 9

theorem sleeping_isSome : ((machine Plain.engine).run (start .plain) sleeping).isSome := by decide +kernel

def slept : Live Plain.engine := ((machine Plain.engine).run (start .plain) sleeping).get sleeping_isSome

theorem wakes_of_reach_slept : (slept.clients 0).call = some (0, .asleep 0) ∧
    slept.sitting.follower = .done ∧ slept.log.arrived ≠ 0 ∧
    ((slept.clients 0).step slept.sitting.scan).isSome = true := by
  have hasleep : (slept.clients 0).call = some (0, .asleep 0) := by decide +kernel
  have hdone : slept.sitting.follower = .done := rfl
  have h := Machine.Reach.of_run (Option.some_get sleeping_isSome).symm
  exact ⟨hasleep, hdone, (wakes_of_reach h hasleep).2.2 hdone⟩

end Live

end ZondDaemon
