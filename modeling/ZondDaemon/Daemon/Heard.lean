import ZondDaemon.Daemon.Room
import ZondDaemon.Start.Gate

/-!
# What the calls of a daemon have heard

The daemon with a history of all its calls have asked of the world and been told, each with the place of the
call (`heard`). What a call has heard is a trace of its pipeline, whatever the other calls do meanwhile
(`traces_of_reach`), so what is known of a pipeline by itself is known of the call in every run of the daemon.
-/

namespace ZondDaemon

open Sequence (said)
open Program (Step)
open Start (Trace)

variable {E : Engine}

namespace Daemon

/-- What has been asked and answered, each with the call that asked. -/
abbrev Heard (E : Engine) := List (Nat × Step (Q := Query E) Query.Answer)

/-- What a step lets a call hear. -/
def hears (d : Daemon E) : Act E → Option (Nat × Step (Q := Query E) Query.Answer)
  | .answer i world => (d.calls[i]?).bind fun call => match call.pc with
    | .running (.ask q _) _ => (world q).map fun answer => (i, ⟨q, d.sees q answer⟩)
    | _ => none
  | _ => none

/-- A step is noted with what it lets a call hear. -/
def noted (d : Daemon E) (a : Act E) (heard : Heard E) : Heard E := heard ++ (d.hears a).toList

def hearing (rules : Rules E) : Machine (Daemon E × Heard E) (Act E) := (machine rules).noting noted

/-- What the call `i` has heard. -/
abbrev heardBy (i : Nat) (heard : Heard E) : Trace E := said some i heard

/-- A call that is through with `reserve` has heard a trace of its pipeline, and one before that nothing. -/
structure Traced (rules : Rules E) (call : Call E) (t : Trace E) : Prop where
  waits : call.pc.past = false → t = []
  runs : ∀ program slot, call.pc = .running program slot → (call.request.pipeline rules slot).Reaches t program

/-- Each call has heard what it has, and nobody else anything. -/
structure Traces (rules : Rules E) (d : Daemon E) (heard : Heard E) : Prop where
  traced : ∀ i call, d.calls[i]? = some call → Traced rules call (heardBy i heard)
  silent : ∀ i, d.calls.length ≤ i → heardBy i heard = []

variable {rules : Rules E} {d d' : Daemon E} {a : Act E} {i j : Nat} {call : Call E} {pc : CallPc E}
  {heard : Heard E} {t : Trace E}

theorem heardBy_self {step : Step (Q := Query E) Query.Answer} :
    heardBy i (heard ++ [(i, step)]) = heardBy i heard ++ [step] := Sequence.said_append_self rfl

theorem heardBy_ne {step : Step (Q := Query E) Query.Answer} (hne : i ≠ j) :
    heardBy j (heard ++ [(i, step)]) = heardBy j heard := Sequence.said_append_of_ne rfl hne

/-- What a call asks. -/
def asksNow (call : Call E) : Option (Query E) :=
  match call.pc with
  | .running (.ask q _) _ => some q
  | _ => none

theorem asks_of_asksNow {q : Query E} (h : asksNow call = some q) :
    ∃ k slot, call.pc = .running (.ask q k) slot := by
  unfold asksNow at h
  split at h
  · rename_i hpc
    cases h
    exact ⟨_, _, hpc⟩
  · cases h

/-! ## One step -/

theorem answer_of_step {world : (q : Query E) → Option q.Answer}
    (h : (machine rules).step d (.answer i world) = some d') :
    ∃ call q k slot answer, d.calls[i]? = some call ∧ call.pc = .running (.ask q k) slot ∧
      d.hears (.answer i world) = some (i, ⟨q, answer⟩) ∧ d' = d.goes i call (.running (k answer) slot) := by
  obtain ⟨call, hcall, h⟩ := Option.bind_eq_some_iff.mp h
  unfold answer at h
  split at h
  · rename_i q k slot hpc
    obtain ⟨answer, hworld, rfl⟩ := Option.map_eq_some_iff.mp h
    refine ⟨call, q, k, slot, d.sees q answer, hcall, hpc, ?_, rfl⟩
    simp only [hears, hcall, Option.bind_some, hpc, hworld, Option.map_some]
  · cases h

/-- A step that answers nobody. -/
def Act.mute : Act E → Bool
  | .answer _ _ => false
  | _ => true

theorem hears_of_mute (h : a.mute = true) : d.hears a = none := by
  cases a with
  | answer => cases h
  | _ => rfl

theorem traced_goes (hpast : pc.past = true) (hprogram : pc.program = none) :
    Traced rules { call with pc := pc } t where
  waits h := by
    rw [hpast] at h
    cases h
  runs program slot h := by
    obtain rfl : pc = .running program slot := h
    cases hprogram

theorem traced_arriving (rules : Rules E) (request : Request E) : Traced rules (arriving rules request) [] where
  waits _ := rfl
  runs program slot h := by
    cases request with
    | start wire => cases h
    | resume id =>
      unfold arriving at h
      cases hroot : rules.root with
      | true =>
        rw [hroot] at h
        cases h
      | false =>
        rw [hroot] at h
        cases h

theorem traced_tries (h : Traced rules call t) (hwaits : call.pc.past = false)
    (hnext : (∃ taken, pc = .reserving taken) ∨ ∃ slot, pc = .running (call.request.pipeline rules slot) slot) :
    Traced rules { call with pc := pc } t := by
  obtain rfl := h.waits hwaits
  refine ⟨fun _ => rfl, fun program slot hpc => ?_⟩
  rcases hnext with ⟨taken, rfl⟩ | ⟨slot', rfl⟩
  · cases hpc
  · cases hpc
    exact .refl

theorem calls_goes_ne (hne : j ≠ i) : (d.goes i call pc).calls[j]? = d.calls[j]? :=
  List.getElem?_set_ne hne.symm

theorem Traces.goes (h : Traces rules d heard) (hcall : d.calls[i]? = some call)
    (hgoes : Traced rules { call with pc := pc } (heardBy i heard))
    (hcalls : d'.calls = (d.goes i call pc).calls) : Traces rules d' heard where
  traced j other hother := by
    rw [hcalls] at hother
    by_cases hj : j = i
    · subst hj
      rw [goes_self hcall] at hother
      cases hother
      exact hgoes
    · rw [calls_goes_ne hj] at hother
      exact h.traced j other hother
  silent j hj := h.silent j (by
    rw [hcalls] at hj
    simpa [Daemon.goes] using hj)

theorem Traces.mutes (h : Traces rules d heard) (hmute : a.mute = true)
    (hstep : (machine rules).step d a = some d') : Traces rules d' heard := by
  have hmove := moves_of_step hstep
  cases hmove with
  | arrives request =>
    refine ⟨fun i call hcall => ?_, fun i hi => h.silent i ?_⟩
    · by_cases hi : i < d.calls.length
      · rw [List.getElem?_append_left hi] at hcall
        exact h.traced i call hcall
      · rw [h.silent i (Nat.le_of_not_lt hi)]
        rw [List.getElem?_append_right (Nat.le_of_not_lt hi)] at hcall
        rw [List.mem_singleton.mp (List.mem_of_getElem? hcall)]
        exact traced_arriving rules request
    · rw [List.length_append] at hi
      omega
  | tries hcall hpc hnext =>
    refine h.goes hcall (traced_tries (h.traced _ _ hcall) ?_ (hnext.imp_right fun hrun => ⟨none, hrun⟩)) rfl
    rcases hpc with hpc | ⟨taken, hpc⟩
    · rw [hpc]
      rfl
    · rw [hpc]
      rfl
  | reserves hcall hpc hroom =>
    exact h.goes hcall (traced_tries (h.traced _ _ hcall) (by rw [hpc]; rfl) (.inr ⟨some {}, rfl⟩)) rfl
  | answers => cases hmute
  | builds hcall hpc => exact h.goes hcall (traced_goes rfl rfl) rfl
  | leaves hcall hpc => exact h.goes hcall (traced_goes rfl rfl) rfl
  | files hcall hpc hl => exact h.goes hcall (traced_goes rfl rfl) rfl
  | follows hcall hpc hl hfollow => exact h.goes hcall (traced_goes rfl rfl) rfl
  | drops hcall hpc => exact h.goes hcall (traced_goes rfl rfl) rfl
  | scan | watches | opens | misses | reads | stores => exact ⟨h.traced, h.silent⟩

theorem Traces.answers {q : Query E} {k : q.Answer → Asking E (Sitting E)} {slot : Option Slot}
    {answer : q.Answer} (h : Traces rules d heard) (hcall : d.calls[i]? = some call)
    (hpc : call.pc = .running (.ask q k) slot) :
    Traces rules (d.goes i call (.running (k answer) slot)) (heard ++ [(i, ⟨q, answer⟩)]) where
  traced j other hother := by
    by_cases hj : j = i
    · subst hj
      rw [goes_self hcall] at hother
      cases hother
      rw [heardBy_self]
      refine ⟨fun hwaits => (by cases hwaits), fun program slot' hrun => ?_⟩
      cases hrun
      exact ((h.traced j call hcall).runs _ slot hpc).answer answer
    · rw [calls_goes_ne hj] at hother
      rw [heardBy_ne (Ne.symm hj)]
      exact h.traced j other hother
  silent j hj := by
    have hlength : d.calls.length ≤ j := by simpa [Daemon.goes] using hj
    have hi : i < d.calls.length := (List.getElem?_eq_some_iff.mp hcall).1
    rw [heardBy_ne (by omega)]
    exact h.silent j hlength

theorem Traces.step (h : Traces rules d heard) (hstep : (machine rules).step d a = some d') :
    Traces rules d' (noted d a heard) := by
  by_cases hmute : a.mute = true
  · rw [noted, hears_of_mute hmute, Option.toList_none, List.append_nil]
    exact h.mutes hmute hstep
  · cases a with
    | answer i world =>
      obtain ⟨call, q, k, slot, answer, hcall, hpc, hhears, rfl⟩ := answer_of_step hstep
      rw [noted, hhears, Option.toList_some]
      exact h.answers hcall hpc
    | _ => exact absurd rfl hmute

/-! ## Over whole runs -/

section runs
variable {P : Daemon E × Heard E → Act E → Prop}
  {store : Except EngineError (List (Entry E.toEngineTypes))}

/-- **What a call has heard is a trace of its pipeline.** -/
theorem traces_of_reach (h : (hearing rules).Reach P (fresh store, []) (d, heard)) : Traces rules d heard := by
  refine h.invariant (I := fun x => Traces rules x.1 x.2) ⟨fun i call hcall => (by cases hcall),
    fun _ _ => rfl⟩ ?_
  intro x y a _ hx _ hstep
  obtain ⟨hstep, hheard⟩ := Machine.noting_step.mp hstep
  rw [hheard]
  exact hx.step hstep

theorem reach_of_hearing (h : (hearing rules).Reach P (fresh store, []) (d, heard)) :
    (machine rules).Reach Machine.Always (fresh store) d := h.forget fun _ _ _ => trivial

end runs

end Daemon

end ZondDaemon
