import ZondDaemon.Daemon.Calls
import ZondDaemon.Scans.Live
import ZondDaemon.Start.Pipeline

/-!
# The whole daemon

`Scans` of `scans.rs` with everybody at work on it: the calls of `start` and `resume` on their way, each a
step at a time, the live scans with their engines, followers and readers, the watches of records, and the
journal directory, which the engine and other processes write to as they please. A step that reads the
directory reads what is there; everything else a call asks for is answered by the world.

`step` is the machine; `Moves` says once what its steps can do, one constructor for each, and the invariants
are read off it (`moves_of_step`). `get`, `list` and `answers` are what the daemon answers in a state.
-/

namespace ZondDaemon

open Proto

variable {E : Engine}

/-- Where a call of `start` or of `resume` stands. -/
inductive CallPc (E : Engine)
  /-- In `reserve`, about to load the count. -/
  | loading
  /-- In `reserve`, about to compare and exchange what was loaded. -/
  | reserving (taken : Nat)
  | running (program : Asking E (Sitting E)) (slot : Option Slot)
  /-- In `file`, the scan not in the registry yet. -/
  | filing (j : Nat) (slot : Option Slot)
  /-- In `file`, the follower not going yet. -/
  | following (j : Nat) (slot : Option Slot)
  /-- On the way out without a scan, the slot still to be dropped. -/
  | dropping (slot : Option Slot) (error : Option Error)
  /-- Answered with the scan's name or with an error, or with nothing where the call was abandoned. -/
  | returned (answer : Option (Except Error String))

namespace CallPc

/-- The slot a call holds. -/
def slot : CallPc E → Option Slot
  | .running _ slot => slot
  | .filing _ slot => slot
  | .following _ slot => slot
  | .dropping slot _ => slot
  | _ => none

/-- The scan a call is about to file or to set going. -/
def carries : CallPc E → Option Nat
  | .filing j _ => some j
  | .following j _ => some j
  | _ => none

/-- The pipeline a call is in. -/
def program : CallPc E → Option (Asking E (Sitting E))
  | .running program _ => some program
  | _ => none

end CallPc

structure Call (E : Engine) where
  request : Request E
  pc : CallPc E

/-- A watch that was answered out of a record. -/
structure RecordedWatch (E : Engine) where
  recorded : Recorded E
  watch : Watch E

structure Daemon (E : Engine) where
  /-- The registry: the live scan filed under a name, by its place in `scans`. -/
  inner : String → Option Nat
  taken : Nat
  /-- Every scan this process has built, filed or not. -/
  scans : List (Live E)
  calls : List (Call E)
  watches : List (RecordedWatch E)
  /-- What `store::list` answers of the journal directory. -/
  store : Except EngineError (List (Entry E.toEngineTypes))

namespace Daemon

/-- The daemon as it comes up over a journal directory. -/
def fresh (store : Except EngineError (List (Entry E.toEngineTypes))) : Daemon E where
  inner := fun _ => none
  taken := 0
  scans := []
  calls := []
  watches := []
  store := store

/-! ## What the daemon answers -/

/-- `Scans::get`. -/
def get (rules : Rules E) (d : Daemon E) (id : String) : Except Error (Found E) :=
  match d.inner id with
  | some j => .ok (.live j)
  | none => if rules.root then (Recorded.read d.store id).map .recorded else .error (.noSuchScan id)

/-- How many scans a listing holds at most. -/
def limitOf : Option Nat → Nat
  | some 0 => DEFAULT_LISTING
  | none => DEFAULT_LISTING
  | some limit => limit

/-- `Scans::list`: the scans this daemon has a record of, newest first. -/
def list (rules : Rules E) (d : Daemon E) (limit : Option Nat) : Except Error (List ScanListing) :=
  if rules.root then
    match d.store with
    | .error refused => .error (.engine refused)
    | .ok entries =>
      .ok (((entries.mergeSort fun one other => other.createdAt ≤ one.createdAt).take
        (limitOf limit)).map listing)
  else .ok []

/-- What a reading of the registry is answered with. -/
def answers (rules : Rules E) (d : Daemon E) : (q : Reading) → Reading.Answer E q
  | .get id => d.get rules id
  | .report j => (d.scans[j]?).bind fun l => l.sitting.scan.report
  | .redaction j => ((d.scans[j]?).map fun l => l.sitting.scan.redaction).getD .none

/-- What a query is answered with, the world having answered `answer`. -/
def sees (d : Daemon E) : (q : Query E) → q.Answer → q.Answer
  | .listStore, _ => d.store
  | _, answer => answer

/-! ## The steps -/

/-- `fetch_sub(1)`. -/
def released (taken : Nat) : Nat := (taken + usizeMax) % (usizeMax + 1)

/-- The call `i` goes on to another point. -/
def goes (d : Daemon E) (i : Nat) (call : Call E) (pc : CallPc E) : Daemon E :=
  { d with calls := d.calls.set i { call with pc := pc } }

/-- What is left of the count once a slot is dropped, where there is one. -/
def dropped (taken : Nat) : Option Slot → Nat
  | some _ => released taken
  | none => taken

/-- What can happen to a live scan without a call that names it. -/
def freely : Live.Act E → Bool
  | .sitting (.spawn _) => false
  | .after _ _ => false
  | .watch _ _ => false
  | _ => true

/-- A question that is awaited, where the call's task can be ended. -/
def awaited : Query E → Bool
  | .resolveTargets .. => true
  | .forDiscovery .. => true
  | .forExclusion .. => true
  | q => q.begins

inductive Act (E : Engine)
  /-- A client calls `start` or `resume`. -/
  | arrive (request : Request E)
  /-- A call takes a step of `reserve`; the exchange may fail for no reason. -/
  | reserve (i : Nat) (spurious : Bool)
  /-- What a call asks is answered. -/
  | answer (i : Nat) (world : (q : Query E) → Option q.Answer)
  /-- A call takes a step of its own. -/
  | proceed (i : Nat)
  /-- The connection a call came over is gone, and the call with it. -/
  | abandon (i : Nat)
  /-- Something happens to a live scan: its engine, its follower or one of its readers. -/
  | scan (j : Nat) (a : Live.Act E)
  /-- Client `i` of the scan calls `watch`. -/
  | watch (i : Nat) (id : String) (fromSeq : Nat)
  /-- A watch of a record takes a step. -/
  | read (k : Nat)
  /-- The journal directory changes. -/
  | store (entries : Except EngineError (List (Entry E.toEngineTypes)))

/-- A call as it arrives: a daemon that records nothing has nothing to resume. -/
def arriving (rules : Rules E) (request : Request E) : Call E where
  request := request
  pc := match request with
    | .start _ => .loading
    | .resume id => if rules.root then .loading else .returned (some (.error (.noSuchScan id)))

def reserve (rules : Rules E) (d : Daemon E) (i : Nat) (spurious : Bool) (call : Call E) :
    Option (Daemon E) :=
  match call.pc with
  | .loading => some (d.goes i call (.reserving d.taken))
  | .reserving taken =>
    if rules.most ≤ taken then some (d.goes i call (.running (call.request.pipeline rules none) none))
    else if !spurious && d.taken == taken then
      some { d.goes i call (.running (call.request.pipeline rules (some {})) (some {})) with
        taken := (taken + 1) % (usizeMax + 1) }
    else some (d.goes i call (.reserving d.taken))
  | _ => none

def answer (d : Daemon E) (i : Nat) (world : (q : Query E) → Option q.Answer) (call : Call E) :
    Option (Daemon E) :=
  match call.pc with
  | .running (.ask q k) slot => (world q).map fun answer => d.goes i call (.running (k (d.sees q answer)) slot)
  | _ => none

def proceed (d : Daemon E) (i : Nat) (call : Call E) : Option (Daemon E) :=
  match call.pc with
  | .running (.ret sitting) slot => some { d.goes i call (.filing d.scans.length slot) with
      scans := d.scans ++ [.start sitting] }
  | .running (.fail error) slot => some (d.goes i call (.dropping slot (some error)))
  | .filing j slot => (d.scans[j]?).map fun l => { d.goes i call (.following j slot) with
      inner := Function.update d.inner l.sitting.scan.id (some j) }
  | .following j slot => (d.scans[j]?).bind fun l =>
      (l.step (.sitting (.spawn slot.isSome))).map fun l' =>
        { d.goes i call (.returned (some (.ok l.sitting.scan.id))) with scans := d.scans.set j l' }
  | .dropping slot error => some { d.goes i call (.returned (error.map .error)) with
      taken := dropped d.taken slot }
  | _ => none

def abandon (d : Daemon E) (i : Nat) (call : Call E) : Option (Daemon E) :=
  match call.pc with
  | .running (.ask q _) slot => if awaited q then some (d.goes i call (.dropping slot none)) else none
  | _ => none

/-- A live scan takes a step; the slot its follower lets go of is dropped. -/
def within (d : Daemon E) (j : Nat) (a : Live.Act E) (l : Live E) : Option (Daemon E) :=
  (l.step a).map fun l' => { d with
    scans := d.scans.set j l'
    taken := if l.sitting.slot && !l'.sitting.slot then released d.taken else d.taken }

def watch (rules : Rules E) (d : Daemon E) (i : Nat) (id : String) (fromSeq : Nat) : Option (Daemon E) :=
  match d.get rules id with
  | .error _ => some d
  | .ok (.recorded record) =>
    some { d with watches := d.watches ++ [⟨record, Watch.call fromSeq⟩] }
  | .ok (.live j) => (d.scans[j]?).bind fun l =>
      (l.step (.watch i fromSeq)).map fun l' => { d with scans := d.scans.set j l' }

def step (rules : Rules E) (d : Daemon E) : Act E → Option (Daemon E)
  | .arrive request => some { d with calls := d.calls ++ [arriving rules request] }
  | .reserve i spurious => (d.calls[i]?).bind (d.reserve rules i spurious)
  | .answer i world => (d.calls[i]?).bind (d.answer i world)
  | .proceed i => (d.calls[i]?).bind (d.proceed i)
  | .abandon i => (d.calls[i]?).bind (d.abandon i)
  | .scan j a => if freely a then (d.scans[j]?).bind (d.within j a) else none
  | .watch i id fromSeq => d.watch rules i id fromSeq
  | .read k => (d.watches[k]?).bind fun v => (v.recorded.step v.watch).map fun w =>
      { d with watches := d.watches.set k { v with watch := w } }
  | .store entries => some { d with store := entries }

def machine (rules : Rules E) : Machine (Daemon E) (Act E) := ⟨step rules⟩

/-! ## What a step can do -/

/-- The steps of the daemon, one constructor for each. -/
inductive Moves (rules : Rules E) (d : Daemon E) : Act E → Daemon E → Prop
  | arrives (request : Request E) :
      Moves rules d (.arrive request) { d with calls := d.calls ++ [arriving rules request] }
  /-- A call tries for a slot and has none, or none yet. -/
  | tries {i : Nat} {spurious : Bool} {call : Call E} {pc : CallPc E} :
      d.calls[i]? = some call → (call.pc = .loading ∨ ∃ taken, call.pc = .reserving taken) →
      ((∃ taken, pc = .reserving taken) ∨ pc = .running (call.request.pipeline rules none) none) →
      Moves rules d (.reserve i spurious) (d.goes i call pc)
  | reserves {i : Nat} {spurious : Bool} {call : Call E} :
      d.calls[i]? = some call → call.pc = .reserving d.taken → d.taken < rules.most →
      Moves rules d (.reserve i spurious)
        { d.goes i call (.running (call.request.pipeline rules (some {})) (some {})) with
          taken := (d.taken + 1) % (usizeMax + 1) }
  | answers {i : Nat} {world : (q : Query E) → Option q.Answer} {call : Call E} {q : Query E}
      {k : q.Answer → Asking E (Sitting E)} {slot : Option Slot} (answer : q.Answer) :
      d.calls[i]? = some call → call.pc = .running (.ask q k) slot →
      Moves rules d (.answer i world) (d.goes i call (.running (k answer) slot))
  | builds {i : Nat} {call : Call E} {sitting : Sitting E} {slot : Option Slot} :
      d.calls[i]? = some call → call.pc = .running (.ret sitting) slot →
      Moves rules d (.proceed i)
        { d.goes i call (.filing d.scans.length slot) with scans := d.scans ++ [.start sitting] }
  /-- A call is on its way out: its pipeline failed, or it is abandoned. -/
  | leaves {a : Act E} {i : Nat} {call : Call E} {program : Asking E (Sitting E)} {slot : Option Slot}
      {error : Option Error} :
      d.calls[i]? = some call → call.pc = .running program slot →
      Moves rules d a (d.goes i call (.dropping slot error))
  | files {i j : Nat} {call : Call E} {slot : Option Slot} {l : Live E} :
      d.calls[i]? = some call → call.pc = .filing j slot → d.scans[j]? = some l →
      Moves rules d (.proceed i) { d.goes i call (.following j slot) with
        inner := Function.update d.inner l.sitting.scan.id (some j) }
  | follows {i j : Nat} {call : Call E} {slot : Option Slot} {l l' : Live E} :
      d.calls[i]? = some call → call.pc = .following j slot → d.scans[j]? = some l →
      l.step (.sitting (.spawn slot.isSome)) = some l' →
      Moves rules d (.proceed i) { d.goes i call (.returned (some (.ok l.sitting.scan.id))) with
        scans := d.scans.set j l' }
  | drops {i : Nat} {call : Call E} {slot : Option Slot} {error : Option Error} :
      d.calls[i]? = some call → call.pc = .dropping slot error →
      Moves rules d (.proceed i) { d.goes i call (.returned (error.map .error)) with
        taken := dropped d.taken slot }
  | scan {j : Nat} {a : Live.Act E} {l l' : Live E} :
      d.scans[j]? = some l → freely a = true → l.step a = some l' →
      Moves rules d (.scan j a) { d with
        scans := d.scans.set j l'
        taken := if l.sitting.slot && !l'.sitting.slot then released d.taken else d.taken }
  | watches {i j : Nat} {id : String} {fromSeq : Nat} {l l' : Live E} :
      d.inner id = some j → d.scans[j]? = some l → l.step (.watch i fromSeq) = some l' →
      Moves rules d (.watch i id fromSeq) { d with scans := d.scans.set j l' }
  /-- A watch finds a record. -/
  | opens {i : Nat} {id : String} {fromSeq : Nat} {record : Recorded E} :
      d.inner id = none → Recorded.read d.store id = .ok record →
      Moves rules d (.watch i id fromSeq)
        { d with watches := d.watches ++ [⟨record, Watch.call fromSeq⟩] }
  /-- A watch finds nothing. -/
  | misses {i : Nat} {id : String} {fromSeq : Nat} : Moves rules d (.watch i id fromSeq) d
  | reads {k : Nat} {v : RecordedWatch E} {w : Watch E} :
      d.watches[k]? = some v → v.recorded.step v.watch = some w →
      Moves rules d (.read k) { d with watches := d.watches.set k { v with watch := w } }
  | stores (entries : Except EngineError (List (Entry E.toEngineTypes))) :
      Moves rules d (.store entries) { d with store := entries }

variable {rules : Rules E} {d d' : Daemon E} {a : Act E}

theorem moves_of_step (h : (machine rules).step d a = some d') : Moves rules d a d' := by
  cases a with
  | arrive request =>
    cases h
    exact .arrives request
  | reserve i spurious =>
    obtain ⟨call, hcall, h⟩ := Option.bind_eq_some_iff.mp h
    unfold reserve at h
    split at h
    · rename_i hpc
      cases h
      exact .tries hcall (.inl hpc) (.inl ⟨_, rfl⟩)
    · rename_i taken hpc
      split_ifs at h with hfull hsame
      · cases h
        exact .tries hcall (.inr ⟨taken, hpc⟩) (.inr rfl)
      · simp only [Bool.and_eq_true, beq_iff_eq] at hsame
        obtain ⟨-, rfl⟩ := hsame
        cases h
        exact .reserves hcall hpc (Nat.lt_of_not_le hfull)
      · cases h
        exact .tries hcall (.inr ⟨taken, hpc⟩) (.inl ⟨_, rfl⟩)
    · cases h
  | answer i world =>
    obtain ⟨call, hcall, h⟩ := Option.bind_eq_some_iff.mp h
    unfold answer at h
    split at h
    · rename_i q k slot hpc
      obtain ⟨answer, -, rfl⟩ := Option.map_eq_some_iff.mp h
      exact .answers _ hcall hpc
    · cases h
  | proceed i =>
    obtain ⟨call, hcall, h⟩ := Option.bind_eq_some_iff.mp h
    unfold proceed at h
    split at h
    · rename_i sitting slot hpc
      cases h
      exact .builds hcall hpc
    · rename_i error slot hpc
      cases h
      exact .leaves hcall hpc
    · rename_i j slot hpc
      obtain ⟨l, hl, rfl⟩ := Option.map_eq_some_iff.mp h
      exact .files hcall hpc hl
    · rename_i j slot hpc
      obtain ⟨l, hl, h⟩ := Option.bind_eq_some_iff.mp h
      obtain ⟨l', hl', rfl⟩ := Option.map_eq_some_iff.mp h
      exact .follows hcall hpc hl hl'
    · rename_i slot error hpc
      cases h
      exact .drops hcall hpc
    · cases h
  | abandon i =>
    obtain ⟨call, hcall, h⟩ := Option.bind_eq_some_iff.mp h
    unfold abandon at h
    split at h
    · rename_i q k slot hpc
      split at h <;> cases h
      exact .leaves hcall hpc
    · cases h
  | scan j a =>
    simp only [machine, step] at h
    split at h
    · rename_i hfree
      obtain ⟨l, hl, h⟩ := Option.bind_eq_some_iff.mp h
      obtain ⟨l', hl', rfl⟩ := Option.map_eq_some_iff.mp h
      exact .scan hl hfree hl'
    · cases h
  | watch i id fromSeq =>
    simp only [machine, step, watch, get] at h
    cases hinner : d.inner id with
    | some j =>
      simp only [hinner] at h
      obtain ⟨l, hl, h⟩ := Option.bind_eq_some_iff.mp h
      obtain ⟨l', hl', rfl⟩ := Option.map_eq_some_iff.mp h
      exact .watches hinner hl hl'
    | none =>
      simp only [hinner] at h
      by_cases hroot : rules.root = true
      · rw [if_pos hroot] at h
        cases hread : Recorded.read d.store id with
        | error refused =>
          rw [hread] at h
          cases h
          exact .misses
        | ok record =>
          rw [hread] at h
          cases h
          exact .opens hinner hread
      · rw [if_neg hroot] at h
        cases h
        exact .misses
  | read k =>
    obtain ⟨v, hv, h⟩ := Option.bind_eq_some_iff.mp h
    obtain ⟨w, hw, rfl⟩ := Option.map_eq_some_iff.mp h
    exact .reads hv hw
  | store entries =>
    cases h
    exact .stores entries

end Daemon

end ZondDaemon
