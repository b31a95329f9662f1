import ZondDaemon.Daemon.Held
import ZondDaemon.Stdio.Asked
import ZondDaemon.Stdio.Corpus

/-!
# What a method does with the registry

`get`, `stop`, `list`, `prune`, `detections` and the calls that read reports, as programs over what they look
at: the parts of a live scan's state are read one after the other, and the scan goes on in between. `looks` is
what a look is answered with in a state of the registry, and `deeds` what it does to it.
-/

namespace ZondDaemon

open Proto

variable {E : Engine}

/-- Which records are worth keeping, each for at most so many milliseconds, or for ever. -/
structure Retention where
  completedFor : Option Nat
  incompleteFor : Option Nat
deriving DecidableEq

/-- What `store::prune` did: the records it removed, and those it could not, each with the reason. -/
structure Pruned where
  removed : List String
  held : List (String × String)
deriving DecidableEq

/-- What a method looks at or does. -/
inductive Look
  | reading (q : Reading)
  | name (j : Nat)
  /-- `is_closed` of the scan's log. -/
  | closed (j : Nat)
  /-- `handle.stopped()`. -/
  | stopped (j : Nat)
  /-- `Scan::progress`. -/
  | progress (j : Nat)
  | watermark (j : Nat)
  /-- `Scan::stop`. -/
  | stop (j : Nat)
  | list (limit : Option Nat)
  /-- `store::prune`. -/
  | prune (retention : Retention)

@[reducible] def Look.Answer (E : Engine) : Look → Type
  | .reading q => q.Answer E
  | .name _ => String
  | .closed _ => Bool
  | .stopped _ => Option Engine.StopCause
  | .progress _ => Proto.Progress
  | .watermark _ => Nat
  | .stop _ => Unit
  | .list _ => Except Error (List ScanListing)
  | .prune _ => Except EngineError Pruned

/-- A program of a method. -/
abbrev Looks (E : Engine) := Program Look (Look.Answer E) Error

namespace Look

/-- A program that only reads. -/
def reads {α : Type} (p : Reads E α) : Looks E α := p.lift .reading fun _ answer => answer

end Look

namespace Found

/-- Where the scan got to. -/
def state : Found E → Looks E ScanState
  | .live j => do
    let scanId ← .ask (.name j) .ret
    let closed ← .ask (.closed j) .ret
    let cause ← if closed then
        .ask (.stopped j) fun stopped => .ret (some (number (Convert.stopCause stopped)))
      else .ret none
    let progress ← .ask (.progress j) .ret
    let seq ← .ask (.watermark j) .ret
    return { scanId := scanId, running := !closed, cause := cause, progress := some progress, seq := seq }
  | .recorded record => .ret record.state

/-- Winds the scan down, where there is anything left to wind down. -/
def stop : Found E → Looks E Unit
  | .live j => .ask (.stop j) .ret
  | .recorded _ => .ret ()

end Found

namespace Stdio

/-- The scan a request named. -/
def named (id : String) : Looks E (Found E) := Look.reads (find id)

/-- `get`. -/
def get (id : String) : Looks E ScanState := do
  let scan ← named id
  scan.state

/-- `stop`. -/
def stop (id : String) : Looks E ScanState := do
  let scan ← named id
  scan.stop
  scan.state

/-- A duration of so many seconds. -/
def seconds (n : Nat) : Nat := 1000 * n

/-- `Scans::prune`: nothing is thrown away where nothing is recorded. -/
def prune (rules : Rules E) (asked : PruneRequest) : Looks E PruneResponse :=
  if rules.root then
    .ask (.prune ⟨asked.completedAfterSeconds.map seconds, asked.incompleteAfterSeconds.map seconds⟩) fun
      | .ok pruned => .ret ⟨pruned.removed, pruned.held.map fun held => ⟨held.1, held.2⟩⟩
      | .error refused => .fail (.engine refused)
  else .ret ⟨[], []⟩

/-- `list`. -/
def list (limit : Option Nat) : Looks E ListResponse := .ask (.list limit) fun
  | .ok scans => .ret ⟨scans⟩
  | .error refused => .fail refused

/-- What is answered to a call that reads reports. -/
def written : ExportResponse ⊕ DiffResponse → Answer
  | .inl exported => .exported exported
  | .inr compared => .compared compared

/-- What a method does, other than those that start a scan or follow one. -/
def handler (rules : Rules E) (corpus : List Engine.Listed) : Asked E → Option (Looks E Answer)
  | .get id => some (.state <$> get id)
  | .stop id => some (.state <$> stop id)
  | .detections => some (.ret (.detections (detections corpus)))
  | .report call => some (written <$> Look.reads call.program)
  | .prune asked => some (.pruned <$> prune rules asked)
  | .list limit => some (.listing <$> list limit)
  | .call _ => none
  | .watch _ _ => none

end Stdio

namespace Daemon

/-- What is the world's to say of what a look does: what the handle reports once it is aborted, and what
`store::prune` answers and leaves. -/
structure Effect (E : Engine) where
  reports : Option Engine.StopCause
  pruned : Except EngineError Pruned
  left : Except EngineError (List (Entry E.toEngineTypes))

/-- What a look is answered with. -/
def looks (rules : Rules E) (d : Daemon E) (effect : Effect E) : (q : Look) → Option (q.Answer E)
  | .reading q => some (d.answers rules q)
  | .name j => (d.scans[j]?).map fun l => l.sitting.scan.id
  | .closed j => (d.scans[j]?).map fun l => l.log.closed
  | .stopped j => (d.scans[j]?).map fun l => l.sitting.scan.handle.stopped
  | .progress j => (d.scans[j]?).map fun l => l.sitting.scan.progress
  | .watermark j => (d.scans[j]?).map fun l => l.log.watermark
  | .stop j => (d.scans[j]?).map fun _ => ()
  | .list limit => some (d.list rules limit)
  | .prune _ => some effect.pruned

/-- What a look does. -/
def deeds (effect : Effect E) : Look → Option (Act E)
  | .stop j => some (.scan j (.sitting (.stop effect.reports)))
  | .prune _ => some (.store effect.left)
  | _ => none

end Daemon

end ZondDaemon
