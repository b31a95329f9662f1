import ZondDaemon.Base.Program
import ZondDaemon.Start.Scope

/-!
# The one gate every scan goes through

`Policy` of `policy.rs` and the `Audit` it writes to. What a start needs of the world outside is a `Query`:
the clock, the audit's file, the resolver, the journal and the engine's own calls, each of which may answer
anything its type allows. A start is a `Program` over these.
-/

namespace ZondDaemon

/-- One line of the audit. -/
inductive AuditEntry
  | started (at' scanId kind : String) (targets : List String)
  | refused (at' kind : String) (targets : List String) (code detail : String)
deriving DecidableEq

/-- What the engine hands back of a scan it has set going, as far as it matters before anything happens. -/
structure Session where
  progress : Engine.Progress

/-- What is asked of the world outside while a scan is started or continued. -/
inductive Query (E : Engine)
  | now
  /-- One line written to the audit's file and flushed. -/
  | auditWrite (entry : AuditEntry)
  | resolverFromSystem
  /-- `resolve::to_target_map`. -/
  | resolveTargets (targets : List String) (ports : E.PortSet) (resolver : E.Resolver)
  /-- `parse::target::to_target_map`. -/
  | parseTargets (targets : List String) (ports : E.PortSet)
  | forDiscovery (targets : List String) (resolver : Option E.Resolver)
  | forExclusion (excluded : List String) (resolver : Option E.Resolver)
  | forListening (links : List String)
  | mint
  | prepareRoot
  /-- `Journal::create`. -/
  | createJournal (plan : E.Plan) (summary : String)
  /-- `store::list`. -/
  | listStore
  /-- `Journal::reopen`. -/
  | reopen (directory : String)
  | scan (map : E.TargetMap) (config : ZondConfig E.toEngineTypes)
  | scanWithJournal (map : E.TargetMap) (config : ZondConfig E.toEngineTypes) (journal : E.Journal)
  | discover (addresses : E.IpSet) (config : ZondConfig E.toEngineTypes)
  | discoverWithJournal (addresses : E.IpSet) (config : ZondConfig E.toEngineTypes) (journal : E.Journal)
  | listen (scope : ListenScope E.toEngineTypes) (config : ZondConfig E.toEngineTypes)
  | listenWithJournal (scope : ListenScope E.toEngineTypes) (config : ZondConfig E.toEngineTypes)
      (journal : E.Journal)

/-- What a query is answered with. -/
@[reducible] def Query.Answer {E : Engine} : Query E → Type
  | .now => Nat
  | .auditWrite _ => Except String Unit
  | .resolverFromSystem => E.Resolver
  | .resolveTargets .. => Except EngineError E.TargetMap
  | .parseTargets .. => Except EngineError E.TargetMap
  | .forDiscovery .. => Except EngineError E.DiscoveryTargets
  | .forExclusion .. => Except EngineError E.Exclusions
  | .forListening _ => Except String (List E.Zone)
  | .mint => String
  | .prepareRoot => Except EngineError Unit
  | .createJournal .. => Except EngineError E.Journal
  | .listStore => Except EngineError (List (Entry E.toEngineTypes))
  | .reopen _ => Except EngineError (E.Journal × E.Plan)
  | .scan .. => Except EngineError Session
  | .scanWithJournal .. => Except EngineError Session
  | .discover .. => Except EngineError Session
  | .discoverWithJournal .. => Except EngineError Session
  | .listen .. => Except EngineError Session
  | .listenWithJournal .. => Except EngineError Session

namespace Query

variable {E : Engine}

/-- A call that sets the engine going on a plan that sends something. -/
def engineCall : Query E → Bool
  | .scan .. => true
  | .scanWithJournal .. => true
  | .discover .. => true
  | .discoverWithJournal .. => true
  | _ => false

/-- A call that sets the engine going. -/
def begins : Query E → Bool
  | .listen .. => true
  | .listenWithJournal .. => true
  | q => q.engineCall

/-- A call that sets the engine going or makes a journal. -/
def touches : Query E → Bool
  | .createJournal .. => true
  | q => q.begins

/-- The addresses a call of the engine is given to reach. -/
def reach : Query E → List E.IpSet
  | .scan map _ => E.units map
  | .scanWithJournal map _ _ => E.units map
  | .discover addresses _ => [addresses]
  | .discoverWithJournal addresses _ _ => [addresses]
  | _ => []

theorem engineCall_of_begins {q : Query E} (h : q.begins = false) : q.engineCall = false := by
  cases q <;> first | exact h | rfl

theorem begins_of_touches {q : Query E} (h : q.touches = false) : q.begins = false := by
  cases q <;> first | exact h | rfl

end Query

/-- A program of a start. -/
abbrev Asking (E : Engine) := Program (Query E) Query.Answer Error

variable {E : Engine} {α : Type}

/-- One question, answered. -/
def call (q : Query E) : Asking E q.Answer := .ask q .ret

/-- `.map_err(Error::engine)?`. -/
def orEngine : Except EngineError α → Asking E α
  | .ok value => .ret value
  | .error refused => .fail (.engine refused)

namespace Error

/-- A line of the audit that could not be written. -/
def unwritable (broken : String) : Error := ⟨"audit.unwritable",
  s!"this scan was refused because it could not be written down: {broken}"⟩

end Error

/-- Where decisions are written down, if anywhere. -/
structure Audit where
  /-- There is a file to append to. -/
  configured : Bool

namespace Audit

def write (audit : Audit) (entry : AuditEntry) : Asking E Unit :=
  if audit.configured then do
    match ← call (.auditWrite entry) with
    | .ok () => .ret ()
    | .error broken => .fail (.unwritable broken)
  else .ret ()

/-- Records that a scan started. -/
def started (audit : Audit) (id kind : String) (targets : List String) : Asking E Unit := do
  let now ← call .now
  audit.write (.started (E.rfc3339 now) id kind targets)

/-- Records that a request was turned down, and why. -/
def refused (audit : Audit) (refusal : Error) (kind : String) (targets : List String) :
    Asking E Unit := do
  let now ← call .now
  audit.write (.refused (E.rfc3339 now) kind targets refusal.code refusal.message)

end Audit

/-- What bounds a scan, and where the bounding is written down. -/
structure Policy (E : Engine) where
  /-- Whether scans are written down. -/
  root : Bool
  scope : Scope E
  audit : Audit
  /-- Whether the daemon found room for this scan. -/
  hasRoom : Bool

namespace Policy

/-- Refuses a scan this daemon has no room to run. -/
def room (under : Policy E) (kind : String) (targets : List String) : Asking E Unit :=
  if under.hasRoom then .ret ()
  else do
    let refused := Error.atCapacity
    under.audit.refused refused kind targets
    .fail refused

/-- Judges a scan's addresses, and writes down a refusal. -/
def permit (under : Policy E) (reaching : E.IpSet) (kind : String) (targets : List String) :
    Asking E Unit :=
  match under.scope.permits reaching with
  | .error refused => do
    under.audit.refused refused kind targets
    .fail refused
  | .ok () => .ret ()

/-- Writes down that a scan is about to start. -/
def record (under : Policy E) (id kind : String) (targets : List String) : Asking E Unit :=
  under.audit.started id kind targets

end Policy

/-- `usize::MAX`. -/
def usizeMax : Nat := 2 ^ 64 - 1

/-- What the operator set for the daemon. -/
structure Rules (E : Engine) where
  /-- Whether scans are written down. -/
  root : Bool
  scope : Scope E
  audit : Audit
  /-- The most scans that may run at once, and `none` for as many as asked. -/
  ceiling : Option Nat
  ceiling_le : ∀ most ∈ ceiling, most ≤ usizeMax

namespace Rules

theorem none_le : ∀ most ∈ (none : Option Nat), most ≤ usizeMax :=
  fun _ hmem => absurd hmem (Option.not_mem_none _)

theorem one_le : ∀ most ∈ some 1, most ≤ usizeMax := by
  rintro most heq
  cases heq
  decide

/-- What every scan is held to. -/
def policy (rules : Rules E) (hasRoom : Bool) : Policy E where
  root := rules.root
  scope := rules.scope
  audit := rules.audit
  hasRoom := hasRoom

/-- `self.ceiling.unwrap_or(usize::MAX)`. -/
def most (rules : Rules E) : Nat := rules.ceiling.getD usizeMax

theorem most_le (rules : Rules E) : rules.most ≤ usizeMax := by
  rw [most]
  cases h : rules.ceiling with
  | none => exact Nat.le_refl _
  | some most => exact rules.ceiling_le most h

end Rules

/-- One of the scans a daemon is willing to run at once. -/
structure Slot
deriving DecidableEq

end ZondDaemon
