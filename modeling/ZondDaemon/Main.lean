import ZondDaemon.Start.Allowed
import ZondDaemon.Start.Policy

/-!
# The `zondd` binary

`main`: the rules a command line sets for the daemon, which of the two ways it serves, and what it says
instead where it does neither. What is outside is the journal directory of the user and whether the audit's
file can be opened.
-/

namespace ZondDaemon

variable {E : Engine}

/-- A command line that was read. -/
structure Args where
  stdio : Bool
  listen : Option String
  socketGroup : Option Nat
  journalDir : Option String
  noJournal : Bool
  allow : List String
  deny : List String
  audit : Option String
  maxConcurrent : Option Nat
  /-- `conflicts_with = "listen"`. -/
  stdio_listen : stdio = true → listen = none
  /-- `requires = "listen"`. -/
  socketGroup_listen : socketGroup.isSome = true → listen.isSome = true
  /-- `conflicts_with = "journal_dir"`. -/
  noJournal_journalDir : noJournal = true → journalDir = none
  maxConcurrent_le : ∀ most ∈ maxConcurrent, most ≤ usizeMax

/-- How the protocol is served. -/
inductive Service
  | listen (path : String) (socketGroup : Option Nat)
  | stdio
deriving DecidableEq

/-- What `main` asks of the machine it runs on. -/
structure Surroundings where
  /-- `journal::paths::root`. -/
  root : Option String
  /-- `Audit::appending_to`. -/
  appendingTo : String → Except String Unit

/-- `Display for Error`. -/
def Error.display (error : Error) : String := s!"{error.code}: {error.message}"

namespace Args

def nowhere : String :=
  "zondd: nowhere to write scans down, so none will outlive this process.\n" ++
  "Name a directory with --journal-dir, or say --no-journal to mean it."

def bounded : String := "zondd: scans are bounded by the ranges named on the command line"

def neither : String :=
  "zondd serves the protocol one of two ways, and does neither until told which.\n\n" ++
  "  zondd --stdio                  for a client that started this process\n" ++
  "  zondd --listen /run/zond.sock  for a client that could not"

/-- Where scans are written down. -/
def root (args : Args) (machine : Surroundings) : Option String :=
  if args.noJournal then none else args.journalDir.or machine.root

/-- The audit, opened before a single scan runs. -/
def opened (args : Args) (machine : Surroundings) : Except String Audit :=
  match args.audit with
  | none => .ok ⟨false⟩
  | some path => match machine.appendingTo path with
    | .ok () => .ok ⟨true⟩
    | .error broken => .error s!"zondd: {path} cannot be written to: {broken}"

/-- How it is told to serve. -/
def service (args : Args) : Option Service :=
  match args.listen, args.stdio with
  | some path, _ => some (.listen path args.socketGroup)
  | none, true => some .stdio
  | none, false => none

/-- The rules the daemon is set up with, or what is wrong with them. -/
def rules (args : Args) (machine : Surroundings) : Except String (Rules E) :=
  match Scope.read args.allow args.deny with
  | .error refused => .error s!"zondd: {refused.display}"
  | .ok scope => (args.opened machine).map fun audit =>
    { root := (args.root machine).isSome
      scope := scope
      audit := audit
      ceiling := args.maxConcurrent
      ceiling_le := args.maxConcurrent_le }

/-- What is said before anything is served, and what is: `none` is an exit with 2. -/
def main (args : Args) (machine : Surroundings) : List String × Option (Rules E × Service) :=
  let said := if (args.root machine).isNone && !args.noJournal then [nowhere] else []
  match args.rules machine with
  | .error broken => (said ++ [broken], none)
  | .ok rules =>
    let said := if rules.scope.isBounded then said ++ [bounded] else said
    match args.service with
    | none => (said ++ [neither], none)
    | some service => (said, some (rules, service))

variable {args : Args} {machine : Surroundings} {set : Rules E} {how : Service} {said : List String}

/-- What the command line sets, where something is served. -/
structure Sets (args : Args) (machine : Surroundings) (set : Rules E) : Prop where
  scope : Scope.read args.allow args.deny = .ok set.scope
  audit : set.audit.configured = args.audit.isSome
  root : set.root = (args.root machine).isSome
  ceiling : set.ceiling = args.maxConcurrent

theorem opened_configured {audit : Audit} (h : args.opened machine = .ok audit) :
    audit.configured = args.audit.isSome := by
  unfold opened at h
  split at h
  · rename_i hnone
    cases h
    rw [hnone]
    rfl
  · rename_i path hpath
    split at h
    · cases h
      rw [hpath]
      rfl
    · cases h

theorem sets_of_rules (h : args.rules machine = .ok set) : Sets args machine set := by
  unfold rules at h
  split at h
  · cases h
  · rename_i scope hscope
    cases haudit : args.opened machine with
    | error broken =>
      rw [haudit] at h
      cases h
    | ok audit =>
      rw [haudit] at h
      cases h
      exact ⟨hscope, opened_configured haudit, rfl, rfl⟩

theorem sets_of_main (h : args.main machine = (said, some (set, how))) : Sets args machine set := by
  unfold main at h
  dsimp only at h
  split at h
  · cases h
  · rename_i rules hrules
    split at h
    · cases h
    · cases h
      exact sets_of_rules hrules

theorem Sets.root_eq_false (h : Sets args machine set) (hno : args.noJournal = true) : set.root = false := by
  rw [h.root, Args.root, if_pos hno]
  rfl

end Args

end ZondDaemon
