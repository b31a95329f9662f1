import Mathlib
import ZondDaemon.Base.Machine
import ZondDaemon.Plain
import ZondDaemon.Scans.Scan

/-!
# One sitting of a scan: the engine and the follower

The state shared by everybody who looks at a live scan, and what changes it: the engine's task (the host
store, the event stream, the progress, what the handle reports, the outcome), a client's `stop`, and
`follow`, the one task that reads the stream. `Follower` is where that task stands, one constructor for
each point another task can come in at; `heard` is its `match event` and `follow` one step of it.

`past` and `owed` are history variables. Nothing computes with them: they keep, for each address, the
documents the store has had for it (oldest first, one stored again unchanged counting once), and the
addresses whose last change is still unannounced.
-/

namespace ZondDaemon

open Proto Sequence

variable {E : Engine}

/-- Where the follower goes on once an entry is pushed. -/
inductive Next | draining | measuring | closing
deriving DecidableEq

/-- Where the follower stands. -/
inductive Follower (E : Engine)
  /-- `follow` has not been called. -/
  | unborn
  /-- At `events.recv().await`. -/
  | draining
  /-- Told of a host, about to look it up. -/
  | looking (address : E.ScopedIp)
  /-- About to ask the log whether this document is new. -/
  | judging (address : E.ScopedIp) (document : String)
  /-- Said a stage, about to read the progress. -/
  | measuring
  /-- In `log.push`, before the entry is in. -/
  | pushing (body : Body E.ScopedIp) (next : Next)
  /-- In `log.push`, before the readers are woken. -/
  | notifying (next : Next)
  /-- The stream is over; at `task.join()`. -/
  | joining
  /-- At `if let Ok(finished) = &outcome`. -/
  | settling (outcome : Except EngineError E.ScanReport)
  /-- At `let cause = match &outcome`. -/
  | concluding (outcome : Except EngineError E.ScanReport)
  /-- In `log.close`, before the flag is set. -/
  | closing
  /-- In `log.close`, before the readers are woken. -/
  | waking
  /-- At `drop(slot)`. -/
  | releasing
  | done

def Next.follower : Next → Follower E
  | .draining => .draining
  | .measuring => .measuring
  | .closing => .closing

/-- A live scan and the half of it only the follower and the engine have. -/
structure Sitting (E : Engine) where
  scan : Scan E
  /-- Sent into the stream and not received yet. -/
  events : List (Engine.ScanEvent E.ScopedIp)
  /-- The sending half is gone: once `events` is read, `recv` answers `None`. -/
  hungUp : Bool
  /-- What `task.join()` answers, once the task is over. -/
  task : Option (Except EngineError E.ScanReport)
  follower : Follower E
  /-- Whether the follower holds the slot the scan was claimed a place with. -/
  slot : Bool
  past : E.ScopedIp → List String
  owed : List E.ScopedIp

namespace Sitting

/-- A scan just built, its engine not having said or found anything. -/
def fresh (id : String) (progress : Engine.Progress) (redaction : Redaction) : Sitting E where
  scan := Scan.new id .empty progress ⟨none⟩ redaction
  events := []
  hungUp := false
  task := none
  follower := .unborn
  slot := false
  past := fun _ => []
  owed := []

/-- What can happen to a live scan. -/
inductive Act (E : Engine)
  /-- The engine stores a host, new or changed. -/
  | update (host : E.Host)
  /-- The store hands its hosts out in another order. -/
  | raise (i : Nat)
  /-- The engine sends an event into the stream. -/
  | announce (event : Engine.ScanEvent E.ScopedIp)
  /-- The stream drops its oldest events under pressure, and says so. -/
  | lag (missed : Nat)
  /-- The engine lets go of the sending half. -/
  | hangUp
  | moves (progress : Engine.Progress)
  /-- What the handle reports changes on the engine's side. -/
  | halts (cause : Option Engine.StopCause)
  /-- The engine's task is over. -/
  | finish (outcome : Except EngineError E.ScanReport)
  /-- `follow` is called, with the slot or with none. -/
  | spawn (slot : Bool)
  /-- The follower takes a step. -/
  | follow
  /-- A client calls `stop`, after which the handle reports this. -/
  | stop (reports : Option Engine.StopCause)

/-- The follower's `match event`. -/
def heard : Engine.ScanEvent E.ScopedIp → Follower E
  | .hostUpdated address => .looking address
  | .stageChanged stage => .pushing (.stage ⟨number (Convert.stage stage)⟩) .measuring
  | .scannerFailed scanner reason => .pushing (.failure ⟨scanner, reason⟩) .draining
  | .eventsDropped _ => .draining
  | .other => .draining

/-- The cause the follower writes into `Finished`. -/
def concludes (s : Sitting E) : Except EngineError E.ScanReport → Proto.StopCause
  | .ok _ => Convert.stopCause s.scan.handle.stopped
  | .error _ => .aborted

/-- One step of the follower; `none` where it waits. -/
def follow (s : Sitting E) : Option (Sitting E) :=
  match s.follower with
  | .unborn => none
  | .draining =>
    match s.events with
    | event :: rest => some { s with events := rest, follower := heard event }
    | [] => if s.hungUp then some { s with follower := .joining } else none
  | .looking address =>
    match s.scan.documentOf address with
    | some document => some { s with follower := .judging address document }
    -- no such host, or one that does not serialise: `continue`
    | none => some { s with follower := .draining }
  | .judging address document =>
    let (new, log) := s.scan.log.changed address document
    some { s with
      scan := { s.scan with log := log }
      follower := if new then .pushing (.host ⟨address, document⟩) .draining else .draining }
  | .measuring => some { s with follower := .pushing (.progress s.scan.progress) .draining }
  | .pushing body next =>
    some { s with scan := { s.scan with log := s.scan.log.append body }, follower := .notifying next }
  | .notifying next =>
    some { s with scan := { s.scan with log := s.scan.log.notifyWaiters }, follower := next.follower }
  | .joining => s.task.map fun outcome => { s with follower := .settling outcome }
  | .settling outcome =>
    some { s with
      scan := { s.scan with report := match outcome with
        | .ok finished => some finished
        | .error _ => s.scan.report }
      follower := .concluding outcome }
  | .concluding outcome =>
    some { s with follower := .pushing (.finished ⟨number (s.concludes outcome)⟩) .closing }
  | .closing => some { s with scan := { s.scan with log := s.scan.log.shut }, follower := .waking }
  | .waking =>
    some { s with scan := { s.scan with log := s.scan.log.notifyWaiters }, follower := .releasing }
  | .releasing => some { s with slot := false, follower := .done }
  | .done => none

/-- What an event in the stream leaves unannounced. -/
def owedAfter (owed : List E.ScopedIp) : Engine.ScanEvent E.ScopedIp → List E.ScopedIp
  | .hostUpdated address => owed.filter fun other => other ≠ address
  | _ => owed

/-- The documents the store has had for a host's address, once it has this one. -/
def pastWith (s : Sitting E) (host : E.Host) : List String :=
  s.past (E.scopedIp host) ++
    if s.scan.documentOf (E.scopedIp host) = E.document s.scan.redaction host then []
    else (E.document s.scan.redaction host).toList

def step (s : Sitting E) : Act E → Option (Sitting E)
  | .update host => some { s with
      scan := { s.scan with hosts := s.scan.hosts.put host }
      past := Function.update s.past (E.scopedIp host) (s.pastWith host)
      owed := E.scopedIp host :: s.owed }
  | .raise i => some { s with scan := { s.scan with hosts := s.scan.hosts.raise i } }
  | .announce event =>
    if s.hungUp then none
    else some { s with events := s.events ++ [event], owed := owedAfter s.owed event }
  | .lag missed =>
    if missed ≤ s.events.length then
      some { s with events := .eventsDropped missed :: s.events.drop missed }
    else none
  | .hangUp => some { s with hungUp := true }
  | .moves progress => some { s with scan := { s.scan with reckoning := progress } }
  | .halts cause => some { s with scan := { s.scan with handle := ⟨cause⟩ } }
  | .finish outcome => if s.task.isNone then some { s with task := some outcome } else none
  | .spawn slot =>
    match s.follower with
    | .unborn => some { s with follower := .draining, slot := slot }
    | _ => none
  | .follow => s.follow
  | .stop reports => some { s with scan := { s.scan with handle := ⟨reports⟩ } }

def machine (E : Engine) : Machine (Sitting E) (Act E) := ⟨step⟩

/-- A scan of the plain engine, just built. -/
def plain : Sitting Plain.engine := fresh "A" ⟨.discovery, none, none⟩ .none

end Sitting

end ZondDaemon
