import ZondDaemon.Base.Machine
import ZondDaemon.Stdio.Frames

/-!
# One connection

`speak` of `stdio.rs` with everybody at work on it: the loop that reads the input a line at a time, the tasks
it spawned to answer one request each, and the output they take turns at, under a lock that is held until the
line is taken and flushed. What the registry answers a task is the world's to say, and so is how much of a
line the output takes at a time and who is next at the lock; the output takes whatever it is given. Once the
loop is out on an error its tasks may be aborted, each where it stands.

`heard` and `written` are history variables: the lines the loop has had from the reader, and the frames
written as a whole, in their order, each with who wrote it.
-/

namespace ZondDaemon

variable {E : Engine}

namespace Stdio

/-- Who writes a frame: the loop, or one of the tasks. -/
inductive Party
  | loop
  | task (i : Nat)
deriving DecidableEq

/-- Where a call of `frame` stands at the lock. -/
inductive Turn
  | waiting
  /-- Inside, with so much of the line still to be taken, or with nothing left and about to flush. -/
  | holding (left : List UInt8)

/-- A call of `frame`. -/
structure Writing where
  frame : Frame
  turn : Turn := .waiting

/-- An event of a scan, with its number. -/
structure Spoken where
  seq : Nat
  json : Json

/-- Where an answer stands. -/
inductive Pc (E : Engine)
  /-- Its task not run yet. -/
  | spawned
  /-- With the registry. -/
  | calling (asked : Asked E)
  /-- In `watch`, about to take the snapshot. -/
  | snapshotting
  /-- In `watch`, with events still to be written and the cursor to go on from. -/
  | telling (left : List Spoken) (cursor : Nat)
  /-- In `scan.after(cursor)`. -/
  | following (cursor : Nat)
  | framing (writing : Writing) (next : Pc E)
  | returned
  | aborted

/-- A task, and the request it answers. -/
structure Answering (E : Engine) where
  request : Request
  pc : Pc E := .spawned

/-- What the registry answers: a call with its response or its error, `watch` with whether there is such a
scan, and a scan that is followed with its events. -/
inductive Reply
  | answer (answer : Except Error Json)
  | found (refused : Option Error)
  | events (events : List Spoken)

namespace Answering

/-- The answer at another point. -/
def goes (a : Answering E) (pc : Pc E) : Answering E := { a with pc := pc }

/-- `frame`, or `fail`, and what comes after it. -/
def frames (a : Answering E) (frame : Frame) (next : Pc E) : Answering E :=
  a.goes (.framing ⟨frame, .waiting⟩ next)

/-- `answer`, a step of its own at a time. -/
def proceed (serde : Serde E.F64) (a : Answering E) : Option (Answering E) :=
  match a.pc with
  | .spawned => match asked serde a.request.method a.request.params with
    | .ok call => some (a.goes (.calling call))
    | .error refused => some (a.frames (.error a.request.id refused) .returned)
  | .telling (event :: left) cursor => some (a.frames (.event a.request.id event.json) (.telling left cursor))
  | .telling [] cursor => some (a.goes (.following cursor))
  | _ => none

/-- `answer`, as the registry answers it. -/
def reply (a : Answering E) (r : Reply) : Option (Answering E) :=
  match a.pc, r with
  | .calling (.watch _ _), .found (some refused) => some (a.frames (.error a.request.id refused) .returned)
  | .calling (.watch _ fromSeq), .found none =>
    some (a.goes (if fromSeq = 0 then .snapshotting else .following fromSeq))
  | .calling (.watch _ _), _ => none
  | .calling _, .answer (.ok answer) => some (a.frames (.result a.request.id answer) .returned)
  | .calling _, .answer (.error refused) => some (a.frames (.error a.request.id refused) .returned)
  | .snapshotting, .events caughtUp =>
    some (a.goes (.telling caughtUp ((caughtUp.getLast?.map Spoken.seq).getD 0)))
  | .following _, .events [] => some (a.frames (.ended a.request.id) .returned)
  | .following cursor, .events (event :: left) =>
    some (a.goes (.telling (event :: left)
      ((event :: left).foldl (fun cursor event => max cursor event.seq) cursor)))
  | _, _ => none

/-- The call of `frame` it is in. -/
def writing (a : Answering E) : Option Writing :=
  match a.pc with
  | .framing writing _ => some writing
  | _ => none

/-- The call of `frame` gone on, or, with `none`, come back. -/
def puts (a : Answering E) (writing : Option Writing) : Answering E :=
  match a.pc, writing with
  | .framing _ next, some writing => a.goes (.framing writing next)
  | .framing _ next, none => a.goes next
  | _, _ => a

/-- Its task is over. -/
def done (a : Answering E) : Bool :=
  match a.pc with
  | .returned => true
  | .aborted => true
  | _ => false

end Answering

/-- Where the loop of `speak` stands. -/
inductive Loop
  | reading
  /-- Answering a line that was no request. -/
  | refusing (writing : Writing)
  /-- The input is closed; waiting for the tasks. -/
  | joining
  | returned
  /-- Out on the error of a line that was not UTF-8. -/
  | failed

structure Connection (E : Engine) where
  /-- The lines not read yet. -/
  input : List (List UInt8)
  loop : Loop := .reading
  answering : List (Answering E) := []
  /-- Who holds the lock. -/
  holder : Option Party := none
  output : List UInt8 := []
  heard : List (List UInt8) := []
  written : List (Party × Frame) := []

/-- What a call of `frame` does next. -/
inductive Write
  | lock
  /-- The output takes so many bytes. -/
  | put (n : Nat)
  | flush

inductive Act
  /-- The loop takes a step. -/
  | speak
  /-- A task takes a step of its own. -/
  | proceed (i : Nat)
  | reply (i : Nat) (r : Reply)
  | write (p : Party) (w : Write)
  /-- A task is aborted. -/
  | abort (i : Nat)

namespace Connection

/-- The connection as it is opened, with what will come in on it. -/
def opened (input : List UInt8) : Connection E where
  input := inputLines input

/-- The call of `frame` a party is in. -/
def writing (c : Connection E) : Party → Option Writing
  | .loop => match c.loop with
    | .refusing writing => some writing
    | _ => none
  | .task i => (c.answering[i]?).bind Answering.writing

/-- A task at another point. -/
def goes (c : Connection E) (i : Nat) (a : Answering E) : Connection E :=
  { c with answering := c.answering.set i a }

/-- A party's call of `frame` gone on, or come back. -/
def puts (c : Connection E) (p : Party) (writing : Option Writing) : Connection E :=
  { c with
    loop := match p, writing with
      | .loop, some writing => .refusing writing
      | .loop, none => .reading
      | .task _, _ => c.loop
    answering := match p with
      | .loop => c.answering
      | .task i => c.answering.modify i fun a => a.puts writing }

/-- The loop of `speak`: the next line, or the wait for the tasks. -/
def speak (serde : Serde E.F64) (c : Connection E) : Option (Connection E) :=
  match c.loop, c.input with
  | .reading, [] => some { c with loop := .joining }
  | .reading, line :: rest =>
    let c := { c with input := rest, heard := c.heard ++ [line] }
    match hear serde line with
    | .garbled => some { c with loop := .failed }
    | .blank => some c
    | .malformed detail => some { c with loop := .refusing ⟨.error .null (.malformed detail), .waiting⟩ }
    | .request request => some { c with answering := c.answering ++ [⟨request, .spawned⟩] }
  | .joining, _ => if c.answering.all Answering.done then some { c with loop := .returned } else none
  | _, _ => none

/-- `frame`: the lock, the line as the output takes it, the flush. -/
def write (c : Connection E) (p : Party) (act : Write) : Option (Connection E) :=
  (c.writing p).bind fun w =>
    match act, w.turn with
    | .lock, .waiting => if c.holder = none then
        some { c.puts p (some ⟨w.frame, .holding w.frame.line⟩) with holder := some p } else none
    | .put n, .holding left => if 0 < n ∧ n ≤ left.length then
        some { c.puts p (some ⟨w.frame, .holding (left.drop n)⟩) with output := c.output ++ left.take n }
      else none
    | .flush, .holding [] =>
      some { c.puts p none with holder := none, written := c.written ++ [(p, w.frame)] }
    | _, _ => none

/-- The task set is dropped: a task is over where it stands, and the lock free if it held it. -/
def abort (c : Connection E) (i : Nat) (a : Answering E) : Option (Connection E) :=
  match c.loop with
  | .failed => if a.done then none else
      some { c.goes i (a.goes .aborted) with
        holder := if c.holder = some (.task i) then none else c.holder }
  | _ => none

def step (serde : Serde E.F64) (c : Connection E) : Act → Option (Connection E)
  | .speak => c.speak serde
  | .proceed i => (c.answering[i]?).bind fun a => (a.proceed serde).map (c.goes i)
  | .reply i r => (c.answering[i]?).bind fun a => (a.reply r).map (c.goes i)
  | .write p w => c.write p w
  | .abort i => (c.answering[i]?).bind (c.abort i)

def machine (serde : Serde E.F64) : Machine (Connection E) Act := ⟨step serde⟩

/-! ## What a step can do -/

/-- The steps of a connection, one constructor for each. -/
inductive Moves (serde : Serde E.F64) (c : Connection E) : Act → Connection E → Prop
  | closes : c.loop = .reading → c.input = [] → Moves serde c .speak { c with loop := .joining }
  | garbles {line : List UInt8} {rest : List (List UInt8)} :
      c.loop = .reading → c.input = line :: rest → hear serde line = .garbled →
      Moves serde c .speak { c with input := rest, heard := c.heard ++ [line], loop := .failed }
  | skips {line : List UInt8} {rest : List (List UInt8)} :
      c.loop = .reading → c.input = line :: rest → hear serde line = .blank →
      Moves serde c .speak { c with input := rest, heard := c.heard ++ [line] }
  | refuses {line : List UInt8} {rest : List (List UInt8)} {detail : String} :
      c.loop = .reading → c.input = line :: rest → hear serde line = .malformed detail →
      Moves serde c .speak { c with
        input := rest, heard := c.heard ++ [line]
        loop := .refusing ⟨.error .null (.malformed detail), .waiting⟩ }
  | spawns {line : List UInt8} {rest : List (List UInt8)} {request : Request} :
      c.loop = .reading → c.input = line :: rest → hear serde line = .request request →
      Moves serde c .speak { c with
        input := rest, heard := c.heard ++ [line]
        answering := c.answering ++ [⟨request, .spawned⟩] }
  | joins : c.loop = .joining → (∀ a ∈ c.answering, a.done = true) →
      Moves serde c .speak { c with loop := .returned }
  /-- A task takes a step that is not one of `frame`. -/
  | goes {act : Act} {i : Nat} {a a' : Answering E} :
      c.answering[i]? = some a →
      (act = .proceed i ∧ a.proceed serde = some a' ∨ ∃ r, act = .reply i r ∧ a.reply r = some a') →
      Moves serde c act (c.goes i a')
  | locks {p : Party} {frame : Frame} : c.writing p = some ⟨frame, .waiting⟩ → c.holder = none →
      Moves serde c (.write p .lock)
        { c.puts p (some ⟨frame, .holding frame.line⟩) with holder := some p }
  | puts {p : Party} {frame : Frame} {left : List UInt8} {n : Nat} :
      c.writing p = some ⟨frame, .holding left⟩ → 0 < n → n ≤ left.length →
      Moves serde c (.write p (.put n)) { c.puts p (some ⟨frame, .holding (left.drop n)⟩) with
        output := c.output ++ left.take n }
  | flushes {p : Party} {frame : Frame} : c.writing p = some ⟨frame, .holding []⟩ →
      Moves serde c (.write p .flush)
        { c.puts p none with holder := none, written := c.written ++ [(p, frame)] }
  | aborts {i : Nat} {a : Answering E} :
      c.loop = .failed → c.answering[i]? = some a → a.done = false →
      Moves serde c (.abort i) { c.goes i (a.goes .aborted) with
        holder := if c.holder = some (.task i) then none else c.holder }

variable {serde : Serde E.F64} {c c' : Connection E} {act : Act}

theorem moves_of_step (h : (machine serde).step c act = some c') : Moves serde c act c' := by
  cases act with
  | speak =>
    simp only [machine, step, speak] at h
    split at h
    · rename_i hloop hinput
      cases h
      exact .closes hloop hinput
    · rename_i line rest hloop hinput
      split at h
      · rename_i hhear
        cases h
        exact .garbles hloop hinput hhear
      · rename_i hhear
        cases h
        exact .skips hloop hinput hhear
      · rename_i detail hhear
        cases h
        exact .refuses hloop hinput hhear
      · rename_i request hhear
        cases h
        exact .spawns hloop hinput hhear
    · rename_i hloop
      split_ifs at h with hall
      cases h
      exact .joins hloop (List.all_eq_true.mp hall)
    · cases h
  | proceed i =>
    obtain ⟨a, ha, h⟩ := Option.bind_eq_some_iff.mp h
    obtain ⟨a', ha', rfl⟩ := Option.map_eq_some_iff.mp h
    exact .goes ha (.inl ⟨rfl, ha'⟩)
  | reply i r =>
    obtain ⟨a, ha, h⟩ := Option.bind_eq_some_iff.mp h
    obtain ⟨a', ha', rfl⟩ := Option.map_eq_some_iff.mp h
    exact .goes ha (.inr ⟨r, rfl, ha'⟩)
  | write p w =>
    obtain ⟨⟨frame, turn⟩, hw, h⟩ := Option.bind_eq_some_iff.mp h
    dsimp only at h
    split at h
    · split_ifs at h with hfree
      cases h
      exact .locks hw hfree
    · split_ifs at h with hn
      cases h
      exact .puts hw hn.1 hn.2
    · cases h
      exact .flushes hw
    · cases h
  | abort i =>
    obtain ⟨a, ha, h⟩ := Option.bind_eq_some_iff.mp h
    unfold abort at h
    split at h
    · rename_i hloop
      by_cases hdone : a.done = true
      · rw [if_pos hdone] at h
        cases h
      · rw [if_neg hdone] at h
        cases h
        exact .aborts hloop ha (Bool.eq_false_iff.mpr hdone)
    · cases h

end Connection

end Stdio

end ZondDaemon
