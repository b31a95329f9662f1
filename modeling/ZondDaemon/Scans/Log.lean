import ZondDaemon.Base.Sequence
import ZondDaemon.Proto

/-!
# Everything one scan has said, numbered

`Log` of `scans.rs`. A `push` is two steps seen from outside, the entry under the lock and then the
notification, and so is a `close`; both halves have a name here because a reader can come in between.
A `Notify` keeps no permit: it is the number of times it was notified, a future created by `notified()`
is the number it was created at, and it is ready once the two differ.
-/

namespace ZondDaemon

open Proto Sequence

structure Log (E : Engine) where
  entries : List (Event E.ScopedIp)
  /-- The document last written down for each address, hashed. -/
  seen : E.ScopedIp → Option UInt64
  arrived : Nat
  closed : Bool

namespace Log

variable {E : Engine}

/-- `Log::default()`. -/
def empty : Log E := ⟨[], fun _ => none, 0, false⟩

/-- FNV-1a over the text's bytes. -/
def hash (text : String) : UInt64 :=
  text.toUTF8.data.toList.foldl (fun digest byte => (digest ^^^ byte.toUInt64) * 0x00000100000001b3)
    0xcbf29ce484222325

/-- The first half of `push`: the entry, numbered from one. -/
def append (log : Log E) (body : Body E.ScopedIp) : Log E :=
  { log with entries := log.entries ++ [⟨log.entries.length + 1, some body⟩] }

/-- `arrived.notify_waiters()`, the second half of `push` and of `close`. -/
def notifyWaiters (log : Log E) : Log E := { log with arrived := log.arrived + 1 }

def push (log : Log E) (body : Body E.ScopedIp) : Log E := (log.append body).notifyWaiters

/-- Whether this host has anything new to say, and the log that remembers the answer. -/
def changed (log : Log E) (address : E.ScopedIp) (document : String) : Bool × Log E :=
  let digest := hash document
  (log.seen address != some digest,
    { log with seen := Function.update log.seen address (some digest) })

def watermark (log : Log E) : Nat := log.entries.length

def after (log : Log E) (cursor : Nat) : List (Event E.ScopedIp) :=
  log.entries.filter fun entry => cursor < entry.seq

/-- The first half of `close`. -/
def shut (log : Log E) : Log E := { log with closed := true }

def close (log : Log E) : Log E := log.shut.notifyWaiters

/-! ## What the operations leave alone -/

variable (log : Log E) (body : Body E.ScopedIp) (address : E.ScopedIp) (document : String)

@[simp] theorem append_entries :
    (log.append body).entries = log.entries ++ [⟨log.entries.length + 1, some body⟩] := rfl
@[simp] theorem append_seen : (log.append body).seen = log.seen := rfl
@[simp] theorem append_arrived : (log.append body).arrived = log.arrived := rfl
@[simp] theorem append_closed : (log.append body).closed = log.closed := rfl
@[simp] theorem notifyWaiters_entries : log.notifyWaiters.entries = log.entries := rfl
@[simp] theorem notifyWaiters_seen : log.notifyWaiters.seen = log.seen := rfl
@[simp] theorem notifyWaiters_closed : log.notifyWaiters.closed = log.closed := rfl
@[simp] theorem shut_entries : log.shut.entries = log.entries := rfl
@[simp] theorem shut_seen : log.shut.seen = log.seen := rfl
@[simp] theorem shut_closed : log.shut.closed = true := rfl
@[simp] theorem changed_entries : (log.changed address document).2.entries = log.entries := rfl
@[simp] theorem changed_arrived : (log.changed address document).2.arrived = log.arrived := rfl
@[simp] theorem changed_closed : (log.changed address document).2.closed = log.closed := rfl

@[simp] theorem changed_seen : (log.changed address document).2.seen =
    Function.update log.seen address (some (hash document)) := rfl

theorem changed_iff :
    (log.changed address document).1 = true ↔ log.seen address ≠ some (hash document) := by
  simp [changed]

/-! ## The numbering -/

/-- The entries are numbered 1, 2, 3, … -/
def WellNumbered (log : Log E) : Prop := Numbered Event.seq log.entries

variable {log}

theorem empty_wellNumbered : (empty : Log E).WellNumbered := numbered_nil

theorem WellNumbered.append (h : log.WellNumbered) : (log.append body).WellNumbered :=
  Numbered.concat h rfl

theorem WellNumbered.after_eq (h : log.WellNumbered) (cursor : Nat) :
    log.after cursor = log.entries.drop cursor :=
  h.filter_after cursor

theorem mem_after {cursor : Nat} {event : Event E.ScopedIp} :
    event ∈ log.after cursor ↔ event ∈ log.entries ∧ cursor < event.seq := by
  simp [after]

end Log

end ZondDaemon
