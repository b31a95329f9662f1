import ZondDaemon.Scans.Watch

/-!
# A live scan and everybody reading it

The whole of one live scan: the sitting and any number of clients, each in a call of its own, taking
steps in any order. A client changes nothing a sitting is made of, so a run of the whole is a run of the
sitting with the clients' steps left out (`sitting_reach`), and what the follower keeps is kept here.
-/

namespace ZondDaemon

open Proto Sequence

variable {E : Engine}

/-- What a client of a live scan is at. -/
inductive Client (E : Engine)
  | idle
  /-- In a call of `Scan::after` and nothing around it. -/
  | after (cursor : Nat) (call : After E)
  | watch (w : Watch E)
  /-- A frame could not be written: the call has returned, having written what it had. -/
  | lost (w : Watch E)
deriving DecidableEq

namespace Client

def step (scan : Scan E) : Client E → Option (Client E)
  | .idle => none
  | .after cursor call => (call.step scan cursor).map fun call => .after cursor call
  | .watch w => (w.step scan).map .watch
  | .lost _ => none

/-- The watch a client has or had. -/
def watching : Client E → Option (Watch E)
  | .watch w => some w
  | .lost w => some w
  | _ => none

/-- The call of `Scan::after` a client stands in, and its cursor. -/
def call : Client E → Option (Nat × After E)
  | .after cursor call => some (cursor, call)
  | .watch w =>
    match w.pc with
    | .tailing cursor call => some (cursor, call)
    | _ => none
  | _ => none

/-- What the client's call has been told is the log's. -/
def Faithful (entries : List (Event E.ScopedIp)) : Client E → Prop
  | .idle => True
  | .after cursor call => call.Read entries cursor
  | .watch w => w.Faithful entries ∧ w.OverLast
  | .lost w => w.Faithful entries

variable {entries more : List (Event E.ScopedIp)} {scan : Scan E} {c c' : Client E}

theorem Faithful.grows (hp : entries <+: more) (h : c.Faithful entries) : c.Faithful more := by
  cases c with
  | idle => trivial
  | after cursor call => exact Watch.read_grows hp h
  | watch w => exact ⟨h.1.grows hp, h.2⟩
  | lost w => exact Watch.Faithful.grows hp h

theorem step_faithful (hn : scan.log.WellNumbered) (h : c.step scan = some c')
    (hc : c.Faithful scan.log.entries) : c'.Faithful scan.log.entries := by
  cases c with
  | after cursor call =>
    obtain ⟨call', hcall, rfl⟩ := Option.map_eq_some_iff.mp h
    exact Watch.read_step hn hcall hc
  | watch w =>
    obtain ⟨w', hw, rfl⟩ := Option.map_eq_some_iff.mp h
    exact ⟨Watch.step_faithful hn hw hc.1, Watch.step_overLast hw hc.2⟩
  | _ => cases h

theorem Faithful.watching (h : c.Faithful entries) {w : Watch E} (hw : c.watching = some w) :
    w.Faithful entries := by
  cases c with
  | watch w' =>
    cases hw
    exact h.1
  | lost w' =>
    cases hw
    exact h
  | _ => cases hw

end Client

structure Live (E : Engine) where
  sitting : Sitting E
  clients : Nat → Client E

namespace Live

def start (s : Sitting E) : Live E := ⟨s, fun _ => .idle⟩

def log (l : Live E) : Log E := l.sitting.scan.log

inductive Act (E : Engine)
  | sitting (a : Sitting.Act E)
  /-- A client calls `Scan::after`. -/
  | after (i cursor : Nat)
  /-- A client's `watch` has found this scan. -/
  | watch (i fromSeq : Nat)
  /-- A client's call takes a step. -/
  | client (i : Nat)
  /-- The connection of a client that is watching is gone. -/
  | lose (i : Nat)

def set (l : Live E) (i : Nat) (c : Client E) : Live E :=
  { l with clients := Function.update l.clients i c }

def step (l : Live E) : Act E → Option (Live E)
  | .sitting a => (l.sitting.step a).map fun sitting => { l with sitting := sitting }
  | .after i cursor =>
    match l.clients i with
    | .idle => some (l.set i (.after cursor .starting))
    | _ => none
  | .watch i fromSeq =>
    match l.clients i with
    | .idle => some (l.set i (.watch (Watch.call fromSeq)))
    | _ => none
  | .client i => ((l.clients i).step l.sitting.scan).map (l.set i)
  | .lose i =>
    match l.clients i with
    | .watch w => some (l.set i (.lost w))
    | _ => none

def machine (E : Engine) : Machine (Live E) (Act E) := ⟨step⟩

variable {l m : Live E} {a : Act E}

/-- What a step does: the sitting's, with every client where it was, or one client's, where the client
begins a call, goes on with it, or loses its connection. -/
theorem step_cases (h : l.step a = some m) :
    (∃ act sitting, a = .sitting act ∧ l.sitting.step act = some sitting ∧
      m = { l with sitting := sitting }) ∨
    (∃ i c, m = l.set i c ∧ (∀ act, a ≠ .sitting act) ∧
      ((∃ cursor, c = .after cursor .starting) ∨ (∃ fromSeq, c = .watch (Watch.call fromSeq)) ∨
        (l.clients i).step l.sitting.scan = some c ∨ ∃ w, l.clients i = .watch w ∧ c = .lost w)) := by
  cases a with
  | sitting act =>
    obtain ⟨sitting, hs, rfl⟩ := Option.map_eq_some_iff.mp h
    exact .inl ⟨act, sitting, rfl, hs, rfl⟩
  | after i cursor =>
    simp only [step] at h
    split at h <;> cases h
    exact .inr ⟨i, _, rfl, fun _ => nofun, .inl ⟨cursor, rfl⟩⟩
  | watch i fromSeq =>
    simp only [step] at h
    split at h <;> cases h
    exact .inr ⟨i, _, rfl, fun _ => nofun, .inr (.inl ⟨fromSeq, rfl⟩)⟩
  | client i =>
    obtain ⟨c, hc, rfl⟩ := Option.map_eq_some_iff.mp h
    exact .inr ⟨i, c, rfl, fun _ => nofun, .inr (.inr (.inl hc))⟩
  | lose i =>
    simp only [step] at h
    split at h <;> cases h
    rename_i w hw
    exact .inr ⟨i, _, rfl, fun _ => nofun, .inr (.inr (.inr ⟨w, hw, rfl⟩))⟩

theorem step_sitting (h : l.step a = some m) :
    m.sitting = l.sitting ∨ ∃ act, a = .sitting act ∧ l.sitting.step act = some m.sitting := by
  rcases step_cases h with ⟨act, sitting, rfl, hs, rfl⟩ | ⟨i, c, rfl, -, -⟩
  · exact .inr ⟨act, rfl, hs⟩
  · exact .inl rfl

theorem step_id (h : l.step a = some m) : m.sitting.scan.id = l.sitting.scan.id := by
  rcases step_sitting h with heq | ⟨act, -, hs⟩
  · rw [heq]
  · exact Sitting.step_id hs

theorem step_spawn {slot : Bool} (h : l.step (.sitting (.spawn slot)) = some m) :
    l.sitting.step (.spawn slot) = some m.sitting := by
  obtain ⟨s, hs, rfl⟩ := Option.map_eq_some_iff.mp h
  exact hs

theorem step_watch {i fromSeq : Nat} (h : l.step (.watch i fromSeq) = some m) : m.sitting = l.sitting := by
  rcases step_sitting h with heq | ⟨act, heq, -⟩
  · exact heq
  · cases heq

theorem step_grows (h : l.step a = some m) : l.log.entries <+: m.log.entries := by
  rcases step_sitting h with heq | ⟨act, -, hs⟩
  · simp only [log, heq, List.prefix_refl]
  · exact Sitting.step_grows hs

/-! ## Every client has been told what the log says -/

def Faithful (l : Live E) : Prop := ∀ i, (l.clients i).Faithful l.log.entries

theorem start_faithful (s : Sitting E) : (start s).Faithful := fun _ => trivial

theorem step_faithful (hn : l.log.WellNumbered) (h : l.step a = some m) (hl : l.Faithful) :
    m.Faithful := by
  rcases step_cases h with ⟨act, sitting, -, hs, rfl⟩ | ⟨i, c, rfl, -, hc⟩
  · intro j
    exact (hl j).grows (Sitting.step_grows hs)
  · intro j
    by_cases hj : j = i
    · subst hj
      show (Function.update l.clients j c j).Faithful l.log.entries
      rw [Function.update_self]
      rcases hc with ⟨cursor, rfl⟩ | ⟨fromSeq, rfl⟩ | hstep | ⟨w, hw, rfl⟩
      · trivial
      · exact ⟨Watch.call_faithful _ fromSeq, Watch.call_overLast fromSeq⟩
      · exact Client.step_faithful hn hstep (hl j)
      · exact (hl j).watching (by rw [hw]; rfl)
    · show (Function.update l.clients i c j).Faithful l.log.entries
      rw [Function.update_of_ne hj]
      exact hl j

/-! ## Over whole runs -/

section runs
variable {P : Live E → Act E → Prop} {Q : Sitting E → Sitting.Act E → Prop} {s : Sitting E}

theorem sitting_reach (hPQ : ∀ l act, P l (.sitting act) → Q l.sitting act)
    (h : (machine E).Reach P (start s) l) : (Sitting.machine E).Reach Q s l.sitting := by
  apply h.invariant (I := fun l => (Sitting.machine E).Reach Q s l.sitting) .refl
  intro t u act _ ht hP hstep
  rcases step_sitting hstep with heq | ⟨act', rfl, hs⟩
  · rw [heq]
    exact ht
  · exact ht.tail (hPQ t act' hP) hs

theorem reach_id (h : (machine E).Reach P l m) :
    m.sitting.scan.id = l.sitting.scan.id :=
  h.invariant (I := fun m => m.sitting.scan.id = l.sitting.scan.id) rfl
    fun _ ht _ hstep => (step_id hstep).trans ht

theorem reach_grows (h : (machine E).Reach P l m) :
    l.log.entries <+: m.log.entries :=
  h.invariant (I := fun m => l.log.entries <+: m.log.entries) (List.prefix_refl _)
    fun _ ht _ hstep => ht.trans (step_grows hstep)

variable {id : String} {progress : Engine.Progress} {redaction : Redaction}

theorem reach_wellNumbered (h : (machine E).Reach P (start (.fresh id progress redaction)) l) :
    l.log.WellNumbered :=
  Sitting.reach_wellNumbered (sitting_reach (Q := Machine.Always) (fun _ _ _ => trivial) h)

theorem reach_closed (h : (machine E).Reach P (start (.fresh id progress redaction)) l) :
    l.log.closed = l.sitting.follower.shut :=
  Sitting.reach_closed (sitting_reach (Q := Machine.Always) (fun _ _ _ => trivial) h)

theorem reach_endsOnce (h : (machine E).Reach P (start (.fresh id progress redaction)) l) :
    l.sitting.EndsOnce :=
  Sitting.reach_endsOnce (sitting_reach (Q := Machine.Always) (fun _ _ _ => trivial) h)

/-- **Whoever reads a live scan has been told consecutive entries of its log, right from the cursor.** -/
theorem reach_faithful (h : (machine E).Reach P (start (.fresh id progress redaction)) l) :
    l.Faithful :=
  h.invariant (I := Faithful) (start_faithful _) fun ht hl _ hstep =>
    step_faithful (reach_wellNumbered ht) hstep hl

end runs

end Live

end ZondDaemon
