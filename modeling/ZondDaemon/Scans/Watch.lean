import ZondDaemon.Scans.Follow

/-!
# Reading a live scan: `after` and `watch`

`Scan::after` and the loop of `watch` around it, a step at a time: `After` and `WatchPc` are where a call
stands, one constructor for each point the engine, the follower or another client can come in at. A
client changes nothing anybody else sees, so what a call has been told is a fact about the call and the
log alone (`Watch.Faithful`), kept by the call's own steps and by the log's growing.

`start` and `caughtUp` are history variables: the cursor the tail starts from and the snapshot as taken.
-/

namespace ZondDaemon

open Proto Sequence

variable {E : Engine}

/-- Where a call of `Scan::after` stands. -/
inductive After (E : Engine)
  /-- About to create the notification. -/
  | starting
  /-- It is created; about to read the entries. -/
  | noted (waiting : Nat)
  /-- The entries are read; about to read the closed flag. -/
  | read (waiting : Nat) (entries : List (Event E.ScopedIp))
  | asleep (waiting : Nat)
  | returned (entries : List (Event E.ScopedIp))
deriving DecidableEq

namespace After

def step (scan : Scan E) (cursor : Nat) : After E → Option (After E)
  | .starting => some (.noted scan.log.arrived)
  | .noted waiting => some (.read waiting (scan.log.after cursor))
  | .read waiting entries =>
    if !entries.isEmpty || scan.log.closed then some (.returned entries) else some (.asleep waiting)
  | .asleep waiting => if scan.log.arrived != waiting then some .starting else none
  | .returned _ => none

/-- What the call has read is the stretch of the log right after its cursor. -/
def Read (entries : List (Event E.ScopedIp)) (cursor : Nat) : After E → Prop
  | .read _ got => got = slice cursor (cursor + got.length) entries ∧
      (got = [] ∨ cursor + got.length ≤ entries.length)
  | .returned got => got = slice cursor (cursor + got.length) entries ∧
      (got = [] ∨ cursor + got.length ≤ entries.length)
  | _ => True

end After

/-- One line of a watch's answer. -/
inductive Frame (E : Engine)
  | event (event : Event E.ScopedIp)
  /-- `{"end": true}`. -/
  | ended
deriving DecidableEq

/-- Where a call of `watch` stands. -/
inductive WatchPc (E : Engine)
  /-- In `scan.snapshot()`, about to read the watermark. -/
  | opening
  /-- In `scan.snapshot()`, about to read the store. -/
  | marked (seq : Nat)
  /-- Writing the snapshot. -/
  | saying (left : List (Event E.ScopedIp)) (cursor : Nat)
  /-- In `scan.after(cursor)`. -/
  | tailing (cursor : Nat) (call : After E)
  /-- Writing what `after` returned. -/
  | telling (left : List (Event E.ScopedIp)) (cursor : Nat)
  /-- Out of the loop, about to write the `end` frame. -/
  | ending (cursor : Nat)
  | ended (cursor : Nat)
deriving DecidableEq

structure Watch (E : Engine) where
  fromSeq : Nat
  pc : WatchPc E
  written : List (Frame E)
  start : Nat
  caughtUp : Option (List (Event E.ScopedIp))
deriving DecidableEq

/-- The number a client asks again from: that of the last event it received, or zero. -/
def lastSeq {κ : Type} (received : List (Event κ)) : Nat :=
  match received.getLast? with
  | some last => last.seq
  | none => 0

namespace Watch

/-- The call as it begins: a cursor of nothing is answered with a snapshot first. -/
def call (fromSeq : Nat) : Watch E where
  fromSeq := fromSeq
  pc := if fromSeq = 0 then .opening else .tailing fromSeq .starting
  written := []
  start := fromSeq
  caughtUp := none

/-- The event frames written so far. -/
def events (w : Watch E) : List (Event E.ScopedIp) :=
  w.written.filterMap fun
    | .event event => some event
    | .ended => none

def tell (w : Watch E) (event : Event E.ScopedIp) (pc : WatchPc E) : Watch E :=
  { w with written := w.written ++ [.event event], pc := pc }

def step (scan : Scan E) (w : Watch E) : Option (Watch E) :=
  match w.pc with
  | .opening => some { w with pc := .marked scan.log.watermark }
  | .marked seq =>
    let caughtUp := scan.snapshotAt seq
    let cursor := match caughtUp.getLast? with
      | some last => last.seq
      | none => w.fromSeq
    some { w with pc := .saying caughtUp cursor, start := cursor, caughtUp := some caughtUp }
  | .saying (event :: left) cursor => some (w.tell event (.saying left cursor))
  | .saying [] cursor => some { w with pc := .tailing cursor .starting }
  | .tailing cursor (.returned []) => some { w with pc := .ending cursor }
  | .tailing cursor (.returned (event :: left)) => some { w with pc := .telling (event :: left) cursor }
  | .tailing cursor call => (call.step scan cursor).map fun call => { w with pc := .tailing cursor call }
  | .telling (event :: left) cursor => some (w.tell event (.telling left (max cursor event.seq)))
  | .telling [] cursor => some { w with pc := .tailing cursor .starting }
  | .ending cursor => some { w with pc := .ended cursor, written := w.written ++ [.ended] }
  | .ended _ => none

@[simp] theorem events_call (fromSeq : Nat) : (call fromSeq : Watch E).events = [] := rfl

@[simp] theorem events_tell (w : Watch E) (event : Event E.ScopedIp) (pc : WatchPc E) :
    (w.tell event pc).events = w.events ++ [event] := by
  simp [events, tell]

/-! ## What a watch has been told -/

/-- The watch has written its snapshot and the log's entries from `start` up to `cursor`. -/
structure Upto (entries : List (Event E.ScopedIp)) (w : Watch E) (cursor : Nat) : Prop where
  told : w.events = w.caughtUp.getD [] ++ slice w.start cursor entries
  start_le : w.start ≤ cursor
  inside : cursor = w.start ∨ cursor ≤ entries.length

/-- How the watch began: from a snapshot stamped with a mark the log had reached, or from a cursor. -/
def Begun (entries : List (Event E.ScopedIp)) (w : Watch E) : Prop :=
  (w.fromSeq = 0 ∧ w.start ≤ entries.length ∧
      ∃ caughtUp, w.caughtUp = some caughtUp ∧ ∀ event ∈ caughtUp, event.seq = w.start) ∨
    (w.fromSeq ≠ 0 ∧ w.start = w.fromSeq ∧ w.caughtUp = none)

/-- What the watch has been told so far, by where it stands. -/
def Faithful (entries : List (Event E.ScopedIp)) (w : Watch E) : Prop :=
  match w.pc with
  | .opening => w.fromSeq = 0 ∧ w.events = [] ∧ w.caughtUp = none
  | .marked seq => w.fromSeq = 0 ∧ w.events = [] ∧ w.caughtUp = none ∧ seq ≤ entries.length
  | .saying left cursor => w.Begun entries ∧ cursor = w.start ∧
      w.caughtUp = some (w.events ++ left)
  | .tailing cursor call => w.Begun entries ∧ w.Upto entries cursor ∧ call.Read entries cursor
  | .telling left cursor => w.Begun entries ∧ w.Upto entries cursor ∧
      left = slice cursor (cursor + left.length) entries ∧
      (left = [] ∨ cursor + left.length ≤ entries.length)
  | .ending cursor => w.Begun entries ∧ w.Upto entries cursor
  | .ended cursor => w.Begun entries ∧ w.Upto entries cursor

theorem call_faithful (entries : List (Event E.ScopedIp)) (fromSeq : Nat) :
    (call fromSeq : Watch E).Faithful entries := by
  by_cases h : fromSeq = 0
  · simp [Faithful, call, h, events]
  · simp only [Faithful, call, if_neg h]
    refine ⟨.inr ⟨h, rfl, rfl⟩, ⟨?_, Nat.le_refl _, .inl rfl⟩, trivial⟩
    simp [events]

/-! ### The log grows -/

variable {entries more : List (Event E.ScopedIp)} {w w' : Watch E} {cursor : Nat} {call call' : After E}

theorem slice_grows (hp : entries <+: more) {got : List (Event E.ScopedIp)}
    (h : got = slice cursor (cursor + got.length) entries)
    (hin : got = [] ∨ cursor + got.length ≤ entries.length) :
    got = slice cursor (cursor + got.length) more ∧
      (got = [] ∨ cursor + got.length ≤ more.length) := by
  constructor
  · rw [slice_of_initial hp (hin.symm.imp id fun hnil => by simp [hnil])]
    exact h
  · exact hin.imp id fun hle => Nat.le_trans hle hp.length_le

theorem read_grows (hp : entries <+: more) (h : call.Read entries cursor) : call.Read more cursor := by
  cases call with
  | read waiting got => exact slice_grows hp h.1 h.2
  | returned got => exact slice_grows hp h.1 h.2
  | _ => trivial

theorem Begun.grows (hp : entries <+: more) (h : w.Begun entries) : w.Begun more := by
  rcases h with ⟨hzero, hle, hsnap⟩ | h
  · exact .inl ⟨hzero, Nat.le_trans hle hp.length_le, hsnap⟩
  · exact .inr h

theorem Upto.grows (hp : entries <+: more) (h : w.Upto entries cursor) : w.Upto more cursor where
  told := by
    rw [slice_of_initial hp (h.inside.symm.imp id fun heq => Nat.le_of_eq heq)]
    exact h.told
  start_le := h.start_le
  inside := h.inside.imp id fun hle => Nat.le_trans hle hp.length_le

theorem Upto.at (h : w.Upto entries cursor) (pc : WatchPc E) :
    ({ w with pc := pc } : Watch E).Upto entries cursor :=
  ⟨h.told, h.start_le, h.inside⟩

theorem Faithful.grows (hp : entries <+: more) (h : w.Faithful entries) : w.Faithful more := by
  unfold Faithful at h ⊢
  cases hpc : w.pc with
  | opening => simpa only [hpc] using h
  | marked seq =>
    simp only [hpc] at h ⊢
    exact ⟨h.1, h.2.1, h.2.2.1, Nat.le_trans h.2.2.2 hp.length_le⟩
  | saying left cursor =>
    simp only [hpc] at h ⊢
    exact ⟨h.1.grows hp, h.2⟩
  | tailing cursor call =>
    simp only [hpc] at h ⊢
    exact ⟨h.1.grows hp, h.2.1.grows hp, read_grows hp h.2.2⟩
  | telling left cursor =>
    simp only [hpc] at h ⊢
    exact ⟨h.1.grows hp, h.2.1.grows hp, slice_grows hp h.2.2.1 h.2.2.2⟩
  | ending cursor =>
    simp only [hpc] at h ⊢
    exact ⟨h.1.grows hp, h.2.grows hp⟩
  | ended cursor =>
    simp only [hpc] at h ⊢
    exact ⟨h.1.grows hp, h.2.grows hp⟩

/-! ### The watch takes a step -/

variable {scan : Scan E}

theorem read_step (hn : scan.log.WellNumbered) (h : call.step scan cursor = some call')
    (hr : call.Read scan.log.entries cursor) : call'.Read scan.log.entries cursor := by
  cases call with
  | starting =>
    cases h
    trivial
  | noted waiting =>
    cases h
    simp only [After.Read, hn.after_eq, List.length_drop]
    by_cases hc : cursor ≤ scan.log.entries.length
    · rw [Nat.add_sub_cancel' hc]
      exact ⟨slice_length.symm, .inr (Nat.le_refl _)⟩
    · rw [List.drop_eq_nil_of_le (by omega)]
      exact ⟨(slice_of_le (by omega)).symm, .inl rfl⟩
  | read waiting got =>
    simp only [After.step] at h
    split at h <;> cases h
    · exact hr
    · trivial
  | asleep waiting =>
    simp only [After.step] at h
    split at h <;> cases h
    trivial
  | returned got => cases h

theorem snapshotAt_getLast? (seq : Nat) :
    (scan.snapshotAt seq).getLast? = some ⟨seq, some (.progress scan.progress)⟩ := by
  rw [Scan.snapshotAt, List.getLast?_concat]

theorem Upto.tell (hn : scan.log.WellNumbered) (h : w.Upto scan.log.entries cursor)
    {event : Event E.ScopedIp} {left : List (Event E.ScopedIp)}
    (hl : event :: left = slice cursor (cursor + (left.length + 1)) scan.log.entries)
    (hin : cursor + (left.length + 1) ≤ scan.log.entries.length) (pc : WatchPc E) :
    max cursor event.seq = cursor + 1 ∧ (w.tell event pc).Upto scan.log.entries (cursor + 1) ∧
      left = slice (cursor + 1) (cursor + 1 + left.length) scan.log.entries := by
  obtain ⟨hmem, hseq, hleft⟩ := hn.slice_cons hl.symm
  have hone : [event] = slice cursor (cursor + 1) scan.log.entries := by
    have hsplit := slice_trans (l := scan.log.entries) (Nat.le_add_right cursor 1)
      (show cursor + 1 ≤ cursor + (left.length + 1) by omega)
    rw [← hl, ← hleft, ← List.singleton_append] at hsplit
    exact (List.append_cancel_right hsplit).symm
  refine ⟨by omega, ⟨?_, Nat.le_succ_of_le h.start_le, .inr (by omega)⟩, ?_⟩
  · rw [events_tell, h.told, hone, List.append_assoc,
      slice_trans h.start_le (Nat.le_add_right cursor 1)]
    rfl
  · apply hleft.trans
    congr 1
    omega

theorem step_faithful (hn : scan.log.WellNumbered) (h : w.step scan = some w')
    (hw : w.Faithful scan.log.entries) : w'.Faithful scan.log.entries := by
  unfold step at h
  unfold Faithful at hw
  cases hpc : w.pc with
  | opening =>
    simp only [hpc, Option.some.injEq] at h hw
    subst h
    exact ⟨hw.1, hw.2.1, hw.2.2, Nat.le_refl _⟩
  | marked seq =>
    simp only [hpc, Option.some.injEq, snapshotAt_getLast?] at h hw
    subst h
    obtain ⟨hzero, hnone, -, hle⟩ := hw
    refine ⟨.inl ⟨hzero, hle, _, rfl, fun event => Scan.snapshotAt_seq⟩, rfl, ?_⟩
    show some _ = some (w.events ++ _)
    rw [hnone, List.nil_append]
  | saying left cursor =>
    simp only [hpc] at h hw
    obtain ⟨hbegun, rfl, hsnap⟩ := hw
    cases left with
    | cons event left =>
      cases h
      refine ⟨hbegun, rfl, ?_⟩
      rw [events_tell, List.append_assoc]
      exact hsnap
    | nil =>
      cases h
      refine ⟨hbegun, ⟨?_, Nat.le_refl _, .inl rfl⟩, trivial⟩
      rw [List.append_nil] at hsnap
      show w.events = w.caughtUp.getD [] ++ slice w.start w.start _
      rw [hsnap, slice_self, List.append_nil, Option.getD_some]
  | tailing cursor call =>
    simp only [hpc] at h hw
    obtain ⟨hbegun, hupto, hread⟩ := hw
    cases call with
    | returned got =>
      cases got with
      | nil =>
        cases h
        exact ⟨hbegun, hupto.at _⟩
      | cons event left =>
        cases h
        exact ⟨hbegun, hupto.at _, hread⟩
    | _ =>
      obtain ⟨call', hcall, rfl⟩ := Option.map_eq_some_iff.mp h
      exact ⟨hbegun, hupto.at _, read_step hn hcall hread⟩
  | telling left cursor =>
    simp only [hpc] at h hw
    obtain ⟨hbegun, hupto, hleft, hin⟩ := hw
    cases left with
    | cons event left =>
      cases h
      rw [List.length_cons] at hleft hin
      have hin := hin.resolve_left (List.cons_ne_nil _ _)
      obtain ⟨hmax, hupto', hleft'⟩ := hupto.tell hn hleft hin
        (.telling left (max cursor event.seq))
      rw [hmax] at hupto' ⊢
      exact ⟨hbegun, hupto', hleft', .inr (by omega)⟩
    | nil =>
      cases h
      exact ⟨hbegun, hupto.at _, trivial⟩
  | ending cursor =>
    simp only [hpc, Option.some.injEq] at h hw
    subst h
    refine ⟨hw.1, ?_, hw.2.start_le, hw.2.inside⟩
    rw [← hw.2.told]
    simp [events]
  | ended cursor =>
    simp only [hpc] at h
    cases h

/-! ### What being told amounts to -/

theorem mem_events {event : Event E.ScopedIp} : event ∈ w.events ↔ .event event ∈ w.written := by
  simp only [events, List.mem_filterMap]
  constructor
  · rintro ⟨frame, hframe, heq⟩
    cases frame with
    | event event' =>
      cases heq
      exact hframe
    | ended => cases heq
  · exact fun h => ⟨.event event, h, rfl⟩

theorem Upto.mem (hn : Numbered Event.seq entries) (h : w.Upto entries cursor) {entry : Event E.ScopedIp}
    (he : entry ∈ entries) (hstart : w.start < entry.seq) (hcursor : entry.seq ≤ cursor) :
    entry ∈ w.events := by
  rw [h.told]
  exact List.mem_append_right _ (hn.mem_slice.mpr ⟨he, hstart, hcursor⟩)

theorem Faithful.seq_le (h : w.Faithful entries) (hn : Numbered Event.seq entries) :
    ∀ event ∈ w.events, event.seq ≤ entries.length := by
  have hbegun : ∀ caughtUp, w.Begun entries → w.caughtUp = some caughtUp →
      ∀ event ∈ caughtUp, event.seq ≤ entries.length := by
    rintro caughtUp (⟨-, hle, snap, hsnap, hseq⟩ | ⟨-, -, hnone⟩) heq event hevent
    · rw [hsnap] at heq
      cases heq
      rw [hseq event hevent]
      exact hle
    · rw [hnone] at heq
      cases heq
  have hupto : ∀ cursor, w.Begun entries → w.Upto entries cursor →
      ∀ event ∈ w.events, event.seq ≤ entries.length := by
    intro cursor hb hu event hevent
    rw [hu.told, List.mem_append] at hevent
    rcases hevent with hevent | hevent
    · cases hcaughtUp : w.caughtUp with
      | none =>
        rw [hcaughtUp] at hevent
        cases hevent
      | some caughtUp =>
        rw [hcaughtUp] at hevent
        exact hbegun caughtUp hb hcaughtUp event hevent
    · exact (hn.bounds (hn.mem_slice.mp hevent).1).2
  unfold Faithful at h
  cases hpc : w.pc with
  | opening =>
    simp only [hpc] at h
    rw [h.2.1]
    nofun
  | marked seq =>
    simp only [hpc] at h
    rw [h.2.1]
    nofun
  | saying left cursor =>
    simp only [hpc] at h
    exact fun event hevent => hbegun _ h.1 h.2.2 event (List.mem_append_left left hevent)
  | tailing cursor call =>
    simp only [hpc] at h
    exact hupto cursor h.1 h.2.1
  | telling left cursor =>
    simp only [hpc] at h
    exact hupto cursor h.1 h.2.1
  | ending cursor =>
    simp only [hpc] at h
    exact hupto cursor h.1 h.2
  | ended cursor =>
    simp only [hpc] at h
    exact hupto cursor h.1 h.2

/-! ### The `end` frame -/

/-- The `end` frame is written where the call ends, and nowhere before. -/
def OverLast (w : Watch E) : Prop := Frame.ended ∈ w.written → ∃ cursor, w.pc = .ended cursor

theorem call_overLast (fromSeq : Nat) : (Watch.call fromSeq : Watch E).OverLast := by
  intro h
  cases h

/-- What a step writes: nothing, an event frame, or the `end` frame as the call ends. -/
theorem step_written (h : w.step scan = some w') :
    w'.written = w.written ∨ (∃ event, w'.written = w.written ++ [.event event]) ∨
      (w'.written = w.written ++ [.ended] ∧ ∃ cursor, w'.pc = .ended cursor) := by
  unfold step at h
  split at h
  case h_3 event left cursor hpc =>
    cases h
    exact .inr (.inl ⟨event, rfl⟩)
  case h_7 =>
    obtain ⟨call', -, rfl⟩ := Option.map_eq_some_iff.mp h
    exact .inl rfl
  case h_8 event left cursor hpc =>
    cases h
    exact .inr (.inl ⟨event, rfl⟩)
  case h_10 cursor hpc =>
    cases h
    exact .inr (.inr ⟨rfl, cursor, rfl⟩)
  all_goals
    cases h
    try exact .inl rfl

theorem step_overLast (h : w.step scan = some w') (hw : w.OverLast) : w'.OverLast := by
  have hback : Frame.ended ∉ w.written := by
    intro hmem
    obtain ⟨cursor, hpc⟩ := hw hmem
    simp only [step, hpc] at h
    cases h
  intro hover
  rcases step_written h with heq | ⟨event, heq⟩ | ⟨-, hended⟩
  · exact absurd (heq ▸ hover) hback
  · rw [heq, List.mem_append, List.mem_singleton] at hover
    rcases hover with hover | hover
    · exact absurd hover hback
    · cases hover
  · exact hended

end Watch

end ZondDaemon
