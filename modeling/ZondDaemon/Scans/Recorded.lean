import ZondDaemon.Scans.Watch

/-!
# A scan read back off disk

`Recorded` of `scans.rs`, the listing beside it, and a watch of a record: its events are the hosts in the
record, numbered by their place in it, the snapshot is all of them, and nothing ever comes after.
-/

namespace ZondDaemon

open Proto Sequence

variable {E : Engine}

/-- `u64::try_from`. -/
def u64 (count : Nat) : Option Nat := if count < 2 ^ 64 then some count else none

/-- One recorded scan, as much of it as can be said without reading the whole record. -/
def listing (entry : Entry E.toEngineTypes) : ScanListing where
  scanId := entry.id
  kind := number (Convert.scanKind entry.kind)
  startedAt := E.rfc3339 entry.createdAt
  summary := entry.summary
  planned := u64 entry.totalTargets
  settled := entry.settled.bind u64
  complete := entry.isComplete
  hold := number (Convert.scanHold entry.lock)

/-- How many scans a listing that named no limit holds. -/
def DEFAULT_LISTING : Nat := 100

structure Recorded (E : Engine) where
  id : String
  hosts : List (Event E.ScopedIp)
  report : E.ScanReport

namespace Recorded

/-- The event of a host in its place in the report, where the host serialises. -/
def event (host : E.Host) (index : Nat) : Option (Event E.ScopedIp) :=
  (E.document .none host).map fun document =>
    ⟨index + 1, some (.host ⟨E.scopedIp host, document⟩)⟩

/-- What a report of the scan named `id` is read back as. -/
def ofReport (id : String) (report : E.ScanReport) : Recorded E where
  id := id
  hosts := (E.reportHosts report).zipIdx.filterMap fun (host, index) => event host index
  report := report

/-- Reads the scan named `id` off disk, `store` being what `store::list` answers. -/
def read (store : Except EngineError (List (Entry E.toEngineTypes))) (id : String) :
    Except Error (Recorded E) :=
  match store with
  | .error refused => .error (.engine refused)
  | .ok entries =>
    match entries.find? fun entry => entry.id = id with
    | none => .error (.noSuchScan id)
    | some entry =>
      match entry.report with
      | .error refused => .error (.engine refused)
      | .ok report => .ok (ofReport entry.id report)

def state (recorded : Recorded E) : ScanState where
  scanId := recorded.id
  running := false
  cause := none
  progress := some ⟨number Proto.Stage.finishing, none, none, none, none⟩
  seq := recorded.hosts.length

def snapshot (recorded : Recorded E) : List (Event E.ScopedIp) := recorded.hosts

/-- A step of a watch that found a record: `Found::after` answers at once, and with nothing. -/
def step (recorded : Recorded E) (w : Watch E) : Option (Watch E) :=
  match w.pc with
  | .opening =>
    let caughtUp := recorded.snapshot
    let cursor := match caughtUp.getLast? with
      | some last => last.seq
      | none => w.fromSeq
    some { w with pc := .saying caughtUp cursor, start := cursor, caughtUp := some caughtUp }
  | .marked _ => none
  | .saying (event :: left) cursor => some (w.tell event (.saying left cursor))
  | .saying [] cursor => some { w with pc := .tailing cursor .starting }
  | .tailing cursor (.returned []) => some { w with pc := .ending cursor }
  | .tailing cursor (.returned (event :: left)) => some { w with pc := .telling (event :: left) cursor }
  | .tailing cursor _ => some { w with pc := .tailing cursor (.returned []) }
  | .telling (event :: left) cursor => some (w.tell event (.telling left (max cursor event.seq)))
  | .telling [] cursor => some { w with pc := .tailing cursor .starting }
  | .ending cursor => some { w with pc := .ended cursor, written := w.written ++ [.ended] }
  | .ended _ => none

/-- A watch of a record, taking one step after another. -/
def machine (recorded : Recorded E) : Machine (Watch E) Unit := ⟨fun w _ => recorded.step w⟩

/-! ## The events of a record -/

variable {id : String} {report : E.ScanReport} {recorded : Recorded E} {w w' : Watch E}

theorem id_of_read {store : Except EngineError (List (Entry E.toEngineTypes))}
    (h : read store id = .ok recorded) : recorded.id = id := by
  unfold read at h
  split at h
  · cases h
  · split at h
    · cases h
    · rename_i entry hfind
      have hid : entry.id = id := by simpa using List.find?_some hfind
      split at h <;> cases h
      exact hid

theorem mem_hosts {e : Event E.ScopedIp} : e ∈ (ofReport id report).hosts ↔
    ∃ index host, (E.reportHosts report)[index]? = some host ∧ event host index = some e := by
  simp only [ofReport, List.mem_filterMap, Prod.exists, List.mem_zipIdx_iff_getElem?]
  constructor
  · rintro ⟨host, index, hget, heq⟩
    exact ⟨index, host, hget, heq⟩
  · rintro ⟨index, host, hget, heq⟩
    exact ⟨host, index, hget, heq⟩

theorem event_seq {host : E.Host} {index : Nat} {e : Event E.ScopedIp}
    (h : event host index = some e) : e.seq = index + 1 := by
  obtain ⟨document, -, rfl⟩ := Option.map_eq_some_iff.mp h
  rfl

theorem hosts_pos {e : Event E.ScopedIp} (h : e ∈ (ofReport id report).hosts) : 0 < e.seq := by
  obtain ⟨index, host, -, heq⟩ := mem_hosts.mp h
  rw [event_seq heq]
  exact Nat.succ_pos index

/-! ## What a watch of a record writes -/

/-- What a watch from this cursor writes before the end: every host, or none at all. -/
def answered (recorded : Recorded E) (fromSeq : Nat) : List (Event E.ScopedIp) :=
  if fromSeq = 0 then recorded.hosts else []

/-- What the watch has written so far, by where it stands. -/
def Faithful (recorded : Recorded E) (w : Watch E) : Prop :=
  match w.pc with
  | .opening => w.fromSeq = 0 ∧ w.written = []
  | .saying left _ => w.fromSeq = 0 ∧ w.written ++ left.map .event = recorded.hosts.map .event
  | .tailing _ (.read _ _) => False
  | .tailing _ (.returned (_ :: _)) => False
  | .tailing _ _ => w.written = (recorded.answered w.fromSeq).map .event
  | .ending _ => w.written = (recorded.answered w.fromSeq).map .event
  | .ended _ => w.written = (recorded.answered w.fromSeq).map .event ++ [.ended]
  | .marked _ => False
  | .telling _ _ => False

theorem call_faithful (fromSeq : Nat) : recorded.Faithful (Watch.call fromSeq) := by
  by_cases h : fromSeq = 0 <;> simp [Faithful, Watch.call, h, answered]

theorem step_faithful (h : recorded.step w = some w') (hw : recorded.Faithful w) :
    recorded.Faithful w' ∧ w'.fromSeq = w.fromSeq := by
  unfold step at h
  unfold Faithful at hw
  split at h
  case h_1 hpc =>
    simp only [hpc] at hw
    cases h
    exact ⟨⟨hw.1, by rw [hw.2]; rfl⟩, rfl⟩
  case h_2 => cases h
  case h_3 event left cursor hpc =>
    simp only [hpc] at hw
    cases h
    refine ⟨⟨hw.1, ?_⟩, rfl⟩
    rw [← hw.2]
    simp [Watch.tell]
  case h_4 cursor hpc =>
    simp only [hpc, List.map_nil, List.append_nil] at hw
    cases h
    refine ⟨?_, rfl⟩
    simp only [Faithful, answered, hw.1, if_true]
    exact hw.2
  case h_5 cursor hpc =>
    simp only [hpc] at hw
    cases h
    exact ⟨hw, rfl⟩
  case h_6 hpc =>
    simp only [hpc] at hw
  case h_7 cursor call hnil hcons hpc =>
    cases h
    refine ⟨?_, rfl⟩
    cases call with
    | returned entries =>
      cases entries with
      | nil => exact absurd rfl hnil
      | cons event left => exact absurd rfl (hcons event left)
    | read waiting entries => simp only [hpc] at hw
    | _ =>
      simp only [hpc] at hw
      exact hw
  case h_8 hpc => simp only [hpc] at hw
  case h_9 hpc => simp only [hpc] at hw
  case h_10 cursor hpc =>
    simp only [hpc] at hw
    cases h
    refine ⟨?_, rfl⟩
    simp only [Faithful, hw]
  case h_11 => cases h

theorem written_of_ended {fromSeq : Nat}
    (h : recorded.machine.Reach Machine.Always (Watch.call fromSeq) w) {cursor : Nat}
    (hpc : w.pc = .ended cursor) :
    w.written = (recorded.answered fromSeq).map .event ++ [.ended] := by
  have hinv := h.invariant (I := fun w => recorded.Faithful w ∧ w.fromSeq = fromSeq)
    ⟨call_faithful fromSeq, rfl⟩ fun _ ht _ hstep =>
      ⟨(step_faithful hstep ht.1).1, (step_faithful hstep ht.1).2.trans ht.2⟩
  obtain ⟨hfaithful, hfrom⟩ := hinv
  simp only [Faithful, hpc, hfrom] at hfaithful
  exact hfaithful

theorem reach_ended_of_tailing {w₀ : Watch E} {cursor : Nat}
    (h : recorded.machine.Reach Machine.Always w₀ w) (hpc : w.pc = .tailing cursor .starting) :
    ∃ w', recorded.machine.Reach Machine.Always w₀ w' ∧ w'.pc = .ended cursor := by
  obtain ⟨fromSeq, pc, written, start, caughtUp⟩ := w
  cases hpc
  have hreturned := h.tail (a := ()) trivial rfl
  have hending := hreturned.tail (a := ()) trivial rfl
  exact ⟨_, hending.tail (a := ()) trivial rfl, rfl⟩

theorem reach_ended_of_saying {w₀ : Watch E} {cursor : Nat} (left : List (Event E.ScopedIp)) :
    ∀ {w : Watch E}, recorded.machine.Reach Machine.Always w₀ w → w.pc = .saying left cursor →
      ∃ w', recorded.machine.Reach Machine.Always w₀ w' ∧ w'.pc = .ended cursor := by
  induction left with
  | nil =>
    rintro ⟨fromSeq, pc, written, start, caughtUp⟩ h rfl
    exact reach_ended_of_tailing (h.tail (a := ()) trivial rfl) rfl
  | cons event left ih =>
    rintro ⟨fromSeq, pc, written, start, caughtUp⟩ h rfl
    exact ih (h.tail (a := ()) trivial rfl) rfl

theorem reach_ended (recorded : Recorded E) (fromSeq : Nat) :
    ∃ w, recorded.machine.Reach Machine.Always (Watch.call fromSeq) w ∧ ∃ cursor, w.pc = .ended cursor := by
  by_cases h : fromSeq = 0
  · subst h
    have hopening := Machine.Reach.refl (M := recorded.machine) (P := Machine.Always) (s := Watch.call 0)
    obtain ⟨w, hw, hpc⟩ := reach_ended_of_saying recorded.hosts (hopening.tail (a := ()) trivial rfl) rfl
    exact ⟨w, hw, _, hpc⟩
  · have hbegun := Machine.Reach.refl (M := recorded.machine) (P := Machine.Always)
      (s := Watch.call fromSeq)
    obtain ⟨w, hw, hpc⟩ := reach_ended_of_tailing hbegun (if_neg h)
    exact ⟨w, hw, _, hpc⟩

/-! ## Cursors -/

/-- A watch from this cursor writes these events, in this order and each once, and then the end: however
it runs, and it does come to the end. -/
def Delivers (recorded : Recorded E) (fromSeq : Nat) (events : List (Event E.ScopedIp)) : Prop :=
  (∃ w, recorded.machine.Reach Machine.Always (Watch.call fromSeq) w ∧ ∃ cursor, w.pc = .ended cursor) ∧
  ∀ w, recorded.machine.Reach Machine.Always (Watch.call fromSeq) w → ∀ cursor, w.pc = .ended cursor →
    w.written = events.map .event ++ [.ended]

theorem delivers_iff {fromSeq : Nat} {events : List (Event E.ScopedIp)} :
    recorded.Delivers fromSeq events ↔ recorded.answered fromSeq = events := by
  constructor
  · rintro ⟨⟨w, hw, cursor, hpc⟩, hall⟩
    have hwritten := (written_of_ended hw hpc).symm.trans (hall w hw cursor hpc)
    refine List.map_injective_iff.mpr ?_ (List.append_cancel_right hwritten)
    intro one other heq
    cases heq
    rfl
  · rintro rfl
    exact ⟨reach_ended recorded fromSeq, fun w hw cursor hpc => written_of_ended hw hpc⟩

/-- **A record honours a cursor exactly where the cursor is nothing or is past every host it holds**; and
a client that read its first frames and comes back from the last of them gets the rest exactly where it
had read nothing, or everything. -/
theorem delivers_after_iff (id : String) (report : E.ScanReport) :
    (∀ n, (ofReport id report).Delivers n ((ofReport id report).hosts.filter fun e => n < e.seq) ↔
      n = 0 ∨ ∀ index host, (E.reportHosts report)[index]? = some host →
        (E.document .none host).isSome → index + 1 ≤ n) ∧
    ∀ k, (ofReport id report).Delivers (lastSeq ((ofReport id report).hosts.take k))
        ((ofReport id report).hosts.drop k) ↔
      k = 0 ∨ (ofReport id report).hosts.length ≤ k := by
  constructor
  · intro n
    rw [delivers_iff, answered]
    by_cases hn : n = 0
    · subst hn
      rw [if_pos rfl]
      have hall := List.filter_eq_self.mpr fun e (he : e ∈ (ofReport id report).hosts) =>
        decide_eq_true (hosts_pos he)
      exact iff_of_true hall.symm (.inl rfl)
    · rw [if_neg hn, eq_comm, List.filter_eq_nil_iff]
      constructor
      · intro hnone
        refine .inr fun index host hget hsome => ?_
        obtain ⟨document, hdocument⟩ := Option.isSome_iff_exists.mp hsome
        have he : ⟨index + 1, some (.host ⟨E.scopedIp host, document⟩)⟩ ∈ (ofReport id report).hosts :=
          mem_hosts.mpr ⟨index, host, hget, by rw [event, hdocument]; rfl⟩
        have := hnone _ he
        simpa using this
      · rintro (hzero | hpast) e he
        · exact absurd hzero hn
        · obtain ⟨index, host, hget, heq⟩ := mem_hosts.mp he
          have hsome : (E.document .none host).isSome := by
            obtain ⟨document, hdocument, -⟩ := Option.map_eq_some_iff.mp heq
            rw [hdocument]
            rfl
          have := hpast index host hget hsome
          rw [event_seq heq, decide_eq_true_eq]
          omega
  · intro k
    rw [delivers_iff, answered]
    by_cases hnone : (ofReport id report).hosts.take k = []
    · rw [hnone]
      simp only [lastSeq, List.getLast?_nil, if_true]
      rcases List.take_eq_nil_iff.mp hnone with hzero | hempty
      · exact iff_of_true (by rw [hzero, List.drop_zero]) (.inl hzero)
      · rw [hempty]
        exact iff_of_true List.drop_nil.symm (.inr (Nat.zero_le k))
    · obtain ⟨last, hlast⟩ := Option.isSome_iff_exists.mp (List.getLast?_isSome.mpr hnone)
      have hpos := hosts_pos (List.mem_of_mem_take (List.mem_of_getLast? hlast))
      have hk : k ≠ 0 := fun hzero => hnone (by rw [hzero, List.take_zero])
      simp only [lastSeq, hlast, if_neg (Nat.pos_iff_ne_zero.mp hpos)]
      rw [eq_comm, List.drop_eq_nil_iff]
      exact ⟨.inr, fun h => h.resolve_left hk⟩

/-- A record of two hosts. -/
def twoHosts : Recorded Plain.engine := ofReport "A" [(1, "open 22"), (2, "open 80")]

/-- Asked for what comes after its first host, it says nothing; and a client cut off there never gets the
second. -/
theorem not_delivers :
    ¬ twoHosts.Delivers 1 (twoHosts.hosts.filter fun e => 1 < e.seq) ∧
    lastSeq (twoHosts.hosts.take 1) = 1 ∧
    ¬ twoHosts.Delivers (lastSeq (twoHosts.hosts.take 1)) (twoHosts.hosts.drop 1) := by
  refine ⟨?_, by decide, ?_⟩
  · rw [delivers_iff]
    decide
  · rw [delivers_iff]
    decide

end Recorded

end ZondDaemon
