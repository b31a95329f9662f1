import ZondDaemon.Scans.Announce
import ZondDaemon.Scans.Live

/-!
# A snapshot and a tail come to the truth

A watch from nothing reads the log's mark and then, separately, the store, so the entries past the mark
may be older than what the snapshot says. `Covers` is why it comes right: every document the log had by
the mark is no later than the one the snapshot has for that address.
-/

namespace ZondDaemon

open Proto Sequence

variable {E : Engine}

namespace Watch

/-- The snapshot says of each address one document, which the store has had, and none earlier than what
the log had by the mark. -/
structure Covers (s : Sitting E) (start : Nat) (caughtUp : List (Event E.ScopedIp)) : Prop where
  past : ∀ address document, latest Event.said address caughtUp = some document →
    document ∈ s.past address
  newer : ∀ entry ∈ s.scan.log.entries, entry.seq ≤ start → ∀ address document,
    entry.said = some (address, document) → ∃ newer, latest Event.said address caughtUp = some newer ∧
      (s.past address).idxOf document ≤ (s.past address).idxOf newer
  nonempty : caughtUp ≠ []
  single : caughtUp.Pairwise fun one other => ∀ address document document',
    one.said = some (address, document) → other.said ≠ some (address, document')

/-- The watch has written its whole snapshot and every entry past the mark it stamped it with. -/
def Delivered (entries : List (Event E.ScopedIp)) (w : Watch E) : Prop :=
  ∃ caughtUp, w.caughtUp = some caughtUp ∧ caughtUp <+: w.events ∧
    ∀ entry ∈ entries, w.start < entry.seq → entry ∈ w.events

variable {scan : Scan E} {s t : Sitting E} {w w' : Watch E} {entries : List (Event E.ScopedIp)}
  {caughtUp : List (Event E.ScopedIp)} {start : Nat}

theorem step_caughtUp (h : w.step scan = some w') :
    (w'.caughtUp = w.caughtUp ∧ w'.start = w.start) ∨
      ∃ seq, w.pc = .marked seq ∧ w'.caughtUp = some (scan.snapshotAt seq) ∧ w'.start = seq := by
  unfold step at h
  split at h
  case h_2 seq hpc =>
    simp only [snapshotAt_getLast?, Option.some.injEq] at h
    subst h
    exact .inr ⟨seq, hpc, rfl, rfl⟩
  case h_7 =>
    obtain ⟨call', -, rfl⟩ := Option.map_eq_some_iff.mp h
    exact .inl ⟨rfl, rfl⟩
  all_goals
    cases h
    try exact .inl ⟨rfl, rfl⟩

theorem Faithful.begun (h : w.Faithful entries) (hsnap : w.caughtUp = some caughtUp) :
    w.fromSeq = 0 ∧ w.start ≤ entries.length ∧ ∀ event ∈ caughtUp, event.seq = w.start := by
  have hbegun : w.Begun entries := by
    unfold Faithful at h
    split at h
    case h_1 =>
      rw [h.2.2] at hsnap
      cases hsnap
    case h_2 =>
      rw [h.2.2.1] at hsnap
      cases hsnap
    all_goals exact h.1
  rcases hbegun with ⟨hzero, hle, caughtUp', hsnap', hseq⟩ | ⟨-, -, hnone⟩
  · rw [hsnap] at hsnap'
    cases hsnap'
    exact ⟨hzero, hle, hseq⟩
  · rw [hsnap] at hnone
    cases hnone

theorem Faithful.events_eq (hn : Numbered Event.seq entries) (h : w.Faithful entries)
    (hsnap : w.caughtUp = some caughtUp) (hp : caughtUp <+: w.events)
    (hall : ∀ entry ∈ entries, w.start < entry.seq → entry ∈ w.events) :
    w.events = caughtUp ++ entries.drop w.start := by
  obtain ⟨-, -, hseq⟩ := h.begun hsnap
  have hupto : ∀ cursor, w.Upto entries cursor → w.events = caughtUp ++ entries.drop w.start := by
    intro cursor hupto
    have htold := hupto.told
    rw [hsnap, Option.getD_some] at htold
    rw [htold, hn.slice_eq_drop]
    intro entry he hstart
    have hmem := hall entry he hstart
    rw [htold, List.mem_append, hn.mem_slice] at hmem
    rcases hmem with hmem | hmem
    · have := hseq entry hmem
      omega
    · exact hmem.2.2
  unfold Faithful at h
  split at h
  case h_1 =>
    rw [h.2.2] at hsnap
    cases hsnap
  case h_2 =>
    rw [h.2.2.1] at hsnap
    cases hsnap
  case h_3 left cursor hpc =>
    -- still writing the snapshot, so there is nothing of it left and nothing past it
    obtain ⟨-, -, hsnap'⟩ := h
    rw [hsnap, Option.some.injEq] at hsnap'
    have hwhole : w.events = caughtUp := by
      refine (hp.eq_of_length_le ?_).symm
      rw [hsnap', List.length_append]
      omega
    refine hwhole.trans (List.append_right_eq_self.mpr ?_).symm
    rw [List.eq_nil_iff_forall_not_mem]
    intro entry hdrop
    obtain ⟨he, hstart⟩ := hn.mem_drop.mp hdrop
    have := hseq entry (hwhole ▸ hall entry he hstart)
    omega
  case h_4 => exact hupto _ h.2.1
  case h_5 => exact hupto _ h.2.1
  case h_6 => exact hupto _ h.2
  case h_7 => exact hupto _ h.2

/-! ## What the snapshot covers -/

theorem covers_snapshotAt (hs : s.Converging) (seq : Nat) :
    Covers s seq (s.scan.snapshotAt seq) where
  past address document h := by
    rw [Scan.snapshotAt_latest, hs.current] at h
    exact List.mem_of_getLast? h
  newer entry he _ address document hsaid := by
    have hpast := hs.said address document (Sitting.said_of_entry he hsaid)
    cases hlast : (s.past address).getLast? with
    | none =>
      rw [List.getLast?_eq_none_iff.mp hlast] at hpast
      cases hpast
    | some newer =>
      refine ⟨newer, ?_, idxOf_le_last (hs.nodup address) hlast hpast⟩
      rw [Scan.snapshotAt_latest, hs.current, hlast]
  nonempty := by simp [Scan.snapshotAt]
  single := Scan.snapshotAt_single s.scan seq

/-- It goes on covering the log, which grows past the mark only. -/
theorem Covers.step {a : Sitting.Act E} (hs : s.Converging) (ht : Numbered Event.seq t.scan.log.entries)
    (h : s.step a = some t) (hle : start ≤ s.scan.log.entries.length) (hc : Covers s start caughtUp) :
    Covers t start caughtUp where
  past address document hl := (Sitting.step_past h address).subset (hc.past address document hl)
  newer entry he hseq address document hsaid := by
    have he' := ht.mem_of_initial (Sitting.step_grows h) he (Nat.le_trans hseq hle)
    obtain ⟨newer, hl, hidx⟩ := hc.newer entry he' hseq address document hsaid
    have hpast := hs.said address document (Sitting.said_of_entry he' hsaid)
    have hp := Sitting.step_past h address
    refine ⟨newer, hl, ?_⟩
    rw [idxOf_of_initial hp hpast, idxOf_of_initial hp (hc.past address newer hl)]
    exact hidx
  nonempty := hc.nonempty
  single := hc.single

end Watch

namespace Live

/-- The runs of an engine that announces what it changes, whatever the clients do. -/
def Orderly (l : Live E) : Act E → Prop
  | .sitting a => l.sitting.Orderly a
  | _ => True

def Covers (l : Live E) : Prop :=
  ∀ i w caughtUp, (l.clients i).watching = some w → w.caughtUp = some caughtUp →
    Watch.Covers l.sitting w.start caughtUp

variable {l m : Live E} {a : Act E}

theorem start_covers (s : Sitting E) : (start s).Covers := fun _ _ _ hw => by cases hw

theorem step_covers (hn : m.log.WellNumbered) (hs : l.sitting.Converging) (hfaithful : l.Faithful)
    (hP : Orderly l a) (h : l.step a = some m) (hl : l.Covers) : m.Covers := by
  intro i w caughtUp hw hsnap
  rcases step_cases h with ⟨act, sitting, rfl, hsit, rfl⟩ | ⟨j, c, rfl, -, hc⟩
  · have hbegun := ((hfaithful i).watching hw).begun hsnap
    exact (hl i w caughtUp hw hsnap).step hs hn hsit hbegun.2.1
  · change (Function.update l.clients j c i).watching = some w at hw
    show Watch.Covers l.sitting w.start caughtUp
    by_cases hij : i = j
    · subst hij
      rw [Function.update_self] at hw
      rcases hc with ⟨cursor, rfl⟩ | ⟨fromSeq, rfl⟩ | hstep | ⟨before, hbefore, rfl⟩
      · cases hw
      · cases hw
        cases hsnap
      · cases hci : l.clients i with
        | watch before =>
          rw [hci] at hstep
          obtain ⟨after, hafter, rfl⟩ := Option.map_eq_some_iff.mp hstep
          cases hw
          rcases Watch.step_caughtUp hafter with ⟨hsame, hstart⟩ | ⟨seq, -, htaken, hstart⟩
          · rw [hstart]
            exact hl i before caughtUp (by rw [hci]; rfl) (hsame ▸ hsnap)
          · rw [htaken, Option.some.injEq] at hsnap
            rw [hstart, ← hsnap]
            exact Watch.covers_snapshotAt hs seq
        | after cursor call =>
          rw [hci] at hstep
          obtain ⟨call', -, rfl⟩ := Option.map_eq_some_iff.mp hstep
          cases hw
        | _ =>
          rw [hci] at hstep
          cases hstep
      · cases hw
        exact hl i w caughtUp (by rw [hbefore]; rfl) hsnap
    · rw [Function.update_of_ne hij] at hw
      exact hl i w caughtUp hw hsnap

section runs
variable {id : String} {progress : Engine.Progress} {redaction : Redaction}

theorem reach_converging (h : (machine E).Reach Orderly (start (.fresh id progress redaction)) l) :
    l.sitting.Converging :=
  Sitting.reach_converging (sitting_reach (fun _ _ hP => hP) h)

theorem reach_covers (h : (machine E).Reach Orderly (start (.fresh id progress redaction)) l) :
    l.Covers :=
  h.invariant (I := Covers) (start_covers _) fun ht hl hP hstep => step_covers
    (reach_wellNumbered (ht.tail hP hstep)) (reach_converging ht) (reach_faithful ht) hP hstep hl

/-- What a watch that has delivered everything says last of an address is what the store has. -/
theorem latest_of_delivered (h : (machine E).Reach Orderly (start (.fresh id progress redaction)) l)
    (hclosed : l.log.closed = true) {i : Nat} {w : Watch E} (hw : (l.clients i).watching = some w)
    (hdelivered : w.Delivered l.log.entries) (address : E.ScopedIp) :
    latest Event.said address w.events = l.sitting.scan.documentOf address := by
  obtain ⟨caughtUp, hsnap, hp, hall⟩ := hdelivered
  have hn := reach_wellNumbered h
  have hs := reach_converging h
  have hcovers := reach_covers h i w caughtUp hw hsnap
  have hlog : latest Event.said address l.log.entries = l.sitting.scan.documentOf address :=
    hs.latest_of_shut ((reach_closed h).symm.trans hclosed) address
  rw [((reach_faithful h i).watching hw).events_eq hn hsnap hp hall]
  rw [← List.take_append_drop w.start l.log.entries] at hlog
  cases htail : latest Event.said address (l.log.entries.drop w.start) with
  | some document =>
    rw [latest_append_of_some htail]
    rw [latest_append_of_some htail] at hlog
    exact hlog
  | none =>
    -- nothing past the mark is about this address, so what the log says of it the snapshot covers
    rw [latest_append_of_none htail] at hlog ⊢
    cases hdocument : l.sitting.scan.documentOf address with
    | some document =>
      rw [hdocument] at hlog
      obtain ⟨entry, hentry, hsaid⟩ := latest_mem hlog
      have hseq : entry.seq ≤ w.start := by
        have hbound := ((Numbered.of_initial hn (List.take_prefix _ _)).bounds hentry).2
        rw [List.length_take] at hbound
        omega
      obtain ⟨newer, hnewer, hidx⟩ := hcovers.newer entry (List.mem_of_mem_take hentry) hseq address
        document hsaid
      rw [hs.current] at hdocument
      rw [hnewer, eq_last (hs.nodup address) hdocument (hcovers.past address newer hnewer) hidx]
    | none =>
      rw [hs.current, List.getLast?_eq_none_iff] at hdocument
      rw [latest_eq_none]
      intro event hevent document hsaid
      obtain ⟨last, hlast⟩ := latest_isSome hevent hsaid
      have := hcovers.past address last hlast
      rw [hdocument] at this
      cases this

/-- **A snapshot and the tail after it come to the truth**: the last document delivered for each address
is the store's final one, and every host of the store has been delivered. -/
theorem delivered_of_orderly (h : (machine E).Reach Orderly (start (.fresh id progress redaction)) l)
    (hclosed : l.log.closed = true) {i : Nat} {w : Watch E} (hw : (l.clients i).watching = some w)
    (hdelivered : w.Delivered l.log.entries) :
    (∀ address, latest Event.said address w.events = l.sitting.scan.documentOf address) ∧
    ∀ host ∈ l.sitting.scan.hosts.items, ∃ event ∈ w.events, ∃ document,
      E.document l.sitting.scan.redaction host = some document ∧
        event.said = some (E.scopedIp host, document) := by
  have hlatest := latest_of_delivered h hclosed hw hdelivered
  refine ⟨hlatest, fun host hhost => ?_⟩
  obtain ⟨document, hdocument⟩ := Option.isSome_iff_exists.mp ((reach_converging h).serialises host hhost)
  have hstored : l.sitting.scan.documentOf (E.scopedIp host) = some document := by
    rw [Scan.documentOf, Keyed.get_eq_some.mpr ⟨hhost, rfl⟩, Option.bind_some, hdocument]
  obtain ⟨event, hevent, hsaid⟩ := latest_mem ((hlatest _).trans hstored)
  exact ⟨event, hevent, document, hdocument, hsaid⟩

end runs

/-- What `Orderly` asks of the plain engine. -/
def orderly (l : Live Plain.engine) : Act Plain.engine → Bool
  | .sitting (.update host) => !l.sitting.hungUp &&
      (l.sitting.scan.documentOf host.1 == some host.2 ||
        (l.sitting.past host.1).all fun earlier => Log.hash earlier != Log.hash host.2)
  | .sitting (.lag _) => false
  | .sitting .hangUp => l.sitting.owed.isEmpty
  | _ => true

theorem orderly_sound (l : Live Plain.engine) (a : Act Plain.engine) (h : orderly l a = true) :
    Orderly l a := by
  cases a with
  | sitting act =>
    cases act with
    | update host =>
      simp only [orderly, Bool.and_eq_true, Bool.not_eq_true', Bool.or_eq_true, beq_iff_eq,
        List.all_eq_true, bne_iff_ne] at h
      exact ⟨h.1, host.2, rfl, h.2⟩
    | lag missed => cases h
    | hangUp => exact List.isEmpty_iff.mp h
    | _ => trivial
  | _ => trivial

/-- The engine stores a host and announces it. -/
def found (address : Nat) (document : String) : List (Act Plain.engine) :=
  [.sitting (.update (address, document)), .sitting (.announce (.hostUpdated address))]

def following (steps : Nat) : List (Act Plain.engine) := List.replicate steps (.sitting .follow)

def reading (i steps : Nat) : List (Act Plain.engine) := List.replicate steps (.client i)

/-- The engine hangs up and its task is over. -/
def hangingUp : List (Act Plain.engine) := [.sitting .hangUp, .sitting (.finish (.ok []))]

/-- A host changes between the mark and the store being read: the watch is told the newer document, then
the older one, then the newer one again. -/
def crossing : List (Act Plain.engine) :=
  [.sitting (.spawn true)] ++ found 1 "open 22" ++ following 3 ++ [.watch 0 0] ++ reading 0 1 ++
    found 1 "open 22, 80" ++ reading 0 1 ++ following 7 ++ hangingUp ++ following 8 ++ reading 0 16

theorem crossing_isSome : ((machine Plain.engine).runIf orderly (start .plain) crossing).isSome := by
  decide +kernel

def crossed : Live Plain.engine := ((machine Plain.engine).runIf orderly (start .plain) crossing).get
  crossing_isSome

theorem crossed_reach : (machine Plain.engine).Reach Orderly (start .plain) crossed :=
  Machine.Reach.of_runIf orderly_sound (Option.some_get crossing_isSome).symm

def crossedWatch : Watch Plain.engine :=
  (crossed.clients 0).watching.get (by decide +kernel)

def crossedSnapshot : List (Event Nat) := crossedWatch.caughtUp.get (by decide +kernel)

theorem delivered_of_orderly_crossing : (crossed.clients 0).watching = some crossedWatch ∧
    crossedWatch.events.filterMap Event.said =
      [(1, "open 22, 80"), (1, "open 22"), (1, "open 22, 80")] ∧
    (∀ address, latest Event.said address crossedWatch.events =
      crossed.sitting.scan.documentOf address) ∧
    ∀ host ∈ crossed.sitting.scan.hosts.items, ∃ event ∈ crossedWatch.events, ∃ document,
      Plain.engine.document crossed.sitting.scan.redaction host = some document ∧
        event.said = some (host.1, document) := by
  have hw : (crossed.clients 0).watching = some crossedWatch := (Option.some_get _).symm
  have hsnap : crossedWatch.caughtUp = some crossedSnapshot := (Option.some_get _).symm
  refine ⟨hw, by decide +kernel, ?_⟩
  refine delivered_of_orderly crossed_reach (by decide +kernel) hw ⟨crossedSnapshot, hsnap, ?_, ?_⟩
  · decide +kernel
  · decide +kernel

end Live

end ZondDaemon
