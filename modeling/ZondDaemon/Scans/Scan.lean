import ZondDaemon.Base.Keyed
import ZondDaemon.Convert
import ZondDaemon.Scans.Log

/-!
# One scan, as the process holds it

`Scan` of `scans.rs`: the engine's handles (the host store, the progress, the handle that stops it) and
the daemon's own parts (the log, the masking, the report once there is one). The engine's store holds one
host per address and promises no order.
-/

namespace ZondDaemon

open Proto Sequence

variable {E : Engine}

/-- The engine's `HostStore`. -/
abbrev HostStore (E : Engine) := Keyed E.scopedIp

/-- The engine's `ScanHandle`: what `stopped()` reports of it. -/
structure ScanHandle where
  stopped : Option Engine.StopCause

structure Scan (E : Engine) where
  id : String
  hosts : HostStore E
  /-- The engine's `Progress`, read by `progress`. -/
  reckoning : Engine.Progress
  handle : ScanHandle
  log : Log E
  redaction : Redaction
  report : Option E.ScanReport

namespace Scan

def new (id : String) (hosts : HostStore E) (progress : Engine.Progress) (handle : ScanHandle)
    (redaction : Redaction) : Scan E where
  id := id
  hosts := hosts
  reckoning := progress
  handle := handle
  log := Log.empty
  redaction := redaction
  report := none

/-- How far along the scan is, in the schema's terms. -/
def progress (scan : Scan E) : Proto.Progress where
  stage := number (Convert.stage scan.reckoning.stage)
  stageDone := scan.reckoning.counted.map Prod.fst
  stageTotal := scan.reckoning.counted.map Prod.snd
  overallDone := scan.reckoning.overall.map Prod.fst
  overallTotal := scan.reckoning.overall.map Prod.snd

/-- Where the scan has got to, as one answer. -/
def state (scan : Scan E) : ScanState :=
  let running := !scan.log.closed
  { scanId := scan.id
    running := running
    cause := if !running then some (number (Convert.stopCause scan.handle.stopped)) else none
    progress := some scan.progress
    seq := scan.log.watermark }

/-- The events of a snapshot stamped `seq`: every host as the store has it now, and the progress. -/
def snapshotAt (scan : Scan E) (seq : Nat) : List (Event E.ScopedIp) :=
  scan.hosts.items.filterMap (fun host =>
    (E.document scan.redaction host).map fun document =>
      ⟨seq, some (.host ⟨E.scopedIp host, document⟩)⟩) ++
    [⟨seq, some (.progress scan.progress)⟩]

/-- Every host as it now stands, all carrying the log's mark as it was read first. -/
def snapshot (scan : Scan E) : List (Event E.ScopedIp) :=
  scan.snapshotAt scan.log.watermark

/-- The document the store has for an address, where there is a host and it serialises. -/
def documentOf (scan : Scan E) (address : E.ScopedIp) : Option String :=
  (scan.hosts.get address).bind (E.document scan.redaction)

theorem documentOf_put_self (scan : Scan E) (host : E.Host) :
    documentOf { scan with hosts := scan.hosts.put host } (E.scopedIp host) =
      E.document scan.redaction host := by
  rw [documentOf, Keyed.get_put_self, Option.bind_some]

theorem documentOf_put_of_ne (scan : Scan E) {host : E.Host} {address : E.ScopedIp}
    (hne : address ≠ E.scopedIp host) :
    documentOf { scan with hosts := scan.hosts.put host } address = scan.documentOf address := by
  rw [documentOf, Keyed.get_put_of_ne _ hne, documentOf]

theorem documentOf_raise (scan : Scan E) (i : Nat) :
    documentOf { scan with hosts := scan.hosts.raise i } = scan.documentOf := by
  funext address
  rw [documentOf, Keyed.get_raise, documentOf]

theorem snapshotAt_seq {scan : Scan E} {seq : Nat} {event : Event E.ScopedIp}
    (h : event ∈ scan.snapshotAt seq) : event.seq = seq := by
  simp only [snapshotAt, List.mem_append, List.mem_filterMap, List.mem_singleton] at h
  rcases h with ⟨host, -, hdoc⟩ | rfl
  · obtain ⟨document, -, rfl⟩ := Option.map_eq_some_iff.mp hdoc
    rfl
  · rfl

theorem snapshotAt_said {scan : Scan E} {seq : Nat} {address : E.ScopedIp} {document : String} :
    (∃ event ∈ scan.snapshotAt seq, event.said = some (address, document)) ↔
      scan.documentOf address = some document := by
  constructor
  · rintro ⟨event, hmem, hsaid⟩
    simp only [snapshotAt, List.mem_append, List.mem_filterMap, List.mem_singleton] at hmem
    rcases hmem with ⟨host, hhost, hdoc⟩ | rfl
    · obtain ⟨text, htext, rfl⟩ := Option.map_eq_some_iff.mp hdoc
      simp only [Event.said, Option.bind_some, Body.said, Option.some.injEq, Prod.mk.injEq] at hsaid
      obtain ⟨rfl, rfl⟩ := hsaid
      rw [documentOf, Keyed.get_eq_some.mpr ⟨hhost, rfl⟩, Option.bind_some, htext]
    · simp [Event.said, Body.said] at hsaid
  · intro h
    obtain ⟨host, hget, htext⟩ := Option.bind_eq_some_iff.mp h
    obtain ⟨hhost, rfl⟩ := Keyed.get_eq_some.mp hget
    refine ⟨⟨seq, some (.host ⟨E.scopedIp host, document⟩)⟩, ?_, rfl⟩
    simp only [snapshotAt, List.mem_append, List.mem_filterMap]
    exact .inl ⟨host, hhost, by rw [htext]; rfl⟩

theorem snapshotAt_latest {scan : Scan E} {seq : Nat} {address : E.ScopedIp} :
    latest Event.said address (scan.snapshotAt seq) = scan.documentOf address := by
  cases hl : latest Event.said address (scan.snapshotAt seq) with
  | some document => exact (snapshotAt_said.mp (latest_mem hl)).symm
  | none =>
    cases hd : scan.documentOf address with
    | none => rfl
    | some document =>
      obtain ⟨event, hmem, hsaid⟩ := (@snapshotAt_said _ scan seq _ _).mpr hd
      exact absurd hsaid (latest_eq_none.mp hl event hmem document)

theorem snapshotAt_single (scan : Scan E) (seq : Nat) : (scan.snapshotAt seq).Pairwise fun one other =>
    ∀ address document document', one.said = some (address, document) →
      other.said ≠ some (address, document') := by
  rw [snapshotAt, List.pairwise_append, List.pairwise_filterMap]
  refine ⟨?_, List.pairwise_singleton _ _, ?_⟩
  · refine (List.pairwise_map.mp scan.hosts.nodup).imp fun {host host'} hne one hone other hother => ?_
    obtain ⟨text, -, rfl⟩ := Option.map_eq_some_iff.mp hone
    obtain ⟨text', -, rfl⟩ := Option.map_eq_some_iff.mp hother
    intro address document document' hsaid hsaid'
    simp only [Event.said, Option.bind_some, Body.said, Option.some.injEq, Prod.mk.injEq] at hsaid hsaid'
    exact hne (hsaid.1.trans hsaid'.1.symm)
  · intro one _ other hother address document document' _ hsaid'
    rw [List.mem_singleton.mp hother] at hsaid'
    cases hsaid'

end Scan

end ZondDaemon
