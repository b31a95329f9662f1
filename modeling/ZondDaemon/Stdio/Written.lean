import ZondDaemon.Base.Writer
import ZondDaemon.Stdio.Wire

/-!
# What is written is what is read

What the serde derives make of a `StartRequest`, an `Event` and a `Gate` where they are written: every field
under the schema's name for it, an absent one as null, an enum's value by its name (`serialize` of
`codec.rs`), which fails for a number that is none of the schema's, and a oneof flattened into its message as
one member under the name of the arm. Each is read back as it was (`round_trip`).
-/

namespace ZondDaemon

namespace Proto

/-! ## Names of enum values -/

instance : Named Stage where
  asStrName
    | .unspecified => "STAGE_UNSPECIFIED"
    | .discovery => "STAGE_DISCOVERY"
    | .ports => "STAGE_PORTS"
    | .services => "STAGE_SERVICES"
    | .detections => "STAGE_DETECTIONS"
    | .tls => "STAGE_TLS"
    | .os => "STAGE_OS"
    | .traceroute => "STAGE_TRACEROUTE"
    | .listening => "STAGE_LISTENING"
    | .finishing => "STAGE_FINISHING"

instance : Named StopCause where
  asStrName
    | .unspecified => "STOP_CAUSE_UNSPECIFIED"
    | .completed => "STOP_CAUSE_COMPLETED"
    | .aborted => "STOP_CAUSE_ABORTED"
    | .timedOut => "STOP_CAUSE_TIMED_OUT"

/-- A value is found by its own name. -/
class Inverse (X : Type) [Named X] : Prop where
  fromStrName_asStrName : ∀ x : X, fromStrName X (Named.asStrName x) = some x

instance : Inverse Stage := ⟨fun x => by cases x <;> rfl⟩
instance : Inverse StopCause := ⟨fun x => by cases x <;> rfl⟩
instance : Inverse ScanKind := ⟨fun x => by cases x <;> rfl⟩
instance : Inverse ServiceDetection := ⟨fun x => by cases x <;> rfl⟩
instance : Inverse OsDetection := ⟨fun x => by cases x <;> rfl⟩
instance : Inverse DetectionClass := ⟨fun x => by cases x <;> rfl⟩
instance : Inverse ScanEffort := ⟨fun x => by cases x <;> rfl⟩
instance : Inverse TcpScanTechnique := ⟨fun x => by cases x <;> rfl⟩
instance : Inverse SctpScanTechnique := ⟨fun x => by cases x <;> rfl⟩
instance : Inverse SendMode := ⟨fun x => by cases x <;> rfl⟩

/-- The number is one the schema declares. -/
def Declared (X : Type) [Enumeration X] (raw : Int) : Prop := (tryFrom raw : Option X).isSome

/-- `serialize` of the codec module of an enum. -/
def serialize (X : Type) [Named X] : Int → Option Json :=
  Writer.named fun raw => (tryFrom raw : Option X).map Named.asStrName

section named
variable {X : Type} [Named X] {raw : Int}

theorem number_of_tryFrom {x : X} (h : tryFrom raw = some x) : number x = raw := by
  simpa using List.find?_some h

theorem isSome_serialize : (serialize X raw).isSome ↔ Declared X raw := by
  rw [serialize, Writer.named, Option.isSome_map, Option.isSome_map]
  rfl

theorem returns_serialize [Inverse X] (raw : Int) : Writer.Returns (named X) (serialize X raw) raw := by
  refine Writer.returns_named fun name hname => ?_
  obtain ⟨x, hx, rfl⟩ := Option.map_eq_some_iff.mp hname
  rw [Inverse.fromStrName_asStrName, Option.map_some, number_of_tryFrom hx]

end named

/-! ## The requests -/

open Writer (text flag whole list optional object)

def Evasion.write (m : Evasion) : Option Json := object [
  ("source_port", optional whole m.sourcePort),
  ("ttl", optional whole m.ttl),
  ("fragment_mtu", optional whole m.fragmentMtu),
  ("padding", optional whole m.padding),
  ("decoys", list text m.decoys),
  ("flags", optional whole m.flags),
  ("spoof_mac", optional text m.spoofMac),
  ("bad_tcp_checksum", optional flag m.badTcpChecksum)]

section requests
variable {F64 : Type} (scale : F64 → Json) (double : Number → F64)

/-- A double is written as serde_json writes one. -/
def Settings.write (m : Settings F64) : Option Json := object [
  ("effort", optional (serialize ScanEffort) m.effort),
  ("host_timeout", optional whole m.hostTimeout),
  ("scan_timeout", optional whole m.scanTimeout),
  ("max_probe_rate", optional whole m.maxProbeRate),
  ("min_probe_rate", optional whole m.minProbeRate),
  ("max_attempts", optional whole m.maxAttempts),
  ("no_dns", optional flag m.noDns),
  ("redact", optional flag m.redact),
  ("tls_enumeration", optional flag m.tlsEnumeration),
  ("host_probe_interval_ms", optional whole m.hostProbeIntervalMs),
  ("dampen_silent_hosts", optional flag m.dampenSilentHosts),
  ("default_ports", optional text m.defaultPorts),
  ("tcp_technique", optional (serialize TcpScanTechnique) m.tcpTechnique),
  ("sctp_technique", optional (serialize SctpScanTechnique) m.sctpTechnique),
  ("send_mode", optional (serialize SendMode) m.sendMode),
  ("timeout_scale", optional (fun x => some (scale x)) m.timeoutScale)]

def StartRequest.write (m : StartRequest F64) : Option Json := object [
  ("targets", list text m.targets),
  ("exclude", list text m.exclude),
  ("ports", optional text m.ports),
  ("service_detection", optional (serialize ServiceDetection) m.serviceDetection),
  ("os_detection", optional (serialize OsDetection) m.osDetection),
  ("detection", optional (serialize DetectionClass) m.detection),
  ("traceroute", optional flag m.traceroute),
  ("characterise", optional flag m.characterise),
  ("icmp_evidence", optional flag m.icmpEvidence),
  ("assume_up", optional flag m.assumeUp),
  ("ip_protocols", list whole m.ipProtocols),
  ("send_source", list text m.sendSource),
  ("evasion", optional Evasion.write m.evasion),
  ("kind", serialize ScanKind m.kind),
  ("links", list text m.links),
  ("listen_for_seconds", optional whole m.listenForSeconds),
  ("settings", optional (Settings.write scale) m.settings)]

end requests

/-! ## The events -/

def HostChanged.reader : Reader (HostChanged String) := .message [
  ⟨"address", .text, fun value held => { held with address := value }⟩,
  ⟨"document", .text, fun value held => { held with document := value }⟩] ⟨"", ""⟩

def HostChanged.write (m : HostChanged String) : Option Json := object [
  ("address", text m.address),
  ("document", text m.document)]

def StageChanged.reader : Reader StageChanged := .message [
  ⟨"stage", named Stage, fun value held => { held with stage := value }⟩] ⟨0⟩

def StageChanged.write (m : StageChanged) : Option Json := object [("stage", serialize Stage m.stage)]

def Progress.reader : Reader Progress := .message [
  ⟨"stage", named Stage, fun value held => { held with stage := value }⟩,
  ⟨"stage_done", .optional u64, fun value held => { held with stageDone := value }⟩,
  ⟨"stage_total", .optional u64, fun value held => { held with stageTotal := value }⟩,
  ⟨"overall_done", .optional u64, fun value held => { held with overallDone := value }⟩,
  ⟨"overall_total", .optional u64, fun value held => { held with overallTotal := value }⟩]
  ⟨0, none, none, none, none⟩

def Progress.write (m : Progress) : Option Json := object [
  ("stage", serialize Stage m.stage),
  ("stage_done", optional whole m.stageDone),
  ("stage_total", optional whole m.stageTotal),
  ("overall_done", optional whole m.overallDone),
  ("overall_total", optional whole m.overallTotal)]

def ScannerFailed.reader : Reader ScannerFailed := .message [
  ⟨"scanner", .text, fun value held => { held with scanner := value }⟩,
  ⟨"reason", .text, fun value held => { held with reason := value }⟩] ⟨"", ""⟩

def ScannerFailed.write (m : ScannerFailed) : Option Json := object [
  ("scanner", text m.scanner),
  ("reason", text m.reason)]

def Finished.reader : Reader Finished := .message [
  ⟨"cause", named StopCause, fun value held => { held with cause := value }⟩] ⟨0⟩

def Finished.write (m : Finished) : Option Json := object [("cause", serialize StopCause m.cause)]

namespace Body

/-- The variants of the oneof under the names of its fields, `rename_all` having made them snake case. -/
def arms : List (Writer.Arm (Body String)) := [
  ⟨"host", HostChanged.reader, .host⟩,
  ⟨"stage", StageChanged.reader, .stage⟩,
  ⟨"progress", Progress.reader, .progress⟩,
  ⟨"failure", ScannerFailed.reader, .failure⟩,
  ⟨"finished", Finished.reader, .finished⟩]

def name : Body String → String
  | .host _ => "host"
  | .stage _ => "stage"
  | .progress _ => "progress"
  | .failure _ => "failure"
  | .finished _ => "finished"

def write : Body String → Option Json
  | .host changed => changed.write
  | .stage changed => changed.write
  | .progress reached => reached.write
  | .failure failed => failed.write
  | .finished last => last.write

end Body

namespace Event

/-- The body is flattened into the event. -/
def write (m : Event String) : Option Json :=
  object (("seq", whole m.seq) :: (m.body.map fun body => (body.name, body.write)).toList)

/-- `seq` has to be there; what is left of the members is looked through for the body, which is none where it
cannot be read. -/
def ofJson : Json → Option (Event String)
  | .object members =>
    match (members.filter fun member => member.1 = "seq").map Prod.snd with
    | [value] => (u64.read value).map fun seq =>
        ⟨seq, Writer.readArm Body.arms (members.filter fun member => member.1 ≠ "seq")⟩
    | _ => none
  | _ => none

end Event

/-! ## The gates -/

structure PortGate where
  service : Option String := none
  services : List String := []
  port : Option Nat := none
  ports : List Nat := []
  protocol : Option String := none
  speaks : Option String := none

def PortGate.reader : Reader PortGate := .message [
  ⟨"service", .optional .text, fun value held => { held with service := value }⟩,
  ⟨"services", .list .text, fun value held => { held with services := value }⟩,
  ⟨"port", .optional u32, fun value held => { held with port := value }⟩,
  ⟨"ports", .list u32, fun value held => { held with ports := value }⟩,
  ⟨"protocol", .optional .text, fun value held => { held with protocol := value }⟩,
  ⟨"speaks", .optional .text, fun value held => { held with speaks := value }⟩] {}

def PortGate.write (m : PortGate) : Option Json := object [
  ("service", optional text m.service),
  ("services", list text m.services),
  ("port", optional whole m.port),
  ("ports", list whole m.ports),
  ("protocol", optional text m.protocol),
  ("speaks", optional text m.speaks)]

structure HostGate where
  portsOpen : List Nat := []
  services : List String := []

def HostGate.reader : Reader HostGate := .message [
  ⟨"ports_open", .list u32, fun value held => { held with portsOpen := value }⟩,
  ⟨"services", .list .text, fun value held => { held with services := value }⟩] {}

def HostGate.write (m : HostGate) : Option Json := object [
  ("ports_open", list whole m.portsOpen),
  ("services", list text m.services)]

/-- The `against` of a gate. -/
inductive Against
  | port (gate : PortGate)
  | host (gate : HostGate)

namespace Against

def arms : List (Writer.Arm Against) := [
  ⟨"port", PortGate.reader, .port⟩,
  ⟨"host", HostGate.reader, .host⟩]

def name : Against → String
  | .port _ => "port"
  | .host _ => "host"

def write : Against → Option Json
  | .port gate => gate.write
  | .host gate => gate.write

end Against

structure Gate where
  against : Option Against

namespace Gate

def write (m : Gate) : Option Json :=
  object (m.against.map fun against => (against.name, against.write)).toList

def ofJson : Json → Option Gate
  | .object members => some ⟨Writer.readArm Against.arms members⟩
  | _ => none

end Gate

/-! ## What the types hold -/

/-- The numbers of a profile are 32 bits wide. -/
structure Evasion.Typed (m : Evasion) : Prop where
  sourcePort : ∀ n ∈ m.sourcePort, n ≤ u32Max
  ttl : ∀ n ∈ m.ttl, n ≤ u32Max
  fragmentMtu : ∀ n ∈ m.fragmentMtu, n ≤ u32Max
  padding : ∀ n ∈ m.padding, n ≤ u32Max
  flags : ∀ n ∈ m.flags, n ≤ u32Max

section requests
variable {F64 : Type}

structure Settings.Typed (m : Settings F64) : Prop where
  hostTimeout : ∀ n ∈ m.hostTimeout, n ≤ u32Max
  scanTimeout : ∀ n ∈ m.scanTimeout, n ≤ u32Max
  maxProbeRate : ∀ n ∈ m.maxProbeRate, n ≤ u32Max
  minProbeRate : ∀ n ∈ m.minProbeRate, n ≤ u32Max
  maxAttempts : ∀ n ∈ m.maxAttempts, n ≤ u32Max
  hostProbeIntervalMs : ∀ n ∈ m.hostProbeIntervalMs, n ≤ u32Max

structure StartRequest.Typed (m : StartRequest F64) : Prop where
  ipProtocols : ∀ n ∈ m.ipProtocols, n ≤ u32Max
  evasion : ∀ profile ∈ m.evasion, profile.Typed
  listenForSeconds : ∀ n ∈ m.listenForSeconds, n ≤ u32Max
  settings : ∀ knobs ∈ m.settings, knobs.Typed

/-- The enum fields hold numbers the schema declares. -/
structure Settings.Known (m : Settings F64) : Prop where
  effort : ∀ raw ∈ m.effort, Declared ScanEffort raw
  tcpTechnique : ∀ raw ∈ m.tcpTechnique, Declared TcpScanTechnique raw
  sctpTechnique : ∀ raw ∈ m.sctpTechnique, Declared SctpScanTechnique raw
  sendMode : ∀ raw ∈ m.sendMode, Declared SendMode raw

structure StartRequest.Known (m : StartRequest F64) : Prop where
  serviceDetection : ∀ raw ∈ m.serviceDetection, Declared ServiceDetection raw
  osDetection : ∀ raw ∈ m.osDetection, Declared OsDetection raw
  detection : ∀ raw ∈ m.detection, Declared DetectionClass raw
  kind : Declared ScanKind m.kind
  settings : ∀ knobs ∈ m.settings, knobs.Known

end requests

structure Progress.Typed (m : Progress) : Prop where
  stageDone : ∀ n ∈ m.stageDone, n ≤ u64Max
  stageTotal : ∀ n ∈ m.stageTotal, n ≤ u64Max
  overallDone : ∀ n ∈ m.overallDone, n ≤ u64Max
  overallTotal : ∀ n ∈ m.overallTotal, n ≤ u64Max

structure Event.Typed (m : Event String) : Prop where
  seq : m.seq ≤ u64Max
  progress : ∀ reached, m.body = some (.progress reached) → reached.Typed

def Body.Known : Body String → Prop
  | .stage changed => Declared Stage changed.stage
  | .progress reached => Declared Stage reached.stage
  | .finished last => Declared StopCause last.cause
  | _ => True

def Against.Typed : Against → Prop
  | .port gate => (∀ n ∈ gate.port, n ≤ u32Max) ∧ ∀ n ∈ gate.ports, n ≤ u32Max
  | .host gate => ∀ n ∈ gate.portsOpen, n ≤ u32Max

/-! ## Reading the requests back -/

open Writer (Returns Solid solid_text solid_flag solid_whole solid_named solid_object returns_text
  returns_flag returns_whole returns_optional returns_list returns_object isSome_optional isSome_list
  isSome_object)

theorem returns_u32 {x : Option Nat} (h : ∀ n ∈ x, n ≤ u32Max) :
    Returns (.optional u32) (optional whole x) x :=
  returns_optional solid_whole fun n hn => returns_whole (h n hn)

theorem returns_flags (x : Option Bool) : Returns (.optional .flag) (optional flag x) x :=
  returns_optional solid_flag fun y _ => returns_flag y

theorem returns_words (x : Option String) : Returns (.optional .text) (optional text x) x :=
  returns_optional solid_text fun y _ => returns_text y

theorem returns_texts (x : List String) : Returns (.list .text) (list text x) x :=
  returns_list fun y _ => returns_text y

theorem returns_enum {X : Type} [Proto.Named X] [Inverse X] (x : Option Int) :
    Returns (.optional (named X)) (optional (serialize X) x) x :=
  returns_optional (solid_named _) fun y _ => returns_serialize y

theorem Evasion.returns {m : Evasion} (h : m.Typed) : Returns Evasion.reader m.write m :=
  returns_object (.cons rfl (returns_u32 h.sourcePort) (.cons rfl (returns_u32 h.ttl)
    (.cons rfl (returns_u32 h.fragmentMtu) (.cons rfl (returns_u32 h.padding)
    (.cons rfl (returns_texts m.decoys) (.cons rfl (returns_u32 h.flags)
    (.cons rfl (returns_words m.spoofMac) (.cons rfl (returns_flags m.badTcpChecksum) .nil))))))))

/-- With no timeout scale, a double being written and read as serde_json does it. -/
theorem Settings.returns {F64 : Type} (scale : F64 → Json) (double : Number → F64) {m : Settings F64}
    (h : m.Typed) (hscale : m.timeoutScale = none) :
    Returns (Settings.reader double) (m.write scale) m := by
  have hnone : Returns (.optional (.number double)) (optional (fun x => some (scale x)) m.timeoutScale)
      m.timeoutScale := by
    rw [hscale]
    rintro _ ⟨⟩
    rfl
  exact returns_object (.cons rfl (returns_enum m.effort) (.cons rfl (returns_u32 h.hostTimeout)
    (.cons rfl (returns_u32 h.scanTimeout) (.cons rfl (returns_u32 h.maxProbeRate)
    (.cons rfl (returns_u32 h.minProbeRate) (.cons rfl (returns_u32 h.maxAttempts)
    (.cons rfl (returns_flags m.noDns) (.cons rfl (returns_flags m.redact)
    (.cons rfl (returns_flags m.tlsEnumeration) (.cons rfl (returns_u32 h.hostProbeIntervalMs)
    (.cons rfl (returns_flags m.dampenSilentHosts) (.cons rfl (returns_words m.defaultPorts)
    (.cons rfl (returns_enum m.tcpTechnique) (.cons rfl (returns_enum m.sctpTechnique)
    (.cons rfl (returns_enum m.sendMode) (.cons rfl hnone .nil))))))))))))))))

theorem StartRequest.returns {F64 : Type} (scale : F64 → Json) (double : Number → F64) {m : StartRequest F64}
    (h : m.Typed) (hscale : ∀ knobs ∈ m.settings, knobs.timeoutScale = none) :
    Returns (StartRequest.reader double) (m.write scale) m := by
  have hprotocols : Returns (.list u32) (list whole m.ipProtocols) m.ipProtocols :=
    returns_list fun n hn => returns_whole (h.ipProtocols n hn)
  have hevasion : Returns (.optional Evasion.reader) (optional Evasion.write m.evasion) m.evasion :=
    returns_optional (solid_object _) fun profile hprofile => Evasion.returns (h.evasion profile hprofile)
  have hsettings : Returns (.optional (Settings.reader double)) (optional (Settings.write scale) m.settings)
      m.settings :=
    returns_optional (solid_object _) fun knobs hknobs =>
      Settings.returns scale double (h.settings knobs hknobs) (hscale knobs hknobs)
  exact returns_object (.cons rfl (returns_texts m.targets) (.cons rfl (returns_texts m.exclude)
    (.cons rfl (returns_words m.ports) (.cons rfl (returns_enum m.serviceDetection)
    (.cons rfl (returns_enum m.osDetection) (.cons rfl (returns_enum m.detection)
    (.cons rfl (returns_flags m.traceroute) (.cons rfl (returns_flags m.characterise)
    (.cons rfl (returns_flags m.icmpEvidence) (.cons rfl (returns_flags m.assumeUp)
    (.cons rfl hprotocols (.cons rfl (returns_texts m.sendSource) (.cons rfl hevasion
    (.cons rfl (returns_serialize m.kind) (.cons rfl (returns_texts m.links)
    (.cons rfl (returns_u32 h.listenForSeconds) (.cons rfl hsettings .nil)))))))))))))))))

/-! ## What can be written of them -/

theorem isSome_flags (x : Option Bool) : (optional flag x).isSome := isSome_optional.mpr fun _ _ => rfl

theorem isSome_words (x : Option String) : (optional text x).isSome := isSome_optional.mpr fun _ _ => rfl

theorem isSome_numbers (x : Option Nat) : (optional whole x).isSome := isSome_optional.mpr fun _ _ => rfl

theorem isSome_texts (x : List String) : (list text x).isSome := isSome_list.mpr fun _ _ => rfl

theorem isSome_enum {X : Type} [Proto.Named X] {x : Option Int} :
    (optional (serialize X) x).isSome ↔ ∀ raw ∈ x, Declared X raw := by
  simp only [isSome_optional, isSome_serialize]

theorem Evasion.isSome_write (m : Evasion) : m.write.isSome := by
  simp [Evasion.write, isSome_object, isSome_flags, isSome_words, isSome_numbers, isSome_texts]

theorem Settings.isSome_write {F64 : Type} (scale : F64 → Json) {m : Settings F64} :
    (m.write scale).isSome ↔ m.Known := by
  have hscale : (optional (fun x => some (scale x)) m.timeoutScale).isSome := isSome_optional.mpr fun _ _ => rfl
  simp only [Settings.write, isSome_object, List.forall_mem_cons, isSome_flags, isSome_words, isSome_numbers,
    isSome_enum, hscale]
  exact ⟨fun ⟨heffort, _, _, _, _, _, _, _, _, _, _, _, htcp, hsctp, hmode, _⟩ => ⟨heffort, htcp, hsctp, hmode⟩,
    fun h => by simpa using ⟨h.effort, h.tcpTechnique, h.sctpTechnique, h.sendMode⟩⟩

theorem StartRequest.isSome_write {F64 : Type} (scale : F64 → Json) {m : StartRequest F64} :
    (m.write scale).isSome ↔ m.Known := by
  have hprotocols : (list whole m.ipProtocols).isSome := isSome_list.mpr fun _ _ => rfl
  have hevasion : (optional Evasion.write m.evasion).isSome :=
    isSome_optional.mpr fun profile _ => Evasion.isSome_write profile
  have hsettings : (optional (Settings.write scale) m.settings).isSome ↔ ∀ knobs ∈ m.settings, knobs.Known := by
    simp only [isSome_optional, Settings.isSome_write]
  simp only [StartRequest.write, isSome_object, List.forall_mem_cons, isSome_flags, isSome_words,
    isSome_numbers, isSome_texts, isSome_enum, isSome_serialize, hprotocols, hevasion, hsettings]
  exact ⟨fun ⟨_, _, _, hservice, hos, hclass, _, _, _, _, _, _, _, hkind, _, _, hknobs, _⟩ =>
      ⟨hservice, hos, hclass, hkind, hknobs⟩,
    fun h => by simpa using ⟨h.serviceDetection, h.osDetection, h.detection, h.kind, h.settings⟩⟩

/-! ## Reading the events and the gates back -/

theorem returns_u64 {x : Option Nat} (h : ∀ n ∈ x, n ≤ u64Max) :
    Returns (.optional u64) (optional whole x) x :=
  returns_optional solid_whole fun n hn => returns_whole (h n hn)

theorem returns_u32s {x : List Nat} (h : ∀ n ∈ x, n ≤ u32Max) : Returns (.list u32) (list whole x) x :=
  returns_list fun n hn => returns_whole (h n hn)

theorem Body.readArm_write {body : Body String} (h : ∀ reached, body = .progress reached → reached.Typed)
    {value : Json} (hvalue : body.write = some value) :
    Writer.readArm Body.arms [(body.name, value)] = some body := by
  cases body with
  | host changed =>
    have hreturns : Returns HostChanged.reader changed.write changed :=
      returns_object (.cons rfl (returns_text _) (.cons rfl (returns_text _) .nil))
    exact Writer.readArm_self rfl (hreturns value hvalue)
  | stage changed =>
    have hreturns : Returns StageChanged.reader changed.write changed :=
      returns_object (.cons rfl (returns_serialize _) .nil)
    exact Writer.readArm_self rfl (hreturns value hvalue)
  | progress reached =>
    have htyped := h reached rfl
    have hreturns : Returns Progress.reader reached.write reached :=
      returns_object (.cons rfl (returns_serialize _) (.cons rfl (returns_u64 htyped.stageDone)
        (.cons rfl (returns_u64 htyped.stageTotal) (.cons rfl (returns_u64 htyped.overallDone)
        (.cons rfl (returns_u64 htyped.overallTotal) .nil)))))
    exact Writer.readArm_self rfl (hreturns value hvalue)
  | failure failed =>
    have hreturns : Returns ScannerFailed.reader failed.write failed :=
      returns_object (.cons rfl (returns_text _) (.cons rfl (returns_text _) .nil))
    exact Writer.readArm_self rfl (hreturns value hvalue)
  | finished last =>
    have hreturns : Returns Finished.reader last.write last :=
      returns_object (.cons rfl (returns_serialize _) .nil)
    exact Writer.readArm_self rfl (hreturns value hvalue)

theorem Against.readArm_write {against : Against} (h : against.Typed) {value : Json}
    (hvalue : against.write = some value) :
    Writer.readArm Against.arms [(against.name, value)] = some against := by
  cases against with
  | port gate =>
    obtain ⟨hport, hports⟩ := h
    have hreturns : Returns PortGate.reader gate.write gate :=
      returns_object (.cons rfl (returns_words _) (.cons rfl (returns_texts _) (.cons rfl (returns_u32 hport)
        (.cons rfl (returns_u32s hports) (.cons rfl (returns_words _) (.cons rfl (returns_words _) .nil))))))
    exact Writer.readArm_self rfl (hreturns value hvalue)
  | host gate =>
    have hreturns : Returns HostGate.reader gate.write gate :=
      returns_object (.cons rfl (returns_u32s h) (.cons rfl (returns_texts _) .nil))
    exact Writer.readArm_self rfl (hreturns value hvalue)

theorem Event.ofJson_write {m : Event String} (h : m.Typed) {value : Json} (hvalue : m.write = some value) :
    Event.ofJson value = some m := by
  obtain ⟨seq, body⟩ := m
  obtain ⟨members, hmembers, rfl⟩ := Option.map_eq_some_iff.mp hvalue
  have hseq : u64.read (.number (.posInt seq)) = some seq := if_pos h.seq
  cases body with
  | none =>
    cases hmembers
    simp [Event.ofJson, hseq, Writer.readArm]
  | some body =>
    obtain ⟨first, hfirst, hrest⟩ := Option.bind_eq_some_iff.mp hmembers
    cases hfirst
    obtain ⟨others, hothers, rfl⟩ := Option.map_eq_some_iff.mp hrest
    obtain ⟨told, htold, hnil⟩ := Option.bind_eq_some_iff.mp hothers
    cases hnil
    have hne : body.name ≠ "seq" := by cases body <;> simp [Body.name]
    have hbody := Body.readArm_write (fun reached heq => h.progress reached (congrArg some heq)) htold
    simp [Event.ofJson, hseq, hne, hbody]

theorem Gate.ofJson_write {m : Gate} (h : ∀ against ∈ m.against, against.Typed) {value : Json}
    (hvalue : m.write = some value) : Gate.ofJson value = some m := by
  obtain ⟨against⟩ := m
  obtain ⟨members, hmembers, rfl⟩ := Option.map_eq_some_iff.mp hvalue
  cases against with
  | none =>
    cases hmembers
    rfl
  | some against =>
    obtain ⟨told, htold, hnil⟩ := Option.bind_eq_some_iff.mp hmembers
    cases hnil
    have hagainst := Against.readArm_write (h against rfl) htold
    simp [Gate.ofJson, hagainst]

/-! ## Under which names -/

open Writer (Holds holds_object)

/-- An enum's value under the schema's name for it. -/
def Shown (X : Type) [Named X] (raw : Int) (value : Json) : Prop :=
  ∃ x : X, number x = raw ∧ value = .string (Named.asStrName x)

def ShownOrNull (X : Type) [Named X] : Option Int → Json → Prop
  | none, value => value = .null
  | some raw, value => Shown X raw value

theorem shown_serialize {X : Type} [Named X] {raw : Int} {value : Json} (h : serialize X raw = some value) :
    Shown X raw value := by
  obtain ⟨name, hname, rfl⟩ := Option.map_eq_some_iff.mp h
  obtain ⟨x, hx, rfl⟩ := Option.map_eq_some_iff.mp hname
  exact ⟨x, number_of_tryFrom hx, rfl⟩

theorem shownOrNull_optional {X : Type} [Named X] {raw : Option Int} {value : Json}
    (h : optional (serialize X) raw = some value) : ShownOrNull X raw value := by
  cases raw with
  | none =>
    cases h
    rfl
  | some raw => exact shown_serialize h

theorem holds_enum {X : Type} [Named X] {written : List (String × Option Json)} {name : String}
    {raw : Option Int} {value : Json} (hnodup : (written.map Prod.fst).Nodup)
    (hmem : (name, optional (serialize X) raw) ∈ written) (h : object written = some value) :
    Holds name (ShownOrNull X raw) value :=
  holds_object hnodup hmem (fun _ hheld => shownOrNull_optional hheld) h

section requests
variable {F64 : Type}

/-- The enum fields of the settings are there by name. -/
def Settings.Shown (m : Settings F64) (value : Json) : Prop :=
  Holds "effort" (ShownOrNull ScanEffort m.effort) value ∧
  Holds "tcp_technique" (ShownOrNull TcpScanTechnique m.tcpTechnique) value ∧
  Holds "sctp_technique" (ShownOrNull SctpScanTechnique m.sctpTechnique) value ∧
  Holds "send_mode" (ShownOrNull SendMode m.sendMode) value

def StartRequest.Shown (m : StartRequest F64) (value : Json) : Prop :=
  Holds "service_detection" (ShownOrNull ServiceDetection m.serviceDetection) value ∧
  Holds "os_detection" (ShownOrNull OsDetection m.osDetection) value ∧
  Holds "detection" (ShownOrNull DetectionClass m.detection) value ∧
  Holds "kind" (Proto.Shown ScanKind m.kind) value ∧
  ∀ knobs ∈ m.settings, Holds "settings" knobs.Shown value

theorem Settings.shown_write (scale : F64 → Json) {m : Settings F64} {value : Json}
    (h : m.write scale = some value) : m.Shown value := by
  refine ⟨?_, ?_, ?_, ?_⟩
  all_goals exact holds_enum (by simp) (by simp) h

theorem StartRequest.shown_write (scale : F64 → Json) {m : StartRequest F64} {value : Json}
    (h : m.write scale = some value) : m.Shown value := by
  refine ⟨?_, ?_, ?_, ?_, fun knobs hknobs => ?_⟩
  · exact holds_enum (by simp) (by simp) h
  · exact holds_enum (by simp) (by simp) h
  · exact holds_enum (by simp) (by simp) h
  · exact holds_object (by simp) (by simp) (fun _ hheld => shown_serialize hheld) h
  · have hmem : optional (Settings.write scale) m.settings = knobs.write scale := by
      rw [Option.mem_def.mp hknobs]
      rfl
    refine holds_object (by simp) ?_ (fun _ hheld => Settings.shown_write scale hheld) h
    simp [hmem]

end requests

def Body.Shown : Body String → Json → Prop
  | .stage changed, value => Holds "stage" (Proto.Shown Stage changed.stage) value
  | .progress reached, value => Holds "stage" (Proto.Shown Stage reached.stage) value
  | .finished last, value => Holds "cause" (Proto.Shown StopCause last.cause) value
  | _, _ => True

theorem Body.shown_write {body : Body String} {value : Json} (h : body.write = some value) :
    body.Shown value := by
  cases body with
  | host changed | failure failed => trivial
  | stage changed | progress reached | finished last =>
    exact holds_object (by simp) (by simp) (fun _ hheld => shown_serialize hheld) h

/-- The event is its number and its body, which stands under the schema's name for the arm. -/
def Event.Shown (m : Event String) (value : Json) : Prop :=
  ∃ members, value = .object members ∧ members.map Prod.fst = "seq" :: (m.body.map Body.name).toList ∧
    ∀ body ∈ m.body, Holds body.name body.Shown value

def Gate.Shown (m : Gate) (value : Json) : Prop :=
  ∃ members, value = .object members ∧ members.map Prod.fst = (m.against.map Against.name).toList

theorem Event.shown_write {m : Event String} {value : Json} (h : m.write = some value) : m.Shown value := by
  obtain ⟨seq, body⟩ := m
  obtain ⟨members, hmembers, heq⟩ := Option.map_eq_some_iff.mp h
  refine ⟨members, heq.symm, ?_, ?_⟩
  · rw [Writer.map_members hmembers]
    cases body <;> rfl
  · rintro body ⟨rfl⟩
    refine holds_object ?_ ?_ (fun _ hheld => Body.shown_write hheld) h
    · cases body <;> simp [Body.name]
    · simp

theorem Gate.shown_write {m : Gate} {value : Json} (h : m.write = some value) : m.Shown value := by
  obtain ⟨against⟩ := m
  obtain ⟨members, hmembers, heq⟩ := Option.map_eq_some_iff.mp h
  refine ⟨members, heq.symm, ?_⟩
  rw [Writer.map_members hmembers]
  cases against <;> rfl

theorem Body.isSome_write {body : Body String} : body.write.isSome ↔ body.Known := by
  cases body with
  | host changed | failure failed => exact iff_of_true rfl trivial
  | stage changed =>
    simp [Body.write, StageChanged.write, isSome_object, isSome_serialize, Body.Known]
  | progress reached =>
    simp [Body.write, Progress.write, isSome_object, isSome_serialize, isSome_numbers, Body.Known]
  | finished last =>
    simp [Body.write, Finished.write, isSome_object, isSome_serialize, Body.Known]

theorem Event.isSome_write {m : Event String} : m.write.isSome ↔ ∀ body ∈ m.body, body.Known := by
  have hseq : (whole m.seq).isSome := rfl
  obtain ⟨seq, body⟩ := m
  cases body <;> simp [Event.write, isSome_object, hseq, Body.isSome_write]

theorem Against.isSome_write (against : Against) : against.write.isSome := by
  cases against with
  | port gate =>
    have hports : (list whole gate.ports).isSome := isSome_list.mpr fun _ _ => rfl
    simp [Against.write, PortGate.write, isSome_object, isSome_words, isSome_numbers, isSome_texts, hports]
  | host gate =>
    have hports : (list whole gate.portsOpen).isSome := isSome_list.mpr fun _ _ => rfl
    simp [Against.write, HostGate.write, isSome_object, isSome_texts, hports]

theorem Gate.isSome_write (m : Gate) : m.write.isSome := by
  obtain ⟨against⟩ := m
  cases against <;> simp [Gate.write, isSome_object, Against.isSome_write]

/-! ## The round trip -/

/-- What is written of a message is written just where the message is `known`, is read as the message, and
names what it shows. -/
def Faithful {M : Type} (written : Option Json) (read : Json → Option M) (known : Prop) (m : M)
    (shown : Json → Prop) : Prop :=
  (written.isSome ↔ known) ∧ ∀ value, written = some value → read value = some m ∧ shown value

/-- **A request, an event and a gate are read back as they were written.** -/
theorem round_trip {F64 : Type} (scale : F64 → Json) (double : Number → F64) :
    (∀ m : StartRequest F64, m.Typed → (∀ knobs ∈ m.settings, knobs.timeoutScale = none) →
      Faithful (m.write scale) (StartRequest.reader double).read m.Known m m.Shown) ∧
    (∀ m : Event String, m.Typed →
      Faithful m.write Event.ofJson (∀ body ∈ m.body, body.Known) m m.Shown) ∧
    ∀ m : Gate, (∀ against ∈ m.against, against.Typed) → Faithful m.write Gate.ofJson True m m.Shown := by
  refine ⟨fun m htyped hscale => ⟨StartRequest.isSome_write scale, fun value hvalue => ?_⟩,
    fun m htyped => ⟨Event.isSome_write, fun value hvalue => ?_⟩,
    fun m htyped => ⟨iff_of_true (Gate.isSome_write m) trivial, fun value hvalue => ?_⟩⟩
  · exact ⟨StartRequest.returns scale double htyped hscale value hvalue, StartRequest.shown_write scale hvalue⟩
  · exact ⟨Event.ofJson_write htyped hvalue, Event.shown_write hvalue⟩
  · exact ⟨Gate.ofJson_write htyped hvalue, Gate.shown_write hvalue⟩

/-- A sweep with a profile and settings of its own. -/
def shaped : StartRequest Int where
  targets := ["10.0.0.0/24"]
  evasion := some { ttl := some 64, decoys := ["10.0.0.9"], badTcpChecksum := some true }
  kind := number ScanKind.discovery
  settings := some { effort := some (number ScanEffort.fast), hostTimeout := some 30, noDns := some true }

/-- The end of a scan, as an event. -/
def timedOut : Event String := ⟨3, some (.finished ⟨number StopCause.timedOut⟩)⟩

def onSsh : Gate := ⟨some (.port { services := ["ssh"], port := some 22 })⟩

theorem shaped_typed : shaped.Typed where
  ipProtocols n hn := by cases hn
  evasion := by
    rintro _ ⟨⟩
    exact ⟨nofun, by rintro _ ⟨⟩; decide, nofun, nofun, nofun⟩
  listenForSeconds := nofun
  settings := by
    rintro _ ⟨⟩
    exact ⟨by rintro _ ⟨⟩; decide, nofun, nofun, nofun, nofun, nofun⟩

theorem round_trip_shaped :
    (∃ value, shaped.write (fun _ => .null) = some value ∧
      (StartRequest.reader fun _ => (0 : Int)).read value = some shaped ∧ shaped.Shown value) ∧
    (Event.write timedOut = some (.object [("seq", .number (.posInt 3)),
        ("finished", .object [("cause", .string "STOP_CAUSE_TIMED_OUT")])]) ∧
      Event.ofJson (.object [("seq", .number (.posInt 3)),
        ("finished", .object [("cause", .string "STOP_CAUSE_TIMED_OUT")])]) = some timedOut) ∧
    ∃ value, onSsh.write = some value ∧ Gate.ofJson value = some onSsh := by
  obtain ⟨hrequests, hevents, hgates⟩ := round_trip (fun _ : Int => Json.null) fun _ => 0
  refine ⟨?_, ?_, ?_⟩
  · have hscale : ∀ knobs ∈ shaped.settings, knobs.timeoutScale = none := by
      rintro _ ⟨⟩
      rfl
    have hwritten : (shaped.write fun _ => .null).isSome = true := by decide +kernel
    exact ⟨_, (Option.some_get hwritten).symm,
      (hrequests shaped shaped_typed hscale).2 _ (Option.some_get hwritten).symm⟩
  · have htyped : timedOut.Typed := by
      refine ⟨by decide, ?_⟩
      rintro reached ⟨⟩
    have hwritten : Event.write timedOut = some (.object [("seq", .number (.posInt 3)),
        ("finished", .object [("cause", .string "STOP_CAUSE_TIMED_OUT")])]) := rfl
    exact ⟨hwritten, ((hevents timedOut htyped).2 _ hwritten).1⟩
  · have htyped : ∀ against ∈ onSsh.against, against.Typed := by
      rintro _ ⟨⟩
      refine ⟨?_, ?_⟩
      · rintro _ ⟨⟩
        decide
      · intro n hn
        cases hn
    have hwritten : onSsh.write.isSome = true := rfl
    exact ⟨_, (Option.some_get hwritten).symm,
      ((hgates onSsh htyped).2 _ (Option.some_get hwritten).symm).1⟩

end Proto

end ZondDaemon
