import ZondDaemon.Engine

/-!
# The wire's vocabulary

The messages of `zond/v1/scan.proto`, as the generated types carry them: an enum's field is its number,
an optional field an `Option`. A host event carries its address as `κ`, the key the engine's store has
the host under; on the wire that is its text.
-/

namespace ZondDaemon.Proto

/-- An enum of the schema: its values and the number of each. -/
class Enumeration (X : Type) where
  all : List X
  number : X → Int

export Enumeration (number)

/-- `X::try_from(raw)`. -/
def tryFrom {X : Type} [Enumeration X] (raw : Int) : Option X :=
  Enumeration.all.find? fun x => number x = raw

inductive Stage
  | unspecified | discovery | ports | services | detections | tls | os | traceroute | listening
  | finishing
deriving DecidableEq

instance : Enumeration Stage where
  all := [.unspecified, .discovery, .ports, .services, .detections, .tls, .os, .traceroute, .listening,
    .finishing]
  number
    | .unspecified => 0 | .discovery => 1 | .ports => 2 | .services => 3 | .detections => 4 | .tls => 5
    | .os => 6 | .traceroute => 7 | .listening => 8 | .finishing => 9

inductive StopCause | unspecified | completed | aborted | timedOut
deriving DecidableEq

instance : Enumeration StopCause where
  all := [.unspecified, .completed, .aborted, .timedOut]
  number | .unspecified => 0 | .completed => 1 | .aborted => 2 | .timedOut => 3

inductive ScanKind | unspecified | discovery | portScan | listen
deriving DecidableEq

instance : Enumeration ScanKind where
  all := [.unspecified, .discovery, .portScan, .listen]
  number | .unspecified => 0 | .discovery => 1 | .portScan => 2 | .listen => 3

inductive ScanHold | unspecified | free | held | crashed
deriving DecidableEq

instance : Enumeration ScanHold where
  all := [.unspecified, .free, .held, .crashed]
  number | .unspecified => 0 | .free => 1 | .held => 2 | .crashed => 3

inductive ServiceDetection | unspecified | off | banner | probe | thorough
deriving DecidableEq

instance : Enumeration ServiceDetection where
  all := [.unspecified, .off, .banner, .probe, .thorough]
  number | .unspecified => 0 | .off => 1 | .banner => 2 | .probe => 3 | .thorough => 4

inductive OsDetection | unspecified | off | passive | active | aggressive
deriving DecidableEq

instance : Enumeration OsDetection where
  all := [.unspecified, .off, .passive, .active, .aggressive]
  number | .unspecified => 0 | .off => 1 | .passive => 2 | .active => 3 | .aggressive => 4

inductive DetectionClass
  | unspecified | passive | activeBenign | activeMutating | exploit | dos | derived
deriving DecidableEq

instance : Enumeration DetectionClass where
  all := [.unspecified, .passive, .activeBenign, .activeMutating, .exploit, .dos, .derived]
  number
    | .unspecified => 0 | .passive => 1 | .activeBenign => 2 | .activeMutating => 3 | .exploit => 4
    | .dos => 5 | .derived => 6

/-- The name the schema gives the value. -/
def DetectionClass.asStrName : DetectionClass → String
  | .unspecified => "DETECTION_CLASS_UNSPECIFIED"
  | .passive => "DETECTION_CLASS_PASSIVE"
  | .activeBenign => "DETECTION_CLASS_ACTIVE_BENIGN"
  | .activeMutating => "DETECTION_CLASS_ACTIVE_MUTATING"
  | .exploit => "DETECTION_CLASS_EXPLOIT"
  | .dos => "DETECTION_CLASS_DOS"
  | .derived => "DETECTION_CLASS_DERIVED"

inductive ScanEffort | unspecified | single | fast | balanced | thorough
deriving DecidableEq

instance : Enumeration ScanEffort where
  all := [.unspecified, .single, .fast, .balanced, .thorough]
  number | .unspecified => 0 | .single => 1 | .fast => 2 | .balanced => 3 | .thorough => 4

inductive TcpScanTechnique | unspecified | syn | ack | fin | null | xmas | maimon | window
deriving DecidableEq

instance : Enumeration TcpScanTechnique where
  all := [.unspecified, .syn, .ack, .fin, .null, .xmas, .maimon, .window]
  number
    | .unspecified => 0 | .syn => 1 | .ack => 2 | .fin => 3 | .null => 4 | .xmas => 5 | .maimon => 6
    | .window => 7

inductive SctpScanTechnique | unspecified | init | cookieEcho
deriving DecidableEq

instance : Enumeration SctpScanTechnique where
  all := [.unspecified, .init, .cookieEcho]
  number | .unspecified => 0 | .init => 1 | .cookieEcho => 2

inductive SendMode | unspecified | auto | ethernet | rawSocket
deriving DecidableEq

instance : Enumeration SendMode where
  all := [.unspecified, .auto, .ethernet, .rawSocket]
  number | .unspecified => 0 | .auto => 1 | .ethernet => 2 | .rawSocket => 3

inductive ExportFormat | unspecified | json | jsonl | csv | html | nmapXml
deriving DecidableEq

instance : Enumeration ExportFormat where
  all := [.unspecified, .json, .jsonl, .csv, .html, .nmapXml]
  number
    | .unspecified => 0 | .json => 1 | .jsonl => 2 | .csv => 3 | .html => 4 | .nmapXml => 5

inductive DiffFormat | unspecified | json | html
deriving DecidableEq

instance : Enumeration DiffFormat where
  all := [.unspecified, .json, .html]
  number | .unspecified => 0 | .json => 1 | .html => 2

/-! ## Starting -/

structure Evasion where
  sourcePort : Option Nat := none
  ttl : Option Nat := none
  fragmentMtu : Option Nat := none
  padding : Option Nat := none
  decoys : List String := []
  flags : Option Nat := none
  spoofMac : Option String := none
  badTcpChecksum : Option Bool := none

/-- `Settings`, a double being an `F64`. -/
structure Settings (F64 : Type) where
  effort : Option Int := none
  hostTimeout : Option Nat := none
  scanTimeout : Option Nat := none
  maxProbeRate : Option Nat := none
  minProbeRate : Option Nat := none
  maxAttempts : Option Nat := none
  noDns : Option Bool := none
  redact : Option Bool := none
  tlsEnumeration : Option Bool := none
  hostProbeIntervalMs : Option Nat := none
  dampenSilentHosts : Option Bool := none
  defaultPorts : Option String := none
  tcpTechnique : Option Int := none
  sctpTechnique : Option Int := none
  sendMode : Option Int := none
  timeoutScale : Option F64 := none

structure StartRequest (F64 : Type) where
  targets : List String := []
  exclude : List String := []
  ports : Option String := none
  serviceDetection : Option Int := none
  osDetection : Option Int := none
  detection : Option Int := none
  traceroute : Option Bool := none
  characterise : Option Bool := none
  icmpEvidence : Option Bool := none
  assumeUp : Option Bool := none
  ipProtocols : List Nat := []
  sendSource : List String := []
  evasion : Option Evasion := none
  kind : Int := 0
  links : List String := []
  listenForSeconds : Option Nat := none
  settings : Option (Settings F64) := none

/-! ## Following -/

structure HostChanged (κ : Type) where
  address : κ
  document : String
deriving DecidableEq

structure StageChanged where
  stage : Int
deriving DecidableEq

structure Progress where
  stage : Int
  stageDone : Option Nat
  stageTotal : Option Nat
  overallDone : Option Nat
  overallTotal : Option Nat
deriving DecidableEq

structure ScannerFailed where
  scanner : String
  reason : String
deriving DecidableEq

structure Finished where
  cause : Int
deriving DecidableEq

/-- The `body` of an event. -/
inductive Body (κ : Type)
  | host (changed : HostChanged κ)
  | stage (changed : StageChanged)
  | progress (reached : Progress)
  | failure (failed : ScannerFailed)
  | finished (last : Finished)
deriving DecidableEq

structure Event (κ : Type) where
  seq : Nat
  body : Option (Body κ)
deriving DecidableEq

/-- The host a body is about and the document it carries. -/
def Body.said {κ : Type} : Body κ → Option (κ × String)
  | .host changed => some (changed.address, changed.document)
  | _ => none

/-- The host an event is about and the document it carries. -/
def Event.said {κ : Type} (event : Event κ) : Option (κ × String) :=
  event.body.bind Body.said

/-- The cause a body gives for the end of the scan. -/
def Body.cause {κ : Type} : Body κ → Option Int
  | .finished last => some last.cause
  | _ => none

/-- The cause an event gives for the end of the scan. -/
def Event.cause {κ : Type} (event : Event κ) : Option Int :=
  event.body.bind Body.cause

/-! ## Asking -/

/-- `ScanState`; the deprecated `report` is never set. -/
structure ScanState where
  scanId : String
  running : Bool
  cause : Option Int
  progress : Option Progress
  seq : Nat
deriving DecidableEq

structure ScanListing where
  scanId : String
  kind : Int
  startedAt : String
  summary : String
  planned : Option Nat
  settled : Option Nat
  complete : Bool
  hold : Int
deriving DecidableEq

/-! ## Writing it down -/

structure ExportRequest where
  scanId : String
  format : Int := 0
  redact : Option Bool := none

structure ExportResponse where
  document : String
  format : Int
deriving DecidableEq

structure DiffRequest where
  baselineId : String
  currentId : String
  format : Int := 0

structure DiffResponse where
  document : String
  format : Int
deriving DecidableEq

structure MergeRequest where
  scanIds : List String
  format : Int := 0
  redact : Option Bool := none

end ZondDaemon.Proto

namespace ZondDaemon

/-- `error::Error`: the name a client branches on, and what to show a person. -/
structure Error where
  code : String
  message : String
deriving DecidableEq

namespace Error

/-- An engine error, keeping the engine's own name for it. -/
def engine (error : EngineError) : Error := ⟨error.code, error.message⟩

def noSuchScan (id : String) : Error := ⟨"scan.unknown", s!"no scan is named {id}"⟩

def atCapacity : Error :=
  ⟨"scan.at_capacity", "this daemon is already running as many scans at once as it runs"⟩

end Error

end ZondDaemon
