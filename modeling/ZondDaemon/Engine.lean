import Mathlib

/-!
# The engine, as the daemon uses it

`zond_engine` is a library of its own, so what the daemon takes from it is a parameter of everything
here: `EngineTypes` are the types it only passes around, `Engine` adds the functions it calls on them.
The enumerations are the engine's; those marked non-exhaustive there have an `other` arm, which is what
a `_` arm of the daemon's matches catches. A `Duration` is its number of milliseconds.
-/

namespace ZondDaemon

/-- What `Error::engine` reads of an error the engine hands back: its stable name and its text. -/
structure EngineError where
  code : String
  message : String
deriving DecidableEq

/-- What is masked in what a scan hands out. -/
inductive Redaction
  | standard
  | none
deriving DecidableEq

namespace Engine

inductive Stage
  | discovery | ports | services | detections | tls | os | traceroute | listening | finishing
  | other (name : String)
deriving DecidableEq

inductive StopCause
  | aborted | timedOut
  | other (name : String)
deriving DecidableEq

inductive ScanKind
  | discovery | portScan | listen
  | other (name : String)
deriving DecidableEq

inductive ServiceDetection | off | banner | probe | thorough
deriving DecidableEq

inductive OsDetection | off | passive | active | aggressive
deriving DecidableEq

inductive DetectionClass | passive | activeBenign | activeMutating | exploit | dos
deriving DecidableEq

inductive ScanEffort | single | fast | balanced | thorough
deriving DecidableEq

inductive TcpScanTechnique | syn | ack | fin | null | xmas | maimon | window
deriving DecidableEq

inductive SctpScanTechnique | init | cookieEcho
deriving DecidableEq

inductive SendMode | auto | ethernet | rawSocket
deriving DecidableEq

/-- Who is running a recorded scan, where `κ` is what the engine says about whoever that is. -/
inductive LockState (κ : Type)
  | free
  | held (holder : κ)
  | crashed (holder : κ)
  | other (name : String)
deriving DecidableEq

/-- What writes a report down. -/
inductive Exporter | jsonPretty | jsonLines | csv | html | nmapXml
deriving DecidableEq

/-- What writes a comparison of two reports down. -/
inductive DiffExporter | json | html
deriving DecidableEq

/-- What the engine's `Progress` answers: the stage, how far through it, how far through the run. -/
structure Progress where
  stage : Stage
  counted : Option (Nat × Nat)
  overall : Option (Nat × Nat)
deriving DecidableEq

/-- What the engine tells about a running scan, hosts being named by `κ`. -/
inductive ScanEvent (κ : Type)
  | hostUpdated (address : κ)
  | stageChanged (stage : Stage)
  | scannerFailed (scanner reason : String)
  | eventsDropped (missed : Nat)
  | other
deriving DecidableEq

end Engine

/-- A range of addresses of one family, both ends in it, an address being its number. -/
structure IpRange where
  startAddr : Nat
  endAddr : Nat
deriving DecidableEq

/-- The engine's types the daemon passes around without looking inside. -/
structure EngineTypes where
  ScopedIp : Type
  Host : Type
  ScanReport : Type
  IpSet : Type
  IpAddr : Type
  MacAddr : Type
  TargetMap : Type
  DiscoveryTargets : Type
  PortSet : Type
  Exclusions : Type
  SegmentSweep : Type
  Resolver : Type
  Zone : Type
  Plan : Type
  Journal : Type
  /-- What a lock says of whoever holds it. -/
  Holder : Type
  DetectionEnvelope : Type
  F64 : Type
  TimeoutScale : Type
  ConfigRest : Type

/-- `evasion::EvasionProfile`. -/
structure EvasionProfile (T : EngineTypes) where
  sourcePort : Option Nat
  ttl : Option Nat
  fragment : Option Nat
  padding : Option Nat
  flags : Option Nat
  badTcpChecksum : Bool
  decoys : List T.IpAddr
  spoofMac : Option T.MacAddr

/-- `import::settings::Settings`, empty where nothing was asked for. -/
structure Settings (T : EngineTypes) where
  effort : Option Engine.ScanEffort := none
  tcpTechnique : Option Engine.TcpScanTechnique := none
  sctpTechnique : Option Engine.SctpScanTechnique := none
  sendMode : Option Engine.SendMode := none
  hostTimeout : Option Nat := none
  scanTimeout : Option Nat := none
  hostProbeInterval : Option Nat := none
  maxProbeRate : Option ℕ+ := none
  minProbeRate : Option ℕ+ := none
  maxAttempts : Option ℕ+ := none
  noDns : Option Bool := none
  redact : Option Bool := none
  tlsEnumeration : Option Bool := none
  dampenSilentHosts : Option Bool := none
  defaultPorts : Option String := none
  timeoutScale : Option T.TimeoutScale := none

/-- `import::request::ScanRequest`, empty where nothing was asked for. -/
structure ScanRequest (T : EngineTypes) where
  targets : List String := []
  exclude : List String := []
  ports : Option String := none
  traceroute : Option Bool := none
  characterise : Option Bool := none
  icmpEvidence : Option Bool := none
  assumeUp : Option Bool := none
  serviceDetection : Option Engine.ServiceDetection := none
  osDetection : Option Engine.OsDetection := none
  detection : Option T.DetectionEnvelope := none
  ipProtocols : Option (List Nat) := none
  evasion : Option (EvasionProfile T) := none
  settings : Settings T := {}
  sendSource : Option (List T.IpAddr) := none

/-- `config::ZondConfig`: the fields the daemon reads or writes, and the rest of it unread. -/
structure ZondConfig (T : EngineTypes) where
  noDns : Bool
  redact : Bool
  tcpTechnique : Engine.TcpScanTechnique
  segmentSweep : T.SegmentSweep
  exclusions : T.Exclusions
  rest : T.ConfigRest

/-- `scanner::ListenScope`, recording everything, for at most so long where there is an end to it. -/
structure ListenScope (T : EngineTypes) where
  zones : List T.Zone
  atMost : Option Nat

/-- `store::Entry`: one record of the journal directory, and what reading the report in it gives. -/
structure Entry (T : EngineTypes) where
  directory : String
  id : String
  createdAt : Nat
  summary : String
  totalTargets : Nat
  kind : Engine.ScanKind
  lock : Engine.LockState T.Holder
  isComplete : Bool
  settled : Option Nat
  report : Except EngineError T.ScanReport

/-- The functions of the engine the daemon calls, those that answer the same every time. What depends
on the world outside (the resolver, the journal, a scan) is asked for as a query instead. -/
structure Engine extends EngineTypes where
  decEqScopedIp : DecidableEq ScopedIp
  /-- `host.scoped_ip()`, which the engine's store keys a host under. -/
  scopedIp : Host → ScopedIp
  /-- `serde_json::to_string(&HostDto::new(host, &options)).ok()`. -/
  document : Redaction → Host → Option String
  /-- `report.hosts()`. -/
  reportHosts : ScanReport → List Host
  exportReport : Engine.Exporter → Redaction → ScanReport → Except EngineError ByteArray
  /-- `ScanDiff::between` written out. -/
  exportDiff : Engine.DiffExporter → ScanReport → ScanReport → Except EngineError ByteArray
  /-- `Merge`, each report added under its name and in its turn. -/
  merge : List (String × ScanReport) → ScanReport
  rfc3339 : Nat → String
  -- `IpSet`
  newSet : IpSet
  v4 : IpSet → List IpRange
  v6 : IpSet → List IpRange
  pushV4Range : IpSet → IpRange → IpSet
  pushV6Range : IpSet → IpRange → IpSet
  canonicalize : IpSet → IpSet
  subtract : IpSet → IpSet → IpSet
  len : IpSet → Nat
  isEmpty : IpSet → Bool
  parseIpSet : String → Except String IpSet
  -- targets and ports
  /-- The `ips()` of each of the map's `units`. -/
  units : TargetMap → List IpSet
  grossTargets : TargetMap → Option Nat
  applyTargets : DiscoveryTargets → ZondConfig toEngineTypes → ZondConfig toEngineTypes
  intoIps : DiscoveryTargets → IpSet
  topTcp : Nat → PortSet
  -- requests
  requestPorts : ScanRequest toEngineTypes → Option (Except EngineError PortSet)
  applyTo : ScanRequest toEngineTypes → ZondConfig toEngineTypes → ZondConfig toEngineTypes
  defaultConfig : ZondConfig toEngineTypes
  upTo : Engine.DetectionClass → DetectionEnvelope
  parseIpAddr : String → Option IpAddr
  parseMacAddr : String → Option MacAddr
  /-- The greatest values the engine's fields for a fragment size and for padding hold. -/
  fragmentMax : Nat
  paddingMax : Nat
  timeoutScale : F64 → Option TimeoutScale
  showF64 : F64 → String
  -- plans and journals
  planPortScan : TargetMap → Exclusions → Engine.TcpScanTechnique → Plan
  planDiscovery : IpSet → Exclusions → SegmentSweep → Plan
  planListen : List Zone → Plan
  planKind : Plan → Engine.ScanKind
  planTargets : Plan → Option TargetMap
  planAddresses : Plan → Option IpSet
  planLinks : Plan → Option (List Zone)
  manifestId : Journal → String
  manifestTechnique : Journal → Engine.TcpScanTechnique

instance (E : Engine) : DecidableEq E.ScopedIp := E.decEqScopedIp

end ZondDaemon
