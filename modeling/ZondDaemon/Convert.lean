import ZondDaemon.Proto

/-!
# Between the engine's vocabulary and the schema's

One function per thing both sides name. An engine value the schema has no name for becomes the
unspecified one; an unset value of the schema (`…Of`) leaves the engine's own default standing.
-/

namespace ZondDaemon.Convert

def stage : Engine.Stage → Proto.Stage
  | .discovery => .discovery
  | .ports => .ports
  | .services => .services
  | .detections => .detections
  | .tls => .tls
  | .os => .os
  | .traceroute => .traceroute
  | .listening => .listening
  | .finishing => .finishing
  | .other _ => .unspecified

/-- The engine names no cause for a scan that ran out of work; the schema says `completed` out loud. -/
def stopCause : Option Engine.StopCause → Proto.StopCause
  | none => .completed
  | some .aborted => .aborted
  | some .timedOut => .timedOut
  | some (.other _) => .unspecified

def serviceDetectionOf : Proto.ServiceDetection → Option Engine.ServiceDetection
  | .unspecified => none
  | .off => some .off
  | .banner => some .banner
  | .probe => some .probe
  | .thorough => some .thorough

def osDetectionOf : Proto.OsDetection → Option Engine.OsDetection
  | .unspecified => none
  | .off => some .off
  | .passive => some .passive
  | .active => some .active
  | .aggressive => some .aggressive

/-- As a ceiling: `derived` is not one, which `isACeiling` tells apart from a field left unset. -/
def detectionClassOf : Proto.DetectionClass → Option Engine.DetectionClass
  | .unspecified => none
  | .derived => none
  | .passive => some .passive
  | .activeBenign => some .activeBenign
  | .activeMutating => some .activeMutating
  | .exploit => some .exploit
  | .dos => some .dos

def isACeiling (named : Proto.DetectionClass) : Bool := named != .derived

def scanEffortOf : Proto.ScanEffort → Option Engine.ScanEffort
  | .unspecified => none
  | .single => some .single
  | .fast => some .fast
  | .balanced => some .balanced
  | .thorough => some .thorough

def tcpTechniqueOf : Proto.TcpScanTechnique → Option Engine.TcpScanTechnique
  | .unspecified => none
  | .syn => some .syn
  | .ack => some .ack
  | .fin => some .fin
  | .null => some .null
  | .xmas => some .xmas
  | .maimon => some .maimon
  | .window => some .window

def sctpTechniqueOf : Proto.SctpScanTechnique → Option Engine.SctpScanTechnique
  | .unspecified => none
  | .init => some .init
  | .cookieEcho => some .cookieEcho

def sendModeOf : Proto.SendMode → Option Engine.SendMode
  | .unspecified => none
  | .auto => some .auto
  | .ethernet => some .ethernet
  | .rawSocket => some .rawSocket

def scanKind : Engine.ScanKind → Proto.ScanKind
  | .discovery => .discovery
  | .portScan => .portScan
  | .listen => .listen
  | .other _ => .unspecified

def scanKindOf : Proto.ScanKind → Option Engine.ScanKind
  | .unspecified => none
  | .discovery => some .discovery
  | .portScan => some .portScan
  | .listen => some .listen

def scanHold {κ : Type} : Engine.LockState κ → Proto.ScanHold
  | .free => .free
  | .held _ => .held
  | .crashed _ => .crashed
  | .other _ => .unspecified

end ZondDaemon.Convert
