import ZondDaemon.Base.Reader
import ZondDaemon.Proto

/-!
# The requests as JSON

What the serde derives make of the request messages: the fields of each in the order the schema declares
them, an enum's value under the name the schema gives it (`codec.rs`), and whatever is left out as the
schema's default, every one of these messages being in `DEFAULTED` of `build.rs`.
-/

namespace ZondDaemon.Proto

/-! ## Names of enum values -/

class Named (X : Type) extends Enumeration X where
  asStrName : X → String

/-- `X::from_str_name(name)`. -/
def fromStrName (X : Type) [Named X] (name : String) : Option X :=
  Enumeration.all.find? fun x => Named.asStrName x = name

instance : Named ScanKind where
  asStrName
    | .unspecified => "SCAN_KIND_UNSPECIFIED"
    | .discovery => "SCAN_KIND_DISCOVERY"
    | .portScan => "SCAN_KIND_PORT_SCAN"
    | .listen => "SCAN_KIND_LISTEN"

instance : Named ServiceDetection where
  asStrName
    | .unspecified => "SERVICE_DETECTION_UNSPECIFIED"
    | .off => "SERVICE_DETECTION_OFF"
    | .banner => "SERVICE_DETECTION_BANNER"
    | .probe => "SERVICE_DETECTION_PROBE"
    | .thorough => "SERVICE_DETECTION_THOROUGH"

instance : Named OsDetection where
  asStrName
    | .unspecified => "OS_DETECTION_UNSPECIFIED"
    | .off => "OS_DETECTION_OFF"
    | .passive => "OS_DETECTION_PASSIVE"
    | .active => "OS_DETECTION_ACTIVE"
    | .aggressive => "OS_DETECTION_AGGRESSIVE"

instance : Named DetectionClass where
  asStrName := DetectionClass.asStrName

instance : Named ScanEffort where
  asStrName
    | .unspecified => "SCAN_EFFORT_UNSPECIFIED"
    | .single => "SCAN_EFFORT_SINGLE"
    | .fast => "SCAN_EFFORT_FAST"
    | .balanced => "SCAN_EFFORT_BALANCED"
    | .thorough => "SCAN_EFFORT_THOROUGH"

instance : Named TcpScanTechnique where
  asStrName
    | .unspecified => "TCP_SCAN_TECHNIQUE_UNSPECIFIED"
    | .syn => "TCP_SCAN_TECHNIQUE_SYN"
    | .ack => "TCP_SCAN_TECHNIQUE_ACK"
    | .fin => "TCP_SCAN_TECHNIQUE_FIN"
    | .null => "TCP_SCAN_TECHNIQUE_NULL"
    | .xmas => "TCP_SCAN_TECHNIQUE_XMAS"
    | .maimon => "TCP_SCAN_TECHNIQUE_MAIMON"
    | .window => "TCP_SCAN_TECHNIQUE_WINDOW"

instance : Named SctpScanTechnique where
  asStrName
    | .unspecified => "SCTP_SCAN_TECHNIQUE_UNSPECIFIED"
    | .init => "SCTP_SCAN_TECHNIQUE_INIT"
    | .cookieEcho => "SCTP_SCAN_TECHNIQUE_COOKIE_ECHO"

instance : Named SendMode where
  asStrName
    | .unspecified => "SEND_MODE_UNSPECIFIED"
    | .auto => "SEND_MODE_AUTO"
    | .ethernet => "SEND_MODE_ETHERNET"
    | .rawSocket => "SEND_MODE_RAW_SOCKET"

instance : Named ExportFormat where
  asStrName
    | .unspecified => "EXPORT_FORMAT_UNSPECIFIED"
    | .json => "EXPORT_FORMAT_JSON"
    | .jsonl => "EXPORT_FORMAT_JSONL"
    | .csv => "EXPORT_FORMAT_CSV"
    | .html => "EXPORT_FORMAT_HTML"
    | .nmapXml => "EXPORT_FORMAT_NMAP_XML"

instance : Named DiffFormat where
  asStrName
    | .unspecified => "DIFF_FORMAT_UNSPECIFIED"
    | .json => "DIFF_FORMAT_JSON"
    | .html => "DIFF_FORMAT_HTML"

/-! ## The values of fields -/

/-- The greatest number of 32 bits, and of 64. -/
def u32Max : Nat := 2 ^ 32 - 1
def u64Max : Nat := 2 ^ 64 - 1

def u32 : Reader Nat := .whole u32Max
def u64 : Reader Nat := .whole u64Max

/-- `deserialize` of the codec module of an enum. -/
def named (X : Type) [Named X] : Reader Int := .named fun name => (fromStrName X name).map number

open Reader (text flag list optional)

/-! ## The messages -/

namespace Evasion

def fields : List (Reader.Field Evasion) := [
  ⟨"source_port", optional u32, fun value held => { held with sourcePort := value }⟩,
  ⟨"ttl", optional u32, fun value held => { held with ttl := value }⟩,
  ⟨"fragment_mtu", optional u32, fun value held => { held with fragmentMtu := value }⟩,
  ⟨"padding", optional u32, fun value held => { held with padding := value }⟩,
  ⟨"decoys", list text, fun value held => { held with decoys := value }⟩,
  ⟨"flags", optional u32, fun value held => { held with flags := value }⟩,
  ⟨"spoof_mac", optional text, fun value held => { held with spoofMac := value }⟩,
  ⟨"bad_tcp_checksum", optional flag, fun value held => { held with badTcpChecksum := value }⟩]

def reader : Reader Evasion := .message fields {}

end Evasion

namespace Settings

variable {F64 : Type} (double : Number → F64)

def fields : List (Reader.Field (Settings F64)) := [
  ⟨"effort", optional (named ScanEffort), fun value held => { held with effort := value }⟩,
  ⟨"host_timeout", optional u32, fun value held => { held with hostTimeout := value }⟩,
  ⟨"scan_timeout", optional u32, fun value held => { held with scanTimeout := value }⟩,
  ⟨"max_probe_rate", optional u32, fun value held => { held with maxProbeRate := value }⟩,
  ⟨"min_probe_rate", optional u32, fun value held => { held with minProbeRate := value }⟩,
  ⟨"max_attempts", optional u32, fun value held => { held with maxAttempts := value }⟩,
  ⟨"no_dns", optional flag, fun value held => { held with noDns := value }⟩,
  ⟨"redact", optional flag, fun value held => { held with redact := value }⟩,
  ⟨"tls_enumeration", optional flag, fun value held => { held with tlsEnumeration := value }⟩,
  ⟨"host_probe_interval_ms", optional u32, fun value held => { held with hostProbeIntervalMs := value }⟩,
  ⟨"dampen_silent_hosts", optional flag, fun value held => { held with dampenSilentHosts := value }⟩,
  ⟨"default_ports", optional text, fun value held => { held with defaultPorts := value }⟩,
  ⟨"tcp_technique", optional (named TcpScanTechnique), fun value held => { held with tcpTechnique := value }⟩,
  ⟨"sctp_technique", optional (named SctpScanTechnique),
    fun value held => { held with sctpTechnique := value }⟩,
  ⟨"send_mode", optional (named SendMode), fun value held => { held with sendMode := value }⟩,
  ⟨"timeout_scale", optional (.number double), fun value held => { held with timeoutScale := value }⟩]

def reader : Reader (Settings F64) := .message (fields double) {}

end Settings

namespace StartRequest

variable {F64 : Type} (double : Number → F64)

def fields : List (Reader.Field (StartRequest F64)) := [
  ⟨"targets", list text, fun value held => { held with targets := value }⟩,
  ⟨"exclude", list text, fun value held => { held with exclude := value }⟩,
  ⟨"ports", optional text, fun value held => { held with ports := value }⟩,
  ⟨"service_detection", optional (named ServiceDetection),
    fun value held => { held with serviceDetection := value }⟩,
  ⟨"os_detection", optional (named OsDetection), fun value held => { held with osDetection := value }⟩,
  ⟨"detection", optional (named DetectionClass), fun value held => { held with detection := value }⟩,
  ⟨"traceroute", optional flag, fun value held => { held with traceroute := value }⟩,
  ⟨"characterise", optional flag, fun value held => { held with characterise := value }⟩,
  ⟨"icmp_evidence", optional flag, fun value held => { held with icmpEvidence := value }⟩,
  ⟨"assume_up", optional flag, fun value held => { held with assumeUp := value }⟩,
  ⟨"ip_protocols", list u32, fun value held => { held with ipProtocols := value }⟩,
  ⟨"send_source", list text, fun value held => { held with sendSource := value }⟩,
  ⟨"evasion", optional Evasion.reader, fun value held => { held with evasion := value }⟩,
  ⟨"kind", named ScanKind, fun value held => { held with kind := value }⟩,
  ⟨"links", list text, fun value held => { held with links := value }⟩,
  ⟨"listen_for_seconds", optional u32, fun value held => { held with listenForSeconds := value }⟩,
  ⟨"settings", optional (Settings.reader double), fun value held => { held with settings := value }⟩]

def reader : Reader (StartRequest F64) := .message (fields double) {}

end StartRequest

structure WatchRequest where
  scanId : String := ""
  fromSeq : Nat := 0

def WatchRequest.reader : Reader WatchRequest := .message [
  ⟨"scan_id", text, fun value held => { held with scanId := value }⟩,
  ⟨"from_seq", u64, fun value held => { held with fromSeq := value }⟩] {}

structure GetRequest where
  scanId : String := ""

def GetRequest.reader : Reader GetRequest := .message [
  ⟨"scan_id", text, fun value held => { held with scanId := value }⟩] {}

structure ResumeRequest where
  scanId : String := ""

def ResumeRequest.reader : Reader ResumeRequest := .message [
  ⟨"scan_id", text, fun value held => { held with scanId := value }⟩] {}

def ExportRequest.reader : Reader ExportRequest := .message [
  ⟨"scan_id", text, fun value held => { held with scanId := value }⟩,
  ⟨"format", named ExportFormat, fun value held => { held with format := value }⟩,
  ⟨"redact", optional flag, fun value held => { held with redact := value }⟩] ⟨"", 0, none⟩

structure ListRequest where
  limit : Option Nat := none

def ListRequest.reader : Reader ListRequest := .message [
  ⟨"limit", optional u32, fun value held => { held with limit := value }⟩] {}

structure PruneRequest where
  completedAfterSeconds : Option Nat := none
  incompleteAfterSeconds : Option Nat := none

def PruneRequest.reader : Reader PruneRequest := .message [
  ⟨"completed_after_seconds", optional u32, fun value held => { held with completedAfterSeconds := value }⟩,
  ⟨"incomplete_after_seconds", optional u32,
    fun value held => { held with incompleteAfterSeconds := value }⟩] {}

def DiffRequest.reader : Reader DiffRequest := .message [
  ⟨"baseline_id", text, fun value held => { held with baselineId := value }⟩,
  ⟨"current_id", text, fun value held => { held with currentId := value }⟩,
  ⟨"format", named DiffFormat, fun value held => { held with format := value }⟩] ⟨"", "", 0⟩

def MergeRequest.reader : Reader MergeRequest := .message [
  ⟨"scan_ids", list text, fun value held => { held with scanIds := value }⟩,
  ⟨"format", named ExportFormat, fun value held => { held with format := value }⟩,
  ⟨"redact", optional flag, fun value held => { held with redact := value }⟩] ⟨[], 0, none⟩

end ZondDaemon.Proto
