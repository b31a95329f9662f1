import ZondDaemon.Convert

/-!
# Reading a wire request as the engine's own

`request` of `start.rs` and what it is made of. The first field that cannot be carried across is the
error: the ceiling for detections first, then the protocol numbers, the evasion profile, the settings and
the addresses to send from. A field of the engine's is as wide as the greatest number it holds.
-/

namespace ZondDaemon.Start

variable {E : Engine} {X Y : Type}

/-- The schema's name for a field, where the field was set to one it has. -/
def named (X : Type) [Proto.Enumeration X] (raw : Option Int) : Option X := raw.bind Proto.tryFrom

/-- `.map(…).transpose()?` over an optional field. -/
def optional (read : X → Except Error Y) : Option X → Except Error (Option Y)
  | none => .ok none
  | some value => (read value).map some

/-- A number the schema carries wide and the engine wants narrow. -/
def narrow (most : Nat) (value : Option Nat) (what : String) : Except Error (Option Nat) :=
  optional (fun value => if value ≤ most then .ok value
    else .error ⟨"request.out_of_range", s!"{value} is out of range for a {what}"⟩) value

/-- A rate, which is meaningless at zero. -/
def positive (value : Option Nat) (what : String) : Except Error (Option ℕ+) :=
  optional (fun value => if h : 0 < value then .ok ⟨value, h⟩
    else .error ⟨"request.out_of_range", s!"a {what} of none"⟩) value

/-- How many times a target is asked, at most what one byte holds. -/
def attempts (value : Option Nat) : Except Error (Option ℕ+) := do
  match ← narrow 255 value "attempt count" with
  | none => .ok none
  | some value =>
    if h : 0 < value then .ok (some ⟨value, h⟩)
    else .error ⟨"request.out_of_range", "an attempt count of none"⟩

/-- What a probe should look like on the wire. -/
def evasion (wire : Proto.Evasion) : Except Error (EvasionProfile E.toEngineTypes) := do
  let decoys ← wire.decoys.mapM fun decoy => match E.parseIpAddr decoy with
    | some address => .ok address
    | none => .error ⟨"request.bad_decoy", s!"{decoy} is not an address to send from"⟩
  let spoofMac ← optional (fun mac => match E.parseMacAddr mac with
    | some address => .ok address
    | none => .error ⟨"request.bad_spoof_mac", s!"{mac} is not a hardware address"⟩) wire.spoofMac
  let sourcePort ← narrow 65535 wire.sourcePort "source port"
  let ttl ← narrow 255 wire.ttl "TTL"
  let fragment ← narrow E.fragmentMax wire.fragmentMtu "fragment size"
  let padding ← narrow E.paddingMax wire.padding "padding"
  let flags ← narrow 255 wire.flags "TCP flag byte"
  return {
    sourcePort := sourcePort
    ttl := ttl
    fragment := fragment
    padding := padding
    flags := flags
    badTcpChecksum := wire.badTcpChecksum.getD false
    decoys := decoys
    spoofMac := spoofMac }

/-- The knobs a request may set for its own run. -/
def settings (wire : Proto.Settings E.F64) : Except Error (Settings E.toEngineTypes) := do
  let maxProbeRate ← positive wire.maxProbeRate "maximum probe rate"
  let minProbeRate ← positive wire.minProbeRate "minimum probe rate"
  let maxAttempts ← attempts wire.maxAttempts
  let timeoutScale ← optional (fun scale => match E.timeoutScale scale with
    | some scale => .ok scale
    | none => .error ⟨"request.out_of_range",
        s!"{E.showF64 scale} is not a timeout scale; it has to be greater than zero"⟩) wire.timeoutScale
  return {
    effort := (named Proto.ScanEffort wire.effort).bind Convert.scanEffortOf
    tcpTechnique := (named Proto.TcpScanTechnique wire.tcpTechnique).bind Convert.tcpTechniqueOf
    sctpTechnique := (named Proto.SctpScanTechnique wire.sctpTechnique).bind Convert.sctpTechniqueOf
    sendMode := (named Proto.SendMode wire.sendMode).bind Convert.sendModeOf
    hostTimeout := wire.hostTimeout.map (1000 * ·)
    scanTimeout := wire.scanTimeout.map (1000 * ·)
    hostProbeInterval := wire.hostProbeIntervalMs
    maxProbeRate := maxProbeRate
    minProbeRate := minProbeRate
    maxAttempts := maxAttempts
    noDns := wire.noDns
    redact := wire.redact
    tlsEnumeration := wire.tlsEnumeration
    dampenSilentHosts := wire.dampenSilentHosts
    defaultPorts := wire.defaultPorts
    timeoutScale := timeoutScale }

/-- The ceiling a request sets on its detections. -/
def detection (raw : Option Int) : Except Error (Option E.DetectionEnvelope) :=
  match named Proto.DetectionClass raw with
  | none => .ok none
  | some named =>
    if Convert.isACeiling named then .ok ((Convert.detectionClassOf named).map E.upTo)
    else .error ⟨"request.not_a_ceiling", s!"{named.asStrName} says what a detection does, not the " ++
      "most one may do; anything at all already permits it"⟩

/-- A list of the request, absent where it is empty. -/
def unlessEmpty (read : X → Except Error Y) (values : List X) : Except Error (Option (List Y)) :=
  if values.isEmpty then .ok none else (values.mapM read).map some

/-- Reads a wire request as the engine's own, field for field. -/
def request (wire : Proto.StartRequest E.F64) : Except Error (ScanRequest E.toEngineTypes) := do
  let ceiling ← detection wire.detection
  let ipProtocols ← unlessEmpty (fun number => if number ≤ 255 then .ok number
    else .error ⟨"request.bad_ip_protocol", s!"{number} is not an IP protocol number"⟩) wire.ipProtocols
  let profile ← optional evasion wire.evasion
  let knobs ← match wire.settings with
    | some named => settings named
    | none => .ok {}
  let sendSource ← unlessEmpty (fun address => match E.parseIpAddr address with
    | some source => .ok source
    | none => .error ⟨"request.bad_send_source", s!"{address} is not an address to send from"⟩)
    wire.sendSource
  return {
    targets := wire.targets
    exclude := wire.exclude
    ports := wire.ports
    traceroute := wire.traceroute
    characterise := wire.characterise
    icmpEvidence := wire.icmpEvidence
    assumeUp := wire.assumeUp
    serviceDetection := (named Proto.ServiceDetection wire.serviceDetection).bind
      Convert.serviceDetectionOf
    osDetection := (named Proto.OsDetection wire.osDetection).bind Convert.osDetectionOf
    detection := ceiling
    ipProtocols := ipProtocols
    evasion := profile
    settings := knobs
    sendSource := sendSource }

end ZondDaemon.Start
