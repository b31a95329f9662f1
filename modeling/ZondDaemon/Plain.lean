import ZondDaemon.Base.Spans
import ZondDaemon.Engine

/-!
# The plain engine

An engine small enough to evaluate, for the places where a property of the daemon is tried on a run: a
host is its address and its document, an address set is spans of each family, a plan holds what it was
made of less what is ruled out, and a grammar reads one IPv4 address written as a decimal number.
-/

namespace ZondDaemon.Plain

/-- A set of addresses of both families. -/
structure IpSet where
  v4 : Spans
  v6 : Spans

inductive Plan
  | portScan (targets : List IpSet)
  | discovery (addresses : IpSet)
  | listen (links : List String)

structure Journal where
  id : String
  technique : Engine.TcpScanTechnique

abbrev types : EngineTypes where
  ScopedIp := Nat
  Host := Nat × String
  ScanReport := List (Nat × String)
  IpSet := IpSet
  IpAddr := Nat
  MacAddr := Nat
  TargetMap := List IpSet
  DiscoveryTargets := IpSet
  PortSet := List Nat
  Exclusions := List String
  SegmentSweep := Bool
  Resolver := Unit
  Zone := String
  Plan := Plan
  Journal := Journal
  Holder := Unit
  DetectionEnvelope := Engine.DetectionClass
  F64 := Int
  TimeoutScale := ℕ+
  ConfigRest := Unit

def ranges (m : Spans) : List IpRange := m.list.map fun span => ⟨span.1, span.2⟩

/-- The addresses of both families counted. -/
def IpSet.len (s : IpSet) : Nat := s.v4.count + s.v6.count

/-- A number in decimal. -/
def decimal (text : String) : Option Nat :=
  if text.toList = [] then none
  else text.toList.foldlM (fun n c => if c.isDigit then some (10 * n + (c.toNat - 48)) else none) 0

/-- The set less the addresses that are ruled out. -/
def IpSet.without (s : IpSet) (exclusions : List String) : IpSet :=
  exclusions.foldl (fun s text => match decimal text with
    | some address => { s with v4 := s.v4.subtract (Spans.empty.insert address address) }
    | none => s) s

abbrev engine : Engine where
  toEngineTypes := types
  decEqScopedIp := inferInstanceAs (DecidableEq Nat)
  scopedIp := Prod.fst
  document _ host := some host.2
  reportHosts report := report
  exportReport _ _ report := .ok (String.join (report.map Prod.snd)).toUTF8
  exportDiff _ baseline current :=
    .ok (String.join ((current.filter fun host => host ∉ baseline).map Prod.snd)).toUTF8
  merge reports := (reports.map Prod.snd).flatten
  rfc3339 at' := toString at'
  newSet := ⟨.empty, .empty⟩
  v4 s := ranges s.v4
  v6 s := ranges s.v6
  pushV4Range s range := { s with v4 := s.v4.insert range.startAddr range.endAddr }
  pushV6Range s range := { s with v6 := s.v6.insert range.startAddr range.endAddr }
  canonicalize s := s
  subtract s t := ⟨s.v4.subtract t.v4, s.v6.subtract t.v6⟩
  len := IpSet.len
  isEmpty s := s.v4.list.isEmpty && s.v6.list.isEmpty
  parseIpSet text := match decimal text with
    | some address => .ok ⟨Spans.empty.insert address address, .empty⟩
    | none => .error "not an address"
  units map := map
  grossTargets map := some (map.map IpSet.len).sum
  applyTargets _ config := config
  intoIps targets := targets
  topTcp count := List.range count
  requestPorts request := request.ports.map fun text => match decimal text with
    | some port => .ok [port]
    | none => .error ⟨"ports.malformed", text⟩
  applyTo request config := { config with
    noDns := request.settings.noDns.getD config.noDns
    redact := request.settings.redact.getD config.redact
    tcpTechnique := request.settings.tcpTechnique.getD config.tcpTechnique }
  defaultConfig := ⟨false, false, .syn, false, [], ()⟩
  upTo ceiling := ceiling
  parseIpAddr := decimal
  parseMacAddr := decimal
  fragmentMax := 65535
  paddingMax := 65535
  timeoutScale scale := if h : 0 < scale.toNat then some ⟨scale.toNat, h⟩ else none
  showF64 scale := toString scale
  planPortScan map exclusions _ := .portScan (map.map (·.without exclusions))
  planDiscovery addresses exclusions _ := .discovery (addresses.without exclusions)
  planListen := .listen
  planKind
    | .portScan _ => .portScan
    | .discovery _ => .discovery
    | .listen _ => .listen
  planTargets
    | .portScan targets => some targets
    | _ => none
  planAddresses
    | .discovery addresses => some addresses
    | _ => none
  planLinks
    | .listen links => some links
    | _ => none
  manifestId := Journal.id
  manifestTechnique := Journal.technique

end ZondDaemon.Plain
