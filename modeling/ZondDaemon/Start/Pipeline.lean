import ZondDaemon.Scans.Sitting
import ZondDaemon.Start.Policy
import ZondDaemon.Start.Request

/-!
# From a request on the wire to a scan on the network

The pipelines of `start.rs`: `ports`, `sweep` and `watch` behind `scan`, and the arms of `resume`. Each is
a program over what it asks of the world, in the order the source asks it, and hands back a sitting whose
follower is not yet going.
-/

namespace ZondDaemon

open Engine (ScanKind)

namespace Start

variable {E : Engine}

/-- How many ports a request that named none asks about. -/
def DEFAULT_TOP_PORTS : Nat := 1000

/-- What the audit calls a kind of scan. -/
def auditedAs : ScanKind → String
  | .discovery => "discovery"
  | .listen => "listen"
  | _ => "port_scan"

/-- The pieces every kind hands back the same way. -/
def started (id : String) (session : Session) (config : ZondConfig E.toEngineTypes) : Sitting E :=
  .fresh id session.progress (if config.redact then .standard else .none)

/-- The name the journal gave the scan, or one of this process's own. -/
def namedBy : Option E.Journal → Asking E String
  | some journal => .ret (E.manifestId journal)
  | none => call .mint

/-- This host's own resolver, unless the run must generate no DNS traffic. -/
def resolver (config : ZondConfig E.toEngineTypes) : Asking E (Option E.Resolver) :=
  if config.noDns then .ret none else some <$> call .resolverFromSystem

/-- The addresses a scan may not record a finding against. -/
def exclusions (excluded : List String) (resolver : Option E.Resolver) : Asking E E.Exclusions := do
  orEngine (← call (.forExclusion excluded resolver))

/-- A scan with nothing to scan. -/
def nothingToScan : Error := ⟨"request.no_targets", "a scan has to be given something to scan"⟩

/-- What a person listing their scans sees beside the name. -/
def probes (map : E.TargetMap) : String :=
  match E.grossTargets map with
  | some 1 => "1 probe"
  | some probes => s!"{probes} probes"
  | none => "a plan too large to count"

/-- The same, for a sweep, which is counted in addresses. -/
def addressesIn (addresses : E.IpSet) : String :=
  match E.len addresses with
  | 1 => "1 address"
  | count => s!"{count} addresses"

/-- And for a listen, which is counted in neither. -/
def watching (links : List String) : String := "listening on " ++ ", ".intercalate links

/-- A record whose plan does not hold what continuing it would need. -/
def holdsNo (id wanted : String) : Error :=
  ⟨"scan.wrong_phase", s!"the record of {id} holds no {wanted} to continue from"⟩

/-- Opens a journal for this scan, or none where the machine will not have one. -/
def record (plan : E.Plan) (summary : String) : Asking E (Option E.Journal) := do
  match ← call .prepareRoot with
  | .error _ => .ret none
  | .ok () =>
    match ← call (.createJournal plan summary) with
    | .ok journal => .ret (some journal)
    | .error _ => .ret none

/-- `under.root.and_then(…)`: a journal where scans are recorded. -/
def recordUnder (under : Policy E) (plan : E.Plan) (summary : String) : Asking E (Option E.Journal) :=
  if under.root then record plan summary else .ret none

/-- The configuration a request asks for. -/
def configure (asked : ScanRequest E.toEngineTypes) : ZondConfig E.toEngineTypes :=
  E.applyTo asked E.defaultConfig

/-- Resolves the targets of a port scan. -/
def toTargetMap (targets : List String) (ports : E.PortSet) (resolver : Option E.Resolver) :
    Asking E E.TargetMap := do
  match resolver with
  | some resolver => orEngine (← call (.resolveTargets targets ports resolver))
  | none => orEngine (← call (.parseTargets targets ports))

/-- The ports a request asks about. -/
def portsOf (asked : ScanRequest E.toEngineTypes) : Asking E E.PortSet :=
  match E.requestPorts asked with
  | some ports => orEngine ports
  | none => .ret (E.topTcp DEFAULT_TOP_PORTS)

/-- The engine's call for a port scan. -/
def scanWith (map : E.TargetMap) (config : ZondConfig E.toEngineTypes) :
    Option E.Journal → Asking E Session
  | some journal => do orEngine (← call (.scanWithJournal map config journal))
  | none => do orEngine (← call (.scan map config))

/-- The engine's call for a sweep. -/
def discoverWith (addresses : E.IpSet) (config : ZondConfig E.toEngineTypes) :
    Option E.Journal → Asking E Session
  | some journal => do orEngine (← call (.discoverWithJournal addresses config journal))
  | none => do orEngine (← call (.discover addresses config))

/-- The engine's call for a listen. -/
def listenWith (scope : ListenScope E.toEngineTypes) (config : ZondConfig E.toEngineTypes) :
    Option E.Journal → Asking E Session
  | some journal => do orEngine (← call (.listenWithJournal scope config journal))
  | none => do orEngine (← call (.listen scope config))

/-- Which of a host's ports are open, and what is behind them. -/
def ports (wire : Proto.StartRequest E.F64) (under : Policy E) : Asking E (Sitting E) := do
  let asked ← .ofExcept (request wire)
  let config := configure asked
  if asked.targets.isEmpty then .fail nothingToScan
  else
    let ports ← portsOf asked
    let resolver ← resolver config
    let map ← toTargetMap asked.targets ports resolver
    let config := { config with exclusions := ← exclusions asked.exclude resolver }
    under.permit (E.reachedBy map) "port_scan" asked.targets
    let journal ← recordUnder under (E.planPortScan map config.exclusions config.tcpTechnique) (probes map)
    let id ← namedBy journal
    under.record id "port_scan" asked.targets
    let session ← scanWith map config journal
    return started id session config

/-- Which addresses are alive. -/
def sweep (wire : Proto.StartRequest E.F64) (under : Policy E) : Asking E (Sitting E) := do
  let asked ← .ofExcept (request wire)
  let config := configure asked
  if asked.targets.isEmpty then .fail nothingToScan
  else
    let resolver ← resolver config
    let targets ← orEngine (← call (.forDiscovery asked.targets resolver))
    -- before the exclusions, because a sweep's own targets decide whether it sweeps a segment
    let config := E.applyTargets targets config
    let config := { config with exclusions := ← exclusions asked.exclude resolver }
    let addresses := E.intoIps targets
    under.permit addresses "discovery" asked.targets
    let journal ← recordUnder under (E.planDiscovery addresses config.exclusions config.segmentSweep)
      (addressesIn addresses)
    let id ← namedBy journal
    under.record id "discovery" asked.targets
    let session ← discoverWith addresses config journal
    return started id session config

/-- What a link carries, having sent nothing. -/
def watch (wire : Proto.StartRequest E.F64) (under : Policy E) : Asking E (Sitting E) := do
  let links := wire.links
  let asked ← .ofExcept (request wire)
  let config := configure asked
  if links.isEmpty then
    .fail ⟨"request.no_links", "a listen has to be given a link to listen on"⟩
  else
    match ← call (.forListening links) with
    | .error refused => .fail ⟨"request.unknown_link", refused⟩
    | .ok zones =>
      let scope := ⟨zones, wire.listenForSeconds.map (1000 * ·)⟩
      -- no scope check: a listener puts nothing on the wire
      let journal ← recordUnder under (E.planListen zones) (watching links)
      let id ← namedBy journal
      under.record id "listen" links
      let session ← listenWith scope config journal
      return started id session config

/-- The kind of scan a request asks for; one this build has no name for is a port scan. -/
def kindOf (wire : Proto.StartRequest E.F64) : ScanKind :=
  ((Proto.tryFrom wire.kind).bind Convert.scanKindOf).getD .portScan

/-- Starts the scan a request describes, of whichever kind it asks for. -/
def scan (wire : Proto.StartRequest E.F64) (under : Policy E) : Asking E (Sitting E) := do
  let kind := kindOf wire
  let askedAbout := match kind with
    | .listen => wire.links
    | _ => wire.targets
  under.room (auditedAs kind) askedAbout
  match kind with
  | .discovery => sweep wire under
  | .listen => watch wire under
  | _ => ports wire under

/-- Continues a scan that stopped part way, from its record. -/
def resume (id : String) (under : Policy E) : Asking E (Sitting E) := do
  let entries ← orEngine (← call .listStore)
  match entries.find? fun entry => entry.id = id with
  | none => .fail (.noSuchScan id)
  | some entry =>
    let (journal, plan) ← orEngine (← call (.reopen entry.directory))
    -- the technique the first sitting used, not this build's default
    let config := { E.defaultConfig with tcpTechnique := E.manifestTechnique journal }
    let id := E.manifestId journal
    under.room (auditedAs (E.planKind plan)) [id]
    match E.planKind plan with
    | .portScan =>
      match E.planTargets plan with
      | none => .fail (holdsNo id "targets")
      | some map =>
        -- judged again rather than trusted because it was allowed once
        under.permit (E.reachedBy map) "port_scan" [id]
        under.record id "port_scan" [id]
        let session ← scanWith map config (some journal)
        return started id session config
    | .discovery =>
      match E.planAddresses plan with
      | none => .fail (holdsNo id "addresses")
      | some addresses =>
        under.permit addresses "discovery" [id]
        under.record id "discovery" [id]
        let session ← discoverWith addresses config (some journal)
        return started id session config
    | .listen =>
      match E.planLinks plan with
      | none => .fail (holdsNo id "links")
      | some zones =>
        under.record id "listen" [id]
        let session ← listenWith ⟨zones, none⟩ config (some journal)
        return started id session config
    | .other name => .fail ⟨"scan.wrong_phase",
        s!"{id} is a {name} and this build cannot continue one"⟩

end Start

/-- A call that may end in a running scan. -/
inductive Request (E : Engine)
  | start (wire : Proto.StartRequest E.F64)
  | resume (id : String)

/-- What such a call does once it has reserved, and found a slot or none. -/
def Request.pipeline {E : Engine} (rules : Rules E) (slot : Option Slot) :
    Request E → Asking E (Sitting E)
  | .start wire => Start.scan wire (rules.policy slot.isSome)
  | .resume id => Start.resume id (rules.policy slot.isSome)

namespace Plain

/-- Targets read by the grammar, those that are no address left out. -/
def resolve (targets : List String) : List IpSet :=
  targets.filterMap fun text => (decimal text).map fun address =>
    ⟨Spans.empty.insert address address, .empty⟩

/-- A world in which everything the plain engine is asked goes well. -/
def world : (q : Query engine) → q.Answer
  | .now => 0
  | .auditWrite _ => .ok ()
  | .resolverFromSystem => ()
  | .resolveTargets targets _ _ => .ok (resolve targets)
  | .parseTargets targets _ => .ok (resolve targets)
  | .forDiscovery _ _ => .ok ⟨.empty, .empty⟩
  | .forExclusion excluded _ => .ok excluded
  | .forListening links => .ok links
  | .mint => "A"
  | .prepareRoot => .ok ()
  | .createJournal _ _ => .ok ⟨"A", .syn⟩
  | .listStore => .ok []
  | .reopen directory => .ok (⟨directory, .syn⟩, .portScan [])
  | .scan .. => .ok ⟨.discovery, none, none⟩
  | .scanWithJournal .. => .ok ⟨.discovery, none, none⟩
  | .discover .. => .ok ⟨.discovery, none, none⟩
  | .discoverWithJournal .. => .ok ⟨.discovery, none, none⟩
  | .listen .. => .ok ⟨.discovery, none, none⟩
  | .listenWithJournal .. => .ok ⟨.discovery, none, none⟩

end Plain

end ZondDaemon
