import ZondDaemon.Start.Prepare

/-!
# Two sittings of one scan

What a start sets the engine going on, and what a resume of its record does. A `Job` is what the engine is
given and what the findings are handed out under. A start makes its job out of the request and records the
plan of it (`sits_scan`); a resume makes its own out of the plan, the technique and the default
configuration (`continues_resume`), so the two are one job where the first asked for nothing else.
-/

namespace ZondDaemon

open Program (Step Holds)

variable {E : Engine}

/-- The masking a scan run under the configuration is handed out under. -/
def handedOutUnder (config : ZondConfig E.toEngineTypes) : Redaction :=
  if config.redact then .standard else .none

/-- What the engine is set going on, and what comes back is handed out under. -/
structure Job (E : Engine) where
  work : E.TargetMap ⊕ E.IpSet
  exclusions : E.Exclusions
  technique : Engine.TcpScanTechnique
  segmentSweep : E.SegmentSweep
  redaction : Redaction

namespace Job

def of (work : E.TargetMap ⊕ E.IpSet) (config : ZondConfig E.toEngineTypes) : Job E where
  work := work
  exclusions := config.exclusions
  technique := config.tcpTechnique
  segmentSweep := config.segmentSweep
  redaction := handedOutUnder config

/-- The plan recorded of the job. -/
def plan (job : Job E) : E.Plan :=
  match job.work with
  | .inl map => E.planPortScan map job.exclusions job.technique
  | .inr addresses => E.planDiscovery addresses job.exclusions job.segmentSweep

end Job

namespace Query

/-- The job of a call that sets the engine going on a port scan or a sweep. -/
def job : Query E → Option (Job E)
  | .scan map config => some (.of (.inl map) config)
  | .scanWithJournal map config _ => some (.of (.inl map) config)
  | .discover addresses config => some (.of (.inr addresses) config)
  | .discoverWithJournal addresses config _ => some (.of (.inr addresses) config)
  | _ => none

theorem job_of_begins {q : Query E} (h : q.begins = false) : q.job = none := by
  cases q <;> first | rfl | cases h

theorem begins_of_opens {q : Query E} (h : q.opens = false) : q.begins = false := by
  cases q <;> first | exact h | rfl

end Query

/-- What a plan gives back of what it was made of: its kind, and all of its targets where nothing more is ruled
out than by default. What a plan keeps of targets that are ruled out is the engine's own affair. -/
structure PlanLaws (E : Engine) : Prop where
  portScan_kind (map : E.TargetMap) (exclusions : E.Exclusions) (technique : Engine.TcpScanTechnique) :
    E.planKind (E.planPortScan map exclusions technique) = .portScan
  portScan_targets (map : E.TargetMap) (technique : Engine.TcpScanTechnique) :
    E.planTargets (E.planPortScan map E.defaultConfig.exclusions technique) = some map
  discovery_kind (addresses : E.IpSet) (exclusions : E.Exclusions) (sweep : E.SegmentSweep) :
    E.planKind (E.planDiscovery addresses exclusions sweep) = .discovery
  discovery_addresses (addresses : E.IpSet) (sweep : E.SegmentSweep) :
    E.planAddresses (E.planDiscovery addresses E.defaultConfig.exclusions sweep) = some addresses

namespace Start

variable {α : Type} {t t' : Trace E} {under : Policy E} {config : ZondConfig E.toEngineTypes}
  {wire : Proto.StartRequest E.F64} {plan : E.Plan}

/-- What a plan is of. -/
def workOf (plan : E.Plan) : Option (E.TargetMap ⊕ E.IpSet) :=
  match E.planKind plan with
  | .portScan => (E.planTargets plan).map .inl
  | .discovery => (E.planAddresses plan).map .inr
  | _ => none

theorem workOf_plan (laws : PlanLaws E) {job : Job E} (h : job.exclusions = E.defaultConfig.exclusions) :
    workOf job.plan = some job.work := by
  unfold Job.plan workOf
  rw [h]
  cases job.work with
  | inl map => simp only [laws.portScan_kind, laws.portScan_targets, Option.map_some]
  | inr addresses => simp only [laws.discovery_kind, laws.discovery_addresses, Option.map_some]

/-! ## The first sitting -/

/-- The configuration the request asks for, that of a sweep after its targets have had their say. -/
def Asked (t : Trace E) (asked : ScanRequest E.toEngineTypes) (config : ZondConfig E.toEngineTypes) : Prop :=
  config = configure asked ∨ ∃ resolver targets,
    ⟨.forDiscovery asked.targets resolver, .ok targets⟩ ∈ t ∧
      config = E.applyTargets targets (configure asked)

/-- The configuration a start hands the engine: the one asked for, with the exclusions resolved. -/
def Configured (t : Trace E) (wire : Proto.StartRequest E.F64) (config : ZondConfig E.toEngineTypes) : Prop :=
  ∃ asked base resolver exclusions, request wire = .ok asked ∧ Asked t asked base ∧
    ⟨.forExclusion asked.exclude resolver, .ok exclusions⟩ ∈ t ∧
      config = { base with exclusions := exclusions }

/-- A job that came of the request, and whose plan is what was recorded. -/
structure Sits (t : Trace E) (wire : Proto.StartRequest E.F64) (job : Job E) (s : Sitting E) : Prop where
  configured : ∃ config, Configured t wire config ∧ job = .of job.work config
  redaction : s.scan.redaction = job.redaction
  plan : ∀ plan summary journal, ⟨.createJournal plan summary, .ok journal⟩ ∈ t → plan = job.plan

/-- Every job of a start that comes to a scan is such a one. -/
def Comes (wire : Proto.StartRequest E.F64) (t : Trace E) (out : Except Error (Sitting E)) : Prop :=
  ∀ s, out = .ok s → ∀ step ∈ t, ∀ job, step.1.job = some job → Sits t wire job s

/-- A program that comes to such a scan or to an error, after the trace. -/
abbrev Coming (wire : Proto.StartRequest E.F64) (t : Trace E) (p : Asking E (Sitting E)) : Prop :=
  Holds (fun _ _ => True) (Comes wire) t p

theorem Asked.mono {asked : ScanRequest E.toEngineTypes} (h : Asked t asked config) (hsub : t ⊆ t') :
    Asked t' asked config := by
  rcases h with heq | ⟨resolver, targets, hmem, heq⟩
  · exact .inl heq
  · exact .inr ⟨resolver, targets, hsub hmem, heq⟩

theorem Configured.mono (h : Configured t wire config) (hsub : t ⊆ t') : Configured t' wire config := by
  obtain ⟨asked, base, resolver, exclusions, hrequest, hasked, hmem, heq⟩ := h
  exact ⟨asked, base, resolver, exclusions, hrequest, hasked.mono hsub, hsub hmem, heq⟩

/-- No journal is open yet and the engine is not going, and what was asked before is in the trace. -/
structure Prior (before t : Trace E) : Prop where
  opens : ∀ step ∈ t, step.1.opens = false
  before : before ⊆ t

/-- A journal of this plan may be open, and the engine is not going; what was asked before is in the trace. -/
structure Planned (before t : Trace E) (plan : E.Plan) : Prop where
  begins : ∀ step ∈ t, step.1.begins = false
  made : ∀ plan' summary journal, ⟨.createJournal plan' summary, .ok journal⟩ ∈ t → plan' = plan
  before : before ⊆ t

variable {before : Trace E}

theorem Prior.concat (h : Prior before t) {q : Query E} (answer : q.Answer) (hq : q.opens = false) :
    Prior before (t ++ [⟨q, answer⟩]) where
  opens := Program.forall_concat h.opens hq
  before _ hmem := List.mem_append_left _ (h.before hmem)

theorem prior_nil : Prior ([] : Trace E) [] where
  opens _ hmem := by cases hmem
  before := List.Subset.refl _

theorem Prior.refl (h : Prior before t) : Prior t t := ⟨h.opens, List.Subset.refl t⟩

theorem Prior.planned (h : Prior before t) (plan : E.Plan) : Planned before t plan where
  begins step hstep := Query.begins_of_opens (h.opens step hstep)
  made plan' summary journal hmem := by cases h.opens _ hmem
  before := h.before

theorem Planned.concat (h : Planned before t plan) {q : Query E} (answer : q.Answer)
    (hbegins : q.begins = false) (hmakes : ∀ plan' summary, q = .createJournal plan' summary → plan' = plan) :
    Planned before (t ++ [⟨q, answer⟩]) plan where
  begins := Program.forall_concat h.begins hbegins
  made plan' summary journal hmem := by
    rcases List.mem_append.mp hmem with hmem | hmem
    · exact h.made plan' summary journal hmem
    · cases List.mem_singleton.mp hmem
      exact hmakes plan' summary rfl
  before _ hmem := List.mem_append_left _ (h.before hmem)

theorem Planned.prepared (h : Planned before t plan) {q : Query E} (answer : q.Answer) (hq : q.opens = false) :
    Planned before (t ++ [⟨q, answer⟩]) plan :=
  h.concat answer (Query.begins_of_opens hq) fun _ _ heq => by
    rw [heq] at hq
    cases hq

theorem Prior.bind (h : Prior before t) {p : Asking E α} {f : α → Asking E (Sitting E)} (hp : Preparing p)
    (hf : ∀ value t', Prior t t' → Coming wire t' (f value)) : Coming wire t (p >>= f) := by
  refine hp.bind_holds (I := Prior t) (fun _ _ _ _ => trivial) ?_ ?_ ?_ h.refl
  · exact fun _ _ answer hprior hq => hprior.concat answer hq
  · exact fun _ _ _ _ heq => by cases heq
  · exact fun t' value hprior => hf value t' hprior

theorem Planned.bind (h : Planned before t plan) {p : Asking E α} {f : α → Asking E (Sitting E)}
    (hp : Preparing p) (hf : ∀ value t', Planned before t' plan → Coming wire t' (f value)) :
    Coming wire t (p >>= f) := by
  refine hp.bind_holds (I := fun t => Planned before t plan) (fun _ _ _ _ => trivial) ?_ ?_ ?_ h
  · exact fun _ _ answer hplanned hq => hplanned.prepared answer hq
  · exact fun _ _ _ _ heq => by cases heq
  · exact fun t' value hplanned => hf value t' hplanned

theorem preparing_namedBy (journal : Option E.Journal) : Preparing (namedBy journal) := by
  cases journal with
  | some journal => trivial
  | none => exact ⟨rfl, fun _ => trivial⟩

theorem Prior.recordUnder (h : Prior before t) {summary : String} {f : Option E.Journal → Asking E (Sitting E)}
    (hf : ∀ journal t', Planned t t' plan → Coming wire t' (f journal)) :
    Coming wire t (Start.recordUnder under plan summary >>= f) := by
  have hplanned := h.refl.planned plan
  unfold Start.recordUnder
  split_ifs
  · refine ⟨trivial, fun answer => ?_⟩
    have hprepared := hplanned.prepared (q := .prepareRoot) answer rfl
    cases answer with
    | error refused => exact hf none _ hprepared
    | ok _ =>
      refine ⟨trivial, fun answer => ?_⟩
      have hcreated := hprepared.concat (q := .createJournal plan summary) answer rfl fun _ _ heq => by
        cases heq
        rfl
      cases answer with
      | ok journal => exact hf (some journal) _ hcreated
      | error refused => exact hf none _ hcreated
  · exact hf none t hplanned

theorem Planned.begin (h : Planned before t plan) {q : Query E} {id : String}
    (hjob : ∀ job, q.job = some job →
      Configured t wire config ∧ job = .of job.work config ∧ job.plan = plan)
    {answered : q.Answer → Except EngineError Session} : Coming wire t (.ask q fun answer =>
      ZondDaemon.orEngine (answered answer) >>= fun session => .ret (started id session config)) := by
  refine ⟨trivial, fun answer => ?_⟩
  show Coming wire _ (ZondDaemon.orEngine (answered answer) >>= _)
  cases answered answer with
  | error refused => exact fun s heq => by cases heq
  | ok session =>
    rintro _ ⟨⟩ step hstep job heq
    rcases List.mem_append.mp hstep with hstep | hstep
    · rw [Query.job_of_begins (h.begins step hstep)] at heq
      cases heq
    · cases List.mem_singleton.mp hstep
      obtain ⟨hconfigured, hof, hplan⟩ := hjob job heq
      refine ⟨⟨config, hconfigured.mono (List.subset_append_left _ _), hof⟩, ?_, ?_⟩
      · rw [hof]
        rfl
      · intro plan' summary journal hmem
        rcases List.mem_append.mp hmem with hmem | hmem
        · rw [hplan]
          exact h.made plan' summary journal hmem
        · cases List.mem_singleton.mp hmem
          cases heq

theorem Prior.exclusions (h : Prior before t) {excluded : List String} {resolver : Option E.Resolver}
    {f : E.Exclusions → Asking E (Sitting E)}
    (hf : ∀ exclusions t', ⟨.forExclusion excluded resolver, .ok exclusions⟩ ∈ t' → Prior t t' →
      Coming wire t' (f exclusions)) :
    Coming wire t (Start.exclusions excluded resolver >>= f) := by
  refine ⟨trivial, fun answer => ?_⟩
  have hasked := h.refl.concat (q := .forExclusion excluded resolver) answer rfl
  cases answer with
  | error refused => exact fun s heq => by cases heq
  | ok exclusions => exact hf exclusions _ List.mem_concat_self hasked

theorem Prior.forDiscovery (h : Prior before t) {targets : List String} {resolver : Option E.Resolver}
    {f : E.DiscoveryTargets → Asking E (Sitting E)}
    (hf : ∀ found t', ⟨.forDiscovery targets resolver, .ok found⟩ ∈ t' → Prior t t' →
      Coming wire t' (f found)) :
    Coming wire t (call (.forDiscovery targets resolver) >>= fun answer =>
      ZondDaemon.orEngine answer >>= f) := by
  refine ⟨trivial, fun answer => ?_⟩
  have hasked := h.refl.concat (q := .forDiscovery targets resolver) answer rfl
  cases answer with
  | error refused => exact fun s heq => by cases heq
  | ok found => exact hf found _ List.mem_concat_self hasked

theorem coming_fail (error : Error) : Coming wire t (.fail error) := fun s heq => by cases heq

theorem comes_ports (h : Prior before t) : Coming wire t (ports wire under) := by
  unfold ports
  cases hrequest : request wire with
  | error error => exact coming_fail error
  | ok asked =>
    show Coming wire t (if asked.targets.isEmpty then _ else _)
    split_ifs
    · exact coming_fail _
    · apply h.bind (preparing_portsOf asked)
      intro ports t₁ h₁
      apply h₁.bind preparing_resolver
      intro resolver t₂ h₂
      apply h₂.bind (preparing_toTargetMap _ _ _)
      intro map t₃ h₃
      apply h₃.exclusions
      intro exclusions t₄ hexcluded h₄
      apply h₄.bind (preparing_permit _ _ _)
      intro _ t₅ h₅
      apply h₅.recordUnder
      intro journal t₆ h₆
      apply h₆.bind (preparing_namedBy journal)
      intro id t₇ h₇
      apply h₇.bind (preparing_record _ _ _)
      intro _ t₈ h₈
      have hconfigured : Configured t₈ wire { configure asked with exclusions := exclusions } :=
        ⟨asked, _, resolver, exclusions, hrequest, .inl rfl, h₈.before (h₅.before hexcluded), rfl⟩
      cases journal with
      | none =>
        refine h₈.begin (q := .scan _ _) fun job heq => ?_
        cases heq
        exact ⟨hconfigured, rfl, rfl⟩
      | some journal =>
        refine h₈.begin (q := .scanWithJournal _ _ journal) fun job heq => ?_
        cases heq
        exact ⟨hconfigured, rfl, rfl⟩

theorem comes_sweep (h : Prior before t) : Coming wire t (sweep wire under) := by
  unfold sweep
  cases hrequest : request wire with
  | error error => exact coming_fail error
  | ok asked =>
    show Coming wire t (if asked.targets.isEmpty then _ else _)
    split_ifs
    · exact coming_fail _
    · apply h.bind preparing_resolver
      intro resolver t₁ h₁
      apply h₁.forDiscovery
      intro targets t₂ hfound h₂
      apply h₂.exclusions
      intro exclusions t₃ hexcluded h₃
      apply h₃.bind (preparing_permit _ _ _)
      intro _ t₄ h₄
      apply h₄.recordUnder
      intro journal t₅ h₅
      apply h₅.bind (preparing_namedBy journal)
      intro id t₆ h₆
      apply h₆.bind (preparing_record _ _ _)
      intro _ t₇ h₇
      have hsub : t₃ ⊆ t₇ := fun _ hmem => h₇.before (h₄.before hmem)
      have hconfigured : Configured t₇ wire
          { E.applyTargets targets (configure asked) with exclusions := exclusions } :=
        ⟨asked, _, resolver, exclusions, hrequest, .inr ⟨resolver, targets, hsub (h₃.before hfound), rfl⟩,
          hsub hexcluded, rfl⟩
      cases journal with
      | none =>
        refine h₇.begin (q := .discover _ _) fun job heq => ?_
        cases heq
        exact ⟨hconfigured, rfl, rfl⟩
      | some journal =>
        refine h₇.begin (q := .discoverWithJournal _ _ journal) fun job heq => ?_
        cases heq
        exact ⟨hconfigured, rfl, rfl⟩

theorem comes_watch (h : Prior before t) : Coming wire t (watch wire under) := by
  apply h.bind (preparing_ofExcept _)
  intro asked t₁ h₁
  dsimp only
  split_ifs
  · exact coming_fail _
  · apply h₁.bind (p := call (.forListening _)) ⟨rfl, fun _ => trivial⟩
    intro answer t₂ h₂
    cases answer with
    | error refused => exact coming_fail _
    | ok zones =>
      apply h₂.recordUnder
      intro journal t₃ h₃
      apply h₃.bind (preparing_namedBy journal)
      intro id t₄ h₄
      apply h₄.bind (preparing_record _ _ _)
      intro _ t₅ h₅
      cases journal with
      | none => exact h₅.begin (q := .listen _ _) nofun
      | some journal => exact h₅.begin (q := .listenWithJournal _ _ journal) nofun

/-- A start sets the engine going on the job the request asks for, and records the plan of it. -/
theorem comes_scan (wire : Proto.StartRequest E.F64) : Coming wire [] (scan wire under) := by
  apply prior_nil.bind (preparing_room _ _)
  intro _ t h'
  split
  · exact comes_sweep h'
  · exact comes_watch h'
  · exact comes_ports h'

/-! ## The second sitting -/

/-- The job a resume makes of what it reopens. -/
def continued (journal : E.Journal) (work : E.TargetMap ⊕ E.IpSet) : Job E :=
  .of work { E.defaultConfig with tcpTechnique := E.manifestTechnique journal }

/-- The engine is set going on what was reopened. -/
def Continues (t : Trace E) (q : Query E) : Prop := ∀ job, q.job = some job →
  ∀ directory journal plan, ⟨.reopen directory, .ok (journal, plan)⟩ ∈ t →
    workOf plan = some job.work ∧ job = continued journal job.work

/-- A scan a resume comes to is handed out under the masking of its job. -/
def Masked (t : Trace E) (out : Except Error (Sitting E)) : Prop :=
  ∀ s, out = .ok s → ∀ step ∈ t, ∀ job, step.1.job = some job → s.scan.redaction = job.redaction

/-- A program that goes on so, after the trace. -/
abbrev Continuing (t : Trace E) (p : Asking E (Sitting E)) : Prop := Holds Continues Masked t p

/-- This journal and this plan were reopened, and the engine is not going. -/
structure Reopened (t : Trace E) (journal : E.Journal) (plan : E.Plan) : Prop where
  begins : ∀ step ∈ t, step.1.begins = false
  reopened : ∀ directory journal' plan', ⟨.reopen directory, .ok (journal', plan')⟩ ∈ t →
    journal' = journal ∧ plan' = plan

theorem continues_of_begins {q : Query E} (hq : q.begins = false) : Continues t q := fun job heq => by
  rw [Query.job_of_begins hq] at heq
  cases heq

theorem masked_error (error : Error) : Masked t (.error error) := fun s heq => by cases heq

variable {journal : E.Journal}

theorem Reopened.concat (h : Reopened t journal plan) {q : Query E} (answer : q.Answer)
    (hq : q.opens = false) : Reopened (t ++ [⟨q, answer⟩]) journal plan where
  begins := Program.forall_concat h.begins (Query.begins_of_opens hq)
  reopened directory journal' plan' hmem := by
    rcases List.mem_append.mp hmem with hmem | hmem
    · exact h.reopened directory journal' plan' hmem
    · cases List.mem_singleton.mp hmem
      cases hq

theorem Prior.reopened (h : Prior before t) (directory : String) (journal : E.Journal) (plan : E.Plan) :
    Reopened (t ++ [⟨.reopen directory, .ok (journal, plan)⟩]) journal plan where
  begins := Program.forall_concat (fun step hstep => Query.begins_of_opens (h.opens step hstep)) rfl
  reopened directory' journal' plan' hmem := by
    rcases List.mem_append.mp hmem with hmem | hmem
    · cases h.opens _ hmem
    · cases List.mem_singleton.mp hmem
      exact ⟨rfl, rfl⟩

theorem Reopened.bind (h : Reopened t journal plan) {p : Asking E α} {f : α → Asking E (Sitting E)}
    (hp : Preparing p) (hf : ∀ value t', Reopened t' journal plan → Continuing t' (f value)) :
    Continuing t (p >>= f) := by
  refine hp.bind_holds (I := fun t => Reopened t journal plan) ?_ ?_ ?_ ?_ h
  · exact fun _ _ _ hq => continues_of_begins (Query.begins_of_opens hq)
  · exact fun _ _ answer hreopened hq => hreopened.concat answer hq
  · exact fun _ _ _ => masked_error _
  · exact fun t' value hreopened => hf value t' hreopened

theorem Reopened.begin (h : Reopened t journal plan) {q : Query E} {id : String}
    (hjob : ∀ job, q.job = some job → workOf plan = some job.work ∧ job = .of job.work config)
    (hconfig : config = { E.defaultConfig with tcpTechnique := E.manifestTechnique journal })
    {answered : q.Answer → Except EngineError Session} : Continuing t (.ask q fun answer =>
      ZondDaemon.orEngine (answered answer) >>= fun session => .ret (started id session config)) := by
  refine ⟨fun job heq directory journal' plan' hmem => ?_, fun answer => ?_⟩
  · obtain ⟨rfl, rfl⟩ := h.reopened directory journal' plan' hmem
    obtain ⟨hwork, hof⟩ := hjob job heq
    refine ⟨hwork, hof.trans ?_⟩
    rw [hconfig]
    rfl
  · show Continuing _ (ZondDaemon.orEngine (answered answer) >>= _)
    cases answered answer with
    | error refused => exact masked_error _
    | ok session =>
      rintro _ ⟨⟩ step hstep job heq
      rcases List.mem_append.mp hstep with hstep | hstep
      · rw [Query.job_of_begins (h.begins step hstep)] at heq
        cases heq
      · cases List.mem_singleton.mp hstep
        rw [(hjob job heq).2]
        rfl

/-- A resume sets the engine going on what the plan is of, under the default configuration but for the
technique. -/
theorem continuing_resume (id : String) : Continuing [] (resume id under) := by
  unfold resume
  refine ⟨continues_of_begins rfl, fun entries => ?_⟩
  cases entries with
  | error refused => exact masked_error _
  | ok entries =>
    simp only [Program.bind, orEngine, Program.ret_bind]
    split
    · exact masked_error _
    · rename_i entry hentry
      refine ⟨continues_of_begins rfl, fun answer => ?_⟩
      cases answer with
      | error refused => exact masked_error _
      | ok reopened =>
        obtain ⟨journal, plan⟩ := reopened
        have h := (prior_nil.concat (q := .listStore) (.ok entries) rfl).reopened entry.directory
          journal plan
        apply h.bind (preparing_room _ _)
        intro _ t₁ h₁
        split
        · rename_i hkind
          split
          · exact masked_error _
          · rename_i map htargets
            apply h₁.bind (preparing_permit _ _ _)
            intro _ t₂ h₂
            apply h₂.bind (preparing_record _ _ _)
            intro _ t₃ h₃
            refine h₃.begin (q := .scanWithJournal map _ journal) (fun job heq => ?_) rfl
            cases heq
            exact ⟨by simp only [workOf, hkind, htargets, Option.map_some]; rfl, rfl⟩
        · rename_i hkind
          split
          · exact masked_error _
          · rename_i addresses haddresses
            apply h₁.bind (preparing_permit _ _ _)
            intro _ t₂ h₂
            apply h₂.bind (preparing_record _ _ _)
            intro _ t₃ h₃
            refine h₃.begin (q := .discoverWithJournal addresses _ journal) (fun job heq => ?_) rfl
            cases heq
            exact ⟨by simp only [workOf, hkind, haddresses, Option.map_some]; rfl, rfl⟩
        · split
          · exact masked_error _
          · apply h₁.bind (preparing_record _ _ _)
            intro _ t₂ h₂
            exact h₂.begin (q := .listenWithJournal _ _ journal) (fun _ heq => by cases heq) rfl
        · exact masked_error _

/-! ## One job or two -/

theorem handedOutUnder_inj {one other : ZondConfig E.toEngineTypes} :
    handedOutUnder one = handedOutUnder other ↔ one.redact = other.redact := by
  unfold handedOutUnder
  cases one.redact <;> cases other.redact <;> decide

theorem continued_eq_of {base : ZondConfig E.toEngineTypes} {exclusions : E.Exclusions}
    {journal : E.Journal} {work : E.TargetMap ⊕ E.IpSet} :
    continued journal work = .of work { base with exclusions := exclusions } ↔
      exclusions = E.defaultConfig.exclusions ∧ base.segmentSweep = E.defaultConfig.segmentSweep ∧
      base.redact = E.defaultConfig.redact ∧ base.tcpTechnique = E.manifestTechnique journal := by
  unfold continued Job.of
  rw [Job.mk.injEq, handedOutUnder_inj]
  constructor
  · rintro ⟨-, hexclusions, htechnique, hsweep, hredact⟩
    exact ⟨hexclusions.symm, hsweep.symm, hredact.symm, htechnique.symm⟩
  · rintro ⟨hexclusions, hsweep, hredact, htechnique⟩
    exact ⟨rfl, hexclusions.symm, htechnique.symm, hsweep.symm, hredact.symm⟩

/-- **A resumed sitting is the same job exactly where the first was what the default configuration asks
for**: nothing excluded besides, the segment sweep and the masking as they are by default, the technique of a
sweep as the manifest has it. Where nothing is excluded besides, the work is the same in any case. -/
theorem resumed_iff (laws : PlanLaws E) {rules rules' : Rules E} {slot slot' : Option Slot}
    {id summary directory : String} {s : Sitting E} {step : Step (Q := Query E) Query.Answer}
    {first second : Job E} {journal reopened : E.Journal} {q : Query E}
    (hstart : ((Request.start wire).pipeline rules slot).Ends t (.ok s)) (hstep : step ∈ t)
    (hfirst : step.1.job = some first) (hmade : ⟨.createJournal plan summary, .ok journal⟩ ∈ t)
    (hresume : ((Request.resume id).pipeline rules' slot').Asks t' q) (hsecond : q.job = some second)
    (hreopen : ⟨.reopen directory, .ok (reopened, plan)⟩ ∈ t')
    (htechnique : ∀ map, first.work = .inl map → E.manifestTechnique reopened = first.technique) :
    (first.exclusions = E.defaultConfig.exclusions → second.work = first.work) ∧
    s.scan.redaction = first.redaction ∧
    (∀ answer t'' s', ((Request.resume id).pipeline rules' slot').Ends (t' ++ ⟨q, answer⟩ :: t'') (.ok s') →
      s'.scan.redaction = second.redaction) ∧
    ∃ asked base resolver exclusions, request wire = .ok asked ∧ Asked t asked base ∧
      ⟨.forExclusion asked.exclude resolver, .ok exclusions⟩ ∈ t ∧
      (second = first ↔ exclusions = E.defaultConfig.exclusions ∧
        base.segmentSweep = E.defaultConfig.segmentSweep ∧ base.redact = E.defaultConfig.redact ∧
        ∀ addresses, first.work = .inr addresses → base.tcpTechnique = E.manifestTechnique reopened) := by
  have hsits : Comes wire t (.ok s) := (comes_scan wire).ended hstart
  obtain ⟨⟨config, ⟨asked, base, resolver, exclusions, hrequest, hasked, hexcluded, rfl⟩, hof⟩, hredaction,
    hplan⟩ := hsits s rfl step hstep first hfirst
  have hcontinues : Continues t' q := (continuing_resume id).asked hresume
  obtain ⟨hwork, hcontinued⟩ := hcontinues second hsecond directory reopened plan hreopen
  have hexclusions : first.exclusions = exclusions := by
    rw [hof]
    rfl
  have hsame : first.exclusions = E.defaultConfig.exclusions → second.work = first.work := by
    intro hdefault
    rw [hplan plan summary journal hmade, workOf_plan laws hdefault] at hwork
    exact (Option.some.inj hwork).symm
  refine ⟨hsame, hredaction, fun answer t'' s' hends => ?_, asked, base, resolver, exclusions, hrequest,
    hasked, hexcluded, ?_⟩
  · have hmasked : Masked _ (.ok s') := (continuing_resume id).ended hends
    exact hmasked s' rfl ⟨q, answer⟩ (List.mem_append_right _ List.mem_cons_self) second hsecond
  · constructor
    · rintro rfl
      obtain ⟨hnone, hsweep, hredact, htcp⟩ := continued_eq_of.mp (hcontinued.symm.trans hof)
      exact ⟨hnone, hsweep, hredact, fun _ _ => htcp⟩
    · rintro ⟨hnone, hsweep, hredact, hdiscovery⟩
      have htcp : base.tcpTechnique = E.manifestTechnique reopened := by
        cases heq : first.work with
        | inl map => rw [htechnique map heq, hof]; rfl
        | inr addresses => exact hdiscovery addresses heq
      calc second = continued reopened second.work := hcontinued
        _ = continued reopened first.work := by rw [hsame (hexclusions.trans hnone)]
        _ = .of first.work { base with exclusions := exclusions } :=
            continued_eq_of.mpr ⟨hnone, hsweep, hredact, htcp⟩
        _ = first := hof.symm

end Start

namespace Plain

theorem planLaws : PlanLaws engine where
  portScan_kind _ _ _ := rfl
  portScan_targets map _ := congrArg some (List.map_id map)
  discovery_kind _ _ _ := rfl
  discovery_addresses _ _ := rfl

/-- A world in which one scan of the plan was recorded. -/
def recorded (plan : Plan) : (q : Query engine) → q.Answer
  | .listStore => .ok [⟨"A", "A", 0, "1 probe", 1, engine.planKind plan, .free, false, none, .ok []⟩]
  | .reopen _ => .ok (⟨"A", .syn⟩, plan)
  | q => world q

end Plain

namespace Start

/-- A start and the resume of its record, a slot in hand. -/
def firstOf (wire : Proto.StartRequest Int) : Asking Plain.engine (Sitting Plain.engine) :=
  Request.pipeline tenOnly (some {}) (.start wire)

def secondOf (id : String) : Asking Plain.engine (Sitting Plain.engine) :=
  Request.pipeline tenOnly (some {}) (.resume id)

/-- The job the engine is set going on, where it is. -/
def jobOf (t : Trace Plain.engine) : Option (Job Plain.engine) := t.findSome? fun step => step.1.job

/-- The plan a journal is made for. -/
def planOf (t : Trace Plain.engine) : Option Plain.Plan := t.findSome? fun step =>
  match step.1 with
  | .createJournal plan _ => some plan
  | _ => none

/-- The trace of a start, and of the resume of what it recorded. -/
def startTrace (wire : Proto.StartRequest Int) : Trace Plain.engine := (firstOf wire).transcript Plain.world

def resumeTrace (plan : Plain.Plan) : Trace Plain.engine :=
  (secondOf "A").transcript (Plain.recorded plan)

/-- A start that rules an address out and asks to be masked. -/
def guarded : Proto.StartRequest Int where
  targets := ["10"]
  exclude := ["11"]
  settings := some { redact := some true }

/-- The second sitting of it leaves nothing out and masks nothing. -/
theorem not_resumed : ∃ s s' plan, (firstOf guarded).Ends (startTrace guarded) (.ok s) ∧
    planOf (startTrace guarded) = some plan ∧ (secondOf "A").Ends (resumeTrace plan) (.ok s') ∧
    (jobOf (startTrace guarded)).map (fun job => (job.exclusions, job.redaction)) =
      some (["11"], .standard) ∧
    (jobOf (resumeTrace plan)).map (fun job => (job.exclusions, job.redaction)) = some ([], .none) ∧
    s.scan.redaction = .standard ∧ s'.scan.redaction = .none := by
  refine ⟨_, _, _, Program.ends_transcript Plain.world (firstOf guarded), rfl,
    Program.ends_transcript (Plain.recorded _) (secondOf "A"), ?_, ?_, rfl, rfl⟩
  · decide +kernel
  · decide +kernel

/-- A start that asks for nothing of the kind. -/
def bare : Proto.StartRequest Int where
  targets := ["10"]

def barePlan : Plain.Plan := (planOf (startTrace bare)).get (by decide +kernel)

/-- Its second sitting is the same job: what the first was told of exclusions is what there are by default. -/
theorem resumed_iff_bare : ∃ s s' first second, (firstOf bare).Ends (startTrace bare) (.ok s) ∧
    (secondOf "A").Ends (resumeTrace barePlan) (.ok s') ∧ jobOf (startTrace bare) = some first ∧
    jobOf (resumeTrace barePlan) = some second ∧ second.work = first.work ∧ second = first ∧
    ∃ asked resolver, request (E := Plain.engine) bare = .ok asked ∧
      ⟨.forExclusion asked.exclude resolver, .ok []⟩ ∈ startTrace bare := by
  have hstart := Program.ends_transcript Plain.world (firstOf bare)
  have hresume : (secondOf "A").Ends ((resumeTrace barePlan).take 4 ++ (resumeTrace barePlan)[4] :: []) _ :=
    Program.ends_transcript (Plain.recorded barePlan) (secondOf "A")
  have hsame := resumed_iff Plain.planLaws hstart (List.mem_of_getElem? (i := 7) rfl) rfl
    (List.mem_of_getElem? (i := 4) rfl) hresume.asks rfl (List.mem_of_getElem? (i := 1) rfl) fun _ _ => rfl
  obtain ⟨hwork, -, -, asked, base, resolver, exclusions, hrequest, -, hexcluded, hiff⟩ := hsame
  obtain ⟨rfl, -⟩ := hiff.mp rfl
  exact ⟨_, _, _, _, hstart, hresume, rfl, rfl, hwork rfl, rfl, asked, resolver, hrequest, hexcluded⟩

end Start

end ZondDaemon
