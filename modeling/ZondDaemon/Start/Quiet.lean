import ZondDaemon.Base.Through
import ZondDaemon.Start.Pipeline

/-!
# What a start leaves alone

A start does without the journal directory where nothing is recorded, and looks no name up where the scan is to
make no DNS traffic, on every path through it. What the engine looks up is for the configuration it is handed to
say: a start hands it the one asked for, and a resume the one there is by default.
-/

namespace ZondDaemon

variable {E : Engine}

namespace Query

/-- A call that reads the journal directory or writes to it. -/
def journaled : Query E → Bool
  | .prepareRoot => true
  | .createJournal .. => true
  | .listStore => true
  | .reopen _ => true
  | .scanWithJournal .. => true
  | .discoverWithJournal .. => true
  | .listenWithJournal .. => true
  | _ => false

/-- A call that may ask a name server before the engine is set going. -/
def looksUp : Query E → Bool
  | .resolverFromSystem => true
  | .resolveTargets .. => true
  | .forDiscovery _ resolver => resolver.isSome
  | .forExclusion _ resolver => resolver.isSome
  | _ => false

/-- The configuration a call sets the engine going under, which looks names up as that says. -/
def handed : Query E → Option (ZondConfig E.toEngineTypes)
  | .scan _ config => some config
  | .scanWithJournal _ config _ => some config
  | .discover _ config => some config
  | .discoverWithJournal _ config _ => some config
  | .listen _ config => some config
  | .listenWithJournal _ config _ => some config
  | _ => none

/-- A call that leaves alone what it is to leave alone, and hands the engine what it is to. -/
structure Spares (recorded looks : Bool) (hands : ZondConfig E.toEngineTypes → Prop) (q : Query E) : Prop where
  journaled : recorded = false → q.journaled = false
  looksUp : looks = false → q.looksUp = false
  handed : ∀ config, q.handed = some config → hands config

end Query

namespace Start

/-- Whether names may be looked up for a request; one that cannot be read comes to nothing. -/
def names (E : Engine) (wire : Proto.StartRequest E.F64) : Bool :=
  match (request wire : Except Error (ScanRequest E.toEngineTypes)) with
  | .ok asked => !(configure asked).noDns
  | .error _ => false

/-- What the configuration says of DNS is what the request asks for, in a sweep as its targets leave it. -/
def Heeds (wire : Proto.StartRequest E.F64) (config : ZondConfig E.toEngineTypes) : Prop :=
  ∃ asked, request wire = .ok asked ∧
    if kindOf wire = .discovery then ∃ targets, config.noDns = (E.applyTargets targets (configure asked)).noDns
    else config.noDns = (configure (E := E) asked).noDns

/-- What it says of DNS is what there is by default. -/
def Defaults (config : ZondConfig E.toEngineTypes) : Prop := config.noDns = E.defaultConfig.noDns

variable {α : Type} {under : Policy E} {config : ZondConfig E.toEngineTypes} {recorded looks : Bool}
  {hands : ZondConfig E.toEngineTypes → Prop}

/-- A program that leaves alone what it is to leave alone. -/
abbrev Sparing (recorded looks : Bool) (hands : ZondConfig E.toEngineTypes → Prop) (p : Asking E α) : Prop :=
  p.Only (Query.Spares recorded looks hands)

theorem sparing_orEngine (x : Except EngineError α) :
    Sparing recorded looks hands (orEngine x : Asking E α) := by
  cases x <;> trivial

theorem sparing_call {q : Query E} {k : q.Answer → Asking E α} (hjournaled : q.journaled = false)
    (hlooks : q.looksUp = false) (hhanded : q.handed = none)
    (hk : ∀ answer, Sparing recorded looks hands (k answer)) : Sparing recorded looks hands (.ask q k) :=
  ⟨⟨fun _ => hjournaled, fun _ => hlooks, fun _ h => by rw [hhanded] at h; cases h⟩, hk⟩

theorem sparing_portsOf (asked : ScanRequest E.toEngineTypes) :
    Sparing recorded looks hands (portsOf asked) := by
  unfold portsOf
  split
  · exact sparing_orEngine _
  · trivial

theorem sparing_resolver (hlooks : looks = !config.noDns) : Sparing recorded looks hands (resolver config) := by
  unfold resolver
  split_ifs with hno
  · trivial
  · refine ⟨⟨fun _ => rfl, fun hnone => ?_, fun _ h => (by cases h)⟩, fun _ => trivial⟩
    simp [hlooks, hno] at hnone

theorem ensures_resolver (hlooks : looks = !config.noDns) :
    (resolver config).Ensures fun out => ∀ resolver, out = .ok resolver → looks = false →
      resolver.isSome = false := by
  unfold resolver
  split_ifs with hno
  · rintro resolver ⟨⟩ -
    rfl
  · intro answer resolver heq hnone
    simp [hlooks, hno] at hnone

variable {resolver : Option E.Resolver}

theorem sparing_toTargetMap (targets : List String) (ports : E.PortSet)
    (h : looks = false → resolver.isSome = false) :
    Sparing recorded looks hands (toTargetMap targets ports resolver) := by
  cases resolver with
  | none => exact sparing_call rfl rfl rfl fun answer => sparing_orEngine answer
  | some resolver =>
    refine ⟨⟨fun _ => rfl, fun hnone => ?_, fun _ h => (by cases h)⟩, fun answer => sparing_orEngine answer⟩
    cases h hnone

theorem sparing_exclusions (excluded : List String) (h : looks = false → resolver.isSome = false) :
    Sparing recorded looks hands (exclusions excluded resolver) :=
  ⟨⟨fun _ => rfl, h, fun _ h => by cases h⟩, fun answer => sparing_orEngine answer⟩

theorem sparing_forDiscovery (targets : List String) (h : looks = false → resolver.isSome = false) :
    Sparing recorded looks hands (call (.forDiscovery targets resolver)) :=
  ⟨⟨fun _ => rfl, h, fun _ h => by cases h⟩, fun _ => trivial⟩

theorem sparing_write (audit : Audit) (entry : AuditEntry) :
    Sparing (E := E) recorded looks hands (audit.write entry) := by
  unfold Audit.write
  split_ifs
  · refine sparing_call rfl rfl rfl fun answer => ?_
    cases answer <;> trivial
  · trivial

theorem sparing_refuse (audit : Audit) (refusal : Error) (kind : String) (targets : List String) :
    Sparing recorded looks hands (do audit.refused refusal kind targets; .fail refusal : Asking E Unit) := by
  apply Program.Only.bind
  · intro _
    trivial
  · exact sparing_call rfl rfl rfl fun _ => sparing_write _ _

theorem sparing_room (kind : String) (targets : List String) :
    Sparing recorded looks hands (under.room kind targets) := by
  unfold Policy.room
  split_ifs
  · trivial
  · exact sparing_refuse _ _ _ _

theorem sparing_permit (reaching : E.IpSet) (kind : String) (targets : List String) :
    Sparing recorded looks hands (under.permit reaching kind targets) := by
  unfold Policy.permit
  split
  · exact sparing_refuse _ _ _ _
  · trivial

theorem sparing_record (id kind : String) (targets : List String) :
    Sparing recorded looks hands (under.record id kind targets) :=
  sparing_call rfl rfl rfl fun _ => sparing_write _ _

/-! ## The journal of a scan -/

theorem sparing_recordUnder (plan : E.Plan) (summary : String) :
    Sparing under.root looks hands (recordUnder under plan summary) := by
  unfold recordUnder record
  split_ifs with hroot
  · rw [hroot]
    refine ⟨⟨fun hnone => (by cases hnone), fun _ => rfl, fun _ h => (by cases h)⟩, fun prepared => ?_⟩
    cases prepared with
    | error refused => trivial
    | ok _ =>
      refine ⟨⟨fun hnone => (by cases hnone), fun _ => rfl, fun _ h => (by cases h)⟩, fun created => ?_⟩
      cases created <;> trivial
  · trivial

theorem ensures_recordUnder (plan : E.Plan) (summary : String) :
    (recordUnder under plan summary).Ensures fun out =>
      ∀ journal, out = .ok journal → under.root = false → journal.isSome = false := by
  unfold recordUnder record
  split_ifs with hroot
  · rw [hroot]
    intro prepared
    cases prepared with
    | error refused =>
      rintro journal ⟨⟩ -
      rfl
    | ok _ =>
      intro created
      cases created <;> exact fun _ _ hnone => by cases hnone
  · rintro journal ⟨⟩ -
    rfl

variable {journal : Option E.Journal}

theorem sparing_namedBy : Sparing recorded looks hands (namedBy journal) := by
  cases journal with
  | none => exact sparing_call rfl rfl rfl fun _ => trivial
  | some journal => trivial

theorem sparing_begin {q : Query E} {k : q.Answer → Asking E α}
    (hjournaled : recorded = false → q.journaled = false) (hlooks : q.looksUp = false)
    (hhanded : q.handed = some config) (hhands : hands config)
    (hk : ∀ answer, Sparing recorded looks hands (k answer)) : Sparing recorded looks hands (.ask q k) := by
  refine ⟨⟨hjournaled, fun _ => hlooks, fun other h => ?_⟩, hk⟩
  rw [hhanded] at h
  cases h
  exact hhands

theorem sparing_scanWith (map : E.TargetMap) (h : recorded = false → journal.isSome = false)
    (hhands : hands config) : Sparing recorded looks hands (scanWith map config journal) := by
  cases journal with
  | none => exact sparing_begin (fun _ => rfl) rfl rfl hhands fun answer => sparing_orEngine answer
  | some journal =>
    exact sparing_begin (fun hnone => by cases h hnone) rfl rfl hhands fun answer => sparing_orEngine answer

theorem sparing_discoverWith (addresses : E.IpSet) (h : recorded = false → journal.isSome = false)
    (hhands : hands config) : Sparing recorded looks hands (discoverWith addresses config journal) := by
  cases journal with
  | none => exact sparing_begin (fun _ => rfl) rfl rfl hhands fun answer => sparing_orEngine answer
  | some journal =>
    exact sparing_begin (fun hnone => by cases h hnone) rfl rfl hhands fun answer => sparing_orEngine answer

theorem sparing_listenWith (scope : ListenScope E.toEngineTypes)
    (h : recorded = false → journal.isSome = false) (hhands : hands config) :
    Sparing recorded looks hands (listenWith scope config journal) := by
  cases journal with
  | none => exact sparing_begin (fun _ => rfl) rfl rfl hhands fun answer => sparing_orEngine answer
  | some journal =>
    exact sparing_begin (fun hnone => by cases h hnone) rfl rfl hhands fun answer => sparing_orEngine answer

theorem sparing_recorded {plan : E.Plan} {summary kind : String} {targets : List String}
    {begin' : Option E.Journal → Asking E Session}
    (hbegin : ∀ journal, (under.root = false → journal.isSome = false) →
      Sparing under.root looks hands (begin' journal)) :
    Sparing under.root looks hands (do
      let journal ← recordUnder under plan summary
      let id ← namedBy journal
      under.record id kind targets
      let session ← begin' journal
      return started id session config : Asking E (Sitting E)) := by
  refine Program.Only.bind_of (fun journal hjournal => ?_) (sparing_recordUnder plan summary)
    (ensures_recordUnder plan summary)
  refine Program.Only.bind (fun id => ?_) sparing_namedBy
  refine Program.Only.bind (fun _ => ?_) (sparing_record id kind targets)
  refine Program.Only.bind (fun session => ?_) (hbegin journal hjournal)
  trivial

/-! ## The pipelines -/

theorem names_eq {wire : Proto.StartRequest E.F64} {asked : ScanRequest E.toEngineTypes}
    (h : request wire = .ok asked) : names E wire = !(configure asked).noDns := by
  rw [names, h]

theorem exists_of_names {wire : Proto.StartRequest E.F64} (h : names E wire = true) :
    ∃ asked, request wire = .ok asked ∧ (configure (E := E) asked).noDns = false := by
  unfold names at h
  split at h
  · rename_i asked hread
    exact ⟨asked, hread, by simpa using h⟩
  · cases h

theorem sparing_request {wire : Proto.StartRequest E.F64} {f : ScanRequest E.toEngineTypes → Asking E α}
    (hf : ∀ asked, request wire = .ok asked → Sparing recorded (names E wire) hands (f asked)) :
    Sparing recorded (names E wire) hands (Program.ofExcept (request wire) >>= f) := by
  cases hread : (request wire : Except Error (ScanRequest E.toEngineTypes)) with
  | error refused => trivial
  | ok asked => exact hf asked hread

theorem sparing_ports {wire : Proto.StartRequest E.F64} (hkind : kindOf wire ≠ .discovery) :
    Sparing under.root (names E wire) (Heeds wire) (ports wire under) := by
  refine sparing_request fun asked hread => ?_
  dsimp only
  split_ifs
  · trivial
  · refine Program.Only.bind (fun ports => ?_) (sparing_portsOf asked)
    refine Program.Only.bind_of (fun resolver hresolver => ?_) (sparing_resolver (names_eq hread))
      (ensures_resolver (names_eq hread))
    refine Program.Only.bind (fun map => ?_) (sparing_toTargetMap _ _ hresolver)
    refine Program.Only.bind (fun exclusions => ?_) (sparing_exclusions _ hresolver)
    refine Program.Only.bind (fun _ => ?_) (sparing_permit _ _ _)
    have hheeds : Heeds wire { configure asked with exclusions := exclusions } :=
      ⟨asked, hread, by rw [if_neg hkind]⟩
    exact sparing_recorded fun journal hjournal => sparing_scanWith map hjournal hheeds

theorem sparing_sweep {wire : Proto.StartRequest E.F64} (hkind : kindOf wire = .discovery) :
    Sparing under.root (names E wire) (Heeds wire) (sweep wire under) := by
  refine sparing_request fun asked hread => ?_
  dsimp only
  split_ifs
  · trivial
  · refine Program.Only.bind_of (fun resolver hresolver => ?_) (sparing_resolver (names_eq hread))
      (ensures_resolver (names_eq hread))
    refine Program.Only.bind (fun answer => ?_) (sparing_forDiscovery _ hresolver)
    refine Program.Only.bind (fun targets => ?_) (sparing_orEngine answer)
    refine Program.Only.bind (fun exclusions => ?_) (sparing_exclusions _ hresolver)
    refine Program.Only.bind (fun _ => ?_) (sparing_permit _ _ _)
    have hheeds : Heeds wire { E.applyTargets targets (configure asked) with exclusions := exclusions } :=
      ⟨asked, hread, by rw [if_pos hkind]; exact ⟨targets, rfl⟩⟩
    exact sparing_recorded fun journal hjournal => sparing_discoverWith _ hjournal hheeds

theorem sparing_watch {wire : Proto.StartRequest E.F64} (hkind : kindOf wire ≠ .discovery) :
    Sparing under.root (names E wire) (Heeds wire) (watch wire under) := by
  refine sparing_request fun asked hread => ?_
  dsimp only
  split_ifs
  · trivial
  · refine sparing_call rfl rfl rfl fun answer => ?_
    cases answer with
    | error refused => trivial
    | ok zones =>
      have hheeds : Heeds wire (configure asked) := ⟨asked, hread, by rw [if_neg hkind]⟩
      exact sparing_recorded fun journal hjournal => sparing_listenWith _ hjournal hheeds

/-- **A start leaves the journal directory alone where nothing is recorded, looks no name up where it is to make
no DNS traffic, and tells the engine so.** -/
theorem sparing_scan (wire : Proto.StartRequest E.F64) :
    Sparing under.root (names E wire) (Heeds wire) (scan wire under) := by
  refine Program.Only.bind (fun _ => ?_) (sparing_room _ _)
  split
  · rename_i hkind
    exact sparing_sweep hkind
  · rename_i hkind
    exact sparing_watch fun heq => by cases hkind.symm.trans heq
  · rename_i hkind _
    exact sparing_ports hkind

/-- What continues a scan looks nothing up itself, and hands the engine what there is by default. -/
theorem sparing_resume (id : String) :
    Sparing true looks Defaults (resume id under) := by
  have hcall : ∀ q : Query E, q.looksUp = false → q.handed = none →
      Sparing true looks Defaults (call q) :=
    fun q hlooks hhanded => ⟨⟨fun hnone => (by cases hnone), fun _ => hlooks, fun _ h => (by
      rw [hhanded] at h
      cases h)⟩, fun _ => trivial⟩
  refine Program.Only.bind (fun answer => ?_) (hcall .listStore rfl rfl)
  refine Program.Only.bind (fun entries => ?_) (sparing_orEngine answer)
  split
  · trivial
  · refine Program.Only.bind (fun answer => ?_) (hcall (.reopen _) rfl rfl)
    refine Program.Only.bind (fun reopened => ?_) (sparing_orEngine answer)
    obtain ⟨journal, plan⟩ := reopened
    refine Program.Only.bind (fun _ => ?_) (sparing_room _ _)
    have hbegun : ∀ {kind : String} {targets : List String} {id : String} {config : ZondConfig E.toEngineTypes}
        {p : Asking E Session}, Sparing true looks Defaults p → Sparing true looks Defaults (do
          under.record id kind targets
          let session ← p
          return started id session config : Asking E (Sitting E)) := by
      intro kind targets id config p hp
      refine Program.Only.bind (fun _ => ?_) (sparing_record id kind targets)
      refine Program.Only.bind (fun session => ?_) hp
      trivial
    split
    · split
      · trivial
      · refine Program.Only.bind (fun _ => ?_) (sparing_permit _ _ _)
        exact hbegun (sparing_scanWith _ (fun hnone => by cases hnone) rfl)
    · split
      · trivial
      · refine Program.Only.bind (fun _ => ?_) (sparing_permit _ _ _)
        exact hbegun (sparing_discoverWith _ (fun hnone => by cases hnone) rfl)
    · split
      · trivial
      · exact hbegun (sparing_listenWith _ (fun hnone => by cases hnone) rfl)
    · trivial

end Start

end ZondDaemon
