import ZondDaemon.Start.Pipeline

/-!
# Nothing reaches the wire but through the gate

What every run of a start and of a resume keeps. `Pre` is when a question may be asked and `Post` how a run
may end. A run goes through two phases: until the policy has judged what it reaches it touches nothing
(`Open`), and from then on everything it was judged by is permitted (`Cleared`). Each piece of a pipeline
keeps its phase or moves on to the next, and the pipelines are put together from the pieces.
-/

namespace ZondDaemon

open Engine (ScanKind)
open Program (Step Holds)

namespace Start

variable {E : Engine}

/-- What a start or a resume has asked and been answered so far. -/
abbrev Trace (E : Engine) := List (Step (Q := Query E) Query.Answer)

/-- The addresses a step says the request reaches: the targets it resolves to, or those of the plan it
continues. -/
def judges : Step (Q := Query E) Query.Answer → Option E.IpSet
  | ⟨.resolveTargets .., .ok map⟩ => some (E.reachedBy map)
  | ⟨.parseTargets .., .ok map⟩ => some (E.reachedBy map)
  | ⟨.forDiscovery .., .ok targets⟩ => some (E.intoIps targets)
  | ⟨.reopen _, .ok (_, plan)⟩ =>
    match E.planKind plan with
    | .portScan => (E.planTargets plan).map E.reachedBy
    | .discovery => E.planAddresses plan
    | _ => none
  | _ => none

/-- The request is known to reach these addresses. -/
def Judged (t : Trace E) (reaching : E.IpSet) : Prop := ∃ step ∈ t, judges step = some reaching

/-- A `started` entry for the scan was written. -/
def Recorded (t : Trace E) (id : String) : Prop :=
  ∃ at' kind targets, ⟨.auditWrite (.started at' id kind targets), .ok ()⟩ ∈ t

/-- A `refused` entry for the refusal was to be written, which the file answered so. -/
def Refused (t : Trace E) (refusal : Error) (answer : Except String Unit) : Prop :=
  ∃ at' kind targets, ⟨.auditWrite (.refused at' kind targets refusal.code refusal.message), answer⟩ ∈ t

/-- What a request the scope refuses may be answered with. -/
inductive Answered (under : Policy E) (t : Trace E) (refusal : Error) :
    Except Error (Sitting E) → Prop
  | refused : (under.audit.configured = true → Refused t refusal (.ok ())) →
      Answered under t refusal (.error refusal)
  | unwritable (broken : String) : Refused t refusal (.error broken) →
      Answered under t refusal (.error (.unwritable broken))
  /-- What may not be recorded could not be resolved, which comes before the judging. -/
  | excluded (error : EngineError) (excluded : List String) (resolver : Option E.Resolver) :
      ⟨.forExclusion excluded resolver, .error error⟩ ∈ t → Answered under t refusal (.error (.engine error))
  /-- There was no room, which comes before the judging. -/
  | full (error : Error) : under.hasRoom = false → Answered under t refusal (.error error)

/-- Where a question may be asked. -/
structure Pre (under : Policy E) (t : Trace E) (q : Query E) : Prop where
  last : ∀ step ∈ t, step.1.begins = false
  spared : ∀ reaching refusal, Judged t reaching → under.scope.permits reaching = .error refusal →
    q.touches = false ∧ ∀ step ∈ t, step.1.touches = false
  gated : q.engineCall = true → under.hasRoom = true ∧
    (∀ ips ∈ q.reach, ∀ a, E.holds ips a → under.scope.Allows a) ∧
    (under.audit.configured = true → ∃ id, Recorded t id)

/-- How a run may end. -/
structure Post (under : Policy E) (t : Trace E) (out : Except Error (Sitting E)) : Prop where
  spared : ∀ reaching refusal, Judged t reaching → under.scope.permits reaching = .error refusal →
    (∀ step ∈ t, step.1.touches = false) ∧ Answered under t refusal out
  named : ∀ sitting, out = .ok sitting → under.audit.configured = true →
    ∃ before step, t = before ++ [step] ∧ step.1.begins = true ∧ Recorded before sitting.scan.id

/-- A program that goes through the gate, after the trace. -/
abbrev Gated (under : Policy E) (t : Trace E) (p : Asking E (Sitting E)) : Prop :=
  Holds (Pre under) (Post under) t p

/-- Nothing is touched yet, and what the request reaches is among these addresses. -/
structure Open (t : Trace E) (reached : Option E.IpSet) : Prop where
  spared : ∀ step ∈ t, step.1.touches = false
  judged : ∀ reaching, Judged t reaching → some reaching = reached

/-- Everything the request is known to reach is permitted, and the engine is not going yet. -/
structure Cleared (under : Policy E) (t : Trace E) : Prop where
  last : ∀ step ∈ t, step.1.begins = false
  permitted : ∀ reaching, Judged t reaching → under.scope.permits reaching = .ok ()

variable {under : Policy E} {t : Trace E} {α : Type} {reached : Option E.IpSet}

theorem judged_concat {step : Step (Q := Query E) Query.Answer} {reaching : E.IpSet} :
    Judged (t ++ [step]) reaching ↔ Judged t reaching ∨ judges step = some reaching := by
  simp [Judged, or_and_right, exists_or]

theorem Recorded.append {id : String} (h : Recorded t id) (t' : Trace E) : Recorded (t ++ t') id := by
  obtain ⟨at', kind, targets, hmem⟩ := h
  exact ⟨at', kind, targets, List.mem_append_left t' hmem⟩

theorem Post.of_error {error : Error} (h : ∀ reaching refusal, Judged t reaching →
    under.scope.permits reaching = .error refusal →
    (∀ step ∈ t, step.1.touches = false) ∧ Answered under t refusal (.error error)) :
    Post under t (.error error) where
  spared := h
  named _ heq := by cases heq

/-! ## The two phases -/

theorem open_nil : Open ([] : Trace E) none := ⟨by simp, by simp [Judged]⟩

theorem Open.begins (h : Open t reached) : ∀ step ∈ t, step.1.begins = false :=
  fun step hstep => Query.begins_of_touches (h.spared step hstep)

theorem Open.pre (h : Open t reached) {q : Query E} (hq : q.touches = false) : Pre under t q where
  last := h.begins
  spared _ _ _ _ := ⟨hq, h.spared⟩
  gated hcall := by
    rw [Query.engineCall_of_begins (Query.begins_of_touches hq)] at hcall
    cases hcall

theorem Open.post_fail (h : Open t none) (error : Error) : Post under t (.error error) :=
  .of_error fun reaching _ hjudged _ => by cases h.judged reaching hjudged

theorem Open.concat (h : Open t reached) {q : Query E} (hq : q.touches = false) {a : q.Answer}
    (hjudges : judges ⟨q, a⟩ = none) : Open (t ++ [⟨q, a⟩]) reached where
  spared := Program.forall_concat h.spared hq
  judged reaching hjudged := by
    rw [judged_concat, hjudges] at hjudged
    exact h.judged reaching (hjudged.resolve_right nofun)

theorem Open.judge (h : Open t none) {q : Query E} (hq : q.touches = false) {a : q.Answer} :
    Open (t ++ [⟨q, a⟩]) (judges ⟨q, a⟩) where
  spared := Program.forall_concat h.spared hq
  judged reaching hjudged := by
    rcases judged_concat.mp hjudged with hjudged | hjudges
    · cases h.judged reaching hjudged
    · exact hjudges.symm

theorem Open.ask (h : Open t reached) {q : Query E} (hq : q.touches = false)
    {k : q.Answer → Asking E (Sitting E)} (hk : ∀ answer, Gated under (t ++ [⟨q, answer⟩]) (k answer)) :
    Gated under t (.ask q k) :=
  ⟨h.pre hq, hk⟩

theorem Open.cleared (h : Open t reached)
    (hpermits : ∀ reaching, some reaching = reached → under.scope.permits reaching = .ok ()) :
    Cleared under t :=
  ⟨h.begins, fun reaching hjudged => hpermits reaching (h.judged reaching hjudged)⟩

theorem Cleared.concat (h : Cleared under t) {q : Query E} (hq : q.begins = false) {a : q.Answer}
    (hjudges : judges ⟨q, a⟩ = none) : Cleared under (t ++ [⟨q, a⟩]) where
  last := Program.forall_concat h.last hq
  permitted reaching hjudged := by
    rw [judged_concat, hjudges] at hjudged
    exact h.permitted reaching (hjudged.resolve_right nofun)

theorem Cleared.ask (h : Cleared under t) {q : Query E}
    (hgated : q.engineCall = true → under.hasRoom = true ∧
      (∀ ips ∈ q.reach, ∀ a, E.holds ips a → under.scope.Allows a) ∧
      (under.audit.configured = true → ∃ id, Recorded t id))
    {k : q.Answer → Asking E (Sitting E)} (hk : ∀ answer, Gated under (t ++ [⟨q, answer⟩]) (k answer)) :
    Gated under t (.ask q k) := by
  refine ⟨⟨h.last, ?_, hgated⟩, hk⟩
  intro reaching refusal hjudged hrefused
  rw [h.permitted reaching hjudged] at hrefused
  cases hrefused

theorem Cleared.fail (hpermitted : ∀ reaching, Judged t reaching → under.scope.permits reaching = .ok ())
    (error : Error) : Gated under t (.fail error) :=
  Post.of_error fun reaching refusal hjudged hrefused => by
    rw [hpermitted reaching hjudged] at hrefused
    cases hrefused

/-! ## The pieces of a pipeline, before the judging -/

theorem Open.refuse (h : Open t reached) {refusal : Error} {kind : String} {targets : List String}
    (hfits : under.hasRoom = false ∨
      ∀ reaching r, some reaching = reached → under.scope.permits reaching = .error r → r = refusal) :
    Gated under t (do under.audit.refused refusal kind targets; .fail refusal) := by
  have hpost : ∀ {t' : Trace E} {error : Error}, Open t' reached →
      Answered under t' refusal (.error error) → Post under t' (.error error) := by
    intro t' error h' hanswered
    refine .of_error fun reaching r hjudged hrefused => ⟨h'.spared, ?_⟩
    rcases hfits with hfull | hfits
    · exact .full error hfull
    · rw [hfits reaching r (h'.judged reaching hjudged) hrefused]
      exact hanswered
  have htold : ∀ (now : Nat) (answer : Except String Unit), Refused ((t ++ [⟨.now, now⟩]) ++
      [⟨.auditWrite (.refused (E.rfc3339 now) kind targets refusal.code refusal.message), answer⟩])
      refusal answer :=
    fun now answer => ⟨E.rfc3339 now, kind, targets, List.mem_concat_self⟩
  apply h.ask rfl
  intro now
  have hnow := h.concat (q := .now) rfl (a := now) rfl
  show Gated under _ (under.audit.write _ >>= _)
  unfold Audit.write
  split_ifs with hconfigured
  · apply hnow.ask rfl
    intro answer
    have hwrite := hnow.concat (q := .auditWrite _) rfl (a := answer) rfl
    cases answer with
    | ok _ => exact hpost hwrite (.refused fun _ => htold now (.ok ()))
    | error broken => exact hpost hwrite (.unwritable broken (htold now (.error broken)))
  · exact hpost hnow (.refused fun hc => absurd hc hconfigured)

theorem Open.room (h : Open t reached) {kind : String} {targets : List String}
    {f : Unit → Asking E (Sitting E)} (hf : under.hasRoom = true → Gated under t (f ())) :
    Gated under t (under.room kind targets >>= f) := by
  unfold Policy.room
  split_ifs with hroom
  · exact hf hroom
  · dsimp only
    rw [bind_assoc]
    exact h.refuse (.inl (Bool.eq_false_iff.mpr hroom))

theorem Open.permit {reaching : E.IpSet} (h : Open t (some reaching)) {kind : String}
    {targets : List String} {f : Unit → Asking E (Sitting E)}
    (hf : Cleared under t → under.scope.permits reaching = .ok () → Gated under t (f ())) :
    Gated under t (under.permit reaching kind targets >>= f) := by
  unfold Policy.permit
  cases hpermits : under.scope.permits reaching with
  | ok _ =>
    refine hf (h.cleared fun reaching' heq => ?_) hpermits
    cases heq
    exact hpermits
  | error refusal =>
    dsimp only
    rw [bind_assoc]
    refine h.refuse (.inr fun reaching' r heq hr => ?_)
    cases heq
    rw [hpermits] at hr
    cases hr
    rfl

theorem Open.orFail (h : Open t none) {x : Except Error α} {f : α → Asking E (Sitting E)}
    (hf : ∀ value, Gated under t (f value)) : Gated under t (Program.ofExcept x >>= f) := by
  cases x with
  | ok value => exact hf value
  | error error => exact h.post_fail error

theorem Open.orEngine (h : Open t none) {x : Except EngineError α} {f : α → Asking E (Sitting E)}
    (hf : ∀ value, Gated under t (f value)) : Gated under t (ZondDaemon.orEngine x >>= f) := by
  cases x with
  | ok value => exact hf value
  | error error => exact h.post_fail _

theorem Open.portsOf (h : Open t none) {asked : ScanRequest E.toEngineTypes}
    {f : E.PortSet → Asking E (Sitting E)} (hf : ∀ ports, Gated under t (f ports)) :
    Gated under t (Start.portsOf asked >>= f) := by
  unfold Start.portsOf
  cases E.requestPorts asked with
  | none => exact hf _
  | some ports => exact h.orEngine hf

theorem Open.resolver (h : Open t none) {config : ZondConfig E.toEngineTypes}
    {f : Option E.Resolver → Asking E (Sitting E)}
    (hf : ∀ resolver t', Open t' none → Gated under t' (f resolver)) :
    Gated under t (Start.resolver config >>= f) := by
  unfold Start.resolver
  split_ifs
  · exact hf none t h
  · exact h.ask rfl fun answer => hf (some answer) _ (h.concat (q := .resolverFromSystem) rfl rfl)

theorem Open.toTargetMap (h : Open t none) {targets : List String} {ports : E.PortSet}
    {resolver : Option E.Resolver} {f : E.TargetMap → Asking E (Sitting E)}
    (hf : ∀ map t', Open t' (some (E.reachedBy map)) → Gated under t' (f map)) :
    Gated under t (Start.toTargetMap targets ports resolver >>= f) := by
  unfold Start.toTargetMap
  cases resolver with
  | none =>
    apply h.ask (q := .parseTargets targets ports) rfl
    intro answer
    cases answer with
    | ok map => exact hf map _ (h.judge rfl)
    | error error => exact (h.concat (q := .parseTargets targets ports) rfl rfl).post_fail _
  | some resolver =>
    apply h.ask (q := .resolveTargets targets ports resolver) rfl
    intro answer
    cases answer with
    | ok map => exact hf map _ (h.judge rfl)
    | error error => exact (h.concat (q := .resolveTargets targets ports resolver) rfl rfl).post_fail _

theorem Open.exclusions (h : Open t reached) {excluded : List String} {resolver : Option E.Resolver}
    {f : E.Exclusions → Asking E (Sitting E)}
    (hf : ∀ exclusions t', Open t' reached → Gated under t' (f exclusions)) :
    Gated under t (Start.exclusions excluded resolver >>= f) := by
  apply h.ask (q := .forExclusion excluded resolver) rfl
  intro answer
  have hasked := h.concat (q := .forExclusion excluded resolver) rfl (a := answer) rfl
  cases answer with
  | ok exclusions => exact hf exclusions _ hasked
  | error error =>
    refine Post.of_error fun reaching refusal _ _ => ⟨hasked.spared, ?_⟩
    exact .excluded error excluded resolver List.mem_concat_self

/-! ## The pieces of a pipeline, past it -/

theorem Cleared.recordUnder (h : Cleared under t) {plan : E.Plan} {summary : String}
    {f : Option E.Journal → Asking E (Sitting E)}
    (hf : ∀ journal t', Cleared under t' → Gated under t' (f journal)) :
    Gated under t (Start.recordUnder under plan summary >>= f) := by
  unfold Start.recordUnder
  split_ifs
  · apply h.ask (q := .prepareRoot) nofun
    intro answer
    have hprepared := h.concat (q := .prepareRoot) rfl (a := answer) rfl
    cases answer with
    | error refused => exact hf none _ hprepared
    | ok _ =>
      apply hprepared.ask (q := .createJournal plan summary) nofun
      intro answer
      have hcreated := hprepared.concat (q := .createJournal plan summary) rfl (a := answer) rfl
      cases answer with
      | ok journal => exact hf (some journal) _ hcreated
      | error refused => exact hf none _ hcreated
  · exact hf none t h

theorem Cleared.namedBy (h : Cleared under t) {journal : Option E.Journal}
    {f : String → Asking E (Sitting E)} (hf : ∀ id t', Cleared under t' → Gated under t' (f id)) :
    Gated under t (Start.namedBy journal >>= f) := by
  cases journal with
  | some journal => exact hf _ t h
  | none => exact h.ask (q := .mint) nofun fun id => hf id _ (h.concat (q := .mint) rfl rfl)

theorem Cleared.record (h : Cleared under t) {id kind : String} {targets : List String}
    {f : Unit → Asking E (Sitting E)}
    (hf : ∀ t', Cleared under t' → (under.audit.configured = true → Recorded t' id) →
      Gated under t' (f ())) : Gated under t (under.record id kind targets >>= f) := by
  apply h.ask (q := .now) nofun
  intro now
  have hnow := h.concat (q := .now) rfl (a := now) rfl
  show Gated under _ (under.audit.write _ >>= _)
  unfold Audit.write
  split_ifs with hconfigured
  · apply hnow.ask (q := .auditWrite _) nofun
    intro answer
    have hwrite := hnow.concat (q := .auditWrite (.started (E.rfc3339 now) id kind targets)) rfl
      (a := answer) rfl
    cases answer with
    | ok _ =>
      exact hf _ hwrite fun _ => ⟨E.rfc3339 now, kind, targets, List.mem_concat_self⟩
    | error broken => exact Cleared.fail hwrite.permitted _
  · exact hf _ hnow fun hc => absurd hc hconfigured

theorem Cleared.begin (h : Cleared under t) {q : Query E} (hq : q.begins = true) {id : String}
    {config : ZondConfig E.toEngineTypes} (hrecorded : under.audit.configured = true → Recorded t id)
    (hgated : q.engineCall = true → under.hasRoom = true ∧
      ∀ ips ∈ q.reach, ∀ a, E.holds ips a → under.scope.Allows a)
    (hjudges : ∀ answer, judges (E := E) ⟨q, answer⟩ = none)
    {answered : q.Answer → Except EngineError Session} :
    Gated under t (.ask q fun answer =>
      ZondDaemon.orEngine (answered answer) >>= fun session => .ret (started id session config)) := by
  apply h.ask (fun hcall => ⟨(hgated hcall).1, (hgated hcall).2, fun hc => ⟨id, hrecorded hc⟩⟩)
  intro answer
  have hpermitted : ∀ reaching, Judged (t ++ [⟨q, answer⟩]) reaching →
      under.scope.permits reaching = .ok () := by
    intro reaching hjudged
    rw [judged_concat, hjudges] at hjudged
    exact h.permitted reaching (hjudged.resolve_right nofun)
  cases answered answer with
  | error refused => exact Cleared.fail hpermitted _
  | ok session =>
    refine ⟨fun reaching refusal hjudged hrefused => ?_, ?_⟩
    · rw [hpermitted reaching hjudged] at hrefused
      cases hrefused
    · rintro _ ⟨⟩ hc
      exact ⟨t, _, rfl, hq, hrecorded hc⟩

section calls
variable (h : Cleared under t) (hroom : under.hasRoom = true) {id : String}
  {config : ZondConfig E.toEngineTypes} (hrecorded : under.audit.configured = true → Recorded t id)
include h hrecorded

theorem Cleared.listenWith {scope : ListenScope E.toEngineTypes} (journal : Option E.Journal) :
    Gated under t (Start.listenWith scope config journal >>= fun session =>
      .ret (started id session config)) := by
  cases journal with
  | none => exact h.begin (q := .listen scope config) rfl hrecorded nofun fun _ => rfl
  | some journal =>
    exact h.begin (q := .listenWithJournal scope config journal) rfl hrecorded nofun fun _ => rfl

include hroom

theorem Cleared.scanWith {map : E.TargetMap}
    (hreach : ∀ ips ∈ E.units map, ∀ a, E.holds ips a → under.scope.Allows a)
    (journal : Option E.Journal) :
    Gated under t (Start.scanWith map config journal >>= fun session =>
      .ret (started id session config)) := by
  cases journal with
  | none => exact h.begin (q := .scan map config) rfl hrecorded (fun _ => ⟨hroom, hreach⟩) fun _ => rfl
  | some journal =>
    exact h.begin (q := .scanWithJournal map config journal) rfl hrecorded (fun _ => ⟨hroom, hreach⟩)
      fun _ => rfl

theorem Cleared.discoverWith {addresses : E.IpSet}
    (hreach : ∀ a, E.holds addresses a → under.scope.Allows a) (journal : Option E.Journal) :
    Gated under t (Start.discoverWith addresses config journal >>= fun session =>
      .ret (started id session config)) := by
  have hunits : ∀ ips ∈ [addresses], ∀ a, E.holds ips a → under.scope.Allows a := by
    simpa using hreach
  cases journal with
  | none =>
    exact h.begin (q := .discover addresses config) rfl hrecorded (fun _ => ⟨hroom, hunits⟩) fun _ => rfl
  | some journal =>
    exact h.begin (q := .discoverWithJournal addresses config journal) rfl hrecorded
      (fun _ => ⟨hroom, hunits⟩) fun _ => rfl

end calls

/-! ## The pipelines -/

section pipelines
variable {Canonical : E.IpSet → Prop} (laws : IpSetLaws E Canonical)
  (hscope : (∀ s ∈ under.scope.allowed, Canonical s) ∧ Canonical under.scope.denied)

/-- A listen puts nothing on the wire, so nothing of it is judged. -/
theorem gated_watch (wire : Proto.StartRequest E.F64) (h : Open t none) :
    Gated under t (watch wire under) := by
  unfold watch
  apply h.orFail
  intro asked
  dsimp only
  split_ifs
  · exact h.post_fail _
  apply h.ask (q := .forListening wire.links) rfl
  intro answer
  have hasked := h.concat (q := .forListening wire.links) rfl (a := answer) rfl
  cases answer with
  | error refused => exact hasked.post_fail _
  | ok zones =>
    apply (hasked.cleared nofun).recordUnder
    intro journal t₁ h₁
    apply h₁.namedBy
    intro id t₂ h₂
    apply h₂.record
    intro t₃ h₃ hrecorded
    exact h₃.listenWith hrecorded journal

include laws hscope

theorem allows_units {map : E.TargetMap} (h : under.scope.permits (E.reachedBy map) = .ok ()) :
    ∀ ips ∈ E.units map, ∀ a, E.holds ips a → under.scope.Allows a := by
  have hall := (Scope.permits_ok_iff laws hscope (laws.canonicalize_canonical _)).mp h
  exact fun ips hips a ha => hall a ((Scope.holds_reachedBy laws map a).mpr ⟨ips, hips, ha⟩)

theorem gated_ports (wire : Proto.StartRequest E.F64) (hroom : under.hasRoom = true) (h : Open t none) :
    Gated under t (ports wire under) := by
  unfold ports
  apply h.orFail
  intro asked
  dsimp only
  split_ifs
  · exact h.post_fail _
  apply h.portsOf
  intro ports
  apply h.resolver
  intro resolver t₁ h₁
  apply h₁.toTargetMap
  intro map t₂ h₂
  apply h₂.exclusions
  intro exclusions t₃ h₃
  apply h₃.permit
  intro hcleared hpermits
  apply hcleared.recordUnder
  intro journal t₄ h₄
  apply h₄.namedBy
  intro id t₅ h₅
  apply h₅.record
  intro t₆ h₆ hrecorded
  exact h₆.scanWith hroom hrecorded (allows_units laws hscope hpermits) journal

theorem gated_sweep (wire : Proto.StartRequest E.F64) (hroom : under.hasRoom = true) (h : Open t none) :
    Gated under t (sweep wire under) := by
  unfold sweep
  apply h.orFail
  intro asked
  dsimp only
  split_ifs
  · exact h.post_fail _
  apply h.resolver
  intro resolver t₁ h₁
  apply h₁.ask (q := .forDiscovery asked.targets resolver) rfl
  intro answer
  cases answer with
  | error refused => exact (h₁.concat (q := .forDiscovery asked.targets resolver) rfl rfl).post_fail _
  | ok targets =>
    have h₂ := h₁.judge (q := .forDiscovery asked.targets resolver) rfl (a := .ok targets)
    apply h₂.exclusions
    intro exclusions t₃ h₃
    apply h₃.permit
    intro hcleared hpermits
    apply hcleared.recordUnder
    intro journal t₄ h₄
    apply h₄.namedBy
    intro id t₅ h₅
    apply h₅.record
    intro t₆ h₆ hrecorded
    exact h₆.discoverWith hroom hrecorded
      ((Scope.permits_ok_iff laws hscope (laws.intoIps_canonical _)).mp hpermits) journal

theorem gated_scan (wire : Proto.StartRequest E.F64) : Gated under [] (scan wire under) := by
  unfold scan
  apply open_nil.room
  intro hroom
  cases kindOf wire with
  | discovery => exact gated_sweep laws hscope wire hroom open_nil
  | listen => exact gated_watch wire open_nil
  | portScan => exact gated_ports laws hscope wire hroom open_nil
  | other name => exact gated_ports laws hscope wire hroom open_nil

theorem gated_resume (id : String) : Gated under [] (resume id under) := by
  unfold resume
  apply open_nil.ask (q := .listStore) rfl
  intro answer
  have hlisted := open_nil.concat (q := .listStore) rfl (a := answer) rfl
  apply hlisted.orEngine
  intro entries
  cases entries.find? fun entry => entry.id = id with
  | none => exact hlisted.post_fail _
  | some entry =>
    apply hlisted.ask (q := .reopen entry.directory) rfl
    intro answer
    cases answer with
    | error refused => exact (hlisted.concat (q := .reopen entry.directory) rfl rfl).post_fail _
    | ok reopened =>
      obtain ⟨journal, plan⟩ := reopened
      have hjudged := hlisted.judge (q := .reopen entry.directory) rfl (a := .ok (journal, plan))
      apply hjudged.room
      intro hroom
      simp only [judges] at hjudged
      cases hkind : E.planKind plan with
      | portScan =>
        simp only [hkind] at hjudged ⊢
        cases hmap : E.planTargets plan with
        | none =>
          rw [hmap] at hjudged
          exact hjudged.post_fail _
        | some map =>
          rw [hmap] at hjudged
          apply hjudged.permit
          intro hcleared hpermits
          apply hcleared.record
          intro t₁ h₁ hrecorded
          exact h₁.scanWith hroom hrecorded (allows_units laws hscope hpermits) (some journal)
      | discovery =>
        simp only [hkind] at hjudged ⊢
        cases haddresses : E.planAddresses plan with
        | none =>
          rw [haddresses] at hjudged
          exact hjudged.post_fail _
        | some addresses =>
          rw [haddresses] at hjudged
          apply hjudged.permit
          intro hcleared hpermits
          apply hcleared.record
          intro t₁ h₁ hrecorded
          exact h₁.discoverWith hroom hrecorded
            ((Scope.permits_ok_iff laws hscope (laws.planAddresses_canonical haddresses)).mp hpermits)
            (some journal)
      | listen =>
        simp only [hkind] at hjudged ⊢
        cases E.planLinks plan with
        | none => exact hjudged.post_fail _
        | some zones =>
          apply (hjudged.cleared nofun).record
          intro t₁ h₁ hrecorded
          exact h₁.listenWith hrecorded (some journal)
      | other name =>
        simp only [hkind] at hjudged ⊢
        exact hjudged.post_fail _

end pipelines

/-! ## The gate -/

theorem gated_pipeline {Canonical : E.IpSet → Prop} (laws : IpSetLaws E Canonical) {rules : Rules E}
    {allowed denied : List String} (hscope : Scope.read allowed denied = .ok rules.scope)
    (request : Request E) (slot : Option Slot) :
    Gated (rules.policy slot.isSome) [] (request.pipeline rules slot) := by
  have hcanonical := Scope.read_canonical laws hscope
  cases request with
  | start wire => exact gated_scan laws hcanonical wire
  | resume id => exact gated_resume laws hcanonical id

/-- **Nothing reaches the wire but through the gate.** A call of the engine is made with a slot held, on
addresses the scope allows every one of, and after the start is written down under the scan's name. A
request the scope refuses touches nothing, and is answered once the refusal is written down. -/
theorem gate {Canonical : E.IpSet → Prop} (laws : IpSetLaws E Canonical) {rules : Rules E}
    {allowed denied : List String} (hscope : Scope.read allowed denied = .ok rules.scope)
    (request : Request E) (slot : Option Slot) :
    (∀ t q, (request.pipeline rules slot).Asks t q → q.engineCall = true →
      slot.isSome = true ∧ (∀ ips ∈ q.reach, ∀ a, E.holds ips a → rules.scope.Allows a) ∧
      (rules.audit.configured = true → (∃ id, Recorded t id) ∧ ∀ answer t' sitting,
        (request.pipeline rules slot).Ends (t ++ ⟨q, answer⟩ :: t') (.ok sitting) →
        Recorded t sitting.scan.id)) ∧
    ∀ t reaching refusal, Judged t reaching → rules.scope.permits reaching = .error refusal →
      (∀ p, (request.pipeline rules slot).Reaches t p →
        (∀ step ∈ t, step.1.touches = false) ∧ ∀ q k, p = .ask q k → q.touches = false) ∧
      ∀ out, (request.pipeline rules slot).Ends t out →
        Answered (rules.policy slot.isSome) t refusal out := by
  have hgated := gated_pipeline laws hscope request slot
  refine ⟨fun t q hasks hcall => ?_, fun t reaching refusal hjudged hrefused => ⟨?_, ?_⟩⟩
  · obtain ⟨hroom, hreach, hwritten⟩ := (hgated.asked hasks).gated hcall
    refine ⟨hroom, hreach, fun hc => ⟨hwritten hc, fun answer t' sitting hends => ?_⟩⟩
    obtain ⟨before, step, heq, -, hrecorded⟩ := (hgated.ended hends).named sitting rfl hc
    -- nothing is asked after a call of the engine, so it is the last thing in the trace
    rcases List.eq_nil_or_concat t' with rfl | ⟨t'', last, rfl⟩
    · rw [(List.append_inj' heq rfl).1]
      exact hrecorded
    · rw [List.concat_eq_append] at hends
      obtain ⟨q', answer'⟩ := last
      rw [← List.cons_append, ← List.append_assoc] at hends
      have hasks' : (request.pipeline rules slot).Asks (t ++ ⟨q, answer⟩ :: t'') q' := hends.asks
      have hlast := (hgated.asked hasks').last ⟨q, answer⟩
        (List.mem_append_right t List.mem_cons_self)
      rw [Query.engineCall_of_begins hlast] at hcall
      cases hcall
  · intro p hreaches
    have hat := hgated.reaches hreaches
    cases p with
    | ret sitting => exact ⟨(hat.spared reaching refusal hjudged hrefused).1, nofun⟩
    | fail error => exact ⟨(hat.spared reaching refusal hjudged hrefused).1, nofun⟩
    | ask q k =>
      obtain ⟨hq, hspared⟩ := hat.1.spared reaching refusal hjudged hrefused
      refine ⟨hspared, fun q' k' heq => ?_⟩
      cases heq
      exact hq
  · exact fun out hends => ((hgated.ended hends).spared reaching refusal hjudged hrefused).2

/-- A daemon of the plain engine that may be pointed at one address alone, and writes everything down. -/
def tenOnly : Rules Plain.engine where
  root := true
  scope := ⟨some ⟨Spans.empty.insert 10 10, .empty⟩, Plain.engine.newSet⟩
  audit := ⟨true⟩
  ceiling := none
  ceiling_le := Rules.none_le

/-- A start naming one target, a slot in hand. -/
def startOf (target : String) : Asking Plain.engine (Sitting Plain.engine) :=
  Request.pipeline tenOnly (some {}) (.start { targets := [target] })

def transcriptOf (target : String) : Trace Plain.engine := (startOf target).transcript Plain.world

theorem gate_tenOnly :
    (∃ t q, (startOf "10").Asks t q ∧ q.engineCall = true ∧
      (∀ ips ∈ q.reach, ∀ a, Plain.engine.holds ips a → tenOnly.scope.Allows a) ∧ ∃ id, Recorded t id) ∧
    ∃ refusal, (startOf "11").Ends (transcriptOf "11") (.error refusal) ∧
      (∀ step ∈ transcriptOf "11", step.1.touches = false) ∧
      Answered (tenOnly.policy true) (transcriptOf "11") refusal (.error refusal) := by
  have hscope : Scope.read ["10"] [] = .ok tenOnly.scope := rfl
  have hgate := fun target => gate Plain.lawful hscope (.start { targets := [target] }) (some {})
  constructor
  · have hends : (startOf "10").Ends ((transcriptOf "10").take 7 ++ (transcriptOf "10")[7] :: []) _ :=
      Program.ends_transcript Plain.world (startOf "10")
    have hasks : (startOf "10").Asks ((transcriptOf "10").take 7) (transcriptOf "10")[7].1 := hends.asks
    obtain ⟨-, hreach, hwritten⟩ := (hgate "10").1 _ _ hasks rfl
    exact ⟨_, _, hasks, rfl, hreach, (hwritten rfl).1⟩
  · have hends := Program.ends_transcript Plain.world (startOf "11")
    have hjudged : Judged (transcriptOf "11") (Plain.engine.reachedBy (Plain.resolve ["11"])) :=
      ⟨(transcriptOf "11")[1], List.getElem_mem _, rfl⟩
    obtain ⟨htouches, hanswered⟩ := (hgate "11").2 _ _ _ hjudged rfl
    exact ⟨_, hends, (htouches _ hends).1, hanswered _ hends⟩

end Start

end ZondDaemon
