import ZondDaemon.Daemon.Room
import ZondDaemon.Start.Prepare

/-!
# What a start that is turned down leaves behind

A start makes its record after the policy has judged it and before the audit has written it down, so one
step can still turn it down once the record is there. `own` is a call going on by itself, each journal it
makes adding a record to the directory, and `Stands` is what the daemon is at every point of it: what it was
but for the slot the call holds and the records of the journals it made.
-/

namespace ZondDaemon

open Program (Step Holds)

variable {E : Engine}

namespace Start

/-! ## What a pipeline has made by the time it fails -/

/-- A journal was made. -/
def Made (t : Trace E) : Prop :=
  ∃ plan summary journal, ⟨.createJournal plan summary, .ok journal⟩ ∈ t

/-- The audit could not write down that a scan started. -/
def Unwritten (t : Trace E) : Prop :=
  ∃ at' id kind targets broken, ⟨.auditWrite (.started at' id kind targets), .error broken⟩ ∈ t

/-- A pipeline that fails with a journal made and the engine never called failed over the audit. -/
def Leaves (t : Trace E) (out : Except Error (Sitting E)) : Prop :=
  ∀ error, out = .error error → (∀ step ∈ t, step.1.begins = false) → Made t → Unwritten t

/-- A program that ends so, after the trace. -/
abbrev Leaving (t : Trace E) (p : Asking E (Sitting E)) : Prop := Holds (fun _ _ => True) Leaves t p

variable {α : Type} {t : Trace E} {under : Policy E} {config : ZondConfig E.toEngineTypes}

theorem not_made_nil : ¬ Made ([] : Trace E) := by
  rintro ⟨plan, summary, journal, hmem⟩
  cases hmem

theorem not_made_concat {q : Query E} (answer : q.Answer) (h : ¬ Made t) (hq : q.opens = false) :
    ¬ Made (t ++ [⟨q, answer⟩]) := by
  rintro ⟨plan, summary, journal, hmem⟩
  rcases List.mem_append.mp hmem with hmem | hmem
  · exact h ⟨plan, summary, journal, hmem⟩
  · cases List.mem_singleton.mp hmem
    cases hq

theorem leaving_bind {p : Asking E α} {f : α → Asking E (Sitting E)} (h : ¬ Made t) (hp : Preparing p)
    (hf : ∀ value t', ¬ Made t' → Leaving t' (f value)) : Leaving t (p >>= f) := by
  refine hp.bind_holds (I := fun t => ¬ Made t) (fun _ _ _ _ => trivial) ?_ ?_ ?_ h
  · exact fun _ _ answer hnone hq => not_made_concat answer hnone hq
  · exact fun _ _ hnone _ _ _ hmade => absurd hmade hnone
  · exact fun t' value hnone => hf value t' hnone

theorem leaving_fail (h : ¬ Made t) (error : Error) : Leaving t (.fail error) :=
  fun _ _ _ hmade => absurd hmade h

/-! ### From the record on -/

/-- Once the engine is called, whatever comes of it is no refusal. -/
theorem leaving_begin {q : Query E} (hq : q.begins = true) {answered : q.Answer → Except EngineError Session}
    {id : String} : Leaving t (.ask q fun answer =>
      ZondDaemon.orEngine (answered answer) >>= fun session => .ret (started id session config)) := by
  refine ⟨trivial, fun answer => ?_⟩
  have hleaves : ∀ out, Leaves (t ++ [⟨q, answer⟩]) out := by
    intro out error _ hnever
    have hlast := hnever ⟨q, answer⟩ List.mem_concat_self
    rw [hq] at hlast
    cases hlast
  show Leaving _ (ZondDaemon.orEngine (answered answer) >>= _)
  cases answered answer with
  | ok session => exact hleaves _
  | error refused => exact hleaves _

theorem leaving_record {id kind : String} {targets : List String} {f : Unit → Asking E (Sitting E)}
    (hf : ∀ t', Leaving t' (f ())) : Leaving t (under.record id kind targets >>= f) := by
  refine ⟨trivial, fun now => ?_⟩
  show Leaving _ (under.audit.write _ >>= f)
  unfold Audit.write
  split_ifs
  · refine ⟨trivial, fun answer => ?_⟩
    cases answer with
    | ok _ => exact hf _
    | error broken =>
      intro _ _ _ _
      exact ⟨E.rfc3339 now, id, kind, targets, broken, List.mem_concat_self⟩
  · exact hf _

theorem leaving_recordUnder {plan : E.Plan} {summary kind : String} {targets : List String}
    {f : Option E.Journal → String → Asking E (Sitting E)} (hf : ∀ journal id t', Leaving t' (f journal id)) :
    Leaving t (do
      let journal ← recordUnder under plan summary
      let id ← namedBy journal
      under.record id kind targets
      f journal id) := by
  have hnamed : ∀ (journal : Option E.Journal) (t' : Trace E), Leaving t' (do
      let id ← namedBy journal
      under.record id kind targets
      f journal id) := by
    intro journal t'
    cases journal with
    | some journal => exact leaving_record fun t'' => hf (some journal) _ t''
    | none => exact ⟨trivial, fun id => leaving_record fun t'' => hf none id t''⟩
  unfold recordUnder
  split_ifs
  · refine ⟨trivial, fun answer => ?_⟩
    cases answer with
    | error refused => exact hnamed none _
    | ok _ =>
      refine ⟨trivial, fun answer => ?_⟩
      cases answer with
      | ok journal => exact hnamed (some journal) _
      | error refused => exact hnamed none _
  · exact hnamed none _

/-! ### The pipelines -/

theorem leaving_ports (wire : Proto.StartRequest E.F64) (h : ¬ Made t) : Leaving t (ports wire under) := by
  apply leaving_bind h (preparing_ofExcept _)
  intro asked t₁ h₁
  dsimp only
  split_ifs
  · exact leaving_fail h₁ _
  · apply leaving_bind h₁ (preparing_portsOf asked)
    intro ports t₂ h₂
    apply leaving_bind h₂ preparing_resolver
    intro resolver t₃ h₃
    apply leaving_bind h₃ (preparing_toTargetMap _ _ _)
    intro map t₄ h₄
    apply leaving_bind h₄ (preparing_exclusions _ _)
    intro exclusions t₅ h₅
    apply leaving_bind h₅ (preparing_permit _ _ _)
    intro _ t₆ _
    apply leaving_recordUnder
    intro journal id t₇
    cases journal with
    | none => exact leaving_begin (q := .scan _ _) rfl
    | some journal => exact leaving_begin (q := .scanWithJournal _ _ journal) rfl

theorem leaving_sweep (wire : Proto.StartRequest E.F64) (h : ¬ Made t) : Leaving t (sweep wire under) := by
  apply leaving_bind h (preparing_ofExcept _)
  intro asked t₁ h₁
  dsimp only
  split_ifs
  · exact leaving_fail h₁ _
  · apply leaving_bind h₁ preparing_resolver
    intro resolver t₂ h₂
    apply leaving_bind h₂ (p := call (.forDiscovery _ _)) ⟨rfl, fun _ => trivial⟩
    intro answer t₃ h₃
    apply leaving_bind h₃ (preparing_orEngine _)
    intro targets t₄ h₄
    apply leaving_bind h₄ (preparing_exclusions _ _)
    intro exclusions t₅ h₅
    apply leaving_bind h₅ (preparing_permit _ _ _)
    intro _ t₆ _
    apply leaving_recordUnder
    intro journal id t₇
    cases journal with
    | none => exact leaving_begin (q := .discover _ _) rfl
    | some journal => exact leaving_begin (q := .discoverWithJournal _ _ journal) rfl

theorem leaving_watch (wire : Proto.StartRequest E.F64) (h : ¬ Made t) : Leaving t (watch wire under) := by
  apply leaving_bind h (preparing_ofExcept _)
  intro asked t₁ h₁
  dsimp only
  split_ifs
  · exact leaving_fail h₁ _
  · apply leaving_bind h₁ (p := call (.forListening _)) ⟨rfl, fun _ => trivial⟩
    intro answer t₂ h₂
    cases answer with
    | error refused => exact leaving_fail h₂ _
    | ok zones =>
      apply leaving_recordUnder
      intro journal id t₃
      cases journal with
      | none => exact leaving_begin (q := .listen _ _) rfl
      | some journal => exact leaving_begin (q := .listenWithJournal _ _ journal) rfl

/-- A start that fails before the engine is called, with a journal made, could not be written down. -/
theorem leaving_scan (wire : Proto.StartRequest E.F64) : Leaving [] (scan wire under) := by
  apply leaving_bind not_made_nil (preparing_room _ _)
  intro _ t h
  split
  · exact leaving_sweep wire h
  · exact leaving_watch wire h
  · exact leaving_ports wire h

end Start

namespace Daemon

open Start (Trace Made Unwritten)

/-! ## A call by itself -/

/-- The record a step adds to the journal directory, `made` being what the engine writes for a journal. -/
def recordOf (made : E.Plan → String → E.Journal → Entry E.toEngineTypes) :
    Step (Q := Query E) Query.Answer → Option (Entry E.toEngineTypes)
  | ⟨.createJournal plan summary, .ok journal⟩ => some (made plan summary journal)
  | _ => none

/-- A step of the call's own. -/
inductive Own (E : Engine)
  | reserve (spurious : Bool)
  | answer (world : (q : Query E) → Option q.Answer)
  | proceed

/-- The step, as the daemon's. -/
def Own.act (i : Nat) : Own E → Act E
  | .reserve spurious => .reserve i spurious
  | .answer world => .answer i world
  | .proceed => .proceed i

/-- What the call `i` asks in a step, and is answered. -/
def told (d : Daemon E) (i : Nat) : Own E → Trace E
  | .answer world =>
    match (d.calls[i]?).map Call.pc with
    | some (.running (.ask q _) _) => ((world q).map fun answer => ⟨q, d.sees q answer⟩).toList
    | _ => []
  | _ => []

/-- The call `i` going on by itself: its trace, and the daemon, to whose directory every journal it makes
adds a record. -/
def own (rules : Rules E) (made : E.Plan → String → E.Journal → Entry E.toEngineTypes) (i : Nat) :
    Machine (Trace E × Daemon E) (Own E) where
  step s a := ((machine rules).step s.2 (a.act i)).map fun d => (s.1 ++ s.2.told i a,
    { d with store := d.store.map (· ++ (s.2.told i a).filterMap (recordOf made)) })

variable {rules : Rules E} {made : E.Plan → String → E.Journal → Entry E.toEngineTypes}
  {d d' d'' : Daemon E} {i : Nat} {t t' : Trace E} {a : Own E} {wire : Proto.StartRequest E.F64}

theorem own_reach {P : Trace E × Daemon E → Own E → Prop} {s s' : Trace E × Daemon E}
    (h : (own rules made i).Reach P s s') : (machine rules).Reach Machine.Always s.2 s'.2 := by
  apply h.invariant (I := fun s' => (machine rules).Reach Machine.Always s.2 s'.2) .refl
  intro u v a _ hu _ hstep
  obtain ⟨d, hd, rfl⟩ := Option.map_eq_some_iff.mp hstep
  exact (hu.tail trivial hd).tail (a := .store _) trivial rfl

/-- The daemon is what it was, but for the slot and for the records of the journals made. -/
structure Kept (rules : Rules E) (made : E.Plan → String → E.Journal → Entry E.toEngineTypes)
    (d : Daemon E) (t : Trace E) (d' : Daemon E) (slot : Option Slot) : Prop where
  inner : d'.inner = d.inner
  taken : d'.taken = d.taken + if slot.isSome then 1 else 0
  room : slot.isSome = true → d.taken < rules.most
  store : d'.store = d.store.map (· ++ t.filterMap (recordOf made))

/-- Where the call stands, and what the daemon is by then. -/
inductive Stands (rules : Rules E) (made : E.Plan → String → E.Journal → Entry E.toEngineTypes)
    (d : Daemon E) (wire : Proto.StartRequest E.F64) (t : Trace E) (d' : Daemon E) : CallPc E → Prop
  | loading : t = [] → Kept rules made d t d' none → Stands rules made d wire t d' .loading
  | reserving {taken : Nat} : t = [] → Kept rules made d t d' none →
      Stands rules made d wire t d' (.reserving taken)
  | running {program : Asking E (Sitting E)} {slot : Option Slot} :
      ((Request.start wire).pipeline rules slot).Reaches t program → Kept rules made d t d' slot →
      Stands rules made d wire t d' (.running program slot)
  | dropping {slot : Option Slot} {error : Error} :
      ((Request.start wire).pipeline rules slot).Reaches t (.fail error) → Kept rules made d t d' slot →
      Stands rules made d wire t d' (.dropping slot (some error))
  | refused {slot : Option Slot} {error : Error} :
      ((Request.start wire).pipeline rules slot).Reaches t (.fail error) → Kept rules made d t d' none →
      Stands rules made d wire t d' (.returned (some (.error error)))
  | filing {j : Nat} {slot : Option Slot} : Stands rules made d wire t d' (.filing j slot)
  | following {j : Nat} {slot : Option Slot} : Stands rules made d wire t d' (.following j slot)
  | accepted {id : String} : Stands rules made d wire t d' (.returned (some (.ok id)))

/-- The call `i` is the one for the request, and stands somewhere. -/
def OnItsWay (rules : Rules E) (made : E.Plan → String → E.Journal → Entry E.toEngineTypes)
    (d : Daemon E) (wire : Proto.StartRequest E.F64) (i : Nat) (s : Trace E × Daemon E) : Prop :=
  ∃ call, s.2.calls[i]? = some call ∧ call.request = .start wire ∧ Stands rules made d wire s.1 s.2 call.pc

theorem Kept.goes {slot slot' : Option Slot} (h : Kept rules made d t d' slot) (u : Trace E)
    (hinner : d''.inner = d'.inner) (hstore : d''.store = d'.store.map (· ++ u.filterMap (recordOf made)))
    (htaken : d''.taken = d.taken + if slot'.isSome then 1 else 0)
    (hroom : slot'.isSome = true → d.taken < rules.most) : Kept rules made d (t ++ u) d'' slot' where
  inner := hinner.trans h.inner
  taken := htaken
  room := hroom
  store := by
    rw [hstore, h.store, List.filterMap_append]
    cases d.store with
    | ok entries => simp [Except.map]
    | error refused => rfl

theorem Kept.quiet {slot : Option Slot} (h : Kept rules made d t d' slot) (hinner : d''.inner = d'.inner)
    (hstore : d''.store = d'.store.map (· ++ ([] : Trace E).filterMap (recordOf made)))
    (htaken : d''.taken = d'.taken) : Kept rules made d (t ++ []) d'' slot :=
  h.goes [] hinner hstore (htaken.trans h.taken) h.room

variable {call : Call E}

theorem reserve_onItsWay {spurious : Bool} (hcall : d'.calls[i]? = some call)
    (hrequest : call.request = .start wire) (hstands : Stands rules made d wire t d' call.pc)
    (hstep : d'.reserve rules i spurious call = some d'') : OnItsWay rules made d wire i
      (t ++ [], { d'' with store := d''.store.map (· ++ ([] : Trace E).filterMap (recordOf made)) }) := by
  have htries : ∀ pc, call.pc = pc → (pc = .loading ∨ ∃ taken, pc = .reserving taken) →
      t = [] ∧ Kept rules made d t d' none := by
    rintro pc hpc (rfl | ⟨taken, rfl⟩)
    · rw [hpc] at hstands
      cases hstands with
      | loading ht hkept => exact ⟨ht, hkept⟩
    · rw [hpc] at hstands
      cases hstands with
      | reserving ht hkept => exact ⟨ht, hkept⟩
  rcases reserve_cases hstep with ⟨hpc, rfl⟩ | ⟨taken, hpc, -, rfl⟩ | ⟨hpc, hroom, rfl⟩
  · obtain ⟨rfl, hkept⟩ := htries _ rfl hpc
    exact ⟨_, goes_self hcall _, hrequest, .reserving rfl (hkept.quiet rfl rfl rfl)⟩
  · obtain ⟨rfl, hkept⟩ := htries _ hpc (.inr ⟨taken, rfl⟩)
    refine ⟨_, goes_self hcall _, hrequest, ?_⟩
    rw [hrequest]
    exact .running .refl (hkept.quiet rfl rfl rfl)
  · obtain ⟨rfl, hkept⟩ := htries _ hpc (.inr ⟨d'.taken, rfl⟩)
    have htaken : d'.taken = d.taken := hkept.taken
    rw [htaken] at hroom
    refine ⟨_, goes_self hcall _, hrequest, ?_⟩
    rw [hrequest]
    refine .running .refl (hkept.goes [] rfl rfl ?_ fun _ => hroom)
    have hle := rules.most_le
    show (d'.taken + 1) % (usizeMax + 1) = d.taken + 1
    rw [htaken, Nat.mod_eq_of_lt (by omega)]

theorem answer_onItsWay {world : (q : Query E) → Option q.Answer} (hcall : d'.calls[i]? = some call)
    (hrequest : call.request = .start wire) (hstands : Stands rules made d wire t d' call.pc)
    (hstep : d'.answer i world call = some d'') : OnItsWay rules made d wire i
      (t ++ d'.told i (.answer world),
        { d'' with store := d''.store.map (· ++ (d'.told i (.answer world)).filterMap (recordOf made)) }) := by
  unfold answer at hstep
  split at hstep
  · rename_i q k slot hpc
    obtain ⟨answer, hanswer, rfl⟩ := Option.map_eq_some_iff.mp hstep
    have htold : d'.told i (.answer world) = [⟨q, d'.sees q answer⟩] := by
      simp only [told, hcall, Option.map_some, hpc, hanswer, Option.toList]
    rw [hpc] at hstands
    cases hstands with
    | running hreaches hkept =>
      rw [htold]
      refine ⟨_, goes_self hcall _, hrequest, .running (hreaches.answer _) ?_⟩
      exact hkept.goes _ rfl rfl hkept.taken hkept.room
  · cases hstep

theorem proceed_onItsWay (hcall : d'.calls[i]? = some call) (hrequest : call.request = .start wire)
    (hstands : Stands rules made d wire t d' call.pc) (hstep : d'.proceed i call = some d'') :
    OnItsWay rules made d wire i
      (t ++ [], { d'' with store := d''.store.map (· ++ ([] : Trace E).filterMap (recordOf made)) }) := by
  unfold proceed at hstep
  split at hstep
  · cases hstep
    exact ⟨_, goes_self hcall _, hrequest, .filing⟩
  · rename_i error slot hpc
    cases hstep
    rw [hpc] at hstands
    cases hstands with
    | running hreaches hkept =>
      refine ⟨_, goes_self hcall _, hrequest, ?_⟩
      rw [← List.append_nil t] at hreaches
      exact .dropping hreaches (hkept.quiet rfl rfl rfl)
  · obtain ⟨l, -, rfl⟩ := Option.map_eq_some_iff.mp hstep
    exact ⟨_, goes_self hcall _, hrequest, .following⟩
  · obtain ⟨l, -, hstep⟩ := Option.bind_eq_some_iff.mp hstep
    obtain ⟨l', -, rfl⟩ := Option.map_eq_some_iff.mp hstep
    exact ⟨_, goes_self hcall _, hrequest, .accepted⟩
  · rename_i slot error hpc
    cases hstep
    rw [hpc] at hstands
    cases hstands with
    | dropping hreaches hkept =>
      refine ⟨_, goes_self hcall _, hrequest, ?_⟩
      rw [← List.append_nil t] at hreaches
      refine .refused hreaches (hkept.goes [] rfl rfl ?_ nofun)
      show dropped d'.taken slot = d.taken + 0
      have htaken := hkept.taken
      cases slot with
      | none => exact htaken
      | some slot =>
        have hroom := hkept.room rfl
        have hle := rules.most_le
        simp only [Option.isSome_some, if_true] at htaken
        show released d'.taken = _
        rw [htaken, released_eq (Nat.succ_pos _) (by omega)]
        rfl
  · cases hstep

theorem own_onItsWay {P : Trace E × Daemon E → Own E → Prop} {s : Trace E × Daemon E}
    (h : (own rules made d.calls.length).Reach P ([], d.comes rules (.start wire)) s) :
    OnItsWay rules made d wire d.calls.length s := by
  apply h.invariant (I := OnItsWay rules made d wire d.calls.length)
  · refine ⟨⟨.start wire, .loading⟩, ?_, rfl, .loading rfl ⟨rfl, rfl, nofun, ?_⟩⟩
    · rw [comes, List.getElem?_append_right (Nat.le_refl _), Nat.sub_self]
      rfl
    · show d.store = d.store.map (· ++ [])
      cases d.store with
      | ok entries => simp [Except.map]
      | error refused => rfl
  · rintro ⟨t, u⟩ v a _ ⟨call, hcall, hrequest, hstands⟩ _ hstep
    obtain ⟨u', hu', rfl⟩ := Option.map_eq_some_iff.mp hstep
    cases a with
    | reserve spurious =>
      obtain ⟨call', hcall', hstep⟩ := Option.bind_eq_some_iff.mp hu'
      cases hcall.symm.trans hcall'
      exact reserve_onItsWay hcall hrequest hstands hstep
    | answer world =>
      obtain ⟨call', hcall', hstep⟩ := Option.bind_eq_some_iff.mp hu'
      cases hcall.symm.trans hcall'
      exact answer_onItsWay hcall hrequest hstands hstep
    | proceed =>
      obtain ⟨call', hcall', hstep⟩ := Option.bind_eq_some_iff.mp hu'
      cases hcall.symm.trans hcall'
      exact proceed_onItsWay hcall hrequest hstands hstep

theorem filterMap_recordOf : t.filterMap (recordOf made) = [] ↔ ¬ Made t := by
  rw [List.filterMap_eq_nil_iff]
  constructor
  · rintro h ⟨plan, summary, journal, hmem⟩
    cases h _ hmem
  · intro h step hmem
    unfold recordOf
    split
    · exact absurd ⟨_, _, _, hmem⟩ h
    · rfl

/-- **A start the daemon turns down before the engine is called leaves the directory, the registry and the
count as they were, unless its journal was made and the audit could not write the start down.** There the
record stays. -/
theorem turnedDown_iff {P : Trace E × Daemon E → Own E → Prop} {error : Error}
    (h : (own rules made d.calls.length).Reach P ([], d.comes rules (.start wire)) (t, d'))
    (hrefused : (d'.calls[d.calls.length]?).map Call.pc = some (.returned (some (.error error))))
    (hnever : ∀ step ∈ t, step.1.begins = false) :
    (d'.store = d.store ∧ d'.inner = d.inner ∧ d'.taken = d.taken) ↔
      ¬ ((∃ entries, d.store = .ok entries) ∧ Made t ∧ Unwritten t) := by
  obtain ⟨call, hcall, -, hstands⟩ := own_onItsWay h
  rw [hcall, Option.map_some, Option.some.injEq] at hrefused
  rw [hrefused] at hstands
  cases hstands with
  | @refused slot _ hreaches hkept =>
    have hends : (Start.scan wire (rules.policy slot.isSome)).Ends t (.error error) := hreaches
    have hleaves : Start.Leaves t (.error error) := (Start.leaving_scan wire).ended hends
    have hstore : d'.store = d.store ↔ ¬ ((∃ entries, d.store = .ok entries) ∧ Made t) := by
      rw [hkept.store, ← not_iff_not, not_not]
      cases d.store with
      | ok entries =>
        simp only [Except.map, Except.ok.injEq, List.append_right_eq_self, filterMap_recordOf, not_not,
          exists_eq', true_and]
      | error refused => simp [Except.map]
    rw [hstore]
    constructor
    · rintro ⟨hkeeps, -, -⟩ ⟨hlists, hmade, -⟩
      exact hkeeps ⟨hlists, hmade⟩
    · intro hkeeps
      refine ⟨?_, hkept.inner, hkept.taken⟩
      rintro ⟨hlists, hmade⟩
      exact hkeeps ⟨hlists, hmade, hleaves error rfl hnever hmade⟩

/-- The record the plain engine writes for a journal. -/
def entryOf (plan : Plain.Plan) (summary : String) (journal : Plain.Journal) : Entry Plain.types where
  directory := journal.id
  id := journal.id
  createdAt := 0
  summary := summary
  totalTargets := 1
  kind := Plain.engine.planKind plan
  lock := .free
  isComplete := false
  settled := none
  report := .ok []

/-- The disk the audit is on is full; all else goes well. -/
def fullDisk : (q : Query Plain.engine) → q.Answer
  | .auditWrite _ => .error "no space left on device"
  | q => Plain.world q

/-- A call is made and answered until it is turned down. -/
def turnsDown (world : (q : Query Plain.engine) → q.Answer) (asked : Nat) : List (Own Plain.engine) :=
  [.reserve false, .reserve false] ++ List.replicate asked (.answer fun q => some (world q)) ++
    List.replicate 2 .proceed

/-- The daemon of `tenOnly` once a start for the target has come. -/
def asked (target : String) : Trace Plain.engine × Daemon Plain.engine :=
  ([], (fresh (.ok [])).comes Start.tenOnly (.start { targets := [target] }))

theorem fullDisk_isSome :
    ((own Start.tenOnly entryOf 0).run (asked "10") (turnsDown fullDisk 7)).isSome := by decide +kernel

def overFullDisk : Trace Plain.engine × Daemon Plain.engine :=
  ((own Start.tenOnly entryOf 0).run (asked "10") (turnsDown fullDisk 7)).get fullDisk_isSome

/-- A start for an address that may be scanned, with the audit's disk full: it is turned down, the engine was
never called, and the record of a scan that never ran is in the directory. -/
theorem not_turnedDown :
    (own Start.tenOnly entryOf 0).Reach Machine.Always (asked "10") overFullDisk ∧
    (overFullDisk.2.calls[0]?).map Call.pc =
      some (.returned (some (.error (.unwritable "no space left on device")))) ∧
    (∀ step ∈ overFullDisk.1, step.1.begins = false) ∧
    overFullDisk.2.list Start.tenOnly none ≠ (asked "10").2.list Start.tenOnly none := by
  refine ⟨Machine.Reach.of_run (Option.some_get fullDisk_isSome).symm, rfl, ?_, ?_⟩
  · decide +kernel
  · decide +kernel

theorem outOfScope_isSome :
    ((own Start.tenOnly entryOf 0).run (asked "11") (turnsDown Plain.world 5)).isSome := by decide +kernel

def outOfScope : Trace Plain.engine × Daemon Plain.engine :=
  ((own Start.tenOnly entryOf 0).run (asked "11") (turnsDown Plain.world 5)).get outOfScope_isSome

/-- A start for an address that may not be scanned leaves nothing. -/
theorem turnedDown_iff_outOfScope :
    (own Start.tenOnly entryOf 0).Reach Machine.Always (asked "11") outOfScope ∧
    outOfScope.2.store = .ok [] ∧ outOfScope.2.taken = 0 := by
  have h := Machine.Reach.of_run (Option.some_get outOfScope_isSome).symm
  have hnone : outOfScope.1.filterMap (recordOf entryOf) = [] := rfl
  have hleft := (turnedDown_iff (d := fresh (.ok [])) h rfl (by decide +kernel)).mpr fun hleaves =>
    filterMap_recordOf.mp hnone hleaves.2.1
  exact ⟨h, hleft.1, hleft.2.2⟩

end Daemon

end ZondDaemon
