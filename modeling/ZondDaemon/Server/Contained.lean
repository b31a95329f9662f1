import ZondDaemon.Daemon.Heard
import ZondDaemon.Main
import ZondDaemon.Server.Tasks

/-!
# What the operator allowed

A daemon set up by its command line, with any number of clients on any number of connections: the engine is
sent nowhere the command line does not allow, by no more scans at once than it allows, and nothing it is set
going on was missed by the audit (`contained`). What the file then holds, `AuditFile` says.
-/

namespace ZondDaemon

open Daemon (Heard heardBy)

variable {E : Engine}

namespace Server

/-- A step of the server is noted with what it lets a call of the daemon hear. -/
def noted (s : Server E) : Act E → Heard E → Heard E
  | .daemon a, heard => Daemon.noted s.daemon a heard
  | _, heard => heard

def hearing (o : Outside E) (rules : Rules E) : Machine (Server E × Heard E) (Act E) :=
  (machine o rules).noting noted

variable {o : Outside E} {rules : Rules E} {s s' : Server E} {heard heard' : Heard E} {d d' : Daemon E}
  {who : Nat × Nat} {link : Link E}

/-! ## No task answers a call -/

theorem mute_watchAct (who : Nat × Nat) (link : Link E) : ∀ a ∈ watchAct who link, a.mute = true := by
  cases link <;> simp [watchAct, Daemon.Act.mute]

theorem mute_lost (who : Nat × Nat) (link : Link E) : ∀ a ∈ lost who link, a.mute = true := by
  cases link <;> simp [lost, Daemon.Act.mute]

theorem mute_deeds (effect : Daemon.Effect E) (q : Look) : ∀ a ∈ Daemon.deeds effect q, a.mute = true := by
  cases q <;> simp [Daemon.deeds, Daemon.Act.mute]

theorem Deals.mute {a : Stdio.Answering E} {act : Task E} {x : Deal E} (h : Deals o rules d who link a act x) :
    ∀ b ∈ x.act, b.mute = true := by
  cases h with
  | proceeds | writes | begins | answers =>
    intro b hb
    cases hb
  | follows | flushes | watches => exact mute_watchAct who link
  | aborts hact =>
    rcases hact with ⟨i, -, rfl⟩ | ⟨-, -, rfl⟩
    · rintro b ⟨⟩
      rfl
    · exact mute_lost who link
  | calls | misses | finds | opens =>
    rintro b ⟨⟩
    rfl
  | looks => exact mute_deeds _ _

theorem hearing_mute {x : Daemon E × Heard E} {a : Option (Daemon.Act E)}
    (h : (Daemon.hearing rules).Reach Machine.Always x (d, heard))
    (hperhaps : perhaps (Daemon.step rules) d a = some d') (hmute : ∀ b ∈ a, b.mute = true) :
    (Daemon.hearing rules).Reach Machine.Always x (d', heard) := by
  rcases perhaps_eq_some.mp hperhaps with ⟨-, rfl⟩ | ⟨b, rfl, hstep⟩
  · exact h
  · refine h.tail (a := b) trivial (Machine.noting_step.mpr ⟨hstep, ?_⟩)
    rw [Daemon.noted, Daemon.hears_of_mute (hmute b rfl), Option.toList_none, List.append_nil]

theorem hearing_step {x : Daemon E × Heard E} {act : Act E}
    (h : (Daemon.hearing rules).Reach Machine.Always x (s.daemon, heard))
    (hstep : (machine o rules).step s act = some s') :
    (Daemon.hearing rules).Reach Machine.Always x (s'.daemon, noted s act heard) := by
  cases act with
  | daemon a =>
    simp only [machine, step] at hstep
    split at hstep
    · obtain ⟨d, hd, rfl⟩ := Option.map_eq_some_iff.mp hstep
      exact h.tail trivial (Machine.noting_step.mpr ⟨hd, rfl⟩)
    · cases hstep
  | accept input =>
    cases hstep
    exact h
  | speak c | write c w =>
    have hmove := moves_of_step hstep
    cases hmove with
    | loops => exact h
  | task c t act =>
    have hmove := moves_of_step hstep
    cases hmove with
    | loops => exact h
    | tasks _ _ hdeal hd => exact hearing_mute h hd hdeal.mute
  | sever c p =>
    have hmove := moves_of_step hstep
    cases hmove with
    | loops => exact h
    | severs _ _ hd =>
      refine hearing_mute h hd fun b hb => ?_
      cases p with
      | loop => cases hb
      | task t => exact mute_lost _ _ b hb

section runs
variable {P : Server E × Heard E → Act E → Prop}
  {store : Except EngineError (List (Entry E.toEngineTypes))}

theorem daemon_hearing (h : (hearing o rules).Reach P (fresh store, []) (s, heard)) :
    (Daemon.hearing rules).Reach Machine.Always (.fresh store, []) (s.daemon, heard) := by
  refine h.invariant
    (I := fun x => (Daemon.hearing rules).Reach Machine.Always (.fresh store, []) (x.1.daemon, x.2)) .refl ?_
  intro x y a _ hx _ hstep
  obtain ⟨hstep, hheard⟩ := Machine.noting_step.mp hstep
  rw [hheard]
  exact hearing_step hx hstep

end runs

/-! ## Within the rules -/

section rules
variable {Canonical : E.IpSet → Prop} {allowed denied : List String}
  {store : Except EngineError (List (Entry E.toEngineTypes))} {i : Nat} {call : Call E} {q : Query E}
  {k : q.Answer → Asking E (Sitting E)} {slot : Option Slot}

/-- A call about to set the engine going has a slot, reaches what is allowed, and is written down. -/
theorem gated_of_hearing (laws : IpSetLaws E Canonical) (hscope : Scope.read allowed denied = .ok rules.scope)
    (h : (Daemon.hearing rules).Reach Machine.Always (.fresh store, []) (d, heard))
    (hcall : d.calls[i]? = some call) (hpc : call.pc = .running (.ask q k) slot) :
    Start.Pre (rules.policy slot.isSome) (heardBy i heard) q := by
  have hreaches := ((Daemon.traces_of_reach h).traced i call hcall).runs _ slot hpc
  exact (Start.gated_pipeline laws hscope call.request slot).asked ⟨k, hreaches⟩

theorem accounted_of_hearing (laws : IpSetLaws E Canonical)
    (hscope : Scope.read allowed denied = .ok rules.scope) (haudit : rules.audit.configured = true)
    (h : (Daemon.hearing rules).Reach Machine.Always (.fresh store, []) (d, heard)) :
    ∀ (j : Nat) (l : Live E), d.scans[j]? = some l →
      ∃ i, Start.Recorded (heardBy i heard) l.sitting.scan.id := by
  refine h.invariant (I := fun x => ∀ (j : Nat) (l : Live E), x.1.scans[j]? = some l →
    ∃ i, Start.Recorded (heardBy i x.2) l.sitting.scan.id) (fun j l hl => by simp [Daemon.fresh] at hl) ?_
  intro x y a hx hrecorded _ hstep j l hl
  obtain ⟨hstep, hheard⟩ := Machine.noting_step.mp hstep
  have hlater : ∀ {id : String}, (∃ i, Start.Recorded (heardBy i x.2) id) →
    ∃ i, Start.Recorded (heardBy i y.2) id := by
    rintro id ⟨i, hi⟩
    refine ⟨i, ?_⟩
    rw [hheard, Daemon.noted, heardBy, Sequence.said_append]
    exact hi.append _
  apply hlater
  rcases (Daemon.moves_scans (Daemon.moves_of_step hstep)).before hl with hl | ⟨m, act, hm, hact, -⟩ |
    ⟨-, call, sitting, slot, hcall, hpc, rfl⟩
  · exact hrecorded j l hl
  · rw [Live.step_id hact]
    exact hrecorded j m hm
  · obtain ⟨i, hi⟩ := List.mem_iff_getElem?.mp hcall
    have hends : (call.request.pipeline rules slot).Ends (heardBy i x.2) (.ok sitting) :=
      ((Daemon.traces_of_reach hx).traced i call hi).runs _ slot hpc
    obtain ⟨before, step, heq, -, hid⟩ :=
      ((Start.gated_pipeline laws hscope call.request slot).ended hends).named sitting rfl haudit
    exact ⟨i, heq ▸ hid.append [step]⟩

end rules

/-- The entry that says the call `i` starts the scan was written, and the write came back well. -/
def Audited (heard : Heard E) (i : Nat) (id : String) : Prop :=
  ∃ at' kind targets, (i, ⟨.auditWrite (.started at' id kind targets), .ok ()⟩) ∈ heard

theorem audited_iff {i : Nat} {id : String} : Audited heard i id ↔ Start.Recorded (heardBy i heard) id := by
  simp only [Audited, Start.Recorded, heardBy, Sequence.mem_said, Option.some.injEq, exists_eq_right]

/-- **Whatever the clients ask for, in whatever order**: a call that is about to set the engine going reaches
only what the command line allows and does not deny, is one of no more than the command line lets run at once,
has asked nothing of the engine before, and where there is an audit has had an entry of its own written; and of
every scan there is, live or over, an entry was written under its name. -/
theorem contained {Canonical : E.IpSet → Prop} (laws : IpSetLaws E Canonical) {args : Args}
    {machine : Surroundings} {how : Service} {said : List String}
    (hmain : args.main machine = (said, some (rules, how)))
    {store : Except EngineError (List (Entry E.toEngineTypes))}
    (h : (hearing o rules).Reach Machine.Always (fresh store, []) (s, heard)) :
    (∀ i call q k slot, s.daemon.calls[i]? = some call → call.pc = .running (.ask q k) slot →
      q.engineCall = true →
        (∀ ips ∈ q.reach, ∀ a, E.holds ips a → Scope.Permitted E args.allow args.deny a) ∧
        slot.isSome = true ∧ (∀ most ∈ args.maxConcurrent, s.daemon.slots ≤ most) ∧
        (∀ step, (i, step) ∈ heard → step.1.begins = false) ∧
        (args.audit.isSome = true → ∃ id, Audited heard i id)) ∧
    (args.audit.isSome = true →
      ∀ (j : Nat) (l : Live E), s.daemon.scans[j]? = some l → ∃ i, Audited heard i l.sitting.scan.id) := by
  have hsets := Args.sets_of_main hmain
  have hdaemon := daemon_hearing h
  constructor
  · intro i call q k slot hcall hpc hengine
    have hpre := gated_of_hearing laws hsets.scope hdaemon hcall hpc
    obtain ⟨hroom, hreach, hwritten⟩ := hpre.gated hengine
    refine ⟨fun ips hips a ha => ?_, hroom, fun most hmost => ?_, fun step hstep => ?_, fun haudit => ?_⟩
    · exact (Scope.allows_iff laws hsets.scope a).mp (hreach ips hips a ha)
    · have hcounted := Daemon.reach_counted (Daemon.reach_of_hearing hdaemon)
      have hle := hcounted.most
      rw [hcounted.taken, Rules.most, hsets.ceiling, Option.mem_def.mp hmost] at hle
      exact hle
    · exact hpre.last step (Sequence.mem_said.mpr ⟨_, hstep, rfl⟩)
    · obtain ⟨id, hid⟩ := hwritten (hsets.audit.trans haudit)
      exact ⟨id, audited_iff.mpr hid⟩
  · intro haudit j l hl
    obtain ⟨i, hi⟩ := accounted_of_hearing laws hsets.scope (hsets.audit.trans haudit) hdaemon j l hl
    exact ⟨i, audited_iff.mpr hi⟩

/-- A daemon that may be pointed at 10, runs one scan at a time and writes down what it starts. -/
def tenArgs : Args where
  stdio := false
  listen := some "/run/zond.sock"
  socketGroup := none
  journalDir := some "/var/lib/zond"
  noJournal := false
  allow := ["10"]
  deny := []
  audit := some "/var/log/zond"
  maxConcurrent := some 1
  stdio_listen _ := by contradiction
  socketGroup_listen _ := rfl
  noJournal_journalDir _ := by contradiction
  maxConcurrent_le := Rules.one_le

def tenRules : Rules Plain.engine := { Start.tenOnly with ceiling := some 1, ceiling_le := Rules.one_le }

/-- A client asks for a scan of 10, which goes as far as the engine. -/
def asksTen : List (Act Plain.engine) := List.flatten [
  [.accept startAsked.bytes, .speak 0, .task 0 0 .proceed, .task 0 0 .enter],
  List.replicate 2 (.daemon (.reserve 0 false)),
  List.replicate 7 (.daemon (.answer 0 fun q => some (Plain.world q)))]

/-- What there is to see of it: the engine is about to be sent somewhere. -/
def tenSeen (s : Server Plain.engine × Heard Plain.engine) : Bool :=
  (s.1.daemon.calls[0]?).any fun call => (Daemon.asksNow call).any fun q => q.engineCall && !q.reach.isEmpty

theorem asksTen_seen : ((hearing plainOutside tenRules).run (fresh (.ok []), []) asksTen).any
    tenSeen = true := by
  decide +kernel

def heardTen : Server Plain.engine × Heard Plain.engine :=
  ((hearing plainOutside tenRules).run (fresh (.ok []), []) asksTen).get (Option.isSome_of_any asksTen_seen)

theorem heardTen_seen : tenSeen heardTen = true := Option.get_of_any_eq_true _ _ asksTen_seen

def tenCall : Call Plain.engine := (heardTen.1.daemon.calls[0]?).get (Option.isSome_of_any heardTen_seen)

theorem tenCall_seen : (Daemon.asksNow tenCall).any (fun q => q.engineCall && !q.reach.isEmpty) = true :=
  Option.get_of_any_eq_true _ _ heardTen_seen

def tenAsks : Query Plain.engine := (Daemon.asksNow tenCall).get (Option.isSome_of_any tenCall_seen)

theorem tenAsks_seen : tenAsks.engineCall = true ∧ tenAsks.reach ≠ [] := by
  have hseen : (tenAsks.engineCall && !tenAsks.reach.isEmpty) = true :=
    Option.get_of_any_eq_true _ _ tenCall_seen
  simpa using hseen

theorem contained_ten : tenAsks.reach ≠ [] ∧
    (∀ ips ∈ tenAsks.reach, ∀ a, Plain.engine.holds ips a → Scope.Permitted Plain.engine ["10"] [] a) ∧
    heardTen.1.daemon.slots ≤ 1 ∧ ∃ id, Audited heardTen.2 0 id := by
  have hmain : tenArgs.main ⟨none, fun _ => .ok ()⟩ =
      ([Args.bounded], some (tenRules, .listen "/run/zond.sock" none)) := rfl
  have hreach : (hearing plainOutside tenRules).Reach Machine.Always (fresh (.ok []), []) heardTen :=
    .of_run (Option.some_get (Option.isSome_of_any asksTen_seen)).symm
  obtain ⟨k, slot, hpc⟩ := Daemon.asks_of_asksNow (Option.some_get (Option.isSome_of_any tenCall_seen)).symm
  obtain ⟨hpermitted, -, hmost, -, haudited⟩ := (contained Plain.lawful hmain hreach).1 0 tenCall tenAsks k slot
    (Option.some_get (Option.isSome_of_any heardTen_seen)).symm hpc tenAsks_seen.1
  exact ⟨tenAsks_seen.2, hpermitted, hmost 1 rfl, haudited rfl⟩

end Server

end ZondDaemon
