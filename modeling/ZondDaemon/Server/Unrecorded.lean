import ZondDaemon.Daemon.Heard
import ZondDaemon.Main
import ZondDaemon.Server.Tasks
import ZondDaemon.Start.Quiet

/-!
# A daemon that keeps no record

With `--no-journal` nothing the daemon does depends on the journal directory or reaches it: every run over one
directory, whatever other processes do to it meanwhile, is a run over any other that nobody touches
(`unrecorded`). And names are looked up as the request asks (`names_as_asked`): the daemon looks none up for a
scan that is to make no DNS traffic, and hands the engine what the request says, though a resume hands it what
there is by default.
-/

namespace ZondDaemon

open Start (Sparing)

variable {E : Engine}

namespace Request

/-- Whether the daemon may look names up for a call: what continues a scan has no names to ask for. -/
def looks : Request E → Bool
  | .start wire => Start.names E wire
  | .resume _ => false

/-- What a call hands the engine of DNS: what its own request asks for, where it has one. -/
def hands : Request E → ZondConfig E.toEngineTypes → Prop
  | .start wire => Start.Heeds wire
  | .resume _ => Start.Defaults

end Request

namespace Daemon

variable {rules : Rules E} {d d' : Daemon E} {a : Act E} {i j : Nat} {call : Call E} {pc : CallPc E}

/-! ## What a call leaves alone -/

/-- Where nothing is recorded nothing is continued, and a call in its pipeline leaves alone what it is to. -/
structure Frugal (rules : Rules E) (call : Call E) : Prop where
  resumes : rules.root = false → ∀ id, call.request = .resume id → call.pc.past = true ∧ call.pc.program = none
  runs : ∀ program, call.pc.program = some program →
    Sparing rules.root call.request.looks call.request.hands program

theorem frugal_goes (hpast : pc.past = true) (hprogram : pc.program = none) :
    Frugal rules { call with pc := pc } where
  resumes _ _ _ := ⟨hpast, hprogram⟩
  runs program h := by
    obtain h : pc.program = some program := h
    rw [hprogram] at h
    cases h

theorem frugal_arriving (rules : Rules E) (request : Request E) : Frugal rules (arriving rules request) := by
  cases request with
  | start wire => exact ⟨fun _ _ heq => (by cases heq), fun _ h => (by cases h)⟩
  | resume id =>
    unfold arriving
    cases hroot : rules.root with
    | true => exact ⟨fun h => (by rw [hroot] at h; cases h), fun _ h => (by cases h)⟩
    | false => exact ⟨fun _ _ _ => ⟨rfl, rfl⟩, fun _ h => (by cases h)⟩

theorem Frugal.tries (h : Frugal rules call) (hwaits : call.pc.past = false)
    (hnext : (∃ taken, pc = .reserving taken) ∨ ∃ slot, pc = .running (call.request.pipeline rules slot) slot) :
    Frugal rules { call with pc := pc } := by
  obtain ⟨request, was⟩ := call
  have hroot : ∀ id, request = .resume id → rules.root = true := by
    intro id hid
    cases hroot : rules.root with
    | true => rfl
    | false =>
      rw [(h.resumes hroot id hid).1] at hwaits
      cases hwaits
  refine ⟨fun hnone id hid => ?_, fun program hprogram => ?_⟩
  · rw [hroot id hid] at hnone
    cases hnone
  · rcases hnext with ⟨taken, rfl⟩ | ⟨slot, rfl⟩
    · cases hprogram
    · cases hprogram
      cases request with
      | start wire => exact (Start.sparing_scan wire : Sparing (rules.policy slot.isSome).root _ _ _)
      | resume id =>
        rw [hroot id rfl]
        exact Start.sparing_resume id

theorem frugal_calls (hcalls : ∀ call ∈ d.calls, Frugal rules call)
    (hgoes : Frugal rules { call with pc := pc }) :
    ∀ other ∈ (d.goes i call pc).calls, Frugal rules other := by
  intro other hother
  rcases mem_goes hother with hother | rfl
  · exact hcalls other hother
  · exact hgoes

theorem moves_frugal (h : Moves rules d a d') (hcalls : ∀ call ∈ d.calls, Frugal rules call) :
    ∀ call ∈ d'.calls, Frugal rules call := by
  cases h with
  | arrives request =>
    intro call hcall
    rcases List.mem_append.mp hcall with hcall | hcall
    · exact hcalls call hcall
    · rw [List.mem_singleton.mp hcall]
      exact frugal_arriving rules request
  | @tries i spurious call pc hcall hpc hnext =>
    have hwaits : call.pc.past = false := by
      rcases hpc with hpc | ⟨taken, hpc⟩
      · rw [hpc]
        rfl
      · rw [hpc]
        rfl
    refine frugal_calls hcalls ((hcalls call (List.mem_of_getElem? hcall)).tries hwaits ?_)
    exact hnext.imp_right fun hrun => ⟨none, hrun⟩
  | @reserves i spurious call hcall hpc hroom =>
    refine frugal_calls hcalls ((hcalls call (List.mem_of_getElem? hcall)).tries ?_ (.inr ⟨some {}, rfl⟩))
    rw [hpc]
    rfl
  | @answers i world call q k slot answer hcall hpc =>
    have hfrugal := hcalls call (List.mem_of_getElem? hcall)
    have hprogram : call.pc.program = some (.ask q k) := by rw [hpc]; rfl
    refine frugal_calls hcalls ⟨fun hroot id hid => ?_, fun program hnext => ?_⟩
    · have hnone := (hfrugal.resumes hroot id hid).2
      rw [hprogram] at hnone
      cases hnone
    · cases hnext
      exact (hfrugal.runs _ hprogram).2 answer
  | builds | leaves | files | follows | drops => exact frugal_calls hcalls (frugal_goes rfl rfl)
  | scan | watches | opens | misses | reads | stores => exact hcalls

theorem reach_frugal {P : Daemon E → Act E → Prop} {store : Except EngineError (List (Entry E.toEngineTypes))}
    (h : (machine rules).Reach P (fresh store) d) : ∀ call ∈ d.calls, Frugal rules call :=
  h.invariant (I := fun d => ∀ call ∈ d.calls, Frugal rules call) (fun call hcall => by cases hcall)
    fun _ hcalls _ hstep => moves_frugal (moves_of_step hstep) hcalls

theorem spares_of_reach {P : Daemon E → Act E → Prop}
    {store : Except EngineError (List (Entry E.toEngineTypes))}
    {q : Query E} {k : q.Answer → Asking E (Sitting E)} {slot : Option Slot}
    (h : (machine rules).Reach P (fresh store) d) (hcall : d.calls[i]? = some call)
    (hpc : call.pc = .running (.ask q k) slot) : q.Spares rules.root call.request.looks call.request.hands :=
  ((reach_frugal h call (List.mem_of_getElem? hcall)).runs (.ask q k) (by rw [hpc]; rfl)).1

/-! ## Over another directory -/

/-- The daemon over another journal directory. -/
def elsewhere (d : Daemon E) (store : Except EngineError (List (Entry E.toEngineTypes))) : Daemon E :=
  { d with store := store }

variable {store : Except EngineError (List (Entry E.toEngineTypes))}

theorem get_elsewhere (hroot : rules.root = false) (id : String) :
    (d.elsewhere store).get rules id = d.get rules id := by
  simp only [get, elsewhere, hroot]
  rfl

theorem bind_elsewhere {α : Type*} {x : Option α} {f f' : α → Option (Daemon E)}
    (h : ∀ y, f' y = (f y).map (·.elsewhere store)) : x.bind f' = (x.bind f).map (·.elsewhere store) := by
  cases x with
  | none => rfl
  | some y => exact h y

/-- Nobody but another process changes the directory. -/
def Act.leaves : Act E → Bool
  | .store _ => false
  | _ => true

variable (store) in
theorem step_elsewhere (hroot : rules.root = false) (hcalls : ∀ call ∈ d.calls, Frugal rules call)
    (hleaves : a.leaves = true) :
    (machine rules).step (d.elsewhere store) a = ((machine rules).step d a).map (·.elsewhere store) := by
  cases a with
  | arrive request => rfl
  | reserve i spurious =>
    refine bind_elsewhere fun call => ?_
    unfold reserve
    cases call.pc with
    | reserving taken =>
      show (if rules.most ≤ taken then _ else if (!spurious && d.taken == taken) = true then _ else _) =
        Option.map _ (if rules.most ≤ taken then _ else if (!spurious && d.taken == taken) = true then _ else _)
      by_cases hfull : rules.most ≤ taken
      · rw [if_pos hfull, if_pos hfull]
        rfl
      · rw [if_neg hfull, if_neg hfull]
        cases !spurious && d.taken == taken <;> rfl
    | _ => rfl
  | answer i world =>
    show (d.calls[i]?).bind _ = ((d.calls[i]?).bind _).map _
    cases hcall : d.calls[i]? with
    | none => rfl
    | some call =>
      simp only [Option.bind_some]
      unfold answer
      split
      · rename_i q k slot hpc
        have hspares := ((hcalls call (List.mem_of_getElem? hcall)).runs (.ask q k) (by rw [hpc]; rfl)).1
        have hsees : ∀ answer, (d.elsewhere store).sees q answer = d.sees q answer := by
          intro answer
          cases q with
          | listStore => cases hspares.journaled hroot
          | _ => rfl
        simp only [hsees, Option.map_map]
        rfl
      · rfl
  | proceed i =>
    refine bind_elsewhere fun call => ?_
    unfold proceed
    split
    · rfl
    · rfl
    · simp only [Option.map_map]
      rfl
    · refine bind_elsewhere fun l => ?_
      simp only [Option.map_map]
      rfl
    · rfl
    · rfl
  | abandon i =>
    refine bind_elsewhere fun call => ?_
    unfold abandon
    split
    · split_ifs <;> rfl
    · rfl
  | scan j act =>
    simp only [machine, step]
    split_ifs
    · refine bind_elsewhere fun l => ?_
      simp only [within, Option.map_map]
      rfl
    · rfl
  | watch i id fromSeq =>
    show Daemon.watch rules (d.elsewhere store) i id fromSeq = (d.watch rules i id fromSeq).map _
    unfold watch
    rw [get_elsewhere hroot]
    split
    · rfl
    · rfl
    · refine bind_elsewhere fun l => ?_
      simp only [Option.map_map]
      rfl
  | read k =>
    refine bind_elsewhere fun v => ?_
    simp only [Option.map_map]
    rfl
  | store entries => cases hleaves

end Daemon

/-! ## What a method leaves alone -/

namespace Look

/-- A look that throws records away. -/
def prunes : Look → Bool
  | .prune _ => true
  | _ => false

/-- A program that throws no record away. -/
abbrev Keeping {α : Type} (p : Looks E α) : Prop := p.Only fun q => q.prunes = false

theorem keeping_reads {α : Type} (p : Reads E α) : Keeping (reads p) := by
  induction p with
  | ret value => trivial
  | fail error => trivial
  | ask q k ih => exact ⟨rfl, fun answer => ih answer⟩

theorem keeping_map {α β : Type} {p : Looks E α} (f : α → β) (h : Keeping p) : Keeping (f <$> p) := by
  refine Program.Only.bind (fun value => ?_) h
  trivial

theorem keeping_state (found : Found E) : Keeping found.state := by
  cases found with
  | live j =>
    refine ⟨rfl, fun _ => ⟨rfl, fun closed => ?_⟩⟩
    cases closed with
    | true => exact ⟨rfl, fun _ => ⟨rfl, fun _ => ⟨rfl, fun _ => trivial⟩⟩⟩
    | false => exact ⟨rfl, fun _ => ⟨rfl, fun _ => trivial⟩⟩
  | recorded record => trivial

theorem keeping_stop (found : Found E) : Keeping found.stop := by
  cases found with
  | live j => exact ⟨rfl, fun _ => trivial⟩
  | recorded record => trivial

theorem keeping_handler {rules : Rules E} {corpus : List Engine.Listed} {q : Asked E} {p : Looks E Proto.Answer}
    (hroot : rules.root = false) (h : Stdio.handler rules corpus q = some p) : Keeping p := by
  cases q with
  | get id =>
    cases h
    exact keeping_map _ (Program.Only.bind keeping_state (keeping_reads _))
  | stop id =>
    cases h
    refine keeping_map _ (Program.Only.bind (fun found => ?_) (keeping_reads _))
    exact Program.Only.bind (fun _ => keeping_state found) (keeping_stop found)
  | detections =>
    cases h
    trivial
  | report call =>
    cases h
    exact keeping_map _ (keeping_reads _)
  | prune asked =>
    cases h
    unfold Stdio.prune
    rw [hroot]
    trivial
  | list limit =>
    cases h
    refine keeping_map _ ⟨rfl, fun listed => ?_⟩
    cases listed <;> trivial
  | call | watch => cases h

end Look

namespace Server

variable {o : Outside E} {rules : Rules E} {s s' : Server E} {act : Act E} {d d' : Daemon E} {who : Nat × Nat}
  {link : Link E} {store : Except EngineError (List (Entry E.toEngineTypes))}

/-- No method on its way throws a record away. -/
def Keeps (s : Server E) : Prop := ∀ who p, s.links who = .look p → Look.Keeping p

theorem Deals.keeps {a : Stdio.Answering E} {act : Task E} {x : Deal E} (hroot : rules.root = false)
    (h : Deals o rules d who link a act x) (hlink : ∀ p, link = .look p → Look.Keeping p) :
    ∀ p, x.link = .look p → Look.Keeping p := by
  cases h with
  | proceeds | follows | writes | flushes | aborts | watches => exact hlink
  | calls | misses | finds | opens | answers =>
    intro p hp
    cases hp
  | begins _ _ hhandler =>
    rintro p ⟨⟩
    exact Look.keeping_handler hroot hhandler
  | looks hask =>
    rintro p ⟨⟩
    exact (hlink _ hask).2 _

theorem reach_keeps {P : Server E → Act E → Prop} (hroot : rules.root = false)
    (h : (machine o rules).Reach P (fresh store) s) : s.Keeps := by
  refine h.invariant (I := Keeps) (fun who p hp => by cases hp) ?_
  intro t u act _ ht _ hstep who p hp
  have hmove := moves_of_step hstep
  cases hmove with
  | accepts | daemon | loops | severs => exact ht who p hp
  | @tasks c t' act conn conn' a d x hconn ha hdeal hd hconn' =>
    have hp : Function.update t.links (c, t') x.link who = .look p := hp
    by_cases hwho : who = (c, t')
    · subst hwho
      rw [Function.update_self] at hp
      exact hdeal.keeps hroot (ht _) p hp
    · rw [Function.update_of_ne hwho] at hp
      exact ht who p hp

/-! ## Over another directory -/

/-- The server over another journal directory. -/
def elsewhere (s : Server E) (store : Except EngineError (List (Entry E.toEngineTypes))) : Server E :=
  { s with daemon := s.daemon.elsewhere store }

/-- Nobody but another process changes the directory. -/
def Act.leaves : Act E → Bool
  | .daemon a => a.leaves
  | _ => true

theorem looks_elsewhere (hroot : rules.root = false) (effect : Daemon.Effect E) (q : Look) :
    (d.elsewhere store).looks rules effect q = d.looks rules effect q := by
  cases q with
  | reading q =>
    cases q with
    | get id => exact congrArg some (Daemon.get_elsewhere hroot id)
    | report | redaction => rfl
  | list limit =>
    simp only [Daemon.looks, Daemon.list, hroot]
    rfl
  | name | closed | stopped | progress | watermark | stop | prune => rfl

theorem deal_elsewhere (hroot : rules.root = false) (a : Stdio.Answering E) (act : Task E) :
    deal o rules (d.elsewhere store) who link a act = deal o rules d who link a act := by
  cases act with
  | write w => cases w <;> rfl
  | proceed | abort | answer | watch => rfl
  | enter =>
    have henter : ∀ q, enter o rules (d.elsewhere store) who q = enter o rules d who q := by
      intro q
      cases q with
      | watch id fromSeq =>
        simp only [enter, Daemon.get_elsewhere hroot]
        rfl
      | _ => rfl
    simp only [deal, henter]
  | look effect => simp only [deal, looks_elsewhere hroot]

theorem leaves_lost (who : Nat × Nat) (link : Link E) : ∀ b ∈ lost who link, b.leaves = true := by
  cases link <;> simp [lost, Daemon.Act.leaves]

theorem Deals.leaves {a : Stdio.Answering E} {act : Task E} {x : Deal E} (h : Deals o rules d who link a act x)
    (hlink : ∀ p, link = .look p → Look.Keeping p) : ∀ b ∈ x.act, b.leaves = true := by
  have hwatch : ∀ b ∈ watchAct who link, b.leaves = true := by
    cases link <;> simp [watchAct, Daemon.Act.leaves]
  cases h with
  | proceeds | writes | begins | answers =>
    intro b hb
    cases hb
  | follows | flushes | watches => exact hwatch
  | aborts hact =>
    rcases hact with ⟨i, -, rfl⟩ | ⟨-, -, rfl⟩
    · rintro b ⟨⟩
      rfl
    · exact leaves_lost who link
  | calls | misses | finds | opens =>
    rintro b ⟨⟩
    rfl
  | @looks effect q k answer hask hanswer =>
    have hkeeps := (hlink _ hask).1
    cases q with
    | prune retention => cases hkeeps
    | stop j =>
      rintro b ⟨⟩
      rfl
    | _ =>
      intro b hb
      cases hb

variable (store) in
theorem perhaps_elsewhere {a : Option (Daemon.Act E)} (hroot : rules.root = false)
    (hcalls : ∀ call ∈ d.calls, Daemon.Frugal rules call) (hleaves : ∀ b ∈ a, b.leaves = true) :
    perhaps (Daemon.step rules) (d.elsewhere store) a =
      (perhaps (Daemon.step rules) d a).map (·.elsewhere store) := by
  cases a with
  | none => rfl
  | some b => exact Daemon.step_elsewhere store hroot hcalls (hleaves b rfl)

variable (store) in
theorem task_elsewhere {c t : Nat} {act : Task E} (hroot : rules.root = false)
    (hcalls : ∀ call ∈ s.daemon.calls, Daemon.Frugal rules call) (hkeeps : s.Keeps)
    (h : ((s.connections[c]?).bind fun conn => (conn.answering[t]?).bind fun a =>
      (deal o rules s.daemon (c, t) (s.links (c, t)) a act).bind (s.take o rules (c, t) conn)) = some s') :
    ((s.connections[c]?).bind fun conn => (conn.answering[t]?).bind fun a =>
      (deal o rules (s.daemon.elsewhere store) (c, t) (s.links (c, t)) a act).bind
        ((s.elsewhere store).take o rules (c, t) conn)) = some (s'.elsewhere store) := by
  obtain ⟨conn, hconn, h⟩ := Option.bind_eq_some_iff.mp h
  obtain ⟨a, ha, h⟩ := Option.bind_eq_some_iff.mp h
  obtain ⟨x, hx, h⟩ := Option.bind_eq_some_iff.mp h
  obtain ⟨d, hd, h⟩ := Option.bind_eq_some_iff.mp h
  obtain ⟨conn', hconn', rfl⟩ := Option.map_eq_some_iff.mp h
  have hstep := perhaps_elsewhere store hroot hcalls ((deals_of_deal hx).leaves (hkeeps (c, t)))
  rw [hd] at hstep
  refine Option.bind_eq_some_iff.mpr ⟨conn, hconn, Option.bind_eq_some_iff.mpr ⟨a, ha, ?_⟩⟩
  refine Option.bind_eq_some_iff.mpr ⟨x, (deal_elsewhere hroot a act).trans hx, ?_⟩
  exact Option.bind_eq_some_iff.mpr ⟨_, hstep, Option.map_eq_some_iff.mpr ⟨conn', hconn', rfl⟩⟩

theorem step_elsewhere (hroot : rules.root = false) (hcalls : ∀ call ∈ s.daemon.calls, Daemon.Frugal rules call)
    (hkeeps : s.Keeps) (hleaves : act.leaves = true) (h : (machine o rules).step s act = some s') :
    (machine o rules).step (s.elsewhere store) act = some (s'.elsewhere store) := by
  cases act with
  | accept input =>
    cases h
    rfl
  | daemon a =>
    simp only [machine, step] at h ⊢
    split_ifs at h ⊢
    obtain ⟨d, hd, rfl⟩ := Option.map_eq_some_iff.mp h
    have hstep := Daemon.step_elsewhere store hroot hcalls hleaves
    rw [show (Daemon.machine rules).step s.daemon a = some d from hd] at hstep
    exact Option.map_eq_some_iff.mpr ⟨_, hstep, rfl⟩
  | speak c =>
    obtain ⟨conn, hconn, h⟩ := Option.bind_eq_some_iff.mp h
    obtain ⟨conn', hconn', rfl⟩ := Option.map_eq_some_iff.mp h
    exact Option.bind_eq_some_iff.mpr ⟨conn, hconn, Option.map_eq_some_iff.mpr ⟨conn', hconn', rfl⟩⟩
  | write c w =>
    have htakes : (s.elsewhere store).takes c w = s.takes c w := by cases w <;> rfl
    simp only [machine, step, htakes] at h ⊢
    split_ifs at h ⊢
    obtain ⟨conn, hconn, h⟩ := Option.bind_eq_some_iff.mp h
    obtain ⟨conn', hconn', rfl⟩ := Option.map_eq_some_iff.mp h
    exact Option.bind_eq_some_iff.mpr ⟨conn, hconn, Option.map_eq_some_iff.mpr ⟨conn', hconn', rfl⟩⟩
  | task c t act =>
    cases act with
    | write w =>
      have htakes : (s.elsewhere store).takes c w = s.takes c w := by cases w <;> rfl
      simp only [machine, step, htakes] at h ⊢
      split_ifs at h ⊢
      have htask := task_elsewhere store hroot hcalls hkeeps h
      exact htask
    | proceed | abort | enter | look | answer | watch =>
      have htask := task_elsewhere store hroot hcalls hkeeps h
      exact htask
  | sever c p =>
    obtain ⟨conn, hconn, h⟩ := Option.bind_eq_some_iff.mp h
    obtain ⟨conn', hconn', h⟩ := Option.bind_eq_some_iff.mp h
    obtain ⟨d, hd, rfl⟩ := Option.map_eq_some_iff.mp h
    have hlost : ∀ b ∈ s.lostBy c p, b.leaves = true := by
      cases p with
      | loop =>
        intro b hb
        cases hb
      | task t => exact leaves_lost _ _
    have hstep := perhaps_elsewhere store hroot hcalls hlost
    rw [hd] at hstep
    exact Option.bind_eq_some_iff.mpr ⟨conn, hconn, Option.bind_eq_some_iff.mpr
      ⟨conn', hconn', Option.map_eq_some_iff.mpr ⟨_, hstep, rfl⟩⟩⟩

/-- **A daemon told to keep no record leaves the journal directory alone**: no call opens, lists or writes a
journal, and whatever comes of a run over one directory, changed by others as they please, comes of a run over
any other that nobody changes. -/
theorem unrecorded {args : Args} {setting : Surroundings} {how : Service} {said : List String}
    (hmain : args.main setting = (said, some (rules, how))) (hno : args.noJournal = true)
    (h : (machine o rules).Reach Machine.Always (fresh store) s) :
    (∀ (i : Nat) (call : Call E) (q : Query E) k slot, s.daemon.calls[i]? = some call →
      call.pc = .running (.ask q k) slot → q.journaled = false) ∧
    ∀ other, (machine o rules).Reach (fun _ act => act.leaves = true) (fresh other) (s.elsewhere other) := by
  have hroot := (Args.sets_of_main hmain).root_eq_false hno
  constructor
  · intro i call q k slot hcall hpc
    exact (Daemon.spares_of_reach (daemon_reach h) hcall hpc).journaled hroot
  · intro other
    refine h.invariant
      (I := fun s => (machine o rules).Reach (fun _ act => act.leaves = true) (fresh other) (s.elsewhere other))
      .refl ?_
    intro t u act ht hover _ hstep
    by_cases hleaves : act.leaves = true
    · exact hover.tail hleaves
        (step_elsewhere hroot (Daemon.reach_frugal (daemon_reach ht)) (reach_keeps hroot ht) hleaves hstep)
    · -- another process has changed the one directory, and the other stays as it is
      cases act with
      | daemon a =>
        cases a with
        | store entries =>
          cases hstep
          exact hover
        | _ => exact absurd rfl hleaves
      | _ => exact absurd rfl hleaves

/-- A daemon that writes nothing down. -/
def bareArgs : Args where
  stdio := true
  listen := none
  socketGroup := none
  journalDir := none
  noJournal := true
  allow := []
  deny := []
  audit := none
  maxConcurrent := none
  stdio_listen _ := rfl
  socketGroup_listen h := by cases h
  noJournal_journalDir _ := rfl
  maxConcurrent_le := Rules.none_le

def bareRules : Rules Plain.engine where
  root := false
  scope := ⟨none, Plain.engine.newSet⟩
  audit := ⟨false⟩
  ceiling := none
  ceiling_le := Rules.none_le

theorem main_bareArgs : bareArgs.main ⟨some "/home/zond", fun _ => .ok ()⟩ =
    ([], some (bareRules, .stdio)) := rfl

/-- A client's start gets as far as the engine, and somebody changes the directory meanwhile. -/
def startsBare : List (Act Plain.engine) := List.flatten [
  [.accept startAsked.bytes, .speak 0, .task 0 0 .proceed, .task 0 0 .enter],
  List.replicate 2 (.daemon (.reserve 0 false)),
  [.daemon (.store (.ok [⟨"B", "B", 2, "1 probe", 1, .discovery, .free, true, some 1, .ok []⟩]))],
  List.replicate 5 (.daemon (.answer 0 fun q => some (Plain.world q)))]

/-- The call is asking the engine. -/
def bareSeen (s : Server Plain.engine) : Bool :=
  (s.daemon.calls[0]?).any fun call => (Daemon.asksNow call).any Query.engineCall

theorem startsBare_seen : ((machine plainOutside bareRules).run (fresh (.ok [])) startsBare).any
    bareSeen = true := by
  decide +kernel

def bare : Server Plain.engine :=
  ((machine plainOutside bareRules).run (fresh (.ok [])) startsBare).get (Option.isSome_of_any startsBare_seen)

theorem bare_seen : bareSeen bare = true := Option.get_of_any_eq_true _ _ startsBare_seen

theorem reach_bare : (machine plainOutside bareRules).Reach Machine.Always (fresh (.ok [])) bare :=
  .of_run (Option.some_get (Option.isSome_of_any startsBare_seen)).symm

/-- Over a directory that cannot be read it gets there too. -/
theorem unrecorded_bare :
    (bare.daemon.calls[0]?).any (fun call => (Daemon.asksNow call).any Query.engineCall) = true ∧
      (machine plainOutside bareRules).Reach (fun _ act => act.leaves = true)
        (fresh (.error ⟨"journal.unreadable", "permission denied"⟩))
        (bare.elsewhere (.error ⟨"journal.unreadable", "permission denied"⟩)) :=
  ⟨bare_seen, (unrecorded main_bareArgs rfl reach_bare).2 _⟩

/-- **Names are looked up as the request asks**: the daemon asks a name server only for a start whose
configuration lets it, and the engine is handed what that configuration says of DNS, in a sweep as its targets
leave it. What a resume hands the engine is what there is by default, whatever the first sitting was told. -/
theorem names_as_asked (h : (machine o rules).Reach Machine.Always (fresh store) s) {i : Nat} {call : Call E}
    {q : Query E} {k : q.Answer → Asking E (Sitting E)} {slot : Option Slot}
    (hcall : s.daemon.calls[i]? = some call) (hpc : call.pc = .running (.ask q k) slot) :
    (q.looksUp = true → ∃ wire asked, call.request = .start wire ∧ Start.request wire = .ok asked ∧
      (Start.configure (E := E) asked).noDns = false) ∧
    ∀ config, q.handed = some config →
      (∃ wire asked, call.request = .start wire ∧ Start.request wire = .ok asked ∧
        if Start.kindOf wire = .discovery then
          ∃ targets, config.noDns = (E.applyTargets targets (Start.configure asked)).noDns
        else config.noDns = (Start.configure (E := E) asked).noDns) ∨
      ∃ id, call.request = .resume id ∧ config.noDns = E.defaultConfig.noDns := by
  have hspares := Daemon.spares_of_reach (daemon_reach h) hcall hpc
  cases hrequest : call.request with
  | start wire =>
    rw [hrequest] at hspares
    refine ⟨fun hlooks => ?_, fun config hconfig => .inl ?_⟩
    · have hnames : Start.names E wire = true := by
        by_contra hno
        have hnone : Start.names E wire = false := by simpa using hno
        rw [hspares.looksUp hnone] at hlooks
        cases hlooks
      obtain ⟨asked, hread, hno⟩ := Start.exists_of_names hnames
      exact ⟨wire, asked, rfl, hread, hno⟩
    · obtain ⟨asked, hread, hheeds⟩ := hspares.handed config hconfig
      exact ⟨wire, asked, rfl, hread, hheeds⟩
  | resume id =>
    rw [hrequest] at hspares
    refine ⟨fun hlooks => ?_, fun config hconfig => .inr ⟨id, rfl, hspares.handed config hconfig⟩⟩
    rw [hspares.looksUp rfl] at hlooks
    cases hlooks

/-- The call is asking for its target to be resolved. -/
def resolvingSeen (s : Server Plain.engine) : Bool :=
  (s.daemon.calls[0]?).any fun call => (Daemon.asksNow call).any Query.looksUp

theorem resolvesBare_seen :
    ((machine plainOutside bareRules).run (fresh (.ok [])) (startsBare.take 8)).any resolvingSeen = true := by
  decide +kernel

def resolving : Server Plain.engine :=
  ((machine plainOutside bareRules).run (fresh (.ok [])) (startsBare.take 8)).get
    (Option.isSome_of_any resolvesBare_seen)

theorem resolving_seen : resolvingSeen resolving = true := Option.get_of_any_eq_true _ _ resolvesBare_seen

def resolvingCall : Call Plain.engine := (resolving.daemon.calls[0]?).get (Option.isSome_of_any resolving_seen)

theorem resolvingCall_seen : (Daemon.asksNow resolvingCall).any Query.looksUp = true :=
  Option.get_of_any_eq_true _ _ resolving_seen

def bareCall : Call Plain.engine := (bare.daemon.calls[0]?).get (Option.isSome_of_any bare_seen)

theorem bareCall_seen : (Daemon.asksNow bareCall).any Query.engineCall = true :=
  Option.get_of_any_eq_true _ _ bare_seen

/-- There the daemon looks the target up, and by then hands the engine what the request said of names. -/
theorem names_as_asked_bare :
    (∃ wire asked, resolvingCall.request = .start wire ∧ Start.request wire = .ok asked ∧
      (Start.configure (E := Plain.engine) asked).noDns = false) ∧
    ∃ q, Daemon.asksNow bareCall = some q ∧ q.engineCall = true ∧ ∀ config, q.handed = some config →
      (∃ wire asked, bareCall.request = .start wire ∧ Start.request wire = .ok asked ∧
        if Start.kindOf wire = .discovery then
          ∃ targets, config.noDns = (Plain.engine.applyTargets targets (Start.configure asked)).noDns
        else config.noDns = (Start.configure (E := Plain.engine) asked).noDns) ∨
      ∃ id, bareCall.request = .resume id ∧ config.noDns = Plain.engine.defaultConfig.noDns := by
  constructor
  · obtain ⟨k, slot, hpc⟩ := Daemon.asks_of_asksNow
      (Option.some_get (Option.isSome_of_any resolvingCall_seen)).symm
    have hreach : (machine plainOutside bareRules).Reach Machine.Always (fresh (.ok [])) resolving :=
      .of_run (Option.some_get (Option.isSome_of_any resolvesBare_seen)).symm
    exact (names_as_asked hreach (Option.some_get (Option.isSome_of_any resolving_seen)).symm hpc).1
      (Option.get_of_any_eq_true _ _ resolvingCall_seen)
  · have hasks := (Option.some_get (Option.isSome_of_any bareCall_seen)).symm
    obtain ⟨k, slot, hpc⟩ := Daemon.asks_of_asksNow hasks
    refine ⟨_, hasks, Option.get_of_any_eq_true _ _ bareCall_seen, ?_⟩
    exact (names_as_asked reach_bare (Option.some_get (Option.isSome_of_any bare_seen)).symm hpc).2

end Server

end ZondDaemon
