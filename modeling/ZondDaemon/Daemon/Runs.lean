import ZondDaemon.Daemon.Daemon

/-!
# The scans of a daemon, over whole runs

What every run of the daemon keeps of its calls and its scans. A call's pipeline ends in a scan just begun
or in an error, and in an error where there is no slot (`Sound`). So every scan of the daemon is a live
scan that was begun and has taken steps of its own since (`scan_reach`), in the place it was given
(`later`), and what is proved of one live scan over its runs is there for each of them.
-/

namespace ZondDaemon

/-! ## What a pipeline can come to -/

namespace Start

variable {E : Engine}

/-- What a pipeline may end in: an error, or a scan just begun. -/
def Builds (out : Except Error (Sitting E)) : Prop :=
  ∀ s, out = .ok s → ∃ id progress redaction, s = .fresh id progress redaction

theorem builds_error (error : Error) : Builds (.error error : Except Error (Sitting E)) :=
  fun _ heq => by cases heq

theorem builds_started (id : String) (session : Session) (config : ZondConfig E.toEngineTypes) :
    Builds (.ok (started id session config)) := by
  rintro s heq
  cases heq
  exact ⟨id, session.progress, _, rfl⟩

variable {α : Type} {p : Asking E α} {f : α → Asking E (Sitting E)} {rules : Rules E}

theorem builds_bind (hf : ∀ value, (f value).Ensures Builds) : (p >>= f).Ensures Builds :=
  .of_bind builds_error hf

theorem builds_begun {id : String} {config : ZondConfig E.toEngineTypes} {p : Asking E Session} :
    (p >>= fun session => pure (started id session config)).Ensures Builds :=
  builds_bind fun session => builds_started id session config

theorem builds_ports (wire : Proto.StartRequest E.F64) (under : Policy E) :
    (ports wire under).Ensures Builds := by
  apply builds_bind
  intro asked
  dsimp only
  split_ifs
  · exact builds_error nothingToScan
  · iterate 8 refine builds_bind fun _ => ?_
    exact builds_begun

theorem builds_sweep (wire : Proto.StartRequest E.F64) (under : Policy E) :
    (sweep wire under).Ensures Builds := by
  apply builds_bind
  intro asked
  dsimp only
  split_ifs
  · exact builds_error nothingToScan
  · iterate 8 refine builds_bind fun _ => ?_
    exact builds_begun

theorem builds_watch (wire : Proto.StartRequest E.F64) (under : Policy E) :
    (watch wire under).Ensures Builds := by
  apply builds_bind
  intro asked
  dsimp only
  split_ifs
  · exact builds_error _
  · apply builds_bind
    intro answer
    cases answer with
    | error refused => exact builds_error _
    | ok zones =>
      iterate 3 refine builds_bind fun _ => ?_
      exact builds_begun

theorem builds_scan (wire : Proto.StartRequest E.F64) (under : Policy E) :
    (scan wire under).Ensures Builds := by
  apply builds_bind
  intro _
  split
  · exact builds_sweep wire under
  · exact builds_watch wire under
  · exact builds_ports wire under

theorem builds_resume (id : String) (under : Policy E) : (resume id under).Ensures Builds := by
  apply builds_bind
  intro answer
  apply builds_bind
  intro entries
  split
  · exact builds_error _
  · apply builds_bind
    intro answer
    apply builds_bind
    rintro ⟨journal, plan⟩
    apply builds_bind
    intro _
    split
    · split
      · exact builds_error _
      · exact builds_bind fun _ => builds_bind fun _ => builds_begun
    · split
      · exact builds_error _
      · exact builds_bind fun _ => builds_bind fun _ => builds_begun
    · split
      · exact builds_error _
      · exact builds_bind fun _ => builds_begun
    · exact builds_error _

theorem builds_pipeline (rules : Rules E) (slot : Option Slot) (request : Request E) :
    (request.pipeline rules slot).Ensures Builds := by
  cases request with
  | start wire => exact builds_scan wire _
  | resume id => exact builds_resume id _

/-- Ends in an error. -/
def Fails {α : Type} (out : Except Error α) : Prop := ∃ error, out = .error error

theorem fails_room {under : Policy E} (h : under.hasRoom = false) (kind : String)
    (targets : List String) : (under.room kind targets).Ensures Fails := by
  unfold Policy.room
  rw [h]
  refine .of_bind (fun error => ⟨error, rfl⟩) fun _ => ?_
  exact ⟨.atCapacity, rfl⟩

theorem fails_pipeline (rules : Rules E) (request : Request E) :
    (request.pipeline rules none).Ensures Fails := by
  have herror : ∀ error, Fails (.error error : Except Error (Sitting E)) := fun error => ⟨error, rfl⟩
  cases request with
  | start wire => exact (fails_room rfl _ _).bind_of_fails herror
  | resume id =>
    refine .of_bind herror fun answer => .of_bind herror fun entries => ?_
    split
    · exact herror _
    · refine .of_bind herror fun answer => .of_bind herror fun (journal, plan) => ?_
      exact (fails_room rfl _ _).bind_of_fails herror

end Start

namespace Daemon

open Start (Builds Fails)

variable {E : Engine} {rules : Rules E} {d d' : Daemon E} {a : Act E} {i j : Nat} {call : Call E}
  {pc : CallPc E} {l l' : Live E}

/-! ## The calls -/

/-- A call in a pipeline builds a scan just begun or fails, fails where it has no slot, and has one where it
has a scan with it. -/
structure Sound (call : Call E) : Prop where
  builds : ∀ program, call.pc.program = some program → program.Ensures Builds
  fails : ∀ program, call.pc.program = some program → call.pc.slot = none → program.Ensures Fails
  holds : call.pc.carries.isSome = true → call.pc.slot.isSome = true

theorem sound_of_none (hprogram : call.pc.program = none) (hcarries : call.pc.carries = none) :
    Sound call where
  builds program h := by
    rw [hprogram] at h
    cases h
  fails program h := by
    rw [hprogram] at h
    cases h
  holds h := by
    rw [hcarries] at h
    cases h

theorem sound_arriving (rules : Rules E) (request : Request E) : Sound (arriving rules request) := by
  cases request with
  | start wire => exact sound_of_none rfl rfl
  | resume id =>
    unfold arriving
    cases rules.root with
    | true => exact sound_of_none rfl rfl
    | false => exact sound_of_none rfl rfl

theorem sound_running {request : Request E} {program : Asking E (Sitting E)} {slot : Option Slot}
    (hbuilds : program.Ensures Builds) (hfails : slot = none → program.Ensures Fails) :
    Sound ⟨request, .running program slot⟩ where
  builds p h := by
    cases h
    exact hbuilds
  fails p h hslot := by
    cases h
    exact hfails hslot
  holds h := by cases h

theorem sound_carrying {slot : Option Slot} (hslot : slot.isSome = true) (request : Request E) (j : Nat) :
    Sound ⟨request, .filing j slot⟩ ∧ Sound ⟨request, .following j slot⟩ := by
  constructor
  · exact ⟨nofun, nofun, fun _ => hslot⟩
  · exact ⟨nofun, nofun, fun _ => hslot⟩

theorem mem_goes {other : Call E} (h : other ∈ (d.goes i call pc).calls) :
    other ∈ d.calls ∨ other = { call with pc := pc } := List.mem_or_eq_of_mem_set h

theorem sound_goes (hcalls : ∀ call ∈ d.calls, Sound call) (hgoes : Sound { call with pc := pc }) :
    ∀ other ∈ (d.goes i call pc).calls, Sound other := by
  intro other hother
  rcases mem_goes hother with hother | rfl
  · exact hcalls other hother
  · exact hgoes

theorem Sound.slot_of_carries (h : Sound call) (hpc : call.pc = pc) (hcarries : pc.carries.isSome = true) :
    pc.slot.isSome = true := by
  subst hpc
  exact h.holds hcarries

theorem Sound.slot_of_ret {s : Sitting E} {slot : Option Slot} (h : Sound call)
    (hpc : call.pc = .running (.ret s) slot) : slot.isSome = true := by
  have hprogram : call.pc.program = some (.ret s) := by rw [hpc]; rfl
  cases slot with
  | some _ => rfl
  | none =>
    obtain ⟨error, herror⟩ := h.fails _ hprogram (by rw [hpc]; rfl)
    cases herror

theorem Sound.fresh_of_ret {s : Sitting E} {slot : Option Slot} (h : Sound call)
    (hpc : call.pc = .running (.ret s) slot) : ∃ id progress redaction, s = .fresh id progress redaction := by
  have hbuilds : Builds (.ok s) := h.builds (.ret s) (by rw [hpc]; rfl)
  exact hbuilds s rfl

theorem moves_sound (h : Moves rules d a d') (hcalls : ∀ call ∈ d.calls, Sound call) :
    ∀ call ∈ d'.calls, Sound call := by
  cases h with
  | arrives request =>
    intro call hcall
    rcases List.mem_append.mp hcall with hcall | hcall
    · exact hcalls call hcall
    · rw [List.mem_singleton.mp hcall]
      exact sound_arriving rules request
  | tries hcall hpc hnext =>
    apply sound_goes hcalls
    rcases hnext with ⟨taken, rfl⟩ | rfl
    · exact sound_of_none rfl rfl
    · exact sound_running (Start.builds_pipeline rules none _) fun _ => Start.fails_pipeline rules _
  | reserves hcall hpc hroom =>
    exact sound_goes hcalls (sound_running (Start.builds_pipeline rules (some {}) _) nofun)
  | @answers i world call q k slot answer hcall hpc =>
    have hsound := hcalls call (List.mem_of_getElem? hcall)
    have hprogram : call.pc.program = some (.ask q k) := by rw [hpc]; rfl
    refine sound_goes hcalls (sound_running (hsound.builds _ hprogram answer) fun hslot => ?_)
    exact hsound.fails _ hprogram (by rw [hpc]; exact hslot) answer
  | @builds i call sitting slot hcall hpc =>
    have hslot := (hcalls call (List.mem_of_getElem? hcall)).slot_of_ret hpc
    exact sound_goes hcalls (sound_carrying hslot _ _).1
  | leaves hcall hpc => exact sound_goes hcalls (sound_of_none rfl rfl)
  | @files i j call slot l hcall hpc hl =>
    have hslot : slot.isSome = true := (hcalls call (List.mem_of_getElem? hcall)).slot_of_carries hpc rfl
    exact sound_goes hcalls (sound_carrying hslot _ _).2
  | follows hcall hpc hl hstep => exact sound_goes hcalls (sound_of_none rfl rfl)
  | drops hcall hpc => exact sound_goes hcalls (sound_of_none rfl rfl)
  | _ => exact hcalls

/-! ## The scans -/

/-- A step of a scan is its own, or a call sets its follower going, or a client calls `watch`. -/
def Brings (a : Act E) (j : Nat) (act : Live.Act E) : Prop :=
  a = .scan j act ∨ (∃ slot, act = .sitting (.spawn slot)) ∨
    ∃ i id fromSeq, a = .watch i id fromSeq ∧ act = .watch i fromSeq

/-- What a step does to the scans: nothing, one scan more, or a step of one of them. -/
inductive ScansMove (d : Daemon E) (a : Act E) (d' : Daemon E) : Prop
  | stay : d'.scans = d.scans → ScansMove d a d'
  | build {call : Call E} {s : Sitting E} {slot : Option Slot} : call ∈ d.calls →
      call.pc = .running (.ret s) slot → d'.scans = d.scans ++ [.start s] → ScansMove d a d'
  | step {j : Nat} {l l' : Live E} {act : Live.Act E} : d.scans[j]? = some l → l.step act = some l' →
      Brings a j act → d'.scans = d.scans.set j l' → ScansMove d a d'

theorem moves_scans (h : Moves rules d a d') : ScansMove d a d' := by
  cases h with
  | builds hcall hpc => exact .build (List.mem_of_getElem? hcall) hpc rfl
  | follows hcall hpc hl hstep => exact .step hl hstep (.inr (.inl ⟨_, rfl⟩)) rfl
  | scan hl hfree hstep => exact .step hl hstep (.inl rfl) rfl
  | watches hinner hl hstep => exact .step hl hstep (.inr (.inr ⟨_, _, _, rfl, rfl⟩)) rfl
  | _ => exact .stay rfl

theorem ScansMove.before (h : ScansMove d a d') (hl : d'.scans[j]? = some l') :
    d.scans[j]? = some l' ∨
    (∃ l act, d.scans[j]? = some l ∧ l.step act = some l' ∧ Brings a j act) ∨
    (j = d.scans.length ∧ ∃ call s slot, call ∈ d.calls ∧ call.pc = .running (.ret s) slot ∧
      l' = .start s) := by
  cases h with
  | stay hscans => exact .inl (hscans ▸ hl)
  | build hcall hpc hscans =>
    rw [hscans] at hl
    by_cases hj : j < d.scans.length
    · rw [List.getElem?_append_left hj] at hl
      exact .inl hl
    · rw [List.getElem?_append_right (by omega)] at hl
      obtain ⟨hlt, rfl⟩ := List.getElem?_eq_some_iff.mp hl
      rw [List.length_singleton] at hlt
      exact .inr (.inr ⟨by omega, _, _, _, hcall, hpc, List.getElem_singleton _⟩)
  | @step k l m act hk hstep hact hscans =>
    rw [hscans] at hl
    by_cases hjk : k = j
    · subst hjk
      rw [List.getElem?_set_self (List.getElem?_eq_some_iff.mp hk).1] at hl
      cases hl
      exact .inr (.inl ⟨l, act, hk, hstep, hact⟩)
    · rw [List.getElem?_set_ne hjk] at hl
      exact .inl hl

theorem ScansMove.after (h : ScansMove d a d') (hl : d.scans[j]? = some l) :
    ∃ l', d'.scans[j]? = some l' ∧ (l' = l ∨ ∃ act, l.step act = some l') := by
  cases h with
  | stay hscans => exact ⟨l, hscans ▸ hl, .inl rfl⟩
  | build hcall hpc hscans =>
    have hlt := (List.getElem?_eq_some_iff.mp hl).1
    exact ⟨l, by rw [hscans, List.getElem?_append_left hlt, hl], .inl rfl⟩
  | @step k m m' act hk hstep hact hscans =>
    rw [hscans]
    by_cases hjk : k = j
    · subst hjk
      cases hk.symm.trans hl
      exact ⟨m', List.getElem?_set_self (List.getElem?_eq_some_iff.mp hk).1, .inr ⟨act, hstep⟩⟩
    · exact ⟨l, by rw [List.getElem?_set_ne hjk, hl], .inl rfl⟩

/-! ## The registry -/

/-- What is filed under a name is a scan of that name. -/
def Filed (d : Daemon E) : Prop :=
  ∀ id j, d.inner id = some j → ∃ l : Live E, d.scans[j]? = some l ∧ l.sitting.scan.id = id

theorem moves_inner (h : Moves rules d a d') : d'.inner = d.inner ∨
    ∃ i j call slot l, a = .proceed i ∧ d.calls[i]? = some call ∧ call.pc = .filing j slot ∧
      d.scans[j]? = some l ∧ d'.inner = Function.update d.inner l.sitting.scan.id (some j) := by
  cases h with
  | files hcall hpc hl => exact .inr ⟨_, _, _, _, _, rfl, hcall, hpc, hl, rfl⟩
  | _ => exact .inl rfl

theorem moves_filed (h : Moves rules d a d') (hd : Filed d) : Filed d' := by
  have hkept : ∀ (j : Nat) (l : Live E), d.scans[j]? = some l →
      ∃ l' : Live E, d'.scans[j]? = some l' ∧ l'.sitting.scan.id = l.sitting.scan.id := by
    intro j l hl
    obtain ⟨l', hl', rfl | ⟨act, hact⟩⟩ := (moves_scans h).after hl
    · exact ⟨l', hl', rfl⟩
    · exact ⟨l', hl', Live.step_id hact⟩
  intro id j hj
  rcases moves_inner h with hsame | ⟨i, k, call, slot, m, -, -, -, hm, hinner⟩
  · obtain ⟨l, hl, rfl⟩ := hd id j (hsame ▸ hj)
    exact hkept j l hl
  · rw [hinner] at hj
    by_cases hid : id = m.sitting.scan.id
    · subst hid
      rw [Function.update_self] at hj
      cases hj
      exact hkept _ m hm
    · rw [Function.update_of_ne hid] at hj
      obtain ⟨l, hl, rfl⟩ := hd id j hj
      exact hkept j l hl

/-! ## Over whole runs -/

section runs
variable {P : Daemon E → Act E → Prop} {Q : Live E → Live.Act E → Prop}
  {store : Except EngineError (List (Entry E.toEngineTypes))}

theorem reach_sound (h : (machine rules).Reach P (fresh store) d) : ∀ call ∈ d.calls, Sound call :=
  h.invariant (I := fun d => ∀ call ∈ d.calls, Sound call) (fun call hcall => by cases hcall)
    fun _ hcalls _ hstep => moves_sound (moves_of_step hstep) hcalls

theorem reach_filed (h : (machine rules).Reach P (fresh store) d) : Filed d :=
  h.invariant (I := Filed) (fun _ _ hj => by cases hj)
    fun _ hd _ hstep => moves_filed (moves_of_step hstep) hd

/-- A live scan that was begun and has taken steps of its own since, each as `Q` has it. -/
def Begun (Q : Live E → Live.Act E → Prop) (l : Live E) : Prop := ∃ id progress redaction,
  (Live.machine E).Reach Q (.start (.fresh id progress redaction)) l

/-- **Every scan of the daemon was begun, and has taken steps of its own since.** -/
theorem scan_reach (hown : ∀ d j l act, P d (.scan j act) → d.scans[j]? = some l → Q l act)
    (hspawn : ∀ l slot, Q l (.sitting (.spawn slot)))
    (hwatch : ∀ d i id fromSeq l, P d (.watch i id fromSeq) → Q l (.watch i fromSeq))
    (h : (machine rules).Reach P (fresh store) d) (hl : d.scans[j]? = some l) : Begun Q l := by
  refine h.invariant (I := fun d => ∀ j l, d.scans[j]? = some l → Begun Q l)
    (fun j l hl => by simp [fresh] at hl) ?_ j l hl
  intro t u a ht hbegun hP hstep j l hl
  rcases (moves_scans (moves_of_step hstep)).before hl with hl | ⟨m, act, hm, hstep, hact⟩ |
    ⟨-, call, s, slot, hcall, hpc, rfl⟩
  · exact hbegun j l hl
  · obtain ⟨id, progress, redaction, hreach⟩ := hbegun j m hm
    refine ⟨id, progress, redaction, hreach.tail ?_ hstep⟩
    rcases hact with rfl | ⟨slot, rfl⟩ | ⟨i, name, fromSeq, rfl, rfl⟩
    · exact hown t j m act hP hm
    · exact hspawn m slot
    · exact hwatch t i name fromSeq m hP
  · obtain ⟨id, progress, redaction, rfl⟩ := (reach_sound ht call hcall).fresh_of_ret hpc
    exact ⟨id, progress, redaction, .refl⟩

theorem scan_reach_always (h : (machine rules).Reach P (fresh store) d) (hl : d.scans[j]? = some l) :
    Begun Machine.Always l :=
  scan_reach (fun _ _ _ _ _ _ => trivial) (fun _ _ => trivial) (fun _ _ _ _ _ _ => trivial) h hl

/-- A scan keeps its place, and takes steps of its own there. -/
theorem later (h : (machine rules).Reach P d d') (hl : d.scans[j]? = some l) :
    ∃ l', d'.scans[j]? = some l' ∧ (Live.machine E).Reach Machine.Always l l' := by
  induction h with
  | refl => exact ⟨l, hl, .refl⟩
  | tail _ _ hstep ih =>
    obtain ⟨m, hm, hreach⟩ := ih
    obtain ⟨m', hm', rfl | ⟨act, hact⟩⟩ := (moves_scans (moves_of_step hstep)).after hm
    · exact ⟨m', hm', hreach⟩
    · exact ⟨m', hm', hreach.tail trivial hact⟩

end runs

end Daemon

end ZondDaemon
