import ZondDaemon.Daemon.Runs

/-!
# Slots and the ceiling

Where every slot is. A slot is claimed by a call, carried with the scan the call builds, and let go of by
that scan's follower; a call that ends without a scan drops it on its way out. `Placed` says of each scan
who has its slot, and the count is the number of slots there are (`Counted`).
-/

namespace ZondDaemon

open Sequence

variable {E : Engine}

/-- The three parts of a follower's life. -/
inductive Phase | unborn | going | ended
deriving DecidableEq

namespace Follower

def phase : Follower E → Phase
  | .unborn => .unborn
  | .done => .ended
  | _ => .going

end Follower

namespace Sitting

variable {s t : Sitting E} {a : Act E}

theorem follow_phase (h : s.follow = some t) :
    s.follower.phase = .going ∧ ((t.follower.phase = .going ∧ t.slot = s.slot) ∨
      (t.follower.phase = .ended ∧ t.slot = false)) := by
  cases follows_of_follow h with
  | releases hf => exact ⟨by rw [hf]; rfl, .inr ⟨rfl, rfl⟩⟩
  | @hears event _ _ hf => exact ⟨by rw [hf]; rfl, .inl ⟨by cases event <;> rfl, rfl⟩⟩
  | @notifies next hf => exact ⟨by rw [hf]; rfl, .inl ⟨by cases next <;> rfl, rfl⟩⟩
  | _ =>
    rename_i hf
    exact ⟨by rw [hf]; rfl, .inl ⟨rfl, rfl⟩⟩

theorem step_spawn {slot : Bool} (h : s.step (.spawn slot) = some t) :
    s.follower.phase = .unborn ∧ t.follower.phase = .going ∧ t.slot = slot := by
  cases steps_of_step h with
  | spawns slot hf => exact ⟨by rw [hf]; rfl, rfl, rfl⟩

theorem step_phase (h : s.step a = some t) (hspawn : ∀ slot, a ≠ .spawn slot) :
    (t.follower.phase = s.follower.phase ∧ t.slot = s.slot) ∨
    (s.follower.phase = .going ∧ t.follower.phase = .ended ∧ t.slot = false) := by
  cases steps_of_step h with
  | follows =>
    obtain ⟨hgoing, hstays | hends⟩ := follow_phase h
    · exact .inl ⟨hstays.1.trans hgoing.symm, hstays.2⟩
    · exact .inr ⟨hgoing, hends⟩
  | spawns slot => exact absurd rfl (hspawn slot)
  | _ => exact .inl ⟨rfl, rfl⟩

end Sitting

namespace Daemon

variable {rules : Rules E} {d d' : Daemon E} {a : Act E} {i j : Nat} {call : Call E} {pc : CallPc E}
  {l l' : Live E} {act : Live.Act E}

/-- The slots there are: those calls hold and those followers hold. -/
def slots (d : Daemon E) : Nat :=
  d.calls.countP (fun call => call.pc.slot.isSome) + d.scans.countP fun l => l.sitting.slot

/-- The slots held for the scan `j`: by the call that is about to file it, or by its follower. -/
def holders (d : Daemon E) (j : Nat) (l : Live E) : Nat :=
  d.calls.countP (fun call => call.pc.carries = some j && call.pc.slot.isSome) +
    if l.sitting.slot then 1 else 0

/-- The calls on their way to file the scan `j` or to set its follower going. -/
def carriers (d : Daemon E) (j : Nat) : Nat := d.calls.countP fun call => call.pc.carries = some j

theorem carriers_goes (h : d.calls[i]? = some call) (pc : CallPc E) (j : Nat) :
    (d.goes i call pc).carriers j + (if call.pc.carries = some j then 1 else 0) =
      d.carriers j + if pc.carries = some j then 1 else 0 := by
  have hset := countP_set_add (p := fun call : Call E => decide (call.pc.carries = some j))
    { call with pc := pc } h
  simp only [decide_eq_true_eq] at hset
  exact hset

theorem slots_goes (pc : CallPc E) (d' : Daemon E) (h : d.calls[i]? = some call)
    (hcalls : d'.calls = (d.goes i call pc).calls) (hscans : d'.scans = d.scans) :
    d'.slots + (if call.pc.slot.isSome then 1 else 0) = d.slots + if pc.slot.isSome then 1 else 0 := by
  have hset := countP_set_add (p := fun call : Call E => call.pc.slot.isSome) { call with pc := pc } h
  rw [slots, slots, hcalls, hscans]
  dsimp only [goes] at hset ⊢
  omega

theorem slots_step (l' : Live E) (d' : Daemon E) (hl : d.scans[j]? = some l)
    (hcalls : d'.calls = d.calls) (hscans : d'.scans = d.scans.set j l') :
    d'.slots + (if l.sitting.slot then 1 else 0) = d.slots + if l'.sitting.slot then 1 else 0 := by
  have hset := countP_set_add (p := fun l : Live E => l.sitting.slot) l' hl
  rw [slots, slots, hcalls, hscans]
  omega

/-! ## Who has the slot of a scan -/

/-- By phase: whether the scan's follower has a slot, and how many calls are on their way to it. -/
def share : Phase → Bool × Nat
  | .unborn => (false, 1)
  | .going => (true, 0)
  | .ended => (false, 0)

/-- Every scan has what its phase gives it, and nobody is on the way to a scan there is not. -/
structure Placed (d : Daemon E) : Prop where
  beyond : ∀ j, d.scans.length ≤ j → d.carriers j = 0
  placed : ∀ j l, d.scans[j]? = some l → (l.sitting.slot, d.carriers j) = share l.sitting.follower.phase

theorem Placed.slot (h : Placed d) (hl : d.scans[j]? = some l) :
    l.sitting.slot = (share l.sitting.follower.phase).1 := congrArg Prod.fst (h.placed j l hl)

theorem Placed.carriers (h : Placed d) (hl : d.scans[j]? = some l) :
    d.carriers j = (share l.sitting.follower.phase).2 := congrArg Prod.snd (h.placed j l hl)

theorem fresh_placed (store : Except EngineError (List (Entry E.toEngineTypes))) :
    Placed (fresh store : Daemon E) :=
  ⟨fun _ _ => rfl, fun j l hl => by simp [fresh] at hl⟩

theorem Placed.same (h : Placed d) (hscans : d'.scans = d.scans)
    (hcarriers : ∀ j, d'.carriers j = d.carriers j) : Placed d' where
  beyond j hj := by
    rw [hcarriers j]
    exact h.beyond j (hscans ▸ hj)
  placed j l hl := by
    rw [hcarriers j]
    exact h.placed j l (hscans ▸ hl)

theorem Placed.step (h : Placed d) (hl : d.scans[j]? = some l) (hscans : d'.scans = d.scans.set j l')
    (hothers : ∀ k, j ≠ k → d'.carriers k = d.carriers k)
    (hshare : (l.sitting.slot, d.carriers j) = share l.sitting.follower.phase →
      (l'.sitting.slot, d'.carriers j) = share l'.sitting.follower.phase) : Placed d' := by
  have hj := (List.getElem?_eq_some_iff.mp hl).1
  constructor
  · intro k hk
    rw [hscans, List.length_set] at hk
    rw [hothers k (by omega)]
    exact h.beyond k hk
  · intro k m hm
    rw [hscans] at hm
    by_cases hjk : j = k
    · subst hjk
      rw [List.getElem?_set_self hj] at hm
      cases hm
      exact hshare (h.placed j l hl)
    · rw [List.getElem?_set_ne hjk] at hm
      rw [hothers k hjk]
      exact h.placed k m hm

theorem Placed.build (h : Placed d) {m : Live E} (hscans : d'.scans = d.scans ++ [m])
    (hcarriers : ∀ k, d'.carriers k = d.carriers k + if d.scans.length = k then 1 else 0)
    (hshare : (m.sitting.slot, 1) = share m.sitting.follower.phase) : Placed d' := by
  constructor
  · intro k hk
    rw [hscans, List.length_append, List.length_singleton] at hk
    rw [hcarriers, h.beyond k (by omega), if_neg (by omega)]
  · intro k l hl
    rw [hscans] at hl
    rw [hcarriers]
    by_cases hk : k < d.scans.length
    · rw [List.getElem?_append_left hk] at hl
      rw [if_neg (by omega)]
      exact h.placed k l hl
    · rw [List.getElem?_append_right (by omega)] at hl
      obtain ⟨hlt, rfl⟩ := List.getElem?_eq_some_iff.mp hl
      rw [List.length_singleton] at hlt
      have hkeq : d.scans.length = k := by omega
      rw [h.beyond k (by omega), if_pos hkeq, List.getElem_singleton]
      exact hshare

theorem step_phase (h : l.step act = some l') (hspawn : ∀ slot, act ≠ .sitting (.spawn slot)) :
    (l'.sitting.follower.phase = l.sitting.follower.phase ∧ l'.sitting.slot = l.sitting.slot) ∨
    (l.sitting.follower.phase = .going ∧ l'.sitting.follower.phase = .ended ∧
      l'.sitting.slot = false) := by
  rcases Live.step_sitting h with heq | ⟨a, rfl, hs⟩
  · rw [heq]
    exact .inl ⟨rfl, rfl⟩
  · exact Sitting.step_phase hs fun slot heq => hspawn slot (by rw [heq])

theorem spawn_of_freely (hfree : freely act = true) : ∀ slot, act ≠ .sitting (.spawn slot) := by
  rintro slot rfl
  cases hfree

theorem share_of_step {count : Nat} (h : l.step act = some l')
    (hspawn : ∀ slot, act ≠ .sitting (.spawn slot))
    (hshare : (l.sitting.slot, count) = share l.sitting.follower.phase) :
    (l'.sitting.slot, count) = share l'.sitting.follower.phase := by
  rcases step_phase h hspawn with ⟨hphase, hslot⟩ | ⟨hgoing, hended, hslot⟩
  · rw [hphase, hslot]
    exact hshare
  · rw [hgoing, share, Prod.mk.injEq] at hshare
    rw [hended, hslot, hshare.2]
    rfl

theorem arriving_slot (rules : Rules E) (request : Request E) :
    (arriving rules request).pc.slot = none ∧ (arriving rules request).pc.carries = none := by
  cases request with
  | start wire => exact ⟨rfl, rfl⟩
  | resume id =>
    unfold arriving
    cases rules.root <;> exact ⟨rfl, rfl⟩

theorem moves_placed (h : Moves rules d a d') (hcalls : ∀ call ∈ d.calls, Sound call)
    (hd : Placed d) : Placed d' := by
  have hstay : ∀ {i : Nat} {call : Call E} {pc : CallPc E}, d.calls[i]? = some call →
      pc.carries = call.pc.carries → ∀ j, (d.goes i call pc).carriers j = d.carriers j := by
    intro i call pc hcall hsame j
    have hgoes := carriers_goes hcall pc j
    rw [hsame] at hgoes
    omega
  cases h with
  | arrives request =>
    refine hd.same rfl fun j => ?_
    simp [Daemon.carriers, (arriving_slot rules request).2]
  | tries hcall hpc hnext =>
    refine hd.same rfl (hstay hcall ?_)
    rcases hpc with hpc | ⟨taken, hpc⟩ <;> rcases hnext with ⟨taken', rfl⟩ | rfl <;> rw [hpc] <;> rfl
  | reserves hcall hpc hroom => exact hd.same rfl (hstay hcall (by rw [hpc]; rfl))
  | answers answer hcall hpc => exact hd.same rfl (hstay hcall (by rw [hpc]; rfl))
  | leaves hcall hpc => exact hd.same rfl (hstay hcall (by rw [hpc]; rfl))
  | drops hcall hpc => exact hd.same rfl (hstay hcall (by rw [hpc]; rfl))
  | files hcall hpc hl => exact hd.same rfl (hstay hcall (by rw [hpc]; rfl))
  | @builds i call sitting slot hcall hpc =>
    have hgoes := fun k => carriers_goes hcall (.filing d.scans.length slot) k
    simp only [hpc, CallPc.carries, Option.some.injEq, reduceCtorEq, if_false, Nat.add_zero] at hgoes
    obtain ⟨id, progress, redaction, rfl⟩ := (hcalls call (List.mem_of_getElem? hcall)).fresh_of_ret hpc
    exact hd.build rfl hgoes rfl
  | @follows i j call slot l l' hcall hpc hl hstep =>
    have hgoes := fun k => carriers_goes hcall (.returned (some (.ok l.sitting.scan.id))) k
    simp only [hpc, CallPc.carries, Option.some.injEq, reduceCtorEq, if_false, Nat.add_zero] at hgoes
    have hslot : slot.isSome = true := (hcalls call (List.mem_of_getElem? hcall)).slot_of_carries hpc rfl
    obtain ⟨hunborn, hgoing, hspawned⟩ := Sitting.step_spawn (Live.step_spawn hstep)
    have hcarriers := hd.carriers hl
    rw [hunborn] at hcarriers
    refine hd.step hl rfl (fun k hjk => ?_) fun _ => ?_
    · have hk := hgoes k
      rw [if_neg hjk, Nat.add_zero] at hk
      exact hk
    · have hj := hgoes j
      rw [if_pos rfl, hcarriers] at hj
      show (l'.sitting.slot, (d.goes i call _).carriers j) = _
      rw [Nat.succ.inj hj, hgoing, hspawned, hslot]
      rfl
  | scan hl hfree hstep =>
    exact hd.step hl rfl (fun _ _ => rfl) (share_of_step hstep (spawn_of_freely hfree))
  | watches hinner hl hstep =>
    exact hd.step hl rfl (fun _ _ => rfl) (share_of_step hstep fun _ => nofun)
  | _ => exact hd.same rfl fun _ => rfl

/-! ## The count -/

theorem released_eq {taken : Nat} (hpos : 0 < taken) (hle : taken ≤ usizeMax) :
    released taken = taken - 1 := by
  have hone : taken + usizeMax = taken - 1 + (usizeMax + 1) := by omega
  rw [released, hone, Nat.add_mod_right, Nat.mod_eq_of_lt (by omega)]

/-- The count is the number of slots, and no more than may run. -/
structure Counted (rules : Rules E) (d : Daemon E) : Prop where
  taken : d.taken = d.slots
  most : d.taken ≤ rules.most

/-- What a step does to the count and to the slots: nothing, a slot more where one may be had, or one
less where there is one. -/
inductive Tallies (rules : Rules E) (d d' : Daemon E) : Prop
  | stay : d'.taken = d.taken → d'.slots = d.slots → Tallies rules d d'
  | claim : d.taken < rules.most → d'.taken = d.taken + 1 → d'.slots = d.slots + 1 → Tallies rules d d'
  | release : d'.taken + 1 = d.taken → d'.slots + 1 = d.slots → Tallies rules d d'

theorem Tallies.goes (hcall : d.calls[i]? = some call) (hslot : pc.slot.isSome = call.pc.slot.isSome)
    (hcalls : d'.calls = (d.goes i call pc).calls) (hscans : d'.scans = d.scans)
    (htaken : d'.taken = d.taken) : Tallies rules d d' := by
  have hslots := slots_goes pc d' hcall hcalls hscans
  rw [hslot] at hslots
  exact .stay htaken (Nat.add_right_cancel hslots)

theorem Tallies.step (hl : d.scans[j]? = some l) (hslot : l'.sitting.slot = l.sitting.slot)
    (hcalls : d'.calls = d.calls) (hscans : d'.scans = d.scans.set j l') (htaken : d'.taken = d.taken) :
    Tallies rules d d' := by
  have hslots := slots_step l' d' hl hcalls hscans
  rw [hslot] at hslots
  exact .stay htaken (Nat.add_right_cancel hslots)

/-- A slot is dropped: there is one, so the count does not go below nothing. -/
theorem Counted.releases (h : Counted rules d) (hslots : d'.slots + 1 = d.slots)
    (htaken : d'.taken = released d.taken) : Tallies rules d d' := by
  have hle := Nat.le_trans h.most rules.most_le
  have hpos : 0 < d.taken := by
    rw [h.taken, ← hslots]
    exact Nat.succ_pos _
  rw [released_eq hpos hle] at htaken
  exact .release (by omega) hslots

theorem moves_tallies (h : Moves rules d a d') (hsound : ∀ call ∈ d.calls, Sound call)
    (hplaced : Placed d) (hd : Counted rules d) : Tallies rules d d' := by
  cases h with
  | arrives request =>
    refine .stay rfl ?_
    simp [slots, (arriving_slot rules request).1]
  | tries hcall hpc hnext =>
    refine .goes hcall ?_ rfl rfl rfl
    rcases hpc with hpc | ⟨taken, hpc⟩ <;> rcases hnext with ⟨taken', rfl⟩ | rfl <;> rw [hpc] <;> rfl
  | @reserves i spurious call hcall hpc hroom =>
    have hslots := fun u =>
      slots_goes (.running (call.request.pipeline rules (some {})) (some {})) u hcall
    simp only [hpc, CallPc.slot] at hslots
    have hle := rules.most_le
    exact .claim hroom (Nat.mod_eq_of_lt (by omega)) (hslots _ rfl rfl)
  | answers answer hcall hpc => exact .goes hcall (by rw [hpc]; rfl) rfl rfl rfl
  | leaves hcall hpc => exact .goes hcall (by rw [hpc]; rfl) rfl rfl rfl
  | files hcall hpc hl => exact .goes hcall (by rw [hpc]; rfl) rfl rfl rfl
  | @builds i call sitting slot hcall hpc =>
    obtain ⟨id, progress, redaction, rfl⟩ := (hsound call (List.mem_of_getElem? hcall)).fresh_of_ret hpc
    have hslots := slots_goes _ (d.goes i call (.filing d.scans.length slot)) hcall rfl rfl
    rw [hpc] at hslots
    refine .stay rfl (Eq.trans ?_ (Nat.add_right_cancel hslots))
    rw [slots, List.countP_append]
    rfl
  | @follows i j call slot l l' hcall hpc hl hstep =>
    have hslot : slot.isSome = true := (hsound call (List.mem_of_getElem? hcall)).slot_of_carries hpc rfl
    obtain ⟨hunborn, -, hspawned⟩ := Sitting.step_spawn (Live.step_spawn hstep)
    have hnone := hplaced.slot hl
    rw [hunborn] at hnone
    -- the slot leaves the call and is the follower's
    have hleaves := slots_goes _ (d.goes i call (.returned (some (.ok l.sitting.scan.id)))) hcall rfl rfl
    have hcomes := fun u =>
      slots_step (d := d.goes i call (.returned (some (.ok l.sitting.scan.id)))) l' u hl
    simp only [hpc, CallPc.slot, hslot, if_true, Option.isSome_none, Bool.false_eq_true, if_false,
      Nat.add_zero] at hleaves
    simp only [hnone, share, hspawned, hslot, if_true, Bool.false_eq_true, if_false,
      Nat.add_zero] at hcomes
    exact .stay rfl (.trans (hcomes _ (by rfl) (by rfl)) hleaves)
  | @drops i call slot error hcall hpc =>
    have hslots := fun u => slots_goes (.returned (error.map .error)) u hcall
    simp only [hpc, CallPc.slot] at hslots
    cases slot with
    | none => exact .stay rfl (hslots _ rfl rfl)
    | some slot => exact hd.releases (hslots _ rfl rfl) rfl
  | @scan j act l l' hl hfree hstep =>
    rcases step_phase hstep (spawn_of_freely hfree) with ⟨-, hslot⟩ | ⟨hgoing, -, hslot⟩
    · refine .step hl hslot rfl rfl ?_
      simp only [hslot, Bool.and_not_self, Bool.false_eq_true, if_false]
    · have hheld := hplaced.slot hl
      rw [hgoing] at hheld
      have hslots := fun u => slots_step l' u hl
      simp only [hheld, hslot, share] at hslots
      refine hd.releases (hslots _ rfl rfl) ?_
      simp only [hheld, hslot, share, Bool.not_false, Bool.and_self, if_true]
  | watches hinner hl hstep => exact .step hl (by rw [(Live.step_watch hstep)]) rfl rfl rfl
  | _ => exact .stay rfl rfl

/-! ## Over whole runs -/

section runs
variable {P : Daemon E → Act E → Prop} {store : Except EngineError (List (Entry E.toEngineTypes))}

theorem reach_placed (h : (machine rules).Reach P (fresh store) d) : Placed d :=
  h.invariant (I := Placed) (fresh_placed store) fun ht hplaced _ hstep =>
    moves_placed (moves_of_step hstep) (reach_sound ht) hplaced

theorem Tallies.counted (h : Tallies rules d d') (hd : Counted rules d) : Counted rules d' := by
  have htaken := hd.taken
  have hmost := hd.most
  cases h with
  | stay hsame hslots => exact ⟨by omega, by omega⟩
  | claim hroom hone hslots => exact ⟨by omega, by omega⟩
  | release hone hslots => exact ⟨by omega, by omega⟩

theorem reach_counted (h : (machine rules).Reach P (fresh store) d) : Counted rules d :=
  h.invariant (I := Counted rules) ⟨rfl, Nat.zero_le _⟩ fun ht hd _ hstep =>
    (moves_tallies (moves_of_step hstep) (reach_sound ht) (reach_placed ht) hd).counted hd

theorem reach_tallies (h : (machine rules).Reach P (fresh store) d)
    (hstep : (machine rules).step d a = some d') : Tallies rules d d' :=
  moves_tallies (moves_of_step hstep) (reach_sound h) (reach_placed h) (reach_counted h)

theorem holders_eq (hsound : ∀ call ∈ d.calls, Sound call) (j : Nat) (l : Live E) :
    d.holders j l = d.carriers j + if l.sitting.slot then 1 else 0 := by
  have hcount : d.calls.countP (fun call => call.pc.carries = some j && call.pc.slot.isSome) =
      d.carriers j := by
    apply List.countP_congr
    intro call hcall
    simp only [Bool.and_eq_true, decide_eq_true_eq, and_iff_left_iff_imp]
    intro hcarries
    exact (hsound call hcall).holds (by rw [hcarries]; rfl)
  rw [holders, hcount]

theorem phase_of_open (h : (machine rules).Reach P (fresh store) d) (hl : d.scans[j]? = some l)
    (hopen : l.log.closed = false) : l.sitting.follower.phase ≠ .ended := by
  obtain ⟨id, progress, redaction, hreach⟩ := scan_reach_always h hl
  rw [Live.reach_closed hreach] at hopen
  intro hended
  cases hf : l.sitting.follower with
  | done =>
    rw [hf] at hopen
    cases hopen
  | _ =>
    rw [hf] at hended
    cases hended

/-- **The count is the number of slots and never more than may run, no step takes it round the end of its
range, a scan holds exactly one slot until its log is closed, and in the end there is none left.** -/
theorem ceiling (h : (machine rules).Reach P (fresh store) d) :
    d.taken = d.slots ∧ d.taken ≤ rules.most ∧
    (∀ a d', (machine rules).step d a = some d' →
      d'.taken = d.taken ∨ (d'.taken = d.taken + 1 ∧ d'.taken ≤ rules.most) ∨ d'.taken + 1 = d.taken) ∧
    (∀ j l, d.scans[j]? = some l → l.log.closed = false → d.holders j l = 1) ∧
    ((∀ call ∈ d.calls, ∃ answer, call.pc = .returned answer) →
      (∀ l ∈ d.scans, l.sitting.follower.phase ≠ .going) → d.taken = 0) := by
  have hplaced := reach_placed h
  have hcounted := reach_counted h
  refine ⟨hcounted.taken, hcounted.most, fun a d' hstep => ?_, fun j l hl hopen => ?_, ?_⟩
  · cases reach_tallies h hstep with
    | stay hsame _ => exact .inl hsame
    | claim hroom hone _ => exact .inr (.inl ⟨hone, by omega⟩)
    | release hone _ => exact .inr (.inr hone)
  · have hslot := hplaced.slot hl
    have hcarriers := hplaced.carriers hl
    rw [holders_eq (reach_sound h), hslot, hcarriers]
    cases hphase : l.sitting.follower.phase with
    | unborn => rfl
    | going => rfl
    | ended => exact absurd hphase (phase_of_open h hl hopen)
  · intro hreturned hover
    have hcalls : d.calls.countP (fun call => call.pc.slot.isSome) = 0 := by
      apply List.countP_eq_zero.mpr
      intro call hcall
      obtain ⟨answer, hpc⟩ := hreturned call hcall
      rw [hpc]
      exact Bool.false_ne_true
    have hscans : d.scans.countP (fun l => l.sitting.slot) = 0 := by
      apply List.countP_eq_zero.mpr
      intro l hl
      obtain ⟨j, hj⟩ := List.getElem?_of_mem hl
      rw [hplaced.slot hj]
      cases hphase : l.sitting.follower.phase with
      | going => exact absurd hphase (hover l hl)
      | _ => exact Bool.false_ne_true
    rw [hcounted.taken, slots, hcalls, hscans]

end runs

/-- A daemon of the plain engine that runs one scan at a time. -/
def oneAtOnce : Rules Plain.engine where
  root := false
  scope := ⟨none, Plain.engine.newSet⟩
  audit := ⟨false⟩
  ceiling := some 1
  ceiling_le := Rules.one_le

/-- Two starts come together, and the first has the slot: one scan runs and the other call is refused. -/
def together : List (Act Plain.engine) :=
  [.arrive (.start { targets := ["10"] }), .arrive (.start { targets := ["11"] }), .reserve 0 false,
    .reserve 1 false, .reserve 0 false, .reserve 1 false, .reserve 1 false] ++
  List.replicate 6 (.answer 0 fun q => some (Plain.world q)) ++ List.replicate 3 (.proceed 0) ++
  [.answer 1 fun q => some (Plain.world q), .proceed 1, .proceed 1]

/-- The scan `j`, its stream empty, runs to its end. -/
def untilOver (j : Nat) (outcome : Except EngineError (List (Nat × String))) :
    List (Act Plain.engine) :=
  [.scan j (.sitting .hangUp), .scan j (.sitting (.finish outcome))] ++
  List.replicate 9 (.scan j (.sitting .follow))

/-- There the one slot is the scan's while it runs, and nobody's when it is over. -/
theorem ceiling_oneAtOnce :
    (∃ d l, (machine oneAtOnce).Reach Machine.Always (fresh (.ok [])) d ∧ d.scans[0]? = some l ∧
      d.taken = d.slots ∧ d.taken ≤ 1 ∧ d.holders 0 l = 1) ∧
    ∃ d, (machine oneAtOnce).Reach Machine.Always (fresh (.ok [])) d ∧ d.calls.length = 2 ∧
      d.scans.length = 1 ∧ d.taken = 0 := by
  have hrunning : ((machine oneAtOnce).run (fresh (.ok [])) together).isSome := by decide +kernel
  have hover : ((machine oneAtOnce).run (fresh (.ok [])) (together ++ untilOver 0 (.ok []))).isSome := by
    decide +kernel
  constructor
  · have h := Machine.Reach.of_run (Option.some_get hrunning).symm
    obtain ⟨htaken, hmost, -, hholds, -⟩ := ceiling h
    exact ⟨_, _, h, rfl, htaken, hmost, hholds 0 _ rfl rfl⟩
  · have h := Machine.Reach.of_run (Option.some_get hover).symm
    obtain ⟨-, -, -, -, hnone⟩ := ceiling h
    refine ⟨_, h, rfl, rfl, hnone ?_ fun l hl => ?_⟩
    · rintro call (_ | ⟨_, _ | ⟨_, ⟨⟩⟩⟩)
      · exact ⟨_, rfl⟩
      · exact ⟨_, rfl⟩
    · rcases hl with _ | ⟨_, ⟨⟩⟩
      exact nofun

end Daemon

end ZondDaemon
