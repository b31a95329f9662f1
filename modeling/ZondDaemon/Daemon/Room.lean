import ZondDaemon.Daemon.Names

/-!
# Room for the next scan

A follower closes its scan's log, wakes the readers and drops its slot after that, so there are states in
which a scan is over for everybody who looks at it and still has its slot. `lingering` counts those scans,
and `idle` what has no slot though it is counted as running or on its way. The count is covered by what
runs and what is on its way exactly where no more linger than idle, and a call that comes when nothing else
is there is sure of a slot exactly where fewer linger than may run.
-/

namespace ZondDaemon

open Sequence

variable {E : Engine}

namespace CallPc

/-- The call has been answered, or abandoned. -/
def finished : CallPc E → Bool
  | .returned _ => true
  | _ => false

/-- The call is through with `reserve`. -/
def past : CallPc E → Bool
  | .loading => false
  | .reserving _ => false
  | _ => true

end CallPc

namespace Daemon

variable {rules : Rules E} {d d' : Daemon E} {a : Act E} {i j : Nat} {call : Call E} {pc : CallPc E}
  {l l' : Live E}

/-! ## What is counted -/

/-- The scans whose log is not closed. -/
def opened (d : Daemon E) : Nat := d.scans.countP fun l => !l.log.closed

/-- The calls of `start` and `resume` still on their way. -/
def inFlight (d : Daemon E) : Nat := d.calls.countP fun call => !call.pc.finished

/-- The scans whose log is closed and whose follower still has the slot. -/
def lingering (d : Daemon E) : Nat := d.scans.countP fun l => l.log.closed && l.sitting.slot

/-- The calls on their way and the scans with an open log that have no slot. -/
def idle (d : Daemon E) : Nat :=
  d.calls.countP (fun call => !call.pc.finished && !call.pc.slot.isSome) +
    d.scans.countP fun l => !l.log.closed && !l.sitting.slot

theorem finished_of_slot (h : pc.slot.isSome = true) : pc.finished = false := by
  cases pc <;> first | rfl | cases h

theorem slots_add_idle (d : Daemon E) : d.slots + d.idle = d.opened + d.inFlight + d.lingering := by
  have hcalls := countP_split (fun call : Call E => !call.pc.finished) (fun call => call.pc.slot.isSome) d.calls
  have hscans := countP_split (fun l : Live E => !l.log.closed) (fun l => l.sitting.slot) d.scans
  have hslots := countP_split (fun l : Live E => l.sitting.slot) (fun l => l.log.closed) d.scans
  have hholding : d.calls.countP (fun call => call.pc.slot.isSome) =
      d.calls.countP fun call => !call.pc.finished && call.pc.slot.isSome := by
    apply List.countP_congr
    intro call _
    simp only [Bool.and_eq_true, Bool.not_eq_true', iff_and_self]
    exact finished_of_slot
  simp only [Bool.and_comm (Live.sitting _).slot] at hslots
  simp only [slots, idle, opened, inFlight, lingering]
  omega

theorem taken_le_iff (h : d.taken = d.slots) :
    d.taken ≤ d.opened + d.inFlight ↔ d.lingering ≤ d.idle := by
  have hsum := d.slots_add_idle
  omega

theorem slots_eq_lingering (hopened : d.opened = 0) (hinFlight : d.inFlight = 0) :
    d.slots = d.lingering := by
  have hsum := d.slots_add_idle
  have hcalls := countP_split (fun call : Call E => !call.pc.finished) (fun call => call.pc.slot.isSome) d.calls
  have hscans := countP_split (fun l : Live E => !l.log.closed) (fun l => l.sitting.slot) d.scans
  have hidle : d.idle = 0 := by
    simp only [opened] at hopened
    simp only [inFlight] at hinFlight
    simp only [idle]
    omega
  omega

/-! ## One call on its own -/

theorem reserve_cases {spurious : Bool} (h : d.reserve rules i spurious call = some d') :
    ((call.pc = .loading ∨ ∃ taken, call.pc = .reserving taken) ∧
      d' = d.goes i call (.reserving d.taken)) ∨
    (∃ taken, call.pc = .reserving taken ∧ rules.most ≤ taken ∧
      d' = d.goes i call (.running (call.request.pipeline rules none) none)) ∨
    (call.pc = .reserving d.taken ∧ d.taken < rules.most ∧
      d' = { d.goes i call (.running (call.request.pipeline rules (some {})) (some {})) with
        taken := (d.taken + 1) % (usizeMax + 1) }) := by
  unfold reserve at h
  split at h
  · rename_i hpc
    cases h
    exact .inl ⟨.inl hpc, rfl⟩
  · rename_i taken hpc
    split_ifs at h with hfull hsame
    · cases h
      exact .inr (.inl ⟨taken, hpc, hfull, rfl⟩)
    · simp only [Bool.and_eq_true, beq_iff_eq] at hsame
      obtain ⟨-, rfl⟩ := hsame
      cases h
      exact .inr (.inr ⟨hpc, Nat.lt_of_not_le hfull, rfl⟩)
    · cases h
      exact .inl ⟨.inr ⟨taken, hpc⟩, rfl⟩
  · cases h

/-- A new call. -/
def arrives : Act E → Bool
  | .arrive _ => true
  | _ => false

/-- A step that is no new call. -/
def Quiet (_ : Daemon E) (a : Act E) : Prop := arrives a = false

/-- The daemon once the request has come. -/
def comes (rules : Rules E) (d : Daemon E) (request : Request E) : Daemon E :=
  { d with calls := d.calls ++ [arriving rules request] }

/-- The call goes on without a slot. -/
def TurnedAway (rules : Rules E) (d : Daemon E) (i : Nat) : Prop := ∃ call, d.calls[i]? = some call ∧
  call.pc = .running (call.request.pipeline rules none) none

/-- Every call but the `n`-th is over; that one has seen no more than `k` slots taken and there are no more,
or it has a slot of its own, or is over too. -/
structure Alone (k n : Nat) (d : Daemon E) : Prop where
  others : ∀ i call, d.calls[i]? = some call → i ≠ n → call.pc.finished = true
  here : ∀ call, d.calls[n]? = some call →
    ((call.pc = .loading ∨ ∃ taken ≤ k, call.pc = .reserving taken) ∧ d.taken ≤ k) ∨
    call.pc.slot.isSome = true ∨ call.pc.finished = true

variable {k n : Nat}

theorem Alone.eq (h : Alone k n d) (hcall : d.calls[i]? = some call) (hover : call.pc.finished = false) :
    i = n := by
  by_contra hne
  rw [h.others i call hcall hne] at hover
  cases hover

theorem Alone.goes (h : Alone k n d) (hcall : d.calls[n]? = some call)
    (hcalls : d'.calls = (d.goes n call pc).calls)
    (hnext : ((pc = .loading ∨ ∃ taken ≤ k, pc = .reserving taken) ∧ d'.taken ≤ k) ∨
      pc.slot.isSome = true ∨ pc.finished = true) : Alone k n d' := by
  constructor
  · intro i other hother hne
    rw [hcalls, Daemon.goes, List.getElem?_set_ne (Ne.symm hne)] at hother
    exact h.others i other hother hne
  · intro other hother
    rw [hcalls, Daemon.goes, List.getElem?_set_self (List.getElem?_eq_some_iff.mp hcall).1] at hother
    cases hother
    exact hnext

theorem Alone.past {pc pc' : CallPc E} (h : Alone k n d) (hcall : d.calls[i]? = some call)
    (hpc : call.pc = pc) (hpast : pc.past = true) (hover : pc.finished = false)
    (hcalls : d'.calls = (d.goes i call pc').calls) (hnext : pc'.slot = pc.slot ∨ pc'.finished = true) :
    Alone k n d' := by
  subst hpc
  obtain rfl := h.eq hcall hover
  apply h.goes hcall hcalls
  rcases hnext with hsame | hends
  · rcases h.here call hcall with ⟨hpc | ⟨taken, -, hpc⟩, -⟩ | hsome | hends
    · rw [hpc] at hpast
      cases hpast
    · rw [hpc] at hpast
      cases hpast
    · exact .inr (.inl (hsame ▸ hsome))
    · rw [hends] at hover
      cases hover
  · exact .inr (.inr hends)

theorem Alone.same (h : Alone k n d) (hcalls : d'.calls = d.calls) (htaken : d'.taken ≤ d.taken) :
    Alone k n d' := by
  constructor
  · rw [hcalls]
    exact h.others
  · intro call hcall
    rw [hcalls] at hcall
    rcases h.here call hcall with ⟨htries, hle⟩ | hrest
    · exact .inl ⟨htries, Nat.le_trans htaken hle⟩
    · exact .inr hrest

theorem released_le (h : Counted rules d) (hl : d.scans[j]? = some l) (hslot : l.sitting.slot = true) :
    released d.taken ≤ d.taken := by
  have hpos : 0 < d.scans.countP fun l => l.sitting.slot :=
    List.countP_pos_iff.mpr ⟨l, List.mem_of_getElem? hl, hslot⟩
  have htaken : 0 < d.taken := by
    rw [h.taken, slots]
    omega
  rw [released_eq htaken (Nat.le_trans h.most rules.most_le)]
  exact Nat.sub_le _ _

theorem moves_alone (hcounted : Counted rules d) (hmoves : Moves rules d a d') (hquiet : Quiet d a)
    (hreserve : ∀ i spurious, a ≠ .reserve i spurious) (h : Alone k n d) : Alone k n d' := by
  cases hmoves with
  | arrives request => cases hquiet
  | tries => exact absurd rfl (hreserve _ _)
  | reserves => exact absurd rfl (hreserve _ _)
  | answers answer hcall hpc => exact h.past hcall hpc rfl rfl rfl (.inl rfl)
  | builds hcall hpc => exact h.past hcall hpc rfl rfl rfl (.inl rfl)
  | leaves hcall hpc => exact h.past hcall hpc rfl rfl rfl (.inl rfl)
  | files hcall hpc hl => exact h.past hcall hpc rfl rfl rfl (.inl rfl)
  | follows hcall hpc hl _ => exact h.past hcall hpc rfl rfl rfl (.inr rfl)
  | drops hcall hpc => exact h.past hcall hpc rfl rfl rfl (.inr rfl)
  | @scan j act l l' hl hfree hact =>
    refine h.same rfl ?_
    show (if l.sitting.slot && !l'.sitting.slot then released d.taken else d.taken) ≤ d.taken
    split_ifs with hdrops
    · simp only [Bool.and_eq_true] at hdrops
      exact released_le hcounted hl hdrops.1
    · exact Nat.le_refl _
  | misses => exact h
  | _ => exact h.same rfl (Nat.le_refl _)

/-- In `reserve` it sees no more slots taken than there were, so there is one for it. -/
theorem reserve_alone {spurious : Bool} (hcall : d.calls[i]? = some call)
    (hstep : d.reserve rules i spurious call = some d') (h : Alone k n d) (hroom : k < rules.most) :
    Alone k n d' := by
  have hmine : call.pc.past = false → i = n ∧ d.taken ≤ k ∧
      ∀ taken, call.pc = .reserving taken → taken ≤ k := by
    intro hpast
    have hover : call.pc.finished = false := by
      cases hpc : call.pc <;> first | rfl | (rw [hpc] at hpast; cases hpast)
    obtain rfl := h.eq hcall hover
    rcases h.here call hcall with ⟨htries, hle⟩ | hsome | hends
    · refine ⟨rfl, hle, fun taken hpc => ?_⟩
      rcases htries with hloading | ⟨seen, hseen, hpc'⟩
      · rw [hpc] at hloading
        cases hloading
      · rw [hpc] at hpc'
        cases hpc'
        exact hseen
    · cases hpc : call.pc <;> rw [hpc] at hsome hpast <;> first | cases hsome | cases hpast
    · rw [hends] at hover
      cases hover
  rcases reserve_cases hstep with ⟨hpc, rfl⟩ | ⟨taken, hpc, hfull, rfl⟩ | ⟨hpc, -, rfl⟩
  · have hpast : call.pc.past = false := by
      rcases hpc with hpc | ⟨taken, hpc⟩ <;> rw [hpc] <;> rfl
    obtain ⟨rfl, hle, -⟩ := hmine hpast
    exact h.goes hcall rfl (.inl ⟨.inr ⟨d.taken, hle, rfl⟩, hle⟩)
  · obtain ⟨-, -, hseen⟩ := hmine (by rw [hpc]; rfl)
    exact absurd (Nat.le_trans hfull (hseen taken hpc)) (Nat.not_le_of_lt hroom)
  · obtain ⟨rfl, -, -⟩ := hmine (by rw [hpc]; rfl)
    exact h.goes hcall rfl (.inr (.inl rfl))

theorem step_alone (hcounted : Counted rules d) (hstep : (machine rules).step d a = some d')
    (hquiet : Quiet d a) (hroom : k < rules.most) (h : Alone k n d) : Alone k n d' := by
  by_cases ha : ∃ i spurious, a = .reserve i spurious
  · obtain ⟨i, spurious, rfl⟩ := ha
    obtain ⟨call, hcall, hstep⟩ := Option.bind_eq_some_iff.mp hstep
    exact reserve_alone hcall hstep h hroom
  · refine moves_alone hcounted (moves_of_step hstep) hquiet (fun i spurious heq => ?_) h
    exact ha ⟨i, spurious, heq⟩

theorem comes_alone {request : Request E} (hinFlight : d.inFlight = 0) (htaken : d.taken ≤ k)
    (hloading : (arriving rules request).pc = .loading) : Alone k d.calls.length (d.comes rules request) := by
  have hover : ∀ call ∈ d.calls, call.pc.finished = true := by
    intro call hcall
    have hnone := List.countP_eq_zero.mp hinFlight call hcall
    simpa using hnone
  constructor
  · intro i call hcall hne
    by_cases hi : i < d.calls.length
    · rw [comes, List.getElem?_append_left hi] at hcall
      exact hover call (List.mem_of_getElem? hcall)
    · have hlen := (List.getElem?_eq_some_iff.mp hcall).1
      rw [comes, List.length_append, List.length_singleton] at hlen
      omega
  · intro call hcall
    rw [comes, List.getElem?_append_right (Nat.le_refl _), Nat.sub_self] at hcall
    cases hcall
    exact .inl ⟨.inl hloading, htaken⟩

section runs
variable {P : Daemon E → Act E → Prop} {store : Except EngineError (List (Entry E.toEngineTypes))}
  {request : Request E}

/-- A call that is alone and comes where fewer slots are taken than there may be gets one. -/
theorem not_turnedAway (h : (machine rules).Reach P (fresh store) d) (hinFlight : d.inFlight = 0)
    (hloading : (arriving rules request).pc = .loading) (hroom : d.taken < rules.most)
    (h' : (machine rules).Reach Quiet (d.comes rules request) d') :
    ¬ d'.TurnedAway rules d.calls.length := by
  have harrive : (machine rules).step d (.arrive request) = some (d.comes rules request) := rfl
  have hcome := h.always.tail trivial harrive
  have halone : Alone d.taken d.calls.length d' := by
    apply h'.invariant (I := Alone d.taken d.calls.length) (comes_alone hinFlight (Nat.le_refl _) hloading)
    intro t u a ht halone hquiet hstep
    exact step_alone (reach_counted (hcome.trans ht.always)) hstep hquiet hroom halone
  rintro ⟨call, hcall, hpc⟩
  rcases halone.here call hcall with ⟨hpc' | ⟨taken, -, hpc'⟩, -⟩ | hsome | hover
  · rw [hpc] at hpc'
    cases hpc'
  · rw [hpc] at hpc'
    cases hpc'
  · rw [hpc] at hsome
    cases hsome
  · rw [hpc] at hover
    cases hover

theorem goes_self (h : d.calls[i]? = some call) (pc : CallPc E) :
    (d.goes i call pc).calls[i]? = some { call with pc := pc } := by
  rw [goes, List.getElem?_set_self (List.getElem?_eq_some_iff.mp h).1]

theorem quiet_reserve {spurious : Bool} : Quiet d (.reserve i spurious) := rfl

theorem step_load (rules : Rules E) (spurious : Bool) (hcall : d.calls[i]? = some call)
    (hpc : call.pc = .loading) :
    (machine rules).step d (.reserve i spurious) = some (d.goes i call (.reserving d.taken)) := by
  show (d.calls[i]?).bind (d.reserve rules i spurious) = _
  rw [hcall, Option.bind_some]
  unfold reserve
  rw [hpc]

theorem step_refuse (spurious : Bool) {taken : Nat} (hcall : d.calls[i]? = some call)
    (hpc : call.pc = .reserving taken) (hfull : rules.most ≤ taken) :
    (machine rules).step d (.reserve i spurious) =
      some (d.goes i call (.running (call.request.pipeline rules none) none)) := by
  show (d.calls[i]?).bind (d.reserve rules i spurious) = _
  rw [hcall, Option.bind_some]
  unfold reserve
  rw [hpc]
  exact if_pos hfull

theorem turnedAway (hloading : (arriving rules request).pc = .loading) (hfull : rules.most ≤ d.taken) :
    ∃ d', (machine rules).Reach Quiet (d.comes rules request) d' ∧
      d'.TurnedAway rules d.calls.length := by
  have hcall : (d.comes rules request).calls[d.calls.length]? = some (arriving rules request) := by
    rw [comes, List.getElem?_append_right (Nat.le_refl _), Nat.sub_self]
    rfl
  have hload := step_load rules false hcall hloading
  have hloaded := goes_self hcall (.reserving (d.comes rules request).taken)
  have hrefuse := step_refuse false hloaded rfl (show rules.most ≤ (d.comes rules request).taken from hfull)
  have hreach : (machine rules).Reach Quiet (d.comes rules request) _ := .tail .refl quiet_reserve hload
  exact ⟨_, hreach.tail quiet_reserve hrefuse, _, goes_self hloaded _, rfl⟩

/-- **What is taken is covered by what runs and what is on its way exactly where no more scans linger than
idle. A call that comes where nothing runs and nothing is on its way can be turned away exactly where as
many linger as may run.** -/
theorem room_iff (h : (machine rules).Reach P (fresh store) d) :
    (d.taken ≤ d.opened + d.inFlight ↔ d.lingering ≤ d.idle) ∧
    (d.opened = 0 → d.inFlight = 0 → ∀ request, (arriving rules request).pc = .loading →
      ((∃ d', (machine rules).Reach Quiet (d.comes rules request) d' ∧
        d'.TurnedAway rules d.calls.length) ↔ rules.most ≤ d.lingering)) := by
  have hcounted := reach_counted h
  refine ⟨taken_le_iff hcounted.taken, fun hopened hinFlight request hloading => ?_⟩
  have hlingering : d.lingering = d.taken := by
    rw [hcounted.taken, slots_eq_lingering hopened hinFlight]
  rw [hlingering]
  constructor
  · rintro ⟨d', hreach, haway⟩
    by_contra hroom
    exact not_turnedAway h hinFlight hloading (Nat.lt_of_not_le hroom) hreach haway
  · exact turnedAway hloading

end runs

/-- A scan runs to its end and is watched to its end, its follower having still to drop the slot. -/
def watchedToTheEnd : List (Act Plain.engine) :=
  comesToScan 0 (.start { targets := ["10"] }) 6 ++ [.watch 0 "A" 0] ++ reads 0 0 4 ++
    (untilOver 0 (.ok [])).dropLast ++ reads 0 0 11

/-- The call `i`, having come, finds no slot. -/
def findsNone (i : Nat) : List (Act Plain.engine) :=
  [.reserve i false, .reserve i false, .answer i fun q => some (Plain.world q), .proceed i, .proceed i]

theorem watchedToTheEnd_isSome :
    ((machine oneAtOnce).run (fresh (.ok [])) watchedToTheEnd).isSome := by decide +kernel

def lingers : Daemon Plain.engine :=
  ((machine oneAtOnce).run (fresh (.ok [])) watchedToTheEnd).get watchedToTheEnd_isSome

theorem findsNone_isSome : ((machine oneAtOnce).runIf (fun _ a => !arrives a)
    (lingers.comes oneAtOnce (.start { targets := ["11"] })) (findsNone 1)).isSome := by decide +kernel

/-- There the client has been told of the end, nothing runs and nothing is on its way, one slot is taken, and
the one call that comes is answered that the daemon has no room. -/
theorem not_room : (machine oneAtOnce).Reach Machine.Always (fresh (.ok [])) lingers ∧
    ((lingers.scans[0]?).bind fun l => (l.clients 0).watching).map (·.written.getLast?) =
      some (some .ended) ∧
    lingers.opened = 0 ∧ lingers.inFlight = 0 ∧ lingers.taken = 1 ∧
    ∃ d', (machine oneAtOnce).Reach Quiet (lingers.comes oneAtOnce (.start { targets := ["11"] })) d' ∧
      (d'.calls[1]?).map Call.pc = some (.returned (some (.error .atCapacity))) := by
  refine ⟨Machine.Reach.of_run (Option.some_get watchedToTheEnd_isSome).symm, by decide +kernel,
    by decide +kernel, by decide +kernel, by decide +kernel, ?_⟩
  refine ⟨_, Machine.Reach.of_runIf (fun _ _ h => ?_) (Option.some_get findsNone_isSome).symm, rfl⟩
  simpa [Quiet] using h

theorem lingers_drops :
    ((machine oneAtOnce).run lingers [.scan 0 (.sitting .follow)]).isSome := by decide +kernel

/-- Once the follower has dropped the slot, the same call is sure of one. -/
theorem room_iff_dropped : ∃ d, (machine oneAtOnce).Reach Machine.Always lingers d ∧
    d.taken ≤ d.opened + d.inFlight ∧
    ¬ ∃ d', (machine oneAtOnce).Reach Quiet (d.comes oneAtOnce (.start { targets := ["11"] })) d' ∧
      d'.TurnedAway oneAtOnce d.calls.length := by
  have hlingers : (machine oneAtOnce).Reach Machine.Always (fresh (.ok [])) lingers :=
    Machine.Reach.of_run (Option.some_get watchedToTheEnd_isSome).symm
  have hdrops := Machine.Reach.of_run (Option.some_get lingers_drops).symm
  obtain ⟨hcovered, hsure⟩ := room_iff (hlingers.trans hdrops)
  refine ⟨_, hdrops, hcovered.mpr (by decide +kernel), fun haway => ?_⟩
  have hfull := (hsure (by decide +kernel) (by decide +kernel) _ rfl).mp haway
  exact absurd hfull (by decide +kernel)

end Daemon

end ZondDaemon
