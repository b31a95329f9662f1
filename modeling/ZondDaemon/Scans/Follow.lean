import ZondDaemon.Scans.Sitting

/-!
# What the follower keeps

The facts about the log every run keeps: the numbering, that only the follower's `push` adds an entry and
never once the flag is set, and where the one `Finished` entry stands. `step_log` says once what a step can
do to the log; the invariants are read off it.
-/

namespace ZondDaemon

open Proto Sequence

variable {E : Engine}

namespace Follower

/-- The closed flag is set. -/
def shut : Follower E → Bool
  | .waking => true
  | .releasing => true
  | .done => true
  | _ => false

/-- The entry about to be pushed, where there is one. -/
def pending : Follower E → List (Body E.ScopedIp)
  | .pushing body _ => [body]
  | _ => []

/-- The cause of the end has been settled. -/
def concluded : Follower E → Bool
  | .pushing _ .closing => true
  | .notifying .closing => true
  | .closing => true
  | .waking => true
  | .releasing => true
  | .done => true
  | _ => false

variable {f : Follower E}

theorem concluded_of_shut (h : f.shut = true) : f.concluded = true := by
  cases f <;> first | rfl | cases h

theorem pending_of_shut (h : f.shut = true) : f.pending = [] := by
  cases f <;> first | rfl | cases h

end Follower

namespace Sitting

variable {s t : Sitting E} {a : Act E}

/-! ## What a step can do -/

/-- The follower's steps, one constructor for each, where it stood said last. -/
inductive Follows (s : Sitting E) : Sitting E → Prop
  | hears {event : Engine.ScanEvent E.ScopedIp} {rest : List (Engine.ScanEvent E.ScopedIp)} :
      s.events = event :: rest → s.follower = .draining →
      Follows s { s with events := rest, follower := heard event }
  | joins : s.events = [] → s.hungUp = true → s.follower = .draining →
      Follows s { s with follower := .joining }
  | looks {address : E.ScopedIp} {document : String} : s.scan.documentOf address = some document →
      s.follower = .looking address → Follows s { s with follower := .judging address document }
  | passes {address : E.ScopedIp} : s.scan.documentOf address = none → s.follower = .looking address →
      Follows s { s with follower := .draining }
  /-- The document is the one last written down. -/
  | knows {address : E.ScopedIp} {document : String} :
      s.scan.log.seen address = some (Log.hash document) → s.follower = .judging address document →
      Follows s { s with
        scan := { s.scan with log := (s.scan.log.changed address document).2 }
        follower := .draining }
  /-- The document is not the one last written down. -/
  | learns {address : E.ScopedIp} {document : String} :
      s.scan.log.seen address ≠ some (Log.hash document) → s.follower = .judging address document →
      Follows s { s with
        scan := { s.scan with log := (s.scan.log.changed address document).2 }
        follower := .pushing (.host ⟨address, document⟩) .draining }
  | measures : s.follower = .measuring →
      Follows s { s with follower := .pushing (.progress s.scan.progress) .draining }
  | pushes {body : Body E.ScopedIp} {next : Next} : s.follower = .pushing body next →
      Follows s { s with
        scan := { s.scan with log := s.scan.log.append body }
        follower := .notifying next }
  | notifies {next : Next} : s.follower = .notifying next →
      Follows s { s with
        scan := { s.scan with log := s.scan.log.notifyWaiters }
        follower := next.follower }
  | meets {outcome : Except EngineError E.ScanReport} : s.task = some outcome → s.follower = .joining →
      Follows s { s with follower := .settling outcome }
  | settles {outcome : Except EngineError E.ScanReport} : s.follower = .settling outcome →
      Follows s { s with
        scan := { s.scan with report := match outcome with
          | .ok finished => some finished
          | .error _ => s.scan.report }
        follower := .concluding outcome }
  | concludes {outcome : Except EngineError E.ScanReport} : s.follower = .concluding outcome →
      Follows s { s with follower := .pushing (.finished ⟨number (s.concludes outcome)⟩) .closing }
  | shuts : s.follower = .closing →
      Follows s { s with scan := { s.scan with log := s.scan.log.shut }, follower := .waking }
  | wakes : s.follower = .waking →
      Follows s { s with scan := { s.scan with log := s.scan.log.notifyWaiters }, follower := .releasing }
  | releases : s.follower = .releasing → Follows s { s with slot := false, follower := .done }

theorem follows_of_follow (h : s.follow = some t) : Follows s t := by
  simp only [follow] at h
  cases hf : s.follower with
  | draining =>
    simp only [hf] at h
    split at h
    · rename_i hevents
      cases h
      exact .hears hevents hf
    · rename_i hevents
      split at h <;> cases h
      rename_i hhung
      exact .joins hevents hhung hf
  | looking address =>
    simp only [hf] at h
    split at h
    · rename_i hdocument
      cases h
      exact .looks hdocument hf
    · rename_i hnone
      cases h
      exact .passes hnone hf
  | judging address document =>
    simp only [hf, Option.some.injEq] at h
    subst h
    by_cases hnew : (s.scan.log.changed address document).1 = true
    · rw [if_pos hnew]
      exact .learns ((Log.changed_iff _ _ _).mp hnew) hf
    · rw [if_neg hnew]
      exact .knows (not_not.mp fun hne => hnew ((Log.changed_iff _ _ _).mpr hne)) hf
  | joining =>
    simp only [hf, Option.map_eq_some_iff] at h
    obtain ⟨outcome, htask, rfl⟩ := h
    exact .meets htask hf
  | unborn | done =>
    simp only [hf] at h
    cases h
  | measuring =>
    simp only [hf, Option.some.injEq] at h
    exact h ▸ .measures hf
  | pushing body next =>
    simp only [hf, Option.some.injEq] at h
    exact h ▸ .pushes hf
  | notifying next =>
    simp only [hf, Option.some.injEq] at h
    exact h ▸ .notifies hf
  | settling outcome =>
    simp only [hf, Option.some.injEq] at h
    exact h ▸ .settles hf
  | concluding outcome =>
    simp only [hf, Option.some.injEq] at h
    exact h ▸ .concludes hf
  | closing =>
    simp only [hf, Option.some.injEq] at h
    exact h ▸ .shuts hf
  | waking =>
    simp only [hf, Option.some.injEq] at h
    exact h ▸ .wakes hf
  | releasing =>
    simp only [hf, Option.some.injEq] at h
    exact h ▸ .releases hf

theorem follow_of_follows (h : Follows s t) : s.follow = some t := by
  cases h with
  | joins hevents hhung hf => simp only [follow, hf, hevents, hhung, if_true]
  | knows hseen hf =>
    have hold : (s.scan.log.changed _ _).1 = false :=
      Bool.eq_false_iff.mpr fun hnew => (Log.changed_iff _ _ _).mp hnew hseen
    simp only [follow, hf, hold, Bool.false_eq_true, if_false]
  | learns hseen hf =>
    have hnew : (s.scan.log.changed _ _).1 = true := (Log.changed_iff _ _ _).mpr hseen
    simp only [follow, hf, hnew, if_true]
  | @settles outcome hf => cases outcome <;> simp only [follow, hf]
  | _ => simp only [follow, *, Option.map_some]

/-- The steps of a scan, one constructor for each action. -/
inductive Steps (s : Sitting E) : Act E → Sitting E → Prop
  | updates (host : E.Host) : Steps s (.update host) { s with
      scan := { s.scan with hosts := s.scan.hosts.put host }
      past := Function.update s.past (E.scopedIp host) (s.pastWith host)
      owed := E.scopedIp host :: s.owed }
  | raises (i : Nat) : Steps s (.raise i) { s with scan := { s.scan with hosts := s.scan.hosts.raise i } }
  | announces (event : Engine.ScanEvent E.ScopedIp) : s.hungUp = false → Steps s (.announce event) { s with
      events := s.events ++ [event]
      owed := owedAfter s.owed event }
  | lags {missed : Nat} : missed ≤ s.events.length →
      Steps s (.lag missed) { s with events := .eventsDropped missed :: s.events.drop missed }
  | hangsUp : Steps s .hangUp { s with hungUp := true }
  | moves (progress : Engine.Progress) :
      Steps s (.moves progress) { s with scan := { s.scan with reckoning := progress } }
  | halts (cause : Option Engine.StopCause) :
      Steps s (.halts cause) { s with scan := { s.scan with handle := ⟨cause⟩ } }
  | finishes (outcome : Except EngineError E.ScanReport) : s.task = none →
      Steps s (.finish outcome) { s with task := some outcome }
  | spawns (slot : Bool) : s.follower = .unborn →
      Steps s (.spawn slot) { s with follower := .draining, slot := slot }
  | follows {u : Sitting E} : Follows s u → Steps s .follow u
  | stops (reports : Option Engine.StopCause) :
      Steps s (.stop reports) { s with scan := { s.scan with handle := ⟨reports⟩ } }

theorem steps_of_step (h : s.step a = some t) : Steps s a t := by
  cases a with
  | follow => exact .follows (follows_of_follow h)
  | announce event =>
    simp only [step] at h
    split at h <;> cases h
    rename_i hopen
    exact .announces event (Bool.eq_false_iff.mpr hopen)
  | lag missed =>
    simp only [step] at h
    split at h <;> cases h
    rename_i hle
    exact .lags hle
  | finish outcome =>
    simp only [step] at h
    split at h <;> cases h
    rename_i hnone
    exact .finishes outcome (Option.isNone_iff_eq_none.mp hnone)
  | spawn slot =>
    simp only [step] at h
    split at h <;> cases h
    rename_i hf
    exact .spawns slot hf
  | update host =>
    cases h
    exact .updates host
  | raise i =>
    cases h
    exact .raises i
  | hangUp =>
    cases h
    exact .hangsUp
  | moves progress =>
    cases h
    exact .moves progress
  | halts cause =>
    cases h
    exact .halts cause
  | stop reports =>
    cases h
    exact .stops reports

/-- What a step does to the log: nothing to its entries and its flag, one entry more, or the flag set. -/
theorem step_log (h : s.step a = some t) :
    (t.scan.log.entries = s.scan.log.entries ∧ t.scan.log.closed = s.scan.log.closed ∧
      t.follower.shut = s.follower.shut) ∨
    (∃ body next, s.follower = .pushing body next ∧ t.follower = .notifying next ∧
      t.scan.log = s.scan.log.append body) ∨
    (a = .follow ∧ s.follower = .closing ∧ t.follower = .waking ∧ t.scan.log = s.scan.log.shut) := by
  cases steps_of_step h with
  | follows hfollows =>
    cases hfollows with
    | pushes hf => exact .inr (.inl ⟨_, _, hf, rfl, rfl⟩)
    | shuts hf => exact .inr (.inr ⟨rfl, hf, rfl, rfl⟩)
    | @hears event _ _ hf => exact .inl ⟨rfl, rfl, by rw [hf]; cases event <;> rfl⟩
    | @notifies next hf => exact .inl ⟨rfl, rfl, by rw [hf]; cases next <;> rfl⟩
    | _ =>
      rename_i hf
      exact .inl ⟨rfl, rfl, by rw [hf]; rfl⟩
  | spawns slot hf => exact .inl ⟨rfl, rfl, by rw [hf]; rfl⟩
  | _ => exact .inl ⟨rfl, rfl, rfl⟩

/-- What only the engine and the clients change. -/
structure Kept (s t : Sitting E) : Prop where
  id : t.scan.id = s.scan.id
  hosts : t.scan.hosts = s.scan.hosts
  reckoning : t.scan.reckoning = s.scan.reckoning
  handle : t.scan.handle = s.scan.handle
  redaction : t.scan.redaction = s.scan.redaction
  hungUp : t.hungUp = s.hungUp
  task : t.task = s.task
  past : t.past = s.past
  owed : t.owed = s.owed

theorem follow_kept (h : s.follow = some t) : s.Kept t := by
  cases follows_of_follow h <;> exact ⟨rfl, rfl, rfl, rfl, rfl, rfl, rfl, rfl, rfl⟩

theorem step_id (h : s.step a = some t) : t.scan.id = s.scan.id := by
  cases steps_of_step h with
  | follows => exact (follow_kept h).id
  | _ => rfl

theorem step_redaction (h : s.step a = some t) : t.scan.redaction = s.scan.redaction := by
  cases steps_of_step h with
  | follows => exact (follow_kept h).redaction
  | _ => rfl

theorem step_follower (h : s.step a = some t) :
    t.follower = s.follower ∨ (s.follower = .unborn ∧ t.follower = .draining) ∨ a = .follow := by
  cases steps_of_step h with
  | follows => exact .inr (.inr rfl)
  | spawns slot hf => exact .inr (.inl ⟨hf, rfl⟩)
  | _ => exact .inl rfl

theorem step_handle (h : s.step a = some t) : t.scan.handle = s.scan.handle ∨
    ∃ cause, (a = .halts cause ∨ a = .stop cause) ∧ t.scan.handle = ⟨cause⟩ := by
  cases steps_of_step h with
  | halts cause => exact .inr ⟨cause, .inl rfl, rfl⟩
  | stops cause => exact .inr ⟨cause, .inr rfl, rfl⟩
  | follows => exact .inl (follow_kept h).handle
  | _ => exact .inl rfl

/-! ## The log grows and is closed once -/

theorem step_grows (h : s.step a = some t) : s.scan.log.entries <+: t.scan.log.entries := by
  rcases step_log h with ⟨he, -, -⟩ | ⟨body, -, -, -, hl⟩ | ⟨-, -, -, hl⟩
  · simp only [he, List.prefix_refl]
  · rw [hl]
    exact List.prefix_append _ _
  · simp only [hl, Log.shut_entries, List.prefix_refl]

theorem step_wellNumbered (h : s.step a = some t) (hs : s.scan.log.WellNumbered) :
    t.scan.log.WellNumbered := by
  rcases step_log h with ⟨he, -, -⟩ | ⟨body, -, -, -, hl⟩ | ⟨-, -, -, hl⟩
  · rw [Log.WellNumbered, he]
    exact hs
  · rw [hl]
    exact hs.append body
  · rw [hl]
    exact hs

theorem step_closed (h : s.step a = some t) (hs : s.scan.log.closed = s.follower.shut) :
    t.scan.log.closed = t.follower.shut := by
  rcases step_log h with ⟨-, hc, hf⟩ | ⟨body, next, hf, hf', hl⟩ | ⟨-, hf, hf', hl⟩
  · rw [hc, hf, hs]
  · rw [hl, hf', Log.append_closed, hs, hf]
    rfl
  · rw [hl, hf', Log.shut_closed]
    rfl

theorem step_of_closed (h : s.step a = some t) (hs : s.scan.log.closed = s.follower.shut)
    (hc : s.scan.log.closed = true) :
    t.scan.log.entries = s.scan.log.entries ∧ t.scan.log.closed = true := by
  rcases step_log h with ⟨he, hc', -⟩ | ⟨body, next, hf, -, -⟩ | ⟨-, hf, -, -⟩
  · exact ⟨he, by rw [hc', hc]⟩
  · rw [hs, hf] at hc
    cases hc
  · rw [hs, hf] at hc
    cases hc

/-! ## What the follower has to say -/

/-- Everything in the log, and what is about to be. -/
def spoken (s : Sitting E) : List (Body E.ScopedIp) :=
  s.scan.log.entries.filterMap Event.body ++ s.follower.pending

/-- The follower takes up something to say: which, and from where. -/
inductive Takes (s : Sitting E) : Body E.ScopedIp → Next → Prop
  | stage (stage : Engine.Stage) (rest) : s.follower = .draining →
      s.events = .stageChanged stage :: rest →
      Takes s (.stage ⟨number (Convert.stage stage)⟩) .measuring
  | failure (scanner reason : String) (rest) : s.follower = .draining →
      s.events = .scannerFailed scanner reason :: rest → Takes s (.failure ⟨scanner, reason⟩) .draining
  | host (address : E.ScopedIp) (document : String) : s.follower = .judging address document →
      s.scan.log.seen address ≠ some (Log.hash document) → Takes s (.host ⟨address, document⟩) .draining
  | progress : s.follower = .measuring → Takes s (.progress s.scan.progress) .draining
  | finished (outcome : Except EngineError E.ScanReport) : s.follower = .concluding outcome →
      Takes s (.finished ⟨number (s.concludes outcome)⟩) .closing

theorem step_spoken (h : s.step a = some t) :
    (t.spoken = s.spoken ∧ t.follower.concluded = s.follower.concluded) ∨
    (∃ body next, s.Takes body next ∧ t.spoken = s.spoken ++ [body] ∧
      t.follower = .pushing body next) := by
  cases steps_of_step h with
  | follows hfollows =>
    cases hfollows with
    | @hears event rest hevents hf =>
      cases event with
      | stageChanged stage =>
        exact .inr ⟨_, _, .stage stage rest hf hevents, by simp [spoken, hf, heard, Follower.pending], rfl⟩
      | scannerFailed scanner reason =>
        exact .inr ⟨_, _, .failure scanner reason rest hf hevents,
          by simp [spoken, hf, heard, Follower.pending], rfl⟩
      | _ => exact .inl ⟨by simp [spoken, hf, heard, Follower.pending], by rw [hf]; rfl⟩
    | learns hnew hf =>
      exact .inr ⟨_, _, .host _ _ hf hnew, by simp [spoken, hf, Follower.pending], rfl⟩
    | measures hf => exact .inr ⟨_, _, .progress hf, by simp [spoken, hf, Follower.pending], rfl⟩
    | concludes hf => exact .inr ⟨_, _, .finished _ hf, by simp [spoken, hf, Follower.pending], rfl⟩
    | @pushes body next hf =>
      exact .inl ⟨by simp [spoken, hf, Follower.pending], by rw [hf]; cases next <;> rfl⟩
    | @notifies next hf =>
      cases next <;> exact .inl ⟨by simp [spoken, hf, Follower.pending, Next.follower], by rw [hf]; rfl⟩
    | _ =>
      rename_i hf
      exact .inl ⟨by simp [spoken, hf, Follower.pending], by rw [hf]; rfl⟩
  | spawns slot hf => exact .inl ⟨by simp [spoken, hf, Follower.pending], by rw [hf]; rfl⟩
  | _ => exact .inl ⟨rfl, rfl⟩

/-! ## The last entry -/

/-- What is spoken says the end once it is concluded, last and once, and never before. -/
def EndsOnce (s : Sitting E) : Prop :=
  if s.follower.concluded then
    ∃ before cause, s.spoken = before ++ [.finished ⟨cause⟩] ∧ ∀ body ∈ before, body.cause = none
  else ∀ body ∈ s.spoken, body.cause = none

theorem step_endsOnce (h : s.step a = some t) (hs : s.EndsOnce) : t.EndsOnce := by
  rcases step_spoken h with ⟨hsp, hc⟩ | ⟨body, next, htakes, hsp, hf⟩
  · simp only [EndsOnce, hsp, hc]
    exact hs
  · have hopen : s.follower.concluded = false := by
      cases htakes <;> simp_all [Follower.concluded]
    simp only [EndsOnce, hopen, Bool.false_eq_true, if_false] at hs
    cases htakes with
    | finished outcome hsf =>
      simp only [EndsOnce, hf, Follower.concluded, if_true]
      exact ⟨s.spoken, _, hsp, hs⟩
    | _ =>
      simp only [EndsOnce, hf, Follower.concluded, Bool.false_eq_true, if_false, hsp]
      intro body hbody
      rcases List.mem_append.mp hbody with hbody | hbody
      · exact hs body hbody
      · rw [List.mem_singleton.mp hbody]
        rfl

theorem EndsOnce.finished (hs : s.EndsOnce) (hc : s.follower.shut = true) :
    ∃ entry ∈ s.scan.log.entries, ∃ cause, entry.body = some (.finished ⟨cause⟩) := by
  rw [EndsOnce, if_pos (Follower.concluded_of_shut hc), spoken, Follower.pending_of_shut hc,
    List.append_nil] at hs
  obtain ⟨before, cause, hspoken, -⟩ := hs
  have hmem : Body.finished ⟨cause⟩ ∈ s.scan.log.entries.filterMap Event.body := by simp [hspoken]
  obtain ⟨entry, hentry, hbody⟩ := List.mem_filterMap.mp hmem
  exact ⟨entry, hentry, cause, hbody⟩

/-! ## Over whole runs -/

section runs
variable {P : Sitting E → Act E → Prop} {id : String} {progress : Engine.Progress}
  {redaction : Redaction}

theorem reach_wellNumbered (h : (machine E).Reach P (fresh id progress redaction) s) :
    s.scan.log.WellNumbered :=
  h.invariant (I := fun s => s.scan.log.WellNumbered) Log.empty_wellNumbered
    fun _ ht _ hstep => step_wellNumbered hstep ht

theorem reach_closed (h : (machine E).Reach P (fresh id progress redaction) s) :
    s.scan.log.closed = s.follower.shut :=
  h.invariant (I := fun s => s.scan.log.closed = s.follower.shut) rfl
    fun _ ht _ hstep => step_closed hstep ht

theorem reach_endsOnce (h : (machine E).Reach P (fresh id progress redaction) s) : s.EndsOnce :=
  h.invariant (I := EndsOnce) (by simp [EndsOnce, fresh, Follower.concluded, spoken, Follower.pending,
    Scan.new, Log.empty]) fun _ ht _ hstep => step_endsOnce hstep ht

end runs

end Sitting

end ZondDaemon
