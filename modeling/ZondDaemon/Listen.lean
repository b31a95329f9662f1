import Mathlib
import ZondDaemon.Base.Machine

/-!
# One socket path and the daemons started on it

`serve` finds out whether the socket at its path is dead, removes it, binds, and takes the file away when it
stops, each by a call of its own, so the daemons on one path interleave between them. Every call comes out
as its event says. What takes the path from a daemon that holds it is the removal of a socket taken for dead,
and nothing else (`undisturbed_iff`): not the bind of another, nor another's cleanup. It is not taken where
probes fail on dead sockets only and nobody binds between another's probe and its removal
(`one_daemon_of_truthful`).
-/

namespace ZondDaemon.Listen

open Machine

/-- Only the user running the daemon. -/
def socketMode : Nat := 0o600

/-- That user, and the one group the operator named. -/
def sharedMode : Nat := 0o660

/-- What is at the path: a socket one of the daemons bound, or anything else. -/
structure File where
  owner : Option Nat
  mode : Nat
  group : Option Nat
  deriving DecidableEq

/-- How a daemon came to its end. -/
inductive End
  | refused (text : String)
  | failed
  | stopped
  | killed
  deriving DecidableEq

/-- The call a daemon is about to make, or, where it is serving, that it is. -/
inductive Stage
  | checking
  | probing
  | clearing
  | binding
  | listening
  | permitting
  | giving
  | opening
  | serving
  | ended (how : End)
  deriving DecidableEq

/-- How a call comes out. -/
inductive Event
  | found (there : Bool)
  | connected (answered : Bool)
  | removed (ok : Bool)
  /-- With the mode the file is made with, and `none` where binding fails. -/
  | bound (mode : Option Nat)
  | listened (ok : Bool)
  | permitted (ok : Bool)
  | given (ok : Bool)
  /-- With whether the file could be removed, which nothing asks. -/
  | stopped (ok : Bool)
  | killed
  deriving DecidableEq

def alreadyServed (path : String) : String := path ++ " is already being served by another zondd"

/-- The bound and running: from the bind on the path is this daemon's until it ends. -/
def Stage.holds : Stage → Bool
  | .listening | .permitting | .giving | .opening | .serving => true
  | _ => false

/-- A call of daemon `i` of `bind`, `serve` and `Drop for Socket`, with what it leaves at the path. -/
def Stage.step (path : String) (group : Option Nat) (i : Nat) (file : Option File) :
    Stage → Event → Option (Option File × Stage)
  | .checking, .found there =>
    if there then if file.isSome then some (file, .probing) else none else some (file, .binding)
  | .probing, .connected answered =>
    some (file, if answered then .ended (.refused (alreadyServed path)) else .clearing)
  -- Any failure to connect is taken for nobody listening.
  | .clearing, .removed ok =>
    if ok then if file.isSome then some (none, .binding) else none else some (file, .ended .failed)
  | .binding, .bound (some mode) =>
    if file.isNone then some (some ⟨some i, mode, none⟩, .listening) else none
  | .binding, .bound none => some (file, .ended .failed)
  | .listening, .listened ok => some (file, if ok then .permitting else .ended .failed)
  -- From here a failure drops the listener and leaves the file: nothing holds a `Socket` yet.
  | .permitting, .permitted ok =>
    if ok then
      if file.isSome then
        some (file.map ({ · with mode := socketMode }), if group.isSome then .giving else .serving)
      else none
    else some (file, .ended .failed)
  | .giving, .given ok =>
    if ok then if file.isSome then some (file.map ({ · with group := group }), .opening) else none
    else some (file, .ended .failed)
  | .opening, .permitted ok =>
    if ok then if file.isSome then some (file.map ({ · with mode := sharedMode }), .serving) else none
    else some (file, .ended .failed)
  | .serving, .stopped ok => some (if ok then none else file, .ended .stopped)
  | .ended _, _ => none
  | _, .killed => some (file, .ended .killed)
  | _, _ => none

structure Daemon where
  group : Option Nat
  stage : Stage
  deriving DecidableEq

structure State where
  path : String
  file : Option File
  daemons : List Daemon
  deriving DecidableEq

inductive Act
  | start (group : Option Nat)
  | call (i : Nat) (event : Event)
  deriving DecidableEq

def State.step (s : State) : Act → Option State
  | .start group => some { s with daemons := s.daemons ++ [⟨group, .checking⟩] }
  | .call i event =>
    match s.daemons[i]? with
    | none => none
    | some d =>
      (d.stage.step s.path d.group i s.file event).map fun (file, stage) =>
        { s with file, daemons := s.daemons.set i { d with stage } }

def machine : Machine State Act := ⟨State.step⟩

/-- No daemon is there yet; what is found at the path is none of theirs. -/
def start (path : String) (found : Option File) : State :=
  ⟨path, found.map ({ · with owner := none }), []⟩

/-- Whose socket is at the path. -/
def State.owner (s : State) : Option Nat := s.file.bind File.owner

/-- Daemon `i` has bound the path and is still running. -/
def State.Holds (s : State) (i : Nat) : Prop := ∃ d, s.daemons[i]? = some d ∧ d.stage.holds = true

instance (s : State) (i : Nat) : Decidable (s.Holds i) :=
  decidable_of_iff ((s.daemons[i]?.any fun d => d.stage.holds) = true)
    (by simp [State.Holds, Option.any_eq_true])

/-! ## What a call can do -/

/-- What a call does to whose socket is at the path, and to whether its daemon holds it. -/
inductive Effect (file file' : Option File) (stage stage' : Stage) (i : Nat) : Event → Prop
  /-- The socket stays whose it was. -/
  | same {event : Event} : file'.bind File.owner = file.bind File.owner → (stage'.holds → stage.holds) →
      (∀ mode, event ≠ .bound (some mode)) → event ≠ .removed true → Effect file file' stage stage' i event
  | cleared : stage = .clearing → file' = none → stage'.holds = false →
      Effect file file' stage stage' i (.removed true)
  | bound {mode : Nat} : file = none → file'.bind File.owner = some i →
      Effect file file' stage stage' i (.bound (some mode))
  | cleaned : stage.holds = true → file' = none → stage'.holds = false →
      Effect file file' stage stage' i (.stopped true)

theorem owner_map {f : File → File} (hf : ∀ x, (f x).owner = x.owner) (file : Option File) :
    (file.map f).bind File.owner = file.bind File.owner := by
  cases file with
  | none => rfl
  | some x => exact hf x

theorem Stage.step_effect {path : String} {group : Option Nat} {i : Nat} {file file' : Option File}
    {stage stage' : Stage} {event : Event} (h : stage.step path group i file event = some (file', stage')) :
    Effect file file' stage stage' i event := by
  have hmode (mode : Nat) := owner_map (f := ({ · with mode := mode })) (fun _ => rfl) file
  have hgroup := owner_map (f := ({ · with group := group })) (fun _ => rfl) file
  unfold Stage.step at h
  split at h
  -- Looking, probing and listening leave the path alone.
  case h_1 | h_2 | h_6 =>
    split_ifs at h <;> cases h <;> exact .same rfl (by simp [holds]) (by simp) (by simp)
  case h_3 ok =>
    cases ok with
    | false =>
      cases h
      exact .same rfl (by simp [holds]) (by simp) (by simp)
    | true =>
      rw [if_pos rfl] at h
      split_ifs at h
      cases h
      exact .cleared rfl rfl rfl
  case h_4 =>
    split_ifs at h
    cases h
    exact .bound (Option.isNone_iff_eq_none.mp ‹_›) rfl
  case h_5 =>
    cases h
    exact .same rfl (by simp [holds]) (by simp) (by simp)
  -- Opening the file up does not change whose it is.
  case h_7 | h_8 | h_9 =>
    split_ifs at h <;> cases h <;> refine .same ?_ (by simp [holds]) (by simp) (by simp) <;>
      simp only [hmode, hgroup]
  case h_10 ok =>
    cases h
    cases ok with
    | false => exact .same rfl (by simp [holds]) (by simp) (by simp)
    | true => exact .cleaned rfl rfl rfl
  case h_12 =>
    cases h
    exact .same rfl (by simp [holds]) (by simp) (by simp)
  all_goals cases h

variable {s t : State} {a : Act} {i j : Nat} {path : String} {found : Option File}

theorem step_cases (h : s.step a = some t) :
    (∃ group, a = .start group ∧ t = { s with daemons := s.daemons ++ [⟨group, .checking⟩] }) ∨
    ∃ i event d file stage, a = .call i event ∧ s.daemons[i]? = some d ∧
      d.stage.step s.path d.group i s.file event = some (file, stage) ∧
      t = { s with file, daemons := s.daemons.set i { d with stage } } := by
  cases a with
  | start group => exact .inl ⟨group, rfl, (Option.some.inj h).symm⟩
  | call i event =>
    simp only [State.step] at h
    split at h
    · cases h
    · rename_i d hd
      obtain ⟨⟨file, stage⟩, hcall, rfl⟩ := Option.map_eq_some_iff.mp h
      exact .inr ⟨i, event, d, file, stage, rfl, hd, hcall, rfl⟩

theorem holds_start {group : Option Nat} :
    State.Holds { s with daemons := s.daemons ++ [⟨group, .checking⟩] } i ↔ s.Holds i := by
  simp only [State.Holds]
  constructor
  · rintro ⟨d, hd, hholds⟩
    rw [List.getElem?_append] at hd
    split at hd
    · exact ⟨d, hd, hholds⟩
    · obtain rfl : d = ⟨group, .checking⟩ := by
        simpa using List.mem_of_getElem? hd
      cases hholds
  · rintro ⟨d, hd, hholds⟩
    exact ⟨d, List.getElem?_append_left (List.getElem?_eq_some_iff.mp hd).1 ▸ hd, hholds⟩

theorem holds_set {d : Daemon} {file : Option File} {stage : Stage} (hd : s.daemons[i]? = some d) :
    State.Holds { s with file, daemons := s.daemons.set i { d with stage } } j ↔
      if i = j then stage.holds = true else s.Holds j := by
  have hi := (List.getElem?_eq_some_iff.mp hd).1
  split_ifs with hij
  · subst hij
    simp [State.Holds, List.getElem?_set_self hi]
  · simp [State.Holds, List.getElem?_set_ne hij]

/-! ## Whose the path is -/

/-- Every daemon that holds the path is the one whose socket is there. -/
def Kept (s : State) : Prop := ∀ i, s.Holds i → s.owner = some i

/-- A daemon that took the socket for dead does not remove that of one that holds the path. -/
def Careful (s : State) : Act → Prop
  | .call _ (.removed true) => ∀ i, s.owner = some i → ¬ s.Holds i
  | _ => True

/-- Nobody but its own daemon takes the path from one that holds it: no other binds it, and the socket
there stays. -/
def Undisturbed (s : State) (a : Act) (t : State) : Prop :=
  ∀ i, s.Holds i → ∀ j event, a = .call j event → j ≠ i →
    (∀ mode, event ≠ .bound (some mode)) ∧ t.owner = some i

theorem Kept.step (hs : Kept s) (ha : Careful s a) (h : s.step a = some t) : Kept t := by
  rcases step_cases h with ⟨group, -, rfl⟩ | ⟨j, event, d, file, stage, rfl, hd, hcall, rfl⟩
  · intro i hi
    exact hs i (holds_start.mp hi)
  · intro i hi
    rw [holds_set hd] at hi
    cases Stage.step_effect hcall with
    | same howner hkeeps =>
      have hold : s.Holds i := by
        split_ifs at hi with hji
        · exact hji ▸ ⟨d, hd, hkeeps hi⟩
        · exact hi
      exact howner.trans (hs i hold)
    | cleared _ _ hends =>
      split_ifs at hi
      · rw [hends] at hi
        cases hi
      · exact absurd hi (ha i (hs i hi))
    | bound hfree howner =>
      split_ifs at hi with hji
      · exact hji ▸ howner
      · -- The bind found nothing at the path, so nobody held it.
        have hheld := hs i hi
        rw [State.owner, hfree] at hheld
        cases hheld
    | cleaned hholds _ hends =>
      split_ifs at hi with hji
      · rw [hends] at hi
        cases hi
      · have hown := hs j ⟨d, hd, hholds⟩
        rw [hs i hi] at hown
        exact absurd (Option.some.inj hown).symm hji

theorem not_holds_of_clearing {d : Daemon} (hd : s.daemons[j]? = some d) (hstage : d.stage = .clearing) :
    ¬ s.Holds j := by
  rintro ⟨d', hd', hholds⟩
  rw [hd] at hd'
  rw [← Option.some.inj hd', hstage] at hholds
  cases hholds

theorem Kept.undisturbed (hs : Kept s) (ha : Careful s a) (h : s.step a = some t) : Undisturbed s a t := by
  intro i hi j event hj hne
  have howner := hs i hi
  rcases step_cases h with ⟨group, rfl, -⟩ | ⟨j, event, d, file, stage, rfl, hd, hcall, rfl⟩
  · cases hj
  · cases hj
    cases Stage.step_effect hcall with
    | same hsame _ hbound _ => exact ⟨hbound, hsame.trans howner⟩
    | cleared => exact absurd hi (ha i howner)
    | bound hfree =>
      rw [State.owner, hfree] at howner
      cases howner
    | cleaned hholds =>
      rw [hs j ⟨d, hd, hholds⟩] at howner
      exact absurd (Option.some.inj howner) hne

/-- Only a daemon that is to clear the path removes, other than in its cleanup. -/
theorem careful_of_clearing (h : s.step a = some t)
    (hclear : ∀ (j : Nat) (d : Daemon), a = .call j (.removed true) → s.daemons[j]? = some d →
      d.stage = .clearing → ∀ i, s.owner = some i → ¬ s.Holds i) : Careful s a := by
  unfold Careful
  split
  · rename_i j
    rcases step_cases h with ⟨group, ha, -⟩ | ⟨j', event, d, file, stage, ha, hd, hcall, -⟩
    · cases ha
    · cases ha
      cases Stage.step_effect hcall with
      | same _ _ _ hremoved => exact absurd rfl hremoved
      | cleared hstage => exact hclear j d rfl hd hstage
  · exact trivial

theorem careful_of_undisturbed (h : s.step a = some t) (ha : Undisturbed s a t) : Careful s a := by
  refine careful_of_clearing h ?_
  rintro j d rfl hd hstage i _ hi
  have hne : j ≠ i := fun hji => not_holds_of_clearing hd hstage (hji ▸ hi)
  have howner := (ha i hi j _ rfl hne).2
  have hgone : t.file = none := by
    obtain ⟨⟨file, stage⟩, hcall, rfl⟩ := Option.map_eq_some_iff.mp (by simpa only [State.step, hd] using h)
    simp only [hstage, Stage.step, if_true] at hcall
    split at hcall
    · exact (congrArg Prod.fst (Option.some.inj hcall)).symm
    · cases hcall
  rw [State.owner, hgone] at howner
  cases howner

/-- In a run whose removals are all careful, whoever holds the path is reached at it; and of all steps it is
the careless removal that takes it away. -/
theorem undisturbed_iff (h : machine.Reach Careful (start path found) s) :
    Kept s ∧ ∀ a t, s.step a = some t → (Undisturbed s a t ↔ Careful s a) := by
  have hkept : Kept s := by
    refine h.invariant (I := Kept) ?_ fun _ hI ha hstep => hI.step ha hstep
    rintro i ⟨d, hd, -⟩
    simp [start] at hd
  exact ⟨hkept, fun a t hstep =>
    ⟨careful_of_undisturbed hstep, fun ha => hkept.undisturbed ha hstep⟩⟩

/-- Two daemons find the same dead socket; the one removes and binds, and then the other removes. -/
theorem cleared_while_serving : ∃ s t u : State,
    machine.Reach Always (start "/run/zondd.sock" (some ⟨none, 0o600, none⟩)) s ∧
      s.step (.call 1 (.removed true)) = some t ∧ ¬ Undisturbed s (.call 1 (.removed true)) t ∧
      machine.Reach Always t u ∧ u.Holds 0 ∧ u.Holds 1 ∧ u.owner = some 1 := by
  have hrun : machine.run (start "/run/zondd.sock" (some ⟨none, 0o600, none⟩))
      [.start none, .start none, .call 0 (.found true), .call 1 (.found true), .call 0 (.connected false),
        .call 1 (.connected false), .call 0 (.removed true), .call 0 (.bound (some 0o755)),
        .call 0 (.listened true), .call 0 (.permitted true)] = some ⟨"/run/zondd.sock",
          some ⟨some 0, 0o600, none⟩, [⟨none, .serving⟩, ⟨none, .clearing⟩]⟩ := by
    decide +kernel
  have hserved : machine.run ⟨"/run/zondd.sock", none, [⟨none, .serving⟩, ⟨none, .binding⟩]⟩
      [.call 1 (.bound (some 0o755)), .call 1 (.listened true), .call 1 (.permitted true)] =
      some ⟨"/run/zondd.sock", some ⟨some 1, 0o600, none⟩, [⟨none, .serving⟩, ⟨none, .serving⟩]⟩ := by
    decide +kernel
  refine ⟨_, _, _, Reach.of_run hrun, rfl, ?_, Reach.of_run hserved, by decide, by decide, rfl⟩
  intro h
  cases (h 0 (by decide) 1 _ rfl (by decide)).2

/-! ## Where the removal goes wrong -/

/-- A probe fails on no socket that is held, and nobody binds the path while another, its probe having
failed, is still to remove what it found there. -/
def Truthful (s : State) : Act → Prop
  | .call _ (.connected false) => ∀ i, s.owner = some i → ¬ s.Holds i
  | .call i (.bound (some _)) => ∀ (j : Nat) (d : Daemon), s.daemons[j]? = some d → j ≠ i → d.stage ≠ .clearing
  | _ => True

instance : DecidableRel Truthful := fun s a => by
  unfold Truthful
  split
  · exact inferInstanceAs (Decidable (∀ i ∈ s.owner, ¬ s.Holds i))
  · rename_i i _
    refine decidable_of_iff (∀ j < s.daemons.length, ∀ d ∈ s.daemons[j]?, j ≠ i → d.stage ≠ .clearing) ?_
    exact ⟨fun h j d hd => h j (List.getElem?_eq_some_iff.mp hd).1 d hd, fun h j _ d hd => h j d hd⟩
  · exact .isTrue trivial

/-- While somebody is about to remove what it took for dead, nobody holds the path. -/
def Spared (s : State) : Prop :=
  ∀ (j : Nat) (d : Daemon), s.daemons[j]? = some d → d.stage = .clearing → ∀ i, ¬ s.Holds i

theorem Stage.step_clearing {path : String} {group : Option Nat} {i : Nat} {file file' : Option File}
    {stage : Stage} {event : Event} (h : stage.step path group i file event = some (file', .clearing)) :
    event = .connected false := by
  unfold Stage.step at h
  split at h <;> grind

theorem Spared.step (hs : Spared s) (hkept : Kept s) (ha : Truthful s a) (h : s.step a = some t) :
    Spared t := by
  intro j d hj hstage i hi
  rcases step_cases h with ⟨group, -, rfl⟩ | ⟨k, event, d', file, stage, rfl, hd, hcall, rfl⟩
  · rw [holds_start] at hi
    rw [List.getElem?_append] at hj
    split at hj
    · exact hs j d hj hstage i hi
    · obtain rfl : d = ⟨group, .checking⟩ := by simpa using List.mem_of_getElem? hj
      cases hstage
  · have hk := (List.getElem?_eq_some_iff.mp hd).1
    rw [holds_set hd] at hi
    by_cases hkj : k = j
    · -- The daemon whose probe has just failed: the socket it found was nobody's.
      subst hkj
      rw [List.getElem?_set_self hk] at hj
      obtain rfl := Option.some.inj hj
      subst hstage
      obtain rfl := Stage.step_clearing hcall
      split_ifs at hi with hki
      · cases hi
      · exact ha i (hkept i hi) hi
    · rw [List.getElem?_set_ne hkj] at hj
      have hnone := hs j d hj hstage
      split_ifs at hi with hki
      · -- Of the calls only the bind makes a holder of its daemon.
        cases Stage.step_effect hcall with
        | same _ hkeeps => exact hnone k ⟨d', hd, hkeeps hi⟩
        | bound => exact ha j d hj (Ne.symm hkj) hstage
        | cleared _ _ hends | cleaned _ _ hends =>
          rw [hends] at hi
          cases hi
      · exact hnone i hi

theorem Spared.careful (hs : Spared s) (h : s.step a = some t) : Careful s a :=
  careful_of_clearing h fun j d _ hd hstage i _ => hs j d hd hstage i

theorem spared_of_reach (h : machine.Reach Truthful (start path found) s) : Kept s ∧ Spared s := by
  refine h.invariant (I := fun s => Kept s ∧ Spared s) ?_ ?_
  · refine ⟨?_, ?_⟩
    · rintro i ⟨d, hd, _⟩
      simp [start] at hd
    · intro j d hd
      simp [start] at hd
  · rintro s t a _ ⟨hkept, hspared⟩ ha hstep
    exact ⟨hkept.step (hspared.careful hstep) hstep, hspared.step hkept ha hstep⟩

/-- Where every failed probe is of a socket nobody holds and every removal comes before the next bind, a
daemon that has bound the path is reached at it until it ends, and no other binds it. -/
theorem one_daemon_of_truthful (h : machine.Reach Truthful (start path found) s) :
    (∀ i, s.Holds i → s.owner = some i) ∧ ∀ a t, s.step a = some t → Undisturbed s a t := by
  obtain ⟨hkept, hspared⟩ := spared_of_reach h
  exact ⟨hkept, fun a t hstep => hkept.undisturbed (hspared.careful hstep) hstep⟩

theorem one_daemon_of_truthful_second_refused :
    ∃ s : State, s.Holds 0 ∧ s.owner = some 0 ∧ s.daemons[1]?.map Daemon.stage =
      some (.ended (.refused "/run/zondd.sock is already being served by another zondd")) := by
  have hrun : machine.runIf (fun s a => decide (Truthful s a))
      (start "/run/zondd.sock" (some ⟨none, 0o600, none⟩))
      [.start none, .call 0 (.found true), .call 0 (.connected false), .call 0 (.removed true),
        .call 0 (.bound (some 0o755)), .call 0 (.listened true), .call 0 (.permitted true), .start none,
        .call 1 (.found true), .call 1 (.connected true)] = some ⟨"/run/zondd.sock",
          some ⟨some 0, 0o600, none⟩, [⟨none, .serving⟩, ⟨none, .ended (.refused
            "/run/zondd.sock is already being served by another zondd")⟩]⟩ := by
    decide +kernel
  have hreach := Reach.of_runIf (fun _ _ h => of_decide_eq_true h) hrun
  exact ⟨_, by decide, (one_daemon_of_truthful hreach).1 0 (by decide), rfl⟩

end ZondDaemon.Listen
