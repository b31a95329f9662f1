import ZondDaemon.Scans.Live

/-!
# When a reader is told that nothing more will come

`Scan::after` reads the entries and then, separately, the closed flag. An empty answer is the log's end as
long as the flag is not set in between with an entry just pushed (`Unhurried`); where it is, the answer
comes before the end does.
-/

namespace ZondDaemon

open Proto Sequence

variable {E : Engine}

namespace Client

/-- The cursor of a client that has been told nothing more will come. -/
def atEnd : Client E → Option Nat
  | .after cursor (.returned []) => some cursor
  | .watch w =>
    match w.pc with
    | .tailing cursor (.returned []) => some cursor
    | .ending cursor => some cursor
    | .ended cursor => some cursor
    | _ => none
  | _ => none

/-- What an empty answer says of the log, and one that is about to be given. -/
structure Honest (log : Log E) (c : Client E) : Prop where
  read : ∀ cursor waiting, c.call = some (cursor, .read waiting []) → log.closed = true →
    log.after cursor = []
  atEnd : ∀ cursor, c.atEnd = some cursor → log.closed = true ∧ log.after cursor = []

variable {scan : Scan E} {c c' : Client E} {call : After E} {cursor waiting : Nat}

theorem call_eq_some (h : c.call = some (cursor, call)) :
    c = .after cursor call ∨ ∃ w, c = .watch w ∧ w.pc = .tailing cursor call := by
  cases c with
  | after cursor' call' =>
    cases h
    exact .inl rfl
  | watch w =>
    simp only [Client.call] at h
    split at h
    · rename_i hpc
      cases h
      exact .inr ⟨w, rfl, hpc⟩
    · cases h
  | _ => cases h

theorem atEnd_eq_some (h : c.atEnd = some cursor) :
    c.call = some (cursor, .returned []) ∨
      ∃ w, c = .watch w ∧ (w.pc = .ending cursor ∨ w.pc = .ended cursor) := by
  cases c with
  | after cursor' call' =>
    simp only [atEnd] at h
    split at h
    · rename_i heq
      cases heq
      cases h
      exact .inl rfl
    · rename_i heq
      cases heq
    · cases h
  | watch w =>
    simp only [atEnd] at h
    split at h
    · rename_i hpc
      cases h
      exact .inl (by simp only [Client.call, hpc])
    · rename_i hpc
      cases h
      exact .inr ⟨w, rfl, .inl hpc⟩
    · rename_i hpc
      cases h
      exact .inr ⟨w, rfl, .inr hpc⟩
    · cases h
  | _ => cases h

/-! ## What a client's step does to it -/

theorem after_step_read {got : List (Event E.ScopedIp)}
    (h : call.step scan cursor = some (.read waiting got)) : got = scan.log.after cursor := by
  cases call with
  | noted waiting' =>
    cases h
    rfl
  | read waiting' got' =>
    simp only [After.step] at h
    split at h <;> cases h
  | asleep waiting' =>
    simp only [After.step] at h
    split at h <;> cases h
  | _ => cases h

theorem after_step_returned (h : call.step scan cursor = some (.returned [])) :
    ∃ waiting, call = .read waiting [] ∧ scan.log.closed = true := by
  cases call with
  | read waiting got =>
    simp only [After.step] at h
    split at h
    · rename_i hflag
      cases h
      exact ⟨waiting, rfl, by simpa using hflag⟩
    · cases h
  | asleep waiting =>
    simp only [After.step] at h
    split at h <;> cases h
  | _ => cases h

theorem watch_step_tailing {w w' : Watch E} (h : w.step scan = some w')
    (hpc : w'.pc = .tailing cursor call) :
    call = .starting ∨ ∃ before, w.pc = .tailing cursor before ∧ before.step scan cursor = some call := by
  unfold Watch.step at h
  split at h
  case h_7 cursor' before _ _ hpc' =>
    obtain ⟨call', hcall, rfl⟩ := Option.map_eq_some_iff.mp h
    cases hpc
    exact .inr ⟨before, hpc', hcall⟩
  case h_4 | h_9 =>
    cases h
    cases hpc
    exact .inl rfl
  all_goals
    cases h
    try cases hpc

theorem watch_step_ending {w w' : Watch E} (h : w.step scan = some w')
    (hpc : w'.pc = .ending cursor ∨ w'.pc = .ended cursor) :
    w.pc = .tailing cursor (.returned []) ∨ w.pc = .ending cursor := by
  unfold Watch.step at h
  split at h
  case h_5 cursor' hpc' =>
    cases h
    rcases hpc with hpc | hpc <;> cases hpc
    exact .inl hpc'
  case h_7 =>
    obtain ⟨call', -, rfl⟩ := Option.map_eq_some_iff.mp h
    rcases hpc with hpc | hpc <;> cases hpc
  case h_10 cursor' hpc' =>
    cases h
    rcases hpc with hpc | hpc <;> cases hpc
    exact .inr hpc'
  all_goals
    cases h
    try rcases hpc with hpc | hpc <;> cases hpc

/-- A call stands between its two reads having read all there was past its cursor. -/
theorem step_read (h : c.step scan = some c') {got : List (Event E.ScopedIp)}
    (hc : c'.call = some (cursor, .read waiting got)) : got = scan.log.after cursor := by
  cases c with
  | after cursor' call' =>
    obtain ⟨call'', hcall, rfl⟩ := Option.map_eq_some_iff.mp h
    cases hc
    exact after_step_read hcall
  | watch w =>
    obtain ⟨w', hw, rfl⟩ := Option.map_eq_some_iff.mp h
    rcases call_eq_some hc with heq | ⟨w'', heq, hpc⟩
    · cases heq
    · cases heq
      rcases watch_step_tailing hw hpc with heq | ⟨before, -, hbefore⟩
      · cases heq
      · exact after_step_read hbefore
  | _ => cases h

/-- A client comes to be told nothing more will come where its call reads the flag, and nowhere else. -/
theorem step_atEnd (h : c.step scan = some c') (hc : c'.atEnd = some cursor) :
    c.atEnd = some cursor ∨
      ∃ waiting, c.call = some (cursor, .read waiting []) ∧ scan.log.closed = true := by
  cases c with
  | after cursor' call' =>
    obtain ⟨call'', hcall, rfl⟩ := Option.map_eq_some_iff.mp h
    rcases atEnd_eq_some hc with heq | ⟨w, heq, -⟩
    · cases heq
      obtain ⟨waiting, rfl, hclosed⟩ := after_step_returned hcall
      exact .inr ⟨waiting, rfl, hclosed⟩
    · cases heq
  | watch w =>
    obtain ⟨w', hw, rfl⟩ := Option.map_eq_some_iff.mp h
    rcases atEnd_eq_some hc with heq | ⟨w'', heq, hpc⟩
    · rcases call_eq_some heq with heq | ⟨w'', heq, hpc⟩
      · cases heq
      · cases heq
        rcases watch_step_tailing hw hpc with heq | ⟨before, hpc', hbefore⟩
        · cases heq
        · obtain ⟨waiting, rfl, hclosed⟩ := after_step_returned hbefore
          exact .inr ⟨waiting, by simp only [Client.call, hpc'], hclosed⟩
    · cases heq
      rcases watch_step_ending hw hpc with hpc' | hpc' <;> exact .inl (by simp only [atEnd, hpc'])
  | _ => cases h

theorem atEnd_of_open (hopen : scan.log.closed = false)
    (h : c.step scan = some c') (hc : c.atEnd = none) : c'.atEnd = none := by
  cases hend : c'.atEnd with
  | none => rfl
  | some cursor =>
    rcases step_atEnd h hend with hwas | ⟨waiting, -, hclosed⟩
    · rw [hc] at hwas
      cases hwas
    · rw [hopen] at hclosed
      cases hclosed

theorem step_honest (h : c.step scan = some c') (hc : c.Honest scan.log) : c'.Honest scan.log where
  read _ _ hcall _ := (step_read h hcall).symm
  atEnd cursor hover := by
    rcases step_atEnd h hover with hover | ⟨waiting, hcall, hclosed⟩
    · exact hc.atEnd cursor hover
    · exact ⟨hclosed, hc.read cursor waiting hcall hclosed⟩

theorem honest_of_none {log : Log E} (hcall : ∀ cursor waiting, c.call ≠ some (cursor, .read waiting []))
    (hover : c.atEnd = none) : c.Honest log where
  read cursor waiting h := absurd h (hcall cursor waiting)
  atEnd cursor h := by
    rw [hover] at h
    cases h

end Client

namespace Live

/-- The closed flag is set only while nobody stands between an empty read of the entries and the read of
the flag with an entry past the cursor. -/
def Unhurried (l : Live E) : Act E → Prop
  | .sitting .follow => l.sitting.follower = .closing → ∀ i cursor waiting,
      (l.clients i).call = some (cursor, .read waiting []) → l.log.after cursor = []
  | _ => True

def Honest (l : Live E) : Prop := ∀ i, (l.clients i).Honest l.log

variable {l m : Live E} {a : Act E}

theorem start_honest (s : Sitting E) : (start s).Honest :=
  fun _ => Client.honest_of_none (fun _ _ => nofun) rfl

theorem step_honest (hclosed : l.log.closed = l.sitting.follower.shut) (hP : Unhurried l a)
    (h : l.step a = some m) (hl : l.Honest) : m.Honest := by
  rcases step_cases h with ⟨act, sitting, rfl, hs, rfl⟩ | ⟨i, c, rfl, -, hc⟩
  · intro i
    cases hopen : l.log.closed with
    | true =>
      -- closed already, so the log is what it was
      obtain ⟨hentries, hstill⟩ := Sitting.step_of_closed hs hclosed hopen
      have hafter : ∀ cursor, sitting.scan.log.after cursor = l.log.after cursor := by
        intro cursor
        rw [Log.after, hentries]
        rfl
      refine ⟨fun cursor waiting hcall _ => ?_, fun cursor hover => ⟨hstill, ?_⟩⟩
      · exact (hafter cursor).trans ((hl i).read cursor waiting hcall hopen)
      · exact (hafter cursor).trans ((hl i).atEnd cursor hover).2
    | false =>
      refine ⟨fun cursor waiting hcall hnow => ?_, fun cursor hover => ?_⟩
      · -- the flag was set by this very step, and the run allows that only here
        have hnow : sitting.scan.log.closed = true := hnow
        rcases Sitting.step_log hs with ⟨-, hsame, -⟩ | ⟨body, next, -, -, hlog⟩ | ⟨rfl, hf, -, hlog⟩
        · rw [hsame] at hnow
          exact absurd hnow (Bool.eq_false_iff.mp hopen)
        · rw [hlog] at hnow
          exact absurd hnow (Bool.eq_false_iff.mp hopen)
        · show sitting.scan.log.after cursor = []
          rw [hlog]
          exact hP hf i cursor waiting hcall
      · have := ((hl i).atEnd cursor hover).1
        rw [hopen] at this
        cases this
  · intro j
    by_cases hj : j = i
    · subst hj
      show (Function.update l.clients j c j).Honest l.log
      rw [Function.update_self]
      rcases hc with ⟨cursor, rfl⟩ | ⟨fromSeq, rfl⟩ | hstep | ⟨w, -, rfl⟩
      · exact Client.honest_of_none (fun _ _ hcall => by cases hcall) rfl
      · refine Client.honest_of_none (fun cursor waiting hcall => ?_) ?_
        · by_cases hz : fromSeq = 0 <;> simp [Client.call, Watch.call, hz] at hcall
        · by_cases hz : fromSeq = 0 <;> simp [Client.atEnd, Watch.call, hz]
      · exact Client.step_honest hstep (hl j)
      · exact Client.honest_of_none (fun _ _ hcall => by cases hcall) rfl
    · show (Function.update l.clients i c j).Honest l.log
      rw [Function.update_of_ne hj]
      exact hl j

/-! ## The two results -/

section runs
variable {id : String} {progress : Engine.Progress} {redaction : Redaction}

theorem reach_honest (h : (machine E).Reach Unhurried (start (.fresh id progress redaction)) l) :
    l.Honest :=
  h.invariant (I := Honest) (start_honest _) fun ht hl hP hstep =>
    step_honest (reach_closed ht) hP hstep hl

theorem seq_le_of_after {cursor : Nat} (hnone : l.log.after cursor = []) :
    ∀ entry ∈ l.log.entries, entry.seq ≤ cursor := by
  intro entry he
  by_contra hlt
  have hmem := Log.mem_after.mpr ⟨he, Nat.lt_of_not_le hlt⟩
  rw [hnone] at hmem
  cases hmem

theorem upto_of_over (h : (machine E).Reach Unhurried (start (.fresh id progress redaction)) l) {i : Nat}
    {w : Watch E} (hw : l.clients i = .watch w) (hover : Frame.ended ∈ w.written) :
    l.log.closed = true ∧ w.Begun l.log.entries ∧
      ∃ cursor, w.Upto l.log.entries cursor ∧ ∀ entry ∈ l.log.entries, entry.seq ≤ cursor := by
  have hfaithful := reach_faithful h i
  rw [hw] at hfaithful
  obtain ⟨cursor, hpc⟩ := hfaithful.2 hover
  obtain ⟨hclosed, hnone⟩ := (reach_honest h i).atEnd cursor (by simp only [hw, Client.atEnd, hpc])
  have htold := hfaithful.1
  simp only [Watch.Faithful, hpc] at htold
  exact ⟨hclosed, htold.1, cursor, htold.2, seq_le_of_after hnone⟩

/-- **An empty answer is the end of the log, and a watch that has ended has written all of its tail**, in
every run that sets the flag behind no reader's back. -/
theorem over_of_unhurried (h : (machine E).Reach Unhurried (start (.fresh id progress redaction)) l) :
    (∀ i cursor, (l.clients i).call = some (cursor, .returned []) →
      l.log.closed = true ∧ ∀ entry ∈ l.log.entries, entry.seq ≤ cursor) ∧
    (∀ i w, l.clients i = .watch w → Frame.ended ∈ w.written →
      (∃ entry ∈ l.log.entries, ∃ cause, entry.body = some (.finished ⟨cause⟩)) ∧
      ∀ entry ∈ l.log.entries, w.start < entry.seq → .event entry ∈ w.written) := by
  constructor
  · intro i cursor hcall
    have hover : (l.clients i).atEnd = some cursor := by
      rcases Client.call_eq_some hcall with heq | ⟨w, heq, hpc⟩
      · rw [heq]
        rfl
      · simp only [heq, Client.atEnd, hpc]
    obtain ⟨hclosed, hnone⟩ := (reach_honest h i).atEnd cursor hover
    exact ⟨hclosed, seq_le_of_after hnone⟩
  · intro i w hw hover
    obtain ⟨hclosed, -, cursor, hupto, hpassed⟩ := upto_of_over h hw hover
    refine ⟨(reach_endsOnce h).finished ((reach_closed h).symm.trans hclosed), ?_⟩
    intro entry he hstart
    exact Watch.mem_events.mp (hupto.mem (reach_wellNumbered h) he hstart (hpassed entry he))

end runs

/-! ### Runs of a few clients -/

/-- What `Unhurried` asks where the clients are the first `n`. -/
def unhurried (n : Nat) (l : Live E) : Act E → Bool
  | .sitting .follow => match l.sitting.follower with
    | .closing => (List.range n).all fun i => match (l.clients i).call with
      | some (cursor, .read _ []) => (l.log.after cursor).isEmpty
      | _ => true
    | _ => true
  | .sitting _ => true
  | .after i _ => i < n
  | .watch i _ => i < n
  | .client i => i < n
  | .lose i => i < n

variable {P : Live E → Act E → Prop} {s : Sitting E} {n : Nat}

theorem idle_of_le (hP : ∀ l a, P l a → unhurried n l a = true) (h : (machine E).Reach P (start s) l) :
    ∀ i, n ≤ i → l.clients i = .idle := by
  apply h.invariant (I := fun l => ∀ i, n ≤ i → l.clients i = .idle) (fun _ _ => rfl)
  intro t u a _ ht hPa hstep i hi
  have hother : ∀ j c, j < n → (t.set j c).clients i = .idle := by
    intro j c hj
    show Function.update t.clients j c i = .idle
    rw [Function.update_of_ne (by omega)]
    exact ht i hi
  have hcheck := hP t a hPa
  cases a with
  | sitting act =>
    obtain ⟨sitting, -, rfl⟩ := Option.map_eq_some_iff.mp hstep
    exact ht i hi
  | after j cursor =>
    simp only [machine, step] at hstep
    split at hstep <;> cases hstep
    exact hother j _ (of_decide_eq_true hcheck)
  | watch j fromSeq =>
    simp only [machine, step] at hstep
    split at hstep <;> cases hstep
    exact hother j _ (of_decide_eq_true hcheck)
  | client j =>
    obtain ⟨c, -, rfl⟩ := Option.map_eq_some_iff.mp hstep
    exact hother j c (of_decide_eq_true hcheck)
  | lose j =>
    simp only [machine, step] at hstep
    split at hstep <;> cases hstep
    exact hother j _ (of_decide_eq_true hcheck)

theorem unhurried_sound (hidle : ∀ i, n ≤ i → l.clients i = .idle) (h : unhurried n l a = true) :
    Unhurried l a := by
  unfold Unhurried
  split
  · intro hf i cursor waiting hcall
    by_cases hi : i < n
    · simp only [unhurried, hf, List.all_eq_true, List.mem_range] at h
      have := h i hi
      simp only [hcall, List.isEmpty_iff] at this
      exact this
    · rw [hidle i (Nat.le_of_not_lt hi)] at hcall
      cases hcall
  · trivial

/-- The follower's way from an empty stream to the end, the task having come to nothing. -/
def finish : List (Act Plain.engine) :=
  [.sitting (.spawn false), .sitting .hangUp, .sitting (.finish (.ok []))] ++
    List.replicate 9 (.sitting .follow)

/-- A watch begins while the scan is on its way to the end and is told of it. -/
def unhurriedRun : List (Act Plain.engine) :=
  .watch 0 0 :: List.replicate 4 (.client 0) ++ finish ++ List.replicate 11 (.client 0)

theorem unhurriedRun_isSome :
    ((machine Plain.engine).runIf (unhurried 1) (start .plain) unhurriedRun).isSome := by decide

def told : Live Plain.engine :=
  ((machine Plain.engine).runIf (unhurried 1) (start .plain) unhurriedRun).get unhurriedRun_isSome

def toldWatch : Watch Plain.engine := (told.clients 0).watching.get (by decide)

theorem over_of_unhurried_told : told.clients 0 = .watch toldWatch ∧ Frame.ended ∈ toldWatch.written ∧
    ∀ entry ∈ told.log.entries, toldWatch.start < entry.seq → .event entry ∈ toldWatch.written := by
  have hrun := Machine.Reach.of_runIf (fun _ _ h => h) (Option.some_get unhurriedRun_isSome).symm
  have htold : (machine Plain.engine).Reach Unhurried (start .plain) told :=
    hrun.weaken fun t a ht hcheck => unhurried_sound (idle_of_le (fun _ _ h => h) ht) hcheck
  have hover : Frame.ended ∈ toldWatch.written := by decide
  exact ⟨rfl, hover, ((over_of_unhurried htold).2 0 toldWatch rfl hover).2⟩

/-- A run in which the last entry and the flag both come in between a reader's two reads. -/
def hurriedRun : List (Act Plain.engine) :=
  [.watch 0 0, .after 1 0] ++ List.replicate 6 (.client 0) ++ List.replicate 2 (.client 1) ++
    finish ++ [.client 1] ++ List.replicate 3 (.client 0)

theorem hurriedRun_isSome : ((machine Plain.engine).run (start .plain) hurriedRun).isSome := by decide

def hurried : Live Plain.engine :=
  ((machine Plain.engine).run (start .plain) hurriedRun).get hurriedRun_isSome

def hurriedWatch : Watch Plain.engine := (hurried.clients 0).watching.get (by decide)

/-- There an empty answer is given with an entry to come, and the watch ends without the end of the scan
having been written. -/
theorem over_early : (machine Plain.engine).Reach Machine.Always (start .plain) hurried ∧
    ((hurried.clients 1).call = some (0, .returned []) ∧ ∃ entry ∈ hurried.log.entries, 0 < entry.seq) ∧
    hurried.clients 0 = .watch hurriedWatch ∧ Frame.ended ∈ hurriedWatch.written ∧
    ∃ entry ∈ hurried.log.entries, hurriedWatch.start < entry.seq ∧ entry.cause.isSome ∧
      .event entry ∉ hurriedWatch.written :=
  ⟨Machine.Reach.of_run (Option.some_get hurriedRun_isSome).symm, ⟨rfl, by decide⟩, rfl, by decide,
    by decide⟩

end Live

end ZondDaemon
