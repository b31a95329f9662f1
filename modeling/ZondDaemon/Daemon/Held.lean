import ZondDaemon.Daemon.Finished

/-!
# Whether somebody is running a scan, said twice

`list` says of every record whether a process holds it. The calls that name a scan say it is running where
it is filed here with its log open, and of anything read off disk that it is over, whoever holds it.
`SaysOver` is what the named calls make of a scan where the daemon rests, each from beginning to end.
-/

namespace ZondDaemon

open Proto

variable {E : Engine}

namespace Daemon

variable {rules : Rules E} {d : Daemon E} {id : String} {j : Nat} {l : Live E} {found : Found E}

/-! ## What the calls that name a scan answer -/

/-- `Found::state`. -/
def state (d : Daemon E) : Found E → Option ScanState
  | .live j => (d.scans[j]?).map fun l => l.sitting.scan.state
  | .recorded record => some record.state

/-- The state after `Found::stop`, where the handle of a live scan reports `reports` from then on. -/
def stopped (d : Daemon E) (reports : Option Engine.StopCause) : Found E → Option ScanState
  | .live j => (d.scans[j]?).bind fun l =>
      (l.sitting.step (.stop reports)).map fun s => s.scan.state
  | .recorded record => some record.state

/-- A watch of what was found, nothing else happening. -/
def watching (d : Daemon E) : Found E → Machine (Watch E) Unit
  | .live j => ⟨fun w _ => (d.scans[j]?).bind fun l => w.step l.sitting.scan⟩
  | .recorded record => record.machine

/-- Some call that names the scan has it that it is over. -/
inductive SaysOver (rules : Rules E) (d : Daemon E) (id : String) : Prop
  | get {found : Found E} {state : ScanState} : d.get rules id = .ok found →
      d.state found = some state → state.running = false → SaysOver rules d id
  | stop {found : Found E} {state : ScanState} (reports : Option Engine.StopCause) :
      d.get rules id = .ok found → d.stopped reports found = some state → state.running = false →
      SaysOver rules d id
  | watch {found : Found E} {w : Watch E} (fromSeq : Nat) : d.get rules id = .ok found →
      (d.watching found).Reach Machine.Always (Watch.call fromSeq) w → Frame.ended ∈ w.written →
      SaysOver rules d id
  | exported {response : ExportResponse} (asked : ExportRequest) : asked.scanId = id →
      (Stdio.exportScan asked).eval (d.answers rules) = .ok response → SaysOver rules d id

/-- `list` has the scan among those a process is running. -/
def ListsHeld (rules : Rules E) (d : Daemon E) (id : String) : Prop :=
  ∃ limit listings, d.list rules limit = .ok listings ∧
    ∃ listing ∈ listings, listing.scanId = id ∧ listing.hold = number ScanHold.held

theorem eval_export_live (hget : d.get rules id = .ok (.live j)) (hl : d.scans[j]? = some l)
    (asked : ExportRequest) (hid : asked.scanId = id) :
    (Stdio.exportScan asked).eval (d.answers rules) = match l.sitting.scan.report with
      | none => .error (Stdio.stillRunning asked.scanId "write down yet. Watch it instead.")
      | some report => (Export.document report (Export.named asked.format)
          (if asked.redact.getD false then .standard else l.sitting.scan.redaction)).map fun document =>
            ⟨document, number (Export.named asked.format)⟩ := by
  subst hid
  have hfind : answers rules d (.get asked.scanId) = .ok (.live j) := hget
  have hreport : answers rules d (.report j) = l.sitting.scan.report := by
    rw [answers, hl, Option.bind_some]
  have hredaction : answers rules d (.redaction j) = l.sitting.scan.redaction := by
    rw [answers, hl]
    rfl
  simp only [Stdio.exportScan, Stdio.find, Found.report, Found.redaction, Program.ask_bind,
    Program.ofExcept_ok, Program.ret_bind, Program.eval, hfind, hreport]
  cases l.sitting.scan.report with
  | none => rfl
  | some report =>
    dsimp only
    split_ifs
    · cases Export.document report (Export.named asked.format) .standard <;> rfl
    · simp only [Program.eval, hredaction]
      cases Export.document report (Export.named asked.format) l.sitting.scan.redaction <;> rfl

theorem eval_export_error {error : Error} (hget : d.get rules id = .error error) (asked : ExportRequest)
    (hid : asked.scanId = id) : (Stdio.exportScan asked).eval (d.answers rules) = .error error := by
  subst hid
  have hfind : answers rules d (.get asked.scanId) = .error error := hget
  simp only [Stdio.exportScan, Stdio.find, Program.ask_bind, Program.ofExcept_error, Program.fail_bind,
    Program.eval, hfind]

theorem not_ended_of_open (hl : d.scans[j]? = some l) (hopen : l.log.closed = false) {fromSeq : Nat}
    {w : Watch E} (h : (d.watching (.live j)).Reach Machine.Always (Watch.call fromSeq) w) :
    Frame.ended ∉ w.written := by
  have hpatient : w.OverLast ∧ (Client.watch w).atEnd = none := by
    refine h.invariant (I := fun w => w.OverLast ∧ (Client.watch w).atEnd = none)
      ⟨Watch.call_overLast fromSeq, ?_⟩ fun {t u a} _ ht _ hstep => ?_
    · by_cases hzero : fromSeq = 0 <;> simp [Client.atEnd, Watch.call, hzero]
    · obtain ⟨m, hm, hstep⟩ := Option.bind_eq_some_iff.mp hstep
      cases hl.symm.trans hm
      refine ⟨Watch.step_overLast hstep ht.1, Client.atEnd_of_open (c := .watch t) hopen ?_ ht.2⟩
      rw [Client.step, hstep]
      rfl
  intro hended
  obtain ⟨cursor, hpc⟩ := hpatient.1 hended
  have hnone := hpatient.2
  simp only [Client.atEnd, hpc] at hnone
  cases hnone

/-! ## Where the two agree -/

/-- A report no export would write. -/
def Unwritable (redaction : Redaction) (report : E.ScanReport) : Prop :=
  ∀ asked : ExportRequest, ∃ error, Export.document report (Export.named asked.format)
    (if asked.redact.getD false then .standard else redaction) = .error error

/-- The scan is filed here with its log open, and has no report any export would write. -/
def RunsHere (d : Daemon E) (id : String) : Prop :=
  ∃ (j : Nat) (l : Live E), d.inner id = some j ∧ d.scans[j]? = some l ∧ l.log.closed = false ∧
    ∀ report, l.sitting.scan.report = some report → Unwritable l.sitting.scan.redaction report

/-- The scan is not filed here and its record cannot be read. -/
def Unreadable (d : Daemon E) (id : String) : Prop :=
  d.inner id = none ∧ ∃ entries entry refused, d.store = .ok entries ∧
    (entries.find? fun entry => entry.id = id) = some entry ∧ entry.report = .error refused

/-- A live scan is said to be over where its log is closed or its report can be written. -/
theorem saysOver_live_iff (hget : d.get rules id = .ok (.live j)) (hl : d.scans[j]? = some l) :
    ¬ SaysOver rules d id ↔ l.log.closed = false ∧
      ∀ report, l.sitting.scan.report = some report → Unwritable l.sitting.scan.redaction report := by
  have hstate : d.state (.live j) = some l.sitting.scan.state := by
    rw [state, hl]
    rfl
  constructor
  · intro hright
    refine ⟨?_, fun report hreport asked => ?_⟩
    · by_contra hclosed
      refine hright (.get hget hstate ?_)
      simpa [Scan.state, Live.log] using hclosed
    · have heval := eval_export_live hget hl { asked with scanId := id } rfl
      rw [hreport] at heval
      dsimp only at heval
      cases hdocument : Export.document report (Export.named asked.format)
          (if asked.redact.getD false then .standard else l.sitting.scan.redaction) with
      | error error => exact ⟨error, rfl⟩
      | ok document =>
        rw [hdocument] at heval
        exact absurd (.exported { asked with scanId := id } rfl heval) hright
  · rintro ⟨hopen, hunwritable⟩ hover
    have hrunning : l.sitting.scan.state.running = true := by
      simpa [Scan.state, Live.log] using hopen
    cases hover with
    | get hget' hstate' hover =>
      cases hget.symm.trans hget'
      cases hstate.symm.trans hstate'
      rw [hrunning] at hover
      cases hover
    | stop reports hget' hstate' hover =>
      cases hget.symm.trans hget'
      -- stopping a scan leaves its log as it is
      simp only [stopped, hl, Option.bind_some, Sitting.step, Option.map_some, Option.some.injEq] at hstate'
      subst hstate'
      cases hrunning.symm.trans hover
    | watch fromSeq hget' hreach hended =>
      cases hget.symm.trans hget'
      exact not_ended_of_open hl hopen hreach hended
    | exported asked hid heval =>
      rw [eval_export_live hget hl asked hid] at heval
      cases hreport : l.sitting.scan.report with
      | none =>
        rw [hreport] at heval
        cases heval
      | some report =>
        obtain ⟨error, hdocument⟩ := hunwritable report hreport asked
        rw [hreport] at heval
        dsimp only at heval
        rw [hdocument] at heval
        cases heval

theorem saysOver_recorded_iff (hroot : rules.root = true) (hinner : d.inner id = none)
    {entries : List (Entry E.toEngineTypes)} {entry : Entry E.toEngineTypes}
    (hstore : d.store = .ok entries) (hfind : (entries.find? fun entry => entry.id = id) = some entry) :
    ¬ SaysOver rules d id ↔ ∃ refused, entry.report = .error refused := by
  have hget : d.get rules id = (Recorded.read d.store id).map .recorded := by
    rw [get, hinner]
    exact if_pos hroot
  cases hreport : entry.report with
  | ok report =>
    have hread : Recorded.read d.store id = .ok (Recorded.ofReport entry.id report) := by
      simp only [Recorded.read, hstore, hfind, hreport]
    rw [hread] at hget
    refine iff_of_false (fun hright => hright (.get hget rfl rfl)) ?_
    rintro ⟨refused, hrefused⟩
    cases hrefused
  | error refused =>
    have hread : Recorded.read d.store id = .error (.engine refused) := by
      simp only [Recorded.read, hstore, hfind, hreport]
    rw [hread] at hget
    refine iff_of_true (fun hover => ?_) ⟨refused, rfl⟩
    cases hover with
    | get hget' _ _ => cases hget.symm.trans hget'
    | stop _ hget' _ _ => cases hget.symm.trans hget'
    | watch _ hget' _ _ => cases hget.symm.trans hget'
    | exported asked hid heval =>
      rw [eval_export_error hget asked hid] at heval
      cases heval

theorem entry_of_listed (h : ListsHeld rules d id) : rules.root = true ∧
    ∃ entries entry, d.store = .ok entries ∧ (entries.find? fun entry => entry.id = id) = some entry := by
  obtain ⟨limit, listings, hlist, listing, hmem, hid, -⟩ := h
  unfold list at hlist
  split at hlist
  · rename_i hroot
    split at hlist
    · cases hlist
    · rename_i entries hstore
      cases hlist
      obtain ⟨entry, hentry, rfl⟩ := List.mem_map.mp hmem
      have hentry := List.mem_mergeSort.mp (List.mem_of_mem_take hentry)
      have hfound : (entries.find? fun entry => entry.id = id).isSome :=
        List.find?_isSome.mpr ⟨entry, hentry, decide_eq_true hid⟩
      obtain ⟨first, hfirst⟩ := Option.isSome_iff_exists.mp hfound
      exact ⟨hroot, entries, first, hstore, hfirst⟩
  · cases hlist
    cases hmem

/-- **Of a scan `list` says is being run the calls that name it agree exactly where it runs here, or
where its record cannot be read.** -/
theorem held_iff {store : Except EngineError (List (Entry E.toEngineTypes))}
    (h : (machine rules).Reach Machine.Always (fresh store) d) (hlisted : ListsHeld rules d id) :
    ¬ SaysOver rules d id ↔ RunsHere d id ∨ Unreadable d id := by
  obtain ⟨hroot, entries, entry, hstore, hfind⟩ := entry_of_listed hlisted
  cases hinner : d.inner id with
  | some j =>
    obtain ⟨l, hl, -⟩ := reach_filed h id j hinner
    have hget : d.get rules id = .ok (.live j) := by rw [get, hinner]
    rw [saysOver_live_iff hget hl]
    constructor
    · rintro ⟨hopen, hunwritable⟩
      exact .inl ⟨j, l, hinner, hl, hopen, hunwritable⟩
    · rintro (⟨k, m, hk, hm, hright⟩ | ⟨hnone, -⟩)
      · cases hinner.symm.trans hk
        cases hl.symm.trans hm
        exact hright
      · cases hinner.symm.trans hnone
  | none =>
    rw [saysOver_recorded_iff hroot hinner hstore hfind]
    constructor
    · rintro ⟨refused, hrefused⟩
      exact .inr ⟨hinner, entries, entry, refused, hstore, hfind, hrefused⟩
    · rintro (⟨k, m, hk, -⟩ | ⟨-, entries', entry', refused, hstore', hfind', hrefused⟩)
      · cases hinner.symm.trans hk
      · cases hstore.symm.trans hstore'
        cases hfind.symm.trans hfind'
        exact ⟨refused, hrefused⟩

/-- A journal somebody is running. -/
def heldEntry : Entry Plain.types :=
  ⟨"A", "A", 0, "1 probe", 1, .portScan, .held (), false, none, .ok [(1, "open 22")]⟩

/-- The scan runs here, and its journal is held by the daemon itself. -/
def runsHere : List (Act Plain.engine) :=
  comesToScan 0 (.start { targets := ["10"] }) 7 ++ [.store (.ok [heldEntry])]

theorem runsHere_isSome : ((machine recording).run (fresh (.ok [])) runsHere).isSome := by decide +kernel

def running : Daemon Plain.engine := ((machine recording).run (fresh (.ok [])) runsHere).get runsHere_isSome

/-- The scan's journal is made and the scan is not filed yet. -/
def onItsWay : List (Act Plain.engine) :=
  [.arrive (.start { targets := ["10"] }), .reserve 0 false, .reserve 0 false] ++
    List.replicate 7 (.answer 0 fun q => some (Plain.world q)) ++ [.store (.ok [heldEntry])]

theorem onItsWay_isSome : ((machine recording).run (fresh (.ok [])) onItsWay).isSome := by decide +kernel

def starting : Daemon Plain.engine := ((machine recording).run (fresh (.ok [])) onItsWay).get onItsWay_isSome

theorem lists_heldEntry {d : Daemon Plain.engine} (hstore : d.store = .ok [heldEntry]) :
    ListsHeld recording d "A" := by
  have hlist : d.list recording none = .ok [listing (E := Plain.engine) heldEntry] := by
    simp only [list, recording, if_true, hstore, List.mergeSort_singleton]
    rfl
  exact ⟨none, _, hlist, _, List.mem_singleton_self _, rfl, rfl⟩

theorem held_iff_running : ListsHeld recording running "A" ∧ ¬ SaysOver recording running "A" := by
  have hlisted : ListsHeld recording running "A" := lists_heldEntry rfl
  have h := Machine.Reach.of_run (Option.some_get runsHere_isSome).symm
  exact ⟨hlisted, (held_iff h hlisted).mpr (.inl ⟨0, _, rfl, rfl, rfl, nofun⟩)⟩

/-- `list` says the scan is being run, and `get` and `stop` say it is over, a watch ends and an export writes
what there is. -/
def Contradicted (d : Daemon Plain.engine) : Prop :=
  ListsHeld recording d "A" ∧ ∃ found state, d.get recording "A" = .ok found ∧
    d.state found = some state ∧ state.running = false ∧
    (∀ reports, d.stopped reports found = some state) ∧
    (∃ w, (d.watching found).Reach Machine.Always (Watch.call 1) w ∧ w.written = [.ended]) ∧
    ∃ response, (Stdio.exportScan ⟨"A", 0, none⟩).eval (d.answers recording) = .ok response

/-- Of a scan another process is running the daemon contradicts itself, and of one it is about to file. -/
theorem not_held : Contradicted (fresh (.ok [heldEntry])) ∧
    (machine recording).Reach Machine.Always (fresh (.ok [])) starting ∧ Contradicted starting := by
  have hwatch : ∃ w, (Recorded.ofReport "A" [(1, "open 22")] : Recorded Plain.engine).machine.Reach
      Machine.Always (Watch.call 1) w ∧ w.written = [.ended] :=
    ⟨_, ((Machine.Reach.refl.tail (a := ()) trivial rfl).tail (a := ()) trivial rfl).tail (a := ())
      trivial rfl, rfl⟩
  refine ⟨?_, Machine.Reach.of_run (Option.some_get onItsWay_isSome).symm, ?_⟩
  · exact ⟨lists_heldEntry rfl, _, _, rfl, rfl, rfl, fun _ => rfl, hwatch, _, rfl⟩
  · exact ⟨lists_heldEntry rfl, _, _, rfl, rfl, rfl, fun _ => rfl, hwatch, _, rfl⟩

end Daemon

end ZondDaemon
