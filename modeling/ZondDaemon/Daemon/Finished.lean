import ZondDaemon.Daemon.Names
import ZondDaemon.Scans.Report

/-!
# When a scan that is over has a report

`get` reads from the log's flag whether a scan is over, and the calls that write its report read whether
there is one. The two agree where the engine's task came to a report; where it did not, the scan is over and
still running for good.
-/

namespace ZondDaemon

open Proto

variable {E : Engine}

namespace Daemon

variable {rules : Rules E} {d : Daemon E} {j : Nat} {l : Live E} {id : String}

/-- The call asked the scan `j` for its report, was told there is none, and was refused for it. -/
def RefusedFor (j : Nat) (t : List (Program.Step (Reading.Answer E)))
    (out : Except Error (ExportResponse ⊕ DiffResponse)) : Prop :=
  ⟨.report j, none⟩ ∈ t ∧ ∃ error, out = .error error ∧ error.code = "scan.still_running"

theorem refused_export (hget : d.get rules id = .ok (.live j)) (hl : d.scans[j]? = some l)
    (hnone : l.sitting.scan.report = none) (asked : ExportRequest) (hid : asked.scanId = id) :
    RefusedFor j ((ReportCall.exporting asked : ReportCall).program.transcript (d.answers rules))
      ((ReportCall.exporting asked : ReportCall).program.eval (d.answers rules)) := by
  subst hid
  have hfind : answers rules d (.get asked.scanId) = .ok (.live j) := hget
  have hreport : answers rules d (.report j) = none := by
    rw [answers, hl, Option.bind_some, hnone]
  simp only [RefusedFor, ReportCall.program, Stdio.exportScan, Stdio.find, Found.report, map_eq_pure_bind,
    Program.ask_bind, Program.ofExcept_ok, Program.ret_bind, Program.fail_bind, Program.transcript,
    Program.eval, hfind, hreport]
  exact ⟨List.mem_cons_of_mem _ List.mem_cons_self, _, rfl, rfl⟩

variable {store : Except EngineError (List (Entry E.toEngineTypes))}

/-- **A scan `get` has said is over is refused as still running by no later call exactly where the engine's
task came to a report.** -/
theorem finished_iff (h : (machine rules).Reach Machine.Always (fresh store) d)
    (hget : d.get rules id = .ok (.live j)) (hl : d.scans[j]? = some l)
    (hover : l.sitting.scan.state.running = false) :
    (∀ (asked : ReportCall) t out d', Program.During (machine rules) Machine.Always (answers rules)
        asked.program d t out d' → ¬ RefusedFor j t out) ↔
      ∃ report, l.sitting.task = some (.ok report) := by
  obtain ⟨name, progress, redaction, hbegun⟩ := scan_reach_always h hl
  have hclosed : l.sitting.scan.log.closed = true := by simpa [Scan.state] using hover
  obtain ⟨outcome, htask, hreport⟩ := Live.report_of_over hbegun hclosed
  constructor
  · intro hnever
    cases outcome with
    | ok report => exact ⟨report, htask⟩
    | error error =>
      have hcall : Program.During (machine rules) Machine.Always (answers rules)
          (ReportCall.exporting ⟨id, 0, none⟩).program d _ _ d := .rests d _
      exact absurd (refused_export hget hl hreport ⟨id, 0, none⟩ rfl) (hnever _ _ _ _ hcall)
  · rintro ⟨report, hok⟩ asked t out d' hduring ⟨hmem, -⟩
    cases htask.symm.trans hok
    obtain ⟨u, hu, hanswer⟩ := hduring.answered hmem
    obtain ⟨m, hm, hreach⟩ := later hu hl
    simp only [answers, hm, Option.bind_some, Live.report_stays hbegun hclosed hreach, hreport] at hanswer
    cases hanswer

/-- A scan whose task has come to this is over. -/
def endedWith (outcome : Except EngineError (List (Nat × String))) : List (Act Plain.engine) :=
  comesToScan 0 (.start { targets := ["10"] }) 7 ++
    [.store (.ok [⟨"A", "A", 0, "1 probe", 1, .portScan, .free, false, none, .ok []⟩])] ++
    untilOver 0 outcome

theorem endedWell_isSome : ((machine recording).run (fresh (.ok [])) (endedWith (.ok []))).isSome := by
  decide +kernel

def endedWell : Daemon Plain.engine :=
  ((machine recording).run (fresh (.ok [])) (endedWith (.ok []))).get endedWell_isSome

theorem finished_iff_endedWell :
    endedWell.get recording "A" = .ok (.live 0) ∧
    ¬ RefusedFor 0 ((ReportCall.exporting ⟨"A", 0, none⟩).program.transcript (endedWell.answers recording))
      ((ReportCall.exporting ⟨"A", 0, none⟩).program.eval (endedWell.answers recording)) := by
  have hget : endedWell.get recording "A" = .ok (.live 0) := rfl
  have h := Machine.Reach.of_run (Option.some_get endedWell_isSome).symm
  exact ⟨hget, (finished_iff h hget rfl rfl).mpr ⟨[], rfl⟩ _ _ _ _ (.rests endedWell _)⟩

theorem failed_isSome : ((machine recording).run (fresh (.ok []))
    (endedWith (.error ⟨"scan.socket", "no socket"⟩))).isSome := by decide +kernel

def failed : Daemon Plain.engine :=
  ((machine recording).run (fresh (.ok [])) (endedWith (.error ⟨"scan.socket", "no socket"⟩))).get
    failed_isSome

def failedScan : Live Plain.engine := (failed.scans[0]?).get (by decide +kernel)

/-- The engine's task fails: `get` says the scan is over, and `export`, `diff` and `merge` say it is still
running, with a record of it on disk. -/
theorem not_finished : (machine recording).Reach Machine.Always (fresh (.ok [])) failed ∧
    failed.get recording "A" = .ok (.live 0) ∧ failedScan.sitting.scan.state.running = false ∧
    (Recorded.read failed.store "A").toOption.isSome ∧
    ∀ asked ∈ [.exporting ⟨"A", 0, none⟩, .diffing ⟨"A", "A", 0⟩, .merging ⟨["A", "A"], 0, none⟩],
      RefusedFor 0 ((asked : ReportCall).program.transcript (failed.answers recording))
        (asked.program.eval (failed.answers recording)) := by
  refine ⟨Machine.Reach.of_run (Option.some_get failed_isSome).symm, rfl, rfl, rfl, ?_⟩
  rintro asked (_ | ⟨_, _ | ⟨_, _ | ⟨_, ⟨⟩⟩⟩⟩)
  · exact ⟨List.mem_cons_of_mem _ List.mem_cons_self, _, rfl, rfl⟩
  · exact ⟨List.mem_cons_of_mem _ List.mem_cons_self, _, rfl, rfl⟩
  · exact ⟨List.mem_cons_of_mem _ List.mem_cons_self, _, rfl, rfl⟩

end Daemon

end ZondDaemon
