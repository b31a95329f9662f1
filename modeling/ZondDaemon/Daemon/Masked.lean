import ZondDaemon.Daemon.Daemon
import ZondDaemon.Scans.Masked

/-!
# What the daemon hands out of a scan that is masked

Two daemons are alike at a live scan where they differ only in what is masked of its hosts and report. They
go on alike (`mirrors`), so whoever watches is told the same, and so is whoever exports. A comparison is
written without regard to the masking, and a fold is masked only where the call itself asks for it
(`veiled_iff`).
-/

namespace ZondDaemon

open Proto

variable {E : Engine}

namespace Daemon

/-- The daemons differ only in what is masked of the scan at `j`, which is handed out masked. -/
def Alike (v : Veil E) (j : Nat) (d e : Daemon E) : Prop :=
  ∃ l m, d.scans[j]? = some l ∧ l.Alike v m ∧ e = { d with scans := d.scans.set j m }

/-- The same thing happens, but for what is masked of what the scan at `j` finds. -/
inductive Act.Alike (v : Veil E) (j : Nat) : Act E → Act E → Prop
  | same (a : Act E) : Alike v j a a
  | scan {a b : Live.Act E} : a.Alike v b → Alike v j (.scan j a) (.scan j b)

variable {v : Veil E} {rules : Rules E} {j k : Nat} {d d' e : Daemon E} {l m : Live E}

theorem Alike.refl (v : Veil E) (hl : d.scans[j]? = some l) (hmasked : l.sitting.scan.redaction = .standard) :
    Alike v j d d := by
  obtain ⟨hj, hget⟩ := List.getElem?_eq_some_iff.mp hl
  refine ⟨l, l, hl, ⟨.refl v hmasked, rfl⟩, ?_⟩
  rw [← hget, List.set_getElem_self]

/-- What a scan of the one daemon can do, that of the other can, and the daemons are alike afterwards. -/
theorem step_alike {scans : List (Live E)} {n n' : Live E} {a b : Live.Act E} (hl : scans[j]? = some l)
    (hlm : l.Alike v m) (hab : a = b ∨ (k = j ∧ a.Alike v b)) (hn : scans[k]? = some n)
    (hstep : n.step a = some n') :
    ∃ o o' l' m', (scans.set j m)[k]? = some o ∧ o.step b = some o' ∧
      o.sitting.slot = n.sitting.slot ∧ o'.sitting.slot = n'.sitting.slot ∧
      o.sitting.scan.id = n.sitting.scan.id ∧
      (scans.set k n')[j]? = some l' ∧ l'.Alike v m' ∧
      (scans.set j m).set k o' = (scans.set k n').set j m' := by
  have hj : j < scans.length := (List.getElem?_eq_some_iff.mp hl).1
  by_cases hk : k = j
  · subst hk
    cases hl.symm.trans hn
    have hab' : a.Alike v b := by
      rcases hab with rfl | ⟨-, hab⟩
      · exact .same a
      · exact hab
    obtain ⟨o', ho', halike⟩ := Live.mirrors v _ _ _ _ _ hlm hab' hstep
    refine ⟨m, o', n', o', List.getElem?_set_self hj, ho', hlm.sitting.slot, halike.sitting.slot,
      hlm.sitting.scan.id, List.getElem?_set_self hj, halike, ?_⟩
    rw [List.set_set, List.set_set]
  · obtain rfl : a = b := by
      rcases hab with rfl | ⟨heq, -⟩
      · rfl
      · exact absurd heq hk
    refine ⟨n, n', l, m, ?_, hstep, rfl, rfl, rfl, ?_, hlm, List.set_comm _ _ (Ne.symm hk)⟩
    · rw [List.getElem?_set_ne (Ne.symm hk), hn]
    · rw [List.getElem?_set_ne hk, hl]

theorem id_alike {scans : List (Live E)} {n : Live E} (hl : scans[j]? = some l) (hlm : l.Alike v m)
    (hn : scans[k]? = some n) :
    ∃ o, (scans.set j m)[k]? = some o ∧ o.sitting.scan.id = n.sitting.scan.id := by
  by_cases hk : k = j
  · subst hk
    cases hl.symm.trans hn
    exact ⟨m, List.getElem?_set_self (List.getElem?_eq_some_iff.mp hl).1, hlm.sitting.scan.id⟩
  · exact ⟨n, by rw [List.getElem?_set_ne (Ne.symm hk), hn], rfl⟩

/-- The actions that neither read nor change a live scan. -/
def Act.apart : Act E → Bool
  | .proceed _ => false
  | .scan _ _ => false
  | .watch _ _ _ => false
  | _ => true

theorem step_apart {a : Act E} (ha : a.apart = true) (h : step rules d a = some d') (scans : List (Live E)) :
    d'.scans = d.scans ∧ step rules { d with scans := scans } a = some { d' with scans := scans } := by
  cases a with
  | arrive request =>
    cases h
    exact ⟨rfl, rfl⟩
  | reserve i spurious =>
    obtain ⟨call, hcall, h⟩ := Option.bind_eq_some_iff.mp h
    simp only [step, hcall, Option.bind_some]
    unfold reserve at h ⊢
    split at h
    · cases h
      exact ⟨rfl, rfl⟩
    · dsimp only
      split_ifs at h ⊢ <;> cases h <;> exact ⟨rfl, rfl⟩
    · cases h
  | answer i world =>
    obtain ⟨call, hcall, h⟩ := Option.bind_eq_some_iff.mp h
    simp only [step, hcall, Option.bind_some]
    unfold answer at h ⊢
    split at h
    · obtain ⟨answer, hanswer, rfl⟩ := Option.map_eq_some_iff.mp h
      exact ⟨rfl, Option.map_eq_some_iff.mpr ⟨answer, hanswer, rfl⟩⟩
    · cases h
  | abandon i =>
    obtain ⟨call, hcall, h⟩ := Option.bind_eq_some_iff.mp h
    simp only [step, hcall, Option.bind_some]
    unfold abandon at h ⊢
    split at h
    · split_ifs at h ⊢ with hawaited
      cases h
      exact ⟨rfl, rfl⟩
    · cases h
  | read k =>
    obtain ⟨w, hw, h⟩ := Option.bind_eq_some_iff.mp h
    obtain ⟨w', hw', rfl⟩ := Option.map_eq_some_iff.mp h
    refine ⟨rfl, ?_⟩
    simp only [step, hw, Option.bind_some, hw', Option.map_some]
  | store entries =>
    cases h
    exact ⟨rfl, rfl⟩
  | _ => cases ha

theorem within_alike {a b : Live.Act E} {n : Live E} (hl : d.scans[j]? = some l) (hlm : l.Alike v m)
    (hab : a = b ∨ (k = j ∧ a.Alike v b)) (hn : d.scans[k]? = some n) (h : within d k a n = some d') :
    ∃ o e', (d.scans.set j m)[k]? = some o ∧ within { d with scans := d.scans.set j m } k b o = some e' ∧
      Alike v j d' e' := by
  obtain ⟨n', hn', rfl⟩ := Option.map_eq_some_iff.mp h
  obtain ⟨o, o', l', m', ho, ho', hslot, hslot', -, hl', hlm', hset⟩ := step_alike hl hlm hab hn hn'
  refine ⟨o, _, ho, Option.map_eq_some_iff.mpr ⟨o', ho', rfl⟩, l', m', hl', hlm', ?_⟩
  simp only [hset, hslot, hslot']

theorem proceed_alike {i : Nat} {call : Call E} (hl : d.scans[j]? = some l) (hlm : l.Alike v m)
    (h : d.proceed i call = some d') :
    ∃ e', proceed { d with scans := d.scans.set j m } i call = some e' ∧ Alike v j d' e' := by
  have hj : j < d.scans.length := (List.getElem?_eq_some_iff.mp hl).1
  unfold proceed at h ⊢
  split at h
  · rename_i sitting slot hpc
    cases h
    refine ⟨_, rfl, l, m, ?_, hlm, ?_⟩
    · exact (List.getElem?_append_left hj).trans hl
    · simp only [goes, List.length_set, List.set_append_left _ _ hj]
  · cases h
    exact ⟨_, rfl, l, m, hl, hlm, rfl⟩
  · rename_i k slot hpc
    obtain ⟨n, hn, rfl⟩ := Option.map_eq_some_iff.mp h
    obtain ⟨o, ho, hid⟩ := id_alike hl hlm hn
    refine ⟨_, Option.map_eq_some_iff.mpr ⟨o, ho, rfl⟩, l, m, hl, hlm, ?_⟩
    simp only [goes, hid]
  · rename_i k slot hpc
    obtain ⟨n, hn, h⟩ := Option.bind_eq_some_iff.mp h
    obtain ⟨n', hn', rfl⟩ := Option.map_eq_some_iff.mp h
    obtain ⟨o, o', l', m', ho, ho', -, -, hid, hl', hlm', hset⟩ := step_alike hl hlm (.inl rfl) hn hn'
    refine ⟨_, Option.bind_eq_some_iff.mpr ⟨o, ho, Option.map_eq_some_iff.mpr ⟨o', ho', rfl⟩⟩, l', m', hl',
      hlm', ?_⟩
    simp only [hset, hid, goes]
  · cases h
    exact ⟨_, rfl, l, m, hl, hlm, rfl⟩
  · cases h

theorem watch_alike {i fromSeq : Nat} {id : String} (hl : d.scans[j]? = some l) (hlm : l.Alike v m)
    (h : d.watch rules i id fromSeq = some d') :
    ∃ e', watch rules { d with scans := d.scans.set j m } i id fromSeq = some e' ∧ Alike v j d' e' := by
  have hget : get rules { d with scans := d.scans.set j m } id = get rules d id := rfl
  unfold watch at h ⊢
  rw [hget]
  cases hfound : d.get rules id with
  | error refused =>
    rw [hfound] at h
    cases h
    exact ⟨_, rfl, l, m, hl, hlm, rfl⟩
  | ok found =>
    rw [hfound] at h
    cases found with
    | recorded record =>
      cases h
      exact ⟨_, rfl, l, m, hl, hlm, rfl⟩
    | live k =>
      obtain ⟨n, hn, h⟩ := Option.bind_eq_some_iff.mp h
      obtain ⟨n', hn', rfl⟩ := Option.map_eq_some_iff.mp h
      obtain ⟨o, o', l', m', ho, ho', -, -, -, hl', hlm', hset⟩ := step_alike hl hlm (.inl rfl) hn hn'
      refine ⟨_, Option.bind_eq_some_iff.mpr ⟨o, ho, Option.map_eq_some_iff.mpr ⟨o', ho', rfl⟩⟩, l', m', hl',
        hlm', ?_⟩
      simp only [hset]

/-- **Whatever can happen to a daemon can happen to one alike, and they stay alike.** -/
theorem mirrors (v : Veil E) (rules : Rules E) (j : Nat) :
    (machine rules).Mirrors (Alike v j) (Act.Alike v j) := by
  rintro d e a b d' ⟨l, m, hl, hlm, rfl⟩ hab hstep
  cases hab with
  | @scan a b hab =>
    have hfree : freely b = freely a := by
      cases hab with
      | same => rfl
      | sitting hab => cases hab <;> rfl
    simp only [machine, step] at hstep ⊢
    rw [hfree]
    split_ifs at hstep ⊢
    obtain ⟨n, hn, hstep⟩ := Option.bind_eq_some_iff.mp hstep
    obtain ⟨o, e', ho, he', halike⟩ := within_alike hl hlm (.inr ⟨rfl, hab⟩) hn hstep
    exact ⟨e', Option.bind_eq_some_iff.mpr ⟨o, ho, he'⟩, halike⟩
  | same =>
    by_cases hapart : a.apart = true
    · obtain ⟨hscans, hstep'⟩ := step_apart hapart hstep (d.scans.set j m)
      exact ⟨_, hstep', l, m, hscans ▸ hl, hlm, by rw [hscans]⟩
    · cases a with
      | proceed i =>
        obtain ⟨call, hcall, hstep⟩ := Option.bind_eq_some_iff.mp hstep
        obtain ⟨e', he', halike⟩ := proceed_alike hl hlm hstep
        exact ⟨e', Option.bind_eq_some_iff.mpr ⟨call, hcall, he'⟩, halike⟩
      | scan k a =>
        simp only [machine, step] at hstep ⊢
        split_ifs at hstep ⊢
        obtain ⟨n, hn, hstep⟩ := Option.bind_eq_some_iff.mp hstep
        obtain ⟨o, e', ho, he', halike⟩ := within_alike hl hlm (.inl rfl) hn hstep
        exact ⟨e', Option.bind_eq_some_iff.mpr ⟨o, ho, he'⟩, halike⟩
      | watch i id fromSeq => exact watch_alike hl hlm hstep
      | _ => exact absurd rfl hapart

/-! ## The calls that write a report -/

/-- What a daemon and one alike answer to a reading. -/
def Told (v : Veil E) (j : Nat) : (q : Reading) → Reading.Answer E q → Reading.Answer E q → Prop
  | .get _, answer, answer' => answer = answer'
  | .report k, answer, answer' => Option.Rel v.report answer answer' ∧ (k ≠ j → answer = answer')
  | .redaction k, answer, answer' => answer = answer' ∧ (k = j → answer = .standard)

theorem Alike.told (h : Alike v j d e) (q : Reading) : Told v j q (answers rules d q) (answers rules e q) := by
  obtain ⟨l, m, hl, hlm, rfl⟩ := h
  have hj : j < d.scans.length := (List.getElem?_eq_some_iff.mp hl).1
  cases q with
  | get id => rfl
  | report k =>
    simp only [Told, answers]
    by_cases hk : k = j
    · subst hk
      rw [hl, List.getElem?_set_self hj]
      exact ⟨hlm.sitting.scan.report, fun hne => absurd rfl hne⟩
    · rw [List.getElem?_set_ne (Ne.symm hk)]
      exact ⟨v.rel_report_refl _, fun _ => rfl⟩
  | redaction k =>
    simp only [Told, answers]
    by_cases hk : k = j
    · subst hk
      rw [hl, List.getElem?_set_self hj]
      exact ⟨hlm.sitting.scan.redaction.symm, fun _ => hlm.sitting.scan.masked⟩
    · rw [List.getElem?_set_ne (Ne.symm hk)]
      exact ⟨rfl, fun heq => absurd heq hk⟩

end Daemon

namespace Stdio

open Daemon (Told)
open Program (Related)

variable {v : Veil E} {j : Nat} {α : Type}

theorem related_ofExcept (p : Except Error α) :
    Related (Told v j) Eq (.ofExcept p : Reads E α) (.ofExcept p) := by
  cases p with
  | ok value => exact .ret rfl
  | error error => exact .fail error

theorem related_find (id : String) : Related (Told v j) Eq (find id : Reads E (Found E)) (find id) := by
  apply Related.ask
  rintro answer _ rfl
  exact related_ofExcept answer

theorem related_report (found : Found E) : Related (Told v j) (fun report report' =>
    Option.Rel v.report report report' ∧ (found ≠ .live j → report = report')) found.report found.report := by
  cases found with
  | recorded record => exact .ret ⟨v.rel_report_refl _, fun _ => rfl⟩
  | live k =>
    apply Related.ask
    rintro report report' ⟨hrel, hsame⟩
    exact .ret ⟨hrel, fun hne => hsame fun heq => hne (by rw [heq])⟩

theorem related_redaction (found : Found E) : Related (Told v j) (fun redaction redaction' =>
    redaction = redaction' ∧ (found = .live j → redaction = .standard)) found.redaction found.redaction := by
  cases found with
  | recorded record => exact .ret ⟨rfl, nofun⟩
  | live k =>
    apply Related.ask
    rintro redaction redaction' ⟨hsame, hmasked⟩
    refine .ret ⟨hsame, fun heq => hmasked ?_⟩
    cases heq
    rfl

theorem document_standard (v : Veil E) {report report' : E.ScanReport} (h : v.report report report')
    (format : ExportFormat) :
    Export.document report' format .standard = Export.document report format .standard := by
  rw [Export.document, Export.document, v.exportReport _ _ _ h]

/-- An export comes to the same, masked by the scan's own setting where not by the call's. -/
theorem related_exportScan (asked : ExportRequest) :
    Related (Told v j) Eq (exportScan asked : Reads E ExportResponse) (exportScan asked) := by
  apply (related_find asked.scanId).bind
  rintro found _ rfl
  apply (related_report found).bind
  rintro report report' ⟨hrel, hsame⟩
  cases hrel with
  | none => exact .fail _
  | @some report report' hreport =>
    have hwritten : ∀ redaction, (found = .live j → redaction = .standard) →
        Export.document report' (Export.named asked.format) redaction =
          Export.document report (Export.named asked.format) redaction := by
      intro redaction hmasked
      by_cases hfound : found = .live j
      · rw [hmasked hfound]
        exact document_standard v hreport _
      · cases hsame hfound
        rfl
    dsimp only
    split_ifs
    · simp only [Program.ret_bind]
      rw [hwritten .standard fun _ => rfl]
      apply (related_ofExcept _).bind
      rintro document _ rfl
      exact .ret rfl
    · apply (related_redaction found).bind
      rintro redaction _ ⟨rfl, hmasked⟩
      rw [hwritten redaction hmasked]
      apply (related_ofExcept _).bind
      rintro document _ rfl
      exact .ret rfl

theorem related_finished (id : String) :
    Related (Told v j) v.report (finished id : Reads E E.ScanReport) (finished id) := by
  apply (related_find id).bind
  rintro found _ rfl
  apply (related_report found).bind
  rintro report report' ⟨hrel, -⟩
  cases hrel with
  | none => exact .fail _
  | some hreport => exact .ret hreport

theorem related_collect (ids : List String) : Related (Told v j)
    (List.Forall₂ fun one other => one.1 = other.1 ∧ v.report one.2 other.2)
    (collect ids : Reads E (List (String × E.ScanReport))) (collect ids) := by
  induction ids with
  | nil => exact .ret .nil
  | cons id rest ih =>
    apply (related_finished id).bind
    intro report report' hreport
    apply ih.bind
    intro reports reports' hreports
    exact .ret (.cons ⟨rfl, hreport⟩ hreports)

theorem related_folded (asked : MergeRequest) (h : asked.redact = some true) :
    Related (Told v j) Eq (folded asked : Reads E ExportResponse) (folded asked) := by
  unfold folded
  by_cases hfew : asked.scanIds.length < 2
  · rw [if_pos hfew]
    exact .fail _
  · rw [if_neg hfew, h, Option.getD_some]
    apply (related_collect asked.scanIds).bind
    intro reports reports' hreports
    dsimp only
    rw [if_pos rfl, Export.folded, Export.folded, document_standard v (v.merge _ _ hreports)]
    apply (related_ofExcept _).bind
    rintro document _ rfl
    exact .ret rfl

end Stdio

/-! ## What shows a scan -/

/-- What a client can ask that shows what a live scan found. -/
inductive Showing
  | watch
  | report (asked : ReportCall)

namespace Showing

/-- Shows a scan masked, or says nothing of it. -/
def Masks : Showing → Prop
  | .watch => True
  | .report (.exporting _) => True
  | .report (.diffing _) => False
  | .report (.merging asked) => asked.redact = some true ∨ asked.scanIds.length < 2

/-- Shows the same of a scan that is masked whatever is masked of it: watches over whole runs, a call that
writes a report whenever in a run its readings are answered. -/
def Veiled : Showing → Prop
  | .watch => ∀ (E : Engine) (v : Veil E) (rules : Rules E) (j : Nat) (d e d' : Daemon E)
      (acts acts' : List (Daemon.Act E)), d.Alike v j e → List.Forall₂ (Daemon.Act.Alike v j) acts acts' →
      (Daemon.machine rules).run d acts = some d' → ∃ e', (Daemon.machine rules).run e acts' = some e' ∧
        e'.watches = d'.watches ∧ e'.scans.map Live.clients = d'.scans.map Live.clients
  | .report asked => ∀ (E : Engine) (v : Veil E) (rules : Rules E) (j : Nat) (d e : Nat → Daemon E),
      (∀ n, (d n).Alike v j (e n)) → asked.program.along (fun n => (d n).answers rules) 0 =
        asked.program.along (fun n => (e n).answers rules) 0

end Showing

/-! ## An engine that masks -/

namespace Plain

/-- A host as it is written: by its address where it is masked, else by its name. -/
def shown : Redaction → Nat × String → String
  | .standard, host => toString host.1
  | .none, host => host.2

/-- The plain engine, the text of a host being its name: masked, only addresses are written. -/
abbrev naming : Engine := { engine with
  document := fun redaction host => some (shown redaction host)
  exportReport := fun _ redaction report => .ok (String.join (report.map (shown redaction))).toUTF8
  exportDiff := fun _ _ current => .ok (String.join (current.map Prod.snd)).toUTF8 }

theorem map_shown {r s : List (Nat × String)} (h : r.map Prod.fst = s.map Prod.fst) :
    r.map (shown .standard) = s.map (shown .standard) := by
  have hcomp : shown .standard = toString ∘ Prod.fst := rfl
  rw [hcomp, ← List.map_map, ← List.map_map, h]

/-- The names are what is masked. -/
def names : Veil naming where
  host x y := x.1 = y.1
  report r s := r.map Prod.fst = s.map Prod.fst
  host_refl _ := rfl
  report_refl _ := rfl
  scopedIp _ _ h := h
  document x y h := by
    show some (toString x.1) = some (toString y.1)
    rw [h]
  exportReport r s writer h := by
    show Except.ok _ = Except.ok _
    rw [map_shown h]
  merge rs ss h := by
    show List.map Prod.fst (List.flatten _) = List.map Prod.fst (List.flatten _)
    induction h with
    | nil => rfl
    | cons hrs _ ih => rw [List.map_cons, List.map_cons, List.flatten_cons, List.flatten_cons, List.map_append,
        List.map_append, hrs.2, ih]

/-- A scan handed out masked, its report one host of this name. -/
def reported (name : String) : Live naming :=
  let sitting : Sitting naming := .fresh "A" ⟨.discovery, none, none⟩ .standard
  .start { sitting with scan := { sitting.scan with report := some [(10, name)] } }

/-- A daemon in which every name stands for that scan. -/
def reporting (name : String) : Daemon naming :=
  { Daemon.fresh (.ok []) with inner := fun _ => some 0, scans := [reported name] }

theorem alike_reporting (name name' : String) : (reporting name).Alike names 0 (reporting name') := by
  refine ⟨reported name, reported name', rfl, ⟨⟨⟨rfl, rfl, .nil, rfl, rfl, rfl, rfl, ?_⟩, rfl, rfl, .none,
    .same .unborn, rfl, rfl, rfl⟩, rfl⟩, rfl⟩
  exact .some rfl

variable (rules : Rules naming) (name : String)

theorem eval_finished (id : String) :
    (Stdio.finished id : Reads naming _).eval ((reporting name).answers rules) = .ok [(10, name)] := rfl

theorem eval_collect (ids : List String) :
    (Stdio.collect ids : Reads naming _).eval ((reporting name).answers rules) =
      .ok (ids.map fun id => (id, [(10, name)])) := by
  induction ids with
  | nil => rfl
  | cons id rest ih =>
    rw [Stdio.collect, Program.eval_bind, eval_finished]
    show Program.eval _ (Stdio.collect rest >>= _) = _
    rw [Program.eval_bind, ih]
    rfl

theorem asText_toUTF8 (text what : String) : Export.asText (.ok text.toUTF8) what = .ok text := by
  have hvalid : String.fromUTF8? text.toUTF8 = some text := by
    unfold String.fromUTF8?
    exact dif_pos text.isValidUTF8
  rw [Export.asText, hvalid]

theorem eval_diffing (asked : DiffRequest) :
    (ReportCall.diffing asked).program.eval ((reporting name).answers rules) =
      .ok (.inr ⟨name, number (Export.compared asked.format)⟩) := by
  have hdocument : Export.comparison (E := naming) [(10, name)] [(10, name)] (Export.compared asked.format) =
      .ok name := by
    show Export.asText (.ok (String.join [name]).toUTF8) _ = _
    rw [asText_toUTF8, String.join_cons, String.join_nil, String.append_empty]
  show Program.eval _ (Sum.inr <$> Stdio.difference asked) = _
  rw [map_eq_pure_bind, Program.eval_bind, Stdio.difference]
  show ((Program.ofExcept (Export.comparison (E := naming) [(10, name)] [(10, name)] _) >>= _).eval _ >>= _) = _
  rw [hdocument]
  rfl

theorem eval_merging (asked : MergeRequest) (hmasked : asked.redact ≠ some true)
    (hmany : ¬ asked.scanIds.length < 2) :
    (ReportCall.merging asked).program.eval ((reporting name).answers rules) =
      .ok (.inl ⟨String.join (asked.scanIds.map fun _ => name), number (Export.named asked.format)⟩) := by
  have hredact : asked.redact.getD false = false := by
    cases hasked : asked.redact with
    | none => rfl
    | some redact =>
      cases redact with
      | false => rfl
      | true => exact absurd hasked hmasked
  have hfolded : Export.folded (E := naming) (asked.scanIds.map fun id => (id, [(10, name)])) =
      asked.scanIds.map fun _ => (10, name) := by
    show List.flatten _ = _
    rw [List.map_map]
    generalize asked.scanIds = ids
    induction ids with
    | nil => rfl
    | cons id rest ih =>
      rw [List.map_cons, List.flatten_cons, ih]
      rfl
  have hdocument : Export.document (E := naming) (asked.scanIds.map fun _ => (10, name))
      (Export.named asked.format) .none = .ok (String.join (asked.scanIds.map fun _ => name)) := by
    show Export.asText (.ok (String.join _).toUTF8) _ = _
    rw [asText_toUTF8, List.map_map]
    rfl
  show Program.eval _ (Sum.inl <$> Stdio.folded asked) = _
  rw [map_eq_pure_bind, Program.eval_bind, Stdio.folded, if_neg hmany, hredact, Program.eval_bind, eval_collect]
  show ((Program.ofExcept (Export.document (E := naming) (Export.folded _) _ .none) >>= _).eval _ >>= _) = _
  rw [hfolded, hdocument]
  rfl

end Plain

namespace Showing

open Program (Related)

variable {v : Veil E} {j : Nat}

theorem veiled_of_related {asked : ReportCall} (h : ∀ {E : Engine} (v : Veil E) (j : Nat),
    Related (Daemon.Told v j) Eq (asked.program : Reads E _) asked.program) : (report asked).Veiled := by
  intro E v rules j d e halike
  exact (h v j).along_eq (fun n => (halike n).told) 0

theorem veiled_watch : watch.Veiled := by
  intro E v rules j d e d' acts acts' halike hacts hrun
  obtain ⟨e', hrun', l, m, hl, hlm, rfl⟩ := (Daemon.mirrors v rules j).run hacts halike hrun
  refine ⟨_, hrun', rfl, ?_⟩
  have hclients : (d'.scans.map Live.clients)[j]? = some m.clients := by
    rw [List.getElem?_map, hl, Option.map_some, hlm.clients]
  obtain ⟨hj, hget⟩ := List.getElem?_eq_some_iff.mp hclients
  show (d'.scans.set j m).map Live.clients = _
  rw [List.map_set, ← hget, List.set_getElem_self]

theorem veiled_export (asked : ExportRequest) : (report (.exporting asked)).Veiled := by
  apply veiled_of_related
  intro E v j
  show Related _ Eq (Sum.inl <$> Stdio.exportScan asked) (Sum.inl <$> Stdio.exportScan asked)
  rw [map_eq_pure_bind]
  apply (Stdio.related_exportScan asked).bind
  rintro response _ rfl
  exact .ret rfl

theorem veiled_merge {asked : MergeRequest} (h : asked.redact = some true ∨ asked.scanIds.length < 2) :
    (report (.merging asked)).Veiled := by
  apply veiled_of_related
  intro E v j
  show Related _ Eq (Sum.inl <$> Stdio.folded asked) (Sum.inl <$> Stdio.folded asked)
  rw [map_eq_pure_bind]
  rcases h with hredact | hfew
  · apply (Stdio.related_folded asked hredact).bind
    rintro response _ rfl
    exact .ret rfl
  · rw [Stdio.folded, if_pos hfew]
    exact .fail _

theorem eval_of_veiled {asked : ReportCall} (h : (report asked).Veiled) (rules : Rules Plain.naming) :
    asked.program.eval ((Plain.reporting "a").answers rules) =
      asked.program.eval ((Plain.reporting "b").answers rules) := by
  have hsame := h Plain.naming Plain.names rules 0 (fun _ => Plain.reporting "a")
    (fun _ => Plain.reporting "b") fun _ => Plain.alike_reporting "a" "b"
  rwa [Program.along_const, Program.along_const] at hsame

/-- A daemon of the naming engine that may scan what it likes and writes nothing down. -/
def atHome : Rules Plain.naming where
  root := false
  scope := ⟨none, Plain.naming.newSet⟩
  audit := ⟨false⟩
  ceiling := none
  ceiling_le := Rules.none_le

/-- **A masked scan stays masked in what shows it, but for a comparison and a fold that does not ask for the
masking itself.** -/
theorem veiled_iff (showing : Showing) : showing.Veiled ↔ showing.Masks := by
  cases showing with
  | watch => exact ⟨fun _ => trivial, fun _ => veiled_watch⟩
  | report asked =>
    cases asked with
    | exporting asked => exact ⟨fun _ => trivial, fun _ => veiled_export asked⟩
    | diffing asked =>
      refine ⟨fun hveiled => ?_, nofun⟩
      have hsame := eval_of_veiled hveiled atHome
      rw [Plain.eval_diffing, Plain.eval_diffing] at hsame
      simp at hsame
    | merging asked =>
      refine ⟨fun hveiled => ?_, veiled_merge⟩
      by_contra hmasks
      obtain ⟨hmasked, hmany⟩ := not_or.mp hmasks
      have hsame := eval_of_veiled hveiled atHome
      rw [Plain.eval_merging _ _ asked hmasked hmany, Plain.eval_merging _ _ asked hmasked hmany] at hsame
      simp only [Except.ok.injEq, Sum.inl.injEq, ExportResponse.mk.injEq, and_true] at hsame
      have htext := congrArg String.toList hsame
      rw [String.toList_join, String.toList_join] at htext
      cases hids : asked.scanIds with
      | nil => exact hmany (by simp [hids])
      | cons id rest => simp [hids] at htext

end Showing

namespace Plain

/-- All a start of a port scan asks at home, its scan to be called `name`. -/
def atHome (name : String) : (q : Query naming) → Option q.Answer
  | .resolverFromSystem => some ()
  | .resolveTargets .. => some (.ok [])
  | .forExclusion .. => some (.ok [])
  | .mint => some name
  | .now => some 0
  | .scan .. => some (.ok ⟨.discovery, none, none⟩)
  | _ => none

/-- The call `i` starts a scan called `name`. -/
def started (i : Nat) (name : String) (redact : Option Bool) : List (Daemon.Act naming) :=
  [.arrive (.start { targets := ["10"], settings := some { redact := redact } }), .reserve i false,
    .reserve i false] ++ List.replicate 6 (.answer i (atHome name)) ++ List.replicate 3 (.proceed i)

/-- The scan `j` finds what it reports and is over. -/
def ends (j : Nat) (report : List (Nat × String)) : List (Daemon.Act naming) :=
  report.map (fun host => .scan j (.sitting (.update host))) ++
    [.scan j (.sitting .hangUp), .scan j (.sitting (.finish (.ok report)))] ++
    List.replicate 9 (.scan j (.sitting .follow))

/-- A scan that is to be masked and one that is not, both at work. -/
def bothStarted : List (Daemon.Act naming) := started 0 "A" (some true) ++ started 1 "B" none

theorem bothStarted_isSome :
    ((Daemon.machine Showing.atHome).run (Daemon.fresh (.ok [])) bothStarted).isSome := by decide +kernel

def bothGoing : Daemon naming :=
  ((Daemon.machine Showing.atHome).run (Daemon.fresh (.ok [])) bothStarted).get bothStarted_isSome

/-- The masked scan finds a host of this name, the other nothing. -/
def found (name : String) : List (Daemon.Act naming) := ends 0 [(10, name)] ++ ends 1 []

theorem found_isSome : ((Daemon.machine Showing.atHome).run bothGoing (found "ann")).isSome ∧
    ((Daemon.machine Showing.atHome).run bothGoing (found "bob")).isSome := by
  constructor
  · decide +kernel
  · decide +kernel

def foundAnn : Daemon naming := ((Daemon.machine Showing.atHome).run bothGoing (found "ann")).get found_isSome.1
def foundBob : Daemon naming := ((Daemon.machine Showing.atHome).run bothGoing (found "bob")).get found_isSome.2

/-- The document a call comes to. -/
def written (d : Daemon naming) (asked : ReportCall) : Option String :=
  match asked.program.eval (d.answers Showing.atHome) with
  | .ok (.inl response) => some response.document
  | .ok (.inr response) => some response.document
  | .error _ => none

theorem alike_found : foundAnn.Alike names 0 foundBob := by
  have hmasked : (bothGoing.scans[0]?).map (fun l => l.sitting.scan.redaction) = some .standard := by
    decide +kernel
  obtain ⟨l, hl, hmasked⟩ := Option.map_eq_some_iff.mp hmasked
  have hgoing : bothGoing.Alike names 0 bothGoing := .refl names hl hmasked
  have hacts : List.Forall₂ (Daemon.Act.Alike names 0) (found "ann") (found "bob") := by
    refine .cons (.scan (.sitting (.update rfl))) (.cons (.same _) (.cons ?_ ?_))
    · exact .scan (.sitting (.finish (.ok rfl)))
    · exact List.forall₂_same.mpr fun a _ => .same a
  obtain ⟨e, he, halike⟩ := (Daemon.mirrors names Showing.atHome 0).run hacts hgoing
    (Option.some_get found_isSome.1).symm
  cases (Option.some_get found_isSome.2).trans he
  exact halike

/-- Two scans, the first to be masked, are over, and in its report there is a host of one name or of another:
an export says the same of both, a comparison and a fold say which. -/
theorem not_veiled :
    (Daemon.machine Showing.atHome).Reach Machine.Always (Daemon.fresh (.ok [])) foundAnn ∧
    (Daemon.machine Showing.atHome).Reach Machine.Always (Daemon.fresh (.ok [])) foundBob ∧
    foundAnn.Alike names 0 foundBob ∧
    written foundAnn (.exporting ⟨"A", 0, none⟩) = some "10" ∧
    written foundBob (.exporting ⟨"A", 0, none⟩) = some "10" ∧
    written foundAnn (.diffing ⟨"B", "A", 0⟩) = some "ann" ∧
    written foundBob (.diffing ⟨"B", "A", 0⟩) = some "bob" ∧
    written foundAnn (.merging ⟨["A", "B"], 0, none⟩) = some "ann" ∧
    written foundBob (.merging ⟨["A", "B"], 0, none⟩) = some "bob" := by
  have hgoing := Machine.Reach.of_run (Option.some_get bothStarted_isSome).symm
  refine ⟨hgoing.trans (.of_run (Option.some_get found_isSome.1).symm),
    hgoing.trans (.of_run (Option.some_get found_isSome.2).symm), alike_found, ?_, ?_, ?_, ?_, ?_, ?_⟩
  all_goals decide +kernel

end Plain

end ZondDaemon
