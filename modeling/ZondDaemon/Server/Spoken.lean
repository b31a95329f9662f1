import ZondDaemon.Server.Looked

/-!
# Nothing the daemon has to say is unspeakable

`json!` panics where a message does not serialise, and a message serialises just where its enum fields hold
numbers the schema declares. Every event a live scan or a record has for a watch does (`Outside.Speaks`), and so
does every answer a method comes to (`Answer.Known`), so no task is ever lost to a panic there (`never_mute`).
-/

namespace ZondDaemon

open Proto
open Stdio (declared_number)

variable {E : Engine}

namespace Outside

/-- The enum fields of the event hold numbers the schema declares. -/
def Speaks (o : Outside E) (event : Event E.ScopedIp) : Prop :=
  ∀ body ∈ event.body, (body.shown o.shown).Known

variable {o : Outside E} {events : List (Event E.ScopedIp)} {event : Event E.ScopedIp}

theorem isSome_spoken : (o.spoken event).isSome ↔ o.Speaks event := by
  rw [spoken, Option.isSome_map, Writer.sorted, Option.isSome_map, Event.isSome_write]
  simp [Speaks, Event.shown]

theorem isSome_mapM_spoken (h : ∀ event ∈ events, o.Speaks event) : (events.mapM o.spoken).isSome := by
  induction events with
  | nil => rfl
  | cons event left ih =>
    obtain ⟨said, hsaid⟩ := Option.isSome_iff_exists.mp (isSome_spoken.mpr (h event List.mem_cons_self))
    obtain ⟨rest, hrest⟩ := Option.isSome_iff_exists.mp
      (ih fun other hother => h other (List.mem_cons_of_mem _ hother))
    simp [hsaid, hrest]

end Outside

variable {o : Outside E}

/-! ## What a scan has to say -/

theorem Sitting.known_of_takes {s : Sitting E} {body : Body E.ScopedIp} {next : Next} (h : s.Takes body next) :
    (body.shown o.shown).Known := by
  cases h with
  | stage => exact declared_number _
  | failure | host => trivial
  | progress => exact declared_number _
  | finished => exact declared_number _

theorem Scan.speaks_snapshotAt {scan : Scan E} {seq : Nat} : ∀ event ∈ scan.snapshotAt seq, o.Speaks event := by
  intro event hevent body hbody
  rcases List.mem_append.mp hevent with hevent | hevent
  · obtain ⟨host, -, hdocument⟩ := List.mem_filterMap.mp hevent
    obtain ⟨document, -, rfl⟩ := Option.map_eq_some_iff.mp hdocument
    cases hbody
    trivial
  · obtain rfl := List.mem_singleton.mp hevent
    cases hbody
    exact declared_number _

theorem Recorded.speaks_hosts {record : Recorded E} {store : Except EngineError (List (Entry E.toEngineTypes))}
    {id : String} (h : Recorded.read store id = .ok record) : ∀ event ∈ record.hosts, o.Speaks event := by
  intro event hevent body hbody
  unfold Recorded.read at h
  split at h
  · cases h
  · split at h
    · cases h
    · split at h <;> cases h
      obtain ⟨index, host, -, heq⟩ := Recorded.mem_hosts.mp hevent
      obtain ⟨document, -, rfl⟩ := Option.map_eq_some_iff.mp heq
      cases hbody
      trivial

/-- What a watch has got out of its scan and not said yet. -/
def WatchPc.unsaid : WatchPc E → List (Event E.ScopedIp)
  | .saying left _ => left
  | .tailing _ (.read _ entries) => entries
  | .tailing _ (.returned entries) => entries
  | .telling left _ => left
  | _ => []

namespace Watch

variable {w w' : Watch E}

def Speaks (o : Outside E) (w : Watch E) : Prop := ∀ event ∈ w.pc.unsaid, o.Speaks event

theorem speaks_call (fromSeq : Nat) : (call fromSeq : Watch E).Speaks o := by
  intro event hevent
  unfold call at hevent
  dsimp only at hevent
  split_ifs at hevent <;> cases hevent

theorem unsaid_after {scan : Scan E} {cursor : Nat} {one other : After E}
    (h : one.step scan cursor = some other) :
    ∀ event ∈ (WatchPc.tailing cursor other : WatchPc E).unsaid,
      event ∈ (WatchPc.tailing cursor one : WatchPc E).unsaid ∨ event ∈ scan.log.entries := by
  intro event hevent
  cases one with
  | starting =>
    cases h
    cases hevent
  | noted waiting =>
    cases h
    exact .inr (Log.mem_after.mp hevent).1
  | read waiting entries =>
    simp only [After.step] at h
    split_ifs at h
    · cases h
      exact .inl hevent
    · cases h
      cases hevent
  | asleep waiting =>
    simp only [After.step] at h
    split_ifs at h
    cases h
    cases hevent
  | returned entries => cases h

theorem speaks_step {scan : Scan E} (hentries : ∀ event ∈ scan.log.entries, o.Speaks event) (hw : w.Speaks o)
    (h : w.step scan = some w') : w'.Speaks o := by
  obtain ⟨fromSeq, pc, written, start, caughtUp⟩ := w
  cases pc with
  | opening | ending =>
    cases h
    exact fun _ hevent => by cases hevent
  | marked seq =>
    cases h
    exact Scan.speaks_snapshotAt
  | saying left cursor | telling left cursor =>
    cases left with
    | nil =>
      cases h
      exact fun _ hevent => by cases hevent
    | cons event left =>
      cases h
      exact fun other hother => hw other (List.mem_cons_of_mem _ hother)
  | tailing cursor one =>
    cases one with
    | returned entries =>
      cases entries with
      | nil =>
        cases h
        exact fun _ hevent => by cases hevent
      | cons event left =>
        cases h
        exact hw
    | starting | noted | read | asleep =>
      simp only [step, Option.map_eq_some_iff] at h
      obtain ⟨other, hother, rfl⟩ := h
      intro event hevent
      rcases unsaid_after hother event hevent with hold | hnew
      · exact hw event hold
      · exact hentries event hnew
  | ended => cases h

theorem speaks_recorded {record : Recorded E} (hhosts : ∀ event ∈ record.hosts, o.Speaks event)
    (hw : w.Speaks o) (h : record.step w = some w') : w'.Speaks o := by
  obtain ⟨fromSeq, pc, written, start, caughtUp⟩ := w
  cases pc with
  | opening =>
    cases h
    exact hhosts
  | ending =>
    cases h
    exact fun _ hevent => by cases hevent
  | marked | ended => cases h
  | saying left cursor | telling left cursor =>
    cases left with
    | nil =>
      cases h
      exact fun _ hevent => by cases hevent
    | cons event left =>
      cases h
      exact fun other hother => hw other (List.mem_cons_of_mem _ hother)
  | tailing cursor one =>
    cases one with
    | returned entries =>
      cases entries with
      | nil =>
        cases h
        exact fun _ hevent => by cases hevent
      | cons event left =>
        cases h
        exact hw
    | starting | noted | read | asleep =>
      cases h
      exact fun _ hevent => by cases hevent

end Watch

namespace Live

variable {l m : Live E} {a : Act E}

/-- Everything a live scan has said or is about to say can be said, and what its readers have got of it. -/
structure Speaks (o : Outside E) (l : Live E) : Prop where
  spoken : ∀ body ∈ l.sitting.spoken, (body.shown o.shown).Known
  watching : ∀ i w, (l.clients i).watching = some w → w.Speaks o

theorem Speaks.entries (h : l.Speaks o) : ∀ event ∈ l.log.entries, o.Speaks event := by
  intro event hevent body hbody
  exact h.spoken body (List.mem_append_left _ (List.mem_filterMap.mpr ⟨event, hevent, hbody⟩))

theorem Speaks.step (hl : l.Speaks o) (h : l.step a = some m) : m.Speaks o := by
  rcases step_cases h with ⟨act, sitting, -, hs, rfl⟩ | ⟨i, c, rfl, -, hc⟩
  · refine ⟨fun body hbody => ?_, hl.watching⟩
    rcases Sitting.step_spoken hs with ⟨heq, -⟩ | ⟨new, next, htakes, heq, -⟩
    · exact hl.spoken body (heq ▸ hbody)
    · rw [heq] at hbody
      rcases List.mem_append.mp hbody with hbody | hbody
      · exact hl.spoken body hbody
      · rw [List.mem_singleton.mp hbody]
        exact Sitting.known_of_takes htakes
  · refine ⟨hl.spoken, fun k w hw => ?_⟩
    by_cases hk : k = i
    · subst hk
      rw [clients_set_self] at hw
      rcases hc with ⟨cursor, rfl⟩ | ⟨fromSeq, rfl⟩ | hstep | ⟨v, hv, rfl⟩
      · cases hw
      · cases hw
        exact Watch.speaks_call fromSeq
      · cases hclient : l.clients k with
        | idle | lost =>
          rw [hclient] at hstep
          cases hstep
        | after cursor call =>
          rw [hclient] at hstep
          obtain ⟨call', -, rfl⟩ := Option.map_eq_some_iff.mp hstep
          cases hw
        | watch v =>
          rw [hclient] at hstep
          obtain ⟨v', hv', rfl⟩ := Option.map_eq_some_iff.mp hstep
          cases hw
          exact Watch.speaks_step hl.entries (hl.watching k v (by rw [hclient]; rfl)) hv'
      · cases hw
        exact hl.watching k w (by rw [hv]; rfl)
    · refine hl.watching k w ?_
      rwa [clients_set_ne hk] at hw

theorem reach_speaks {P : Live E → Act E → Prop} {scanId : String} {progress : Engine.Progress}
    {redaction : Redaction} (h : (machine E).Reach P (start (.fresh scanId progress redaction)) l) :
    l.Speaks o := by
  refine h.invariant (I := Speaks o) ⟨fun body hbody => ?_, fun _ _ hw => by cases hw⟩ fun _ ht _ hstep =>
    ht.step hstep
  cases hbody

end Live

namespace Daemon

variable {rules : Rules E} {d d' : Daemon E} {a : Act E}
  {store : Except EngineError (List (Entry E.toEngineTypes))}

theorem recorded_speaks (h : Later rules (fresh store) d) : ∀ v ∈ d.watches,
    (∀ event ∈ v.recorded.hosts, o.Speaks event) ∧ v.watch.Speaks o := by
  refine h.invariant (I := fun d => ∀ v ∈ d.watches,
    (∀ event ∈ v.recorded.hosts, o.Speaks event) ∧ v.watch.Speaks o) (fun _ hv => by cases hv) ?_
  intro t u act _ ht _ hstep v hv
  cases moves_of_step hstep with
  | opens _ hread =>
    rcases List.mem_append.mp hv with hv | hv
    · exact ht v hv
    · rw [List.mem_singleton.mp hv]
      exact ⟨Recorded.speaks_hosts hread, Watch.speaks_call _⟩
  | reads hk hread =>
    rcases List.mem_or_eq_of_mem_set hv with hv | rfl
    · exact ht v hv
    · obtain ⟨hhosts, hwatch⟩ := ht _ (List.mem_of_getElem? hk)
      exact ⟨hhosts, Watch.speaks_recorded hhosts hwatch hread⟩
  | _ => exact ht v hv

/-! ## What a method comes to -/

/-- What is known of the answer to a look: the numbers in it are the schema's. -/
def Sane : (q : Look) → q.Answer E → Prop
  | .progress _, reached => Declared Stage reached.stage
  | .list _, .ok scans => (Answer.listing ⟨scans⟩).Known
  | _, _ => True

/-- An outcome that is an error, or a value of which `P` is true. -/
def Ok {α : Type} (P : α → Prop) (out : Except Error α) : Prop := ∀ value, out = .ok value → P value

theorem sane_of_looks {effect : Effect E} {q : Look} {answer : q.Answer E}
    (h : d.looks rules effect q = some answer) : Sane q answer := by
  cases q with
  | progress j =>
    obtain ⟨l, -, rfl⟩ := Option.map_eq_some_iff.mp h
    exact declared_number _
  | list limit =>
    obtain rfl := Option.some.inj h
    cases hlist : d.list rules limit with
    | error refused => trivial
    | ok scans =>
      intro entry hentry
      unfold list at hlist
      split at hlist
      · split at hlist
        · cases hlist
        · cases hlist
          obtain ⟨recorded, -, rfl⟩ := List.mem_map.mp hentry
          exact ⟨declared_number _, declared_number _⟩
      · cases hlist
        cases hentry
  | reading | name | closed | stopped | watermark | stop | prune => trivial

end Daemon

namespace Stdio

open Daemon (Sane Ok)

theorem assuming_reads {α : Type} {P : Except Error α → Prop} {p : Reads E α}
    (h : p.Assuming (fun _ _ => True) P) : (Look.reads p).Assuming Sane P := by
  induction p with
  | ret value => exact h
  | fail error => exact h
  | ask q k ih => exact fun answer _ => ih answer (h answer trivial)

theorem ok_error {α : Type} {P : α → Prop} (error : Error) : Ok P (.error error) := fun _ heq => by cases heq

theorem known_ret {α : Type} {P : α → Prop} {value : α} (h : P value) :
    Program.Assuming (Sane (E := E)) (Ok P) (.ret value) := by
  intro other heq
  cases heq
  exact h

theorem known_map {Q : Type} {A : Q → Type} {R : (q : Q) → A q → Prop} {α β : Type} {P : α → Prop}
    {P' : β → Prop} {f : α → β} {p : Program Q A Error α} (h : p.Assuming R (Ok P))
    (hf : ∀ value, P value → P' (f value)) :
    (f <$> p).Assuming R (Ok P') := by
  refine Program.Assuming.map (h.mono ?_)
  rintro (error | value) hout
  · exact ok_error error
  · rintro _ heq
    cases heq
    exact hf value (hout value rfl)

theorem known_state (scan : Found E) : scan.state.Assuming Sane (Ok fun st => (Answer.state st).Known) := by
  cases scan with
  | recorded record =>
    apply known_ret
    refine ⟨fun cause hcause => (by cases hcause), fun reached hreached => ?_⟩
    cases hreached
    exact declared_number _
  | live j =>
    intro scanId _ closed _
    cases closed with
    | false =>
      intro progress hprogress seq _
      apply known_ret
      refine ⟨fun cause hcause => (by cases hcause), fun reached hreached => ?_⟩
      cases hreached
      exact hprogress
    | true =>
      intro stopped _ progress hprogress seq _
      apply known_ret
      refine ⟨fun cause hcause => ?_, fun reached hreached => ?_⟩
      · cases hcause
        exact declared_number _
      · cases hreached
        exact hprogress

theorem known_found {α : Type} {P : α → Prop} {id : String} {f : Found E → Looks E α}
    (h : ∀ scan, (f scan).Assuming Sane (Ok P)) : (named id >>= f).Assuming Sane (Ok P) := by
  intro answer _
  cases answer with
  | error refused => exact ok_error refused
  | ok scan => exact h scan

theorem known_get (id : String) : (get (E := E) id).Assuming Sane (Ok fun st => (Answer.state st).Known) :=
  known_found known_state

theorem known_stop (id : String) : (stop (E := E) id).Assuming Sane (Ok fun st => (Answer.state st).Known) := by
  refine known_found fun scan => ?_
  cases scan with
  | live j => exact fun _ _ => known_state (.live j)
  | recorded record => exact known_state (.recorded record)

theorem known_exportScan (asked : ExportRequest) :
    (exportScan (E := E) asked).Ensures (Ok fun response => Declared ExportFormat response.format) := by
  apply Program.Ensures.of_bind ok_error
  intro found
  apply Program.Ensures.of_bind ok_error
  intro report
  cases report with
  | none => exact ok_error _
  | some report =>
    have hend : ∀ redaction, Program.Ensures (Ok fun response => Declared ExportFormat response.format) (do
        let document ← Program.ofExcept (Export.document report (Export.named asked.format) redaction)
        return ⟨document, number (Export.named asked.format)⟩ : Reads E ExportResponse) := by
      intro redaction
      apply Program.Ensures.of_bind ok_error
      rintro document response heq
      cases heq
      exact declared_number _
    dsimp only
    split_ifs
    · exact hend .standard
    · exact Program.Ensures.of_bind ok_error hend

theorem known_folded (asked : MergeRequest) :
    (folded (E := E) asked).Ensures (Ok fun response => Declared ExportFormat response.format) := by
  unfold folded
  split_ifs
  · exact ok_error _
  all_goals
    apply Program.Ensures.of_bind ok_error
    intro reports
    apply Program.Ensures.of_bind ok_error
    rintro document response heq
    cases heq
    exact declared_number _

theorem known_difference (asked : DiffRequest) :
    (difference (E := E) asked).Ensures (Ok fun response => Declared DiffFormat response.format) := by
  apply Program.Ensures.of_bind ok_error
  intro baseline
  apply Program.Ensures.of_bind ok_error
  intro current
  apply Program.Ensures.of_bind ok_error
  rintro document response heq
  cases heq
  exact declared_number _

/-- **A method comes to nothing that cannot be written.** -/
theorem known_handler {rules : Rules E} {corpus : List Engine.Listed} {q : Asked E} {program : Looks E Answer}
    (h : handler rules corpus q = some program) : program.Assuming Sane (Ok Answer.Known) := by
  cases q with
  | get id =>
    cases h
    exact known_map (known_get id) fun _ hknown => hknown
  | stop id =>
    cases h
    exact known_map (known_stop id) fun _ hknown => hknown
  | detections =>
    cases h
    exact known_ret (detections_known corpus)
  | report call =>
    cases h
    refine known_map (P := fun response => (written response).Known) (assuming_reads ?_) fun _ hknown => hknown
    cases call with
    | exporting asked => exact known_map (known_exportScan asked).assuming fun _ hknown => hknown
    | diffing asked => exact known_map (known_difference asked).assuming fun _ hknown => hknown
    | merging asked => exact known_map (known_folded asked).assuming fun _ hknown => hknown
  | prune asked =>
    cases h
    refine known_map (P := fun _ => True) ?_ fun _ _ => trivial
    unfold prune
    split_ifs
    · intro answer _
      cases answer with
      | ok pruned => exact known_ret trivial
      | error refused => exact ok_error _
    · exact known_ret trivial
  | list limit =>
    cases h
    refine known_map (P := fun response => (Answer.listing response).Known) ?_ fun _ hknown => hknown
    intro answer hanswer
    cases answer with
    | ok scans => exact known_ret hanswer
    | error refused => exact ok_error _
  | call | watch => cases h

end Stdio

namespace Server

open Daemon (Later Sane Ok)

variable {rules : Rules E} {s : Server E} {who : Nat × Nat} {a : Stdio.Answering E}
  {P : Server E → Act E → Prop} {store : Except EngineError (List (Entry E.toEngineTypes))}

theorem reach_known (h : (machine o rules).Reach P (fresh store) s) (ha : s.task who = some a) :
    ∀ program, s.links who = .look program → program.Assuming Sane (Ok Answer.Known) := by
  refine each_of_reach (I := fun _ _ link _ _ => ∀ program, link = .look program →
    program.Assuming Sane (Ok Answer.Known)) .refl (fun _ _ hnone => by cases hnone) ?_ ?_ ?_ ?_ h ha
  · exact fun _ _ _ _ hlink => by cases hlink
  · exact fun _ _ _ hkept => hkept
  · intro d d' who link b b' frames more act x _ hdeal _ _ hkept program hx
    cases hdeal with
    | begins _ _ hprogram =>
      cases hx
      exact Stdio.known_handler hprogram
    | looks hlink hanswer =>
      cases hx
      exact hkept _ hlink _ (Daemon.sane_of_looks hanswer)
    | calls | misses | finds | opens | answers => cases hx
    | proceeds | follows | writes | flushes | aborts | watches => exact hkept program hx
  · exact fun _ _ _ hkept => hkept

theorem isSome_framed {answer : Except Error Answer} (h : Ok Answer.Known answer) : (framed answer).isSome := by
  cases answer with
  | error refused => rfl
  | ok answer =>
    rw [framed, Option.isSome_map, Writer.sorted, Option.isSome_map, Answer.isSome_write]
    exact h answer rfl

theorem isSome_heard {w : Watch E} (h : w.Speaks o) : (heard o w.pc).isSome := by
  obtain ⟨fromSeq, pc, written, start, caughtUp⟩ := w
  cases pc with
  | saying | telling =>
    rw [heard, Option.isSome_map]
    exact Outside.isSome_mapM_spoken h
  | opening | marked | tailing | ending | ended => rfl

/-- **No `json!` panics**: whatever a method comes back with can be put into a frame, and so can every event a
watch comes to, in every state the server reaches. -/
theorem never_mute (h : (machine o rules).Reach P (fresh store) s) :
    (∀ answer, back s.daemon (s.links who) = some answer → (framed answer).isSome) ∧
      ∀ w, next s.daemon who (s.links who) = some w → (heard o w.pc).isSome := by
  have hreach := daemon_reach h
  constructor
  · intro answer hback
    apply isSome_framed
    cases hlink : s.links who with
    | none | live | recorded =>
      rw [hlink] at hback
      cases hback
    | call i =>
      rw [hlink] at hback
      obtain ⟨call, -, hpc⟩ := Option.bind_eq_some_iff.mp hback
      split at hpc
      · obtain rfl := Option.some.inj hpc
        rename_i outcome _
        cases outcome with
        | ok name =>
          rintro _ heq
          cases heq
          trivial
        | error refused => exact Stdio.ok_error refused
      · cases hpc
    | look program =>
      cases htask : s.task who with
      | none =>
        rw [((reach_apart h).unspawned who htask).1] at hlink
        cases hlink
      | some a =>
        have hknown := reach_known h htask program hlink
        rw [hlink] at hback
        cases program with
        | ret value | fail error =>
          cases hback
          exact hknown
        | ask => cases hback
  · intro w hnext
    apply isSome_heard
    cases hlink : s.links who with
    | none | call | look =>
      rw [hlink] at hnext
      cases hnext
    | live j =>
      rw [hlink] at hnext
      obtain ⟨l, hl, hnext⟩ := Option.bind_eq_some_iff.mp hnext
      obtain ⟨v, hv, hstep⟩ := Option.bind_eq_some_iff.mp hnext
      obtain ⟨scanId, progress, redaction, hbegun⟩ := Daemon.scan_reach_always hreach hl
      have hspeaks := Live.reach_speaks (o := o) hbegun
      exact Watch.speaks_step hspeaks.entries (hspeaks.watching _ v hv) hstep
    | recorded k =>
      rw [hlink] at hnext
      obtain ⟨v, hv, hstep⟩ := Option.bind_eq_some_iff.mp hnext
      obtain ⟨hhosts, hwatch⟩ := Daemon.recorded_speaks (o := o) hreach v (List.mem_of_getElem? hv)
      exact Watch.speaks_recorded hhosts hwatch hstep

theorem never_mute_answered :
    (∀ answer, back answered.daemon (answered.links (0, 1)) = some answer → (framed answer).isSome) ∧
      ∀ w, next answered.daemon (1, 0) (answered.links (1, 0)) = some w → (heard plainOutside w.pc).isSome :=
  ⟨(never_mute (reach_started.trans reach_answered)).1, (never_mute (reach_started.trans reach_answered)).2⟩

end Server

end ZondDaemon
