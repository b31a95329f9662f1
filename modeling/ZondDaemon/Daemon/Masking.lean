import ZondDaemon.Daemon.Masked
import ZondDaemon.Daemon.Names
import ZondDaemon.Scans.Documented
import ZondDaemon.Start.Masking

/-!
# Which scans are masked

What `settings.redact` asks for is what the live scan is handed out under: from the pipeline of the call
(`masked_scan`) to the scan it builds, and from there for as long as the daemon holds the scan, to every watch
of it (`masked_of_started`).
-/

namespace ZondDaemon

open Proto

variable {E : Engine}

namespace Daemon

open Start (AsksMasked ComesMasked)

variable {rules : Rules E} {d d' : Daemon E} {a : Act E} {i j : Nat} {call : Call E} {l : Live E}

/-- A call that can only come to a scan that is masked: its pipeline does, and the scan it has with it is. -/
structure Masking (d : Daemon E) (call : Call E) : Prop where
  comes : ∀ program, call.pc.program = some program → program.Ensures ComesMasked
  carries : ∀ j, call.pc.carries = some j → ∃ l, d.scans[j]? = some l ∧ l.sitting.scan.redaction = .standard

theorem masked_after (h : Moves rules d a d') (hl : d.scans[j]? = some l)
    (hmasked : l.sitting.scan.redaction = .standard) :
    ∃ l', d'.scans[j]? = some l' ∧ l'.sitting.scan.redaction = .standard := by
  obtain ⟨l', hl', rfl | ⟨act, hact⟩⟩ := (moves_scans h).after hl
  · exact ⟨l', hl', hmasked⟩
  · exact ⟨l', hl', (Live.step_redaction hact).trans hmasked⟩

theorem Masking.after (h : Moves rules d a d') (hcall : Masking d call) : Masking d' call where
  comes := hcall.comes
  carries j hj := by
    obtain ⟨l, hl, hmasked⟩ := hcall.carries j hj
    exact masked_after h hl hmasked

/-- Every call for a masked scan comes to one or to none. -/
def AllMasking (d : Daemon E) : Prop :=
  ∀ call ∈ d.calls, ∀ wire, call.request = .start wire → AsksMasked wire → Masking d call

theorem masking_idle (hprogram : call.pc.program = none) (hcarries : call.pc.carries = none) :
    Masking d call where
  comes program h := by
    rw [hprogram] at h
    cases h
  carries j h := by
    rw [hcarries] at h
    cases h

theorem masking_running {request : Request E} {program : Asking E (Sitting E)} {slot : Option Slot}
    (h : program.Ensures ComesMasked) : Masking d ⟨request, .running program slot⟩ where
  comes p hp := by
    cases hp
    exact h
  carries j hj := by cases hj

theorem masking_pipeline (laws : RedactLaws E) {wire : StartRequest E.F64} (hasks : AsksMasked wire)
    (slot : Option Slot) : ((Request.start wire).pipeline rules slot).Ensures ComesMasked :=
  Start.masked_scan laws hasks

theorem allMasking_goes {pc : CallPc E} (h : Moves rules d a d') (hcalls : d'.calls = (d.goes i call pc).calls)
    (hd : AllMasking d) (hgoes : ∀ wire, call.request = .start wire → AsksMasked wire →
      Masking d' { call with pc := pc }) : AllMasking d' := by
  intro other hother wire hrequest hasks
  rw [hcalls] at hother
  rcases mem_goes hother with hother | rfl
  · exact (hd other hother wire hrequest hasks).after h
  · exact hgoes wire hrequest hasks

theorem moves_masking (laws : RedactLaws E) (h : Moves rules d a d') (hd : AllMasking d) : AllMasking d' := by
  have hmoves := h
  cases h with
  | arrives request =>
    intro call hcall wire hrequest hasks
    rcases List.mem_append.mp hcall with hcall | hcall
    · exact (hd call hcall wire hrequest hasks).after hmoves
    · rw [List.mem_singleton.mp hcall] at hrequest ⊢
      cases hrequest
      exact masking_idle rfl rfl
  | @tries i spurious call pc hcall hpc hnext =>
    refine allMasking_goes hmoves rfl hd fun wire hrequest hasks => ?_
    rcases hnext with ⟨taken, rfl⟩ | rfl
    · exact masking_idle rfl rfl
    · rw [hrequest]
      exact masking_running (masking_pipeline laws hasks none)
  | @reserves i spurious call hcall hpc hroom =>
    refine allMasking_goes hmoves rfl hd fun wire hrequest hasks => ?_
    rw [hrequest]
    exact masking_running (masking_pipeline laws hasks (some {}))
  | @answers i world call q k slot answer hcall hpc =>
    refine allMasking_goes hmoves rfl hd fun wire hrequest hasks => masking_running ?_
    have hprogram : call.pc.program = some (.ask q k) := by rw [hpc]; rfl
    exact (hd call (List.mem_of_getElem? hcall) wire hrequest hasks).comes _ hprogram answer
  | @builds i call sitting slot hcall hpc =>
    refine allMasking_goes hmoves rfl hd fun wire hrequest hasks => ⟨nofun, ?_⟩
    rintro _ ⟨⟩
    have hprogram : call.pc.program = some (.ret sitting) := by rw [hpc]; rfl
    refine ⟨.start sitting, List.getElem?_concat_length, ?_⟩
    exact (hd call (List.mem_of_getElem? hcall) wire hrequest hasks).comes _ hprogram sitting rfl
  | leaves => exact allMasking_goes hmoves rfl hd fun _ _ _ => masking_idle rfl rfl
  | @files i j call slot l hcall hpc hl =>
    refine allMasking_goes hmoves rfl hd fun wire hrequest hasks => ⟨nofun, ?_⟩
    rintro _ ⟨⟩
    exact (hd call (List.mem_of_getElem? hcall) wire hrequest hasks).carries j (by rw [hpc]; rfl)
  | follows => exact allMasking_goes hmoves rfl hd fun _ _ _ => masking_idle rfl rfl
  | drops => exact allMasking_goes hmoves rfl hd fun _ _ _ => masking_idle rfl rfl
  | _ =>
    intro call hcall wire hrequest hasks
    exact (hd call hcall wire hrequest hasks).after hmoves

variable {P : Daemon E → Act E → Prop} {store : Except EngineError (List (Entry E.toEngineTypes))}

theorem reach_masking (laws : RedactLaws E) (h : (machine rules).Reach P (fresh store) d) : AllMasking d := by
  refine h.invariant (I := AllMasking) ?_ fun _ hd _ hstep => moves_masking laws (moves_of_step hstep) hd
  intro call hcall
  cases hcall

/-- **The scan of a start that asks to be masked is, from when the call has built it and for as long as the daemon
holds it**, and a watch of it is told no document of a host but a masked one. -/
theorem masked_of_started (laws : RedactLaws E) (h : (machine rules).Reach P (fresh store) d)
    (hcall : call ∈ d.calls) {wire : StartRequest E.F64} (hrequest : call.request = .start wire)
    (hasks : AsksMasked wire) (hcarries : call.pc.carries = some j)
    (hlater : (machine rules).Reach P d d') :
    ∃ l, d'.scans[j]? = some l ∧ l.sitting.scan.redaction = .standard ∧
      ∀ i w, (l.clients i).watching = some w → ∀ event ∈ w.events, ∀ address document,
        event.said = some (address, document) → Shows (E := E) .standard address document := by
  obtain ⟨l, hl, hmasked⟩ := (reach_masking laws h call hcall wire hrequest hasks).carries j hcarries
  obtain ⟨l', hl', hreach⟩ := later hlater hl
  have hmasked' := (Live.reach_redaction hreach).trans hmasked
  obtain ⟨id, progress, redaction, hbegun⟩ := scan_reach_always (h.trans hlater) hl'
  refine ⟨l', hl', hmasked', fun i w hw event hevent address document hsaid => ?_⟩
  rw [← hmasked']
  exact Live.shows_of_watching hbegun hw hevent hsaid

end Daemon

namespace Plain

theorem redactLaws : RedactLaws naming where
  applyTo asked config h := by
    show asked.settings.redact.getD config.redact = true
    rw [h, Option.getD_some]
  applyTargets _ _ := rfl

/-- A start that asks to be masked, as far as the scan it builds. -/
def builds : List (Daemon.Act naming) := (started 0 "A" (some true)).take 10

/-- The scan is filed and followed, a client watches it, and a host is found. -/
def watches : List (Daemon.Act naming) := List.flatten [
  List.replicate 2 (.proceed 0), [.watch 0 "A" 0],
  List.replicate 4 (.scan 0 (.client 0)),
  [.scan 0 (.sitting (.update (10, "ann"))), .scan 0 (.sitting (.announce (.hostUpdated 10)))],
  List.replicate 5 (.scan 0 (.sitting .follow)),
  List.replicate 5 (.scan 0 (.client 0))]

theorem builds_isSome : ((Daemon.machine Showing.atHome).run (Daemon.fresh (.ok [])) builds).isSome := by
  decide +kernel

def built : Daemon naming := ((Daemon.machine Showing.atHome).run (Daemon.fresh (.ok [])) builds).get builds_isSome

theorem watches_isSome : ((Daemon.machine Showing.atHome).run built watches).isSome := by decide +kernel

def watched : Daemon naming := ((Daemon.machine Showing.atHome).run built watches).get watches_isSome

def watchOfMasked : Option (Watch naming) := (watched.scans[0]?).bind fun l => (l.clients 0).watching

end Plain

namespace Daemon

open Plain (built watched builds_isSome watches_isSome)

/-- The client has been told of the host, and by its address, not its name. -/
theorem masked_of_started_watched :
    Plain.watchOfMasked.map (·.events.map Event.said) = some [none, some (10, "10")] ∧
    ∃ l, watched.scans[0]? = some l ∧ l.sitting.scan.redaction = .standard ∧
      ∀ i w, (l.clients i).watching = some w → ∀ event ∈ w.events, ∀ address document,
        event.said = some (address, document) → Shows (E := Plain.naming) .standard address document := by
  refine ⟨by decide +kernel, ?_⟩
  have hbuilt := Machine.Reach.of_run (Option.some_get builds_isSome).symm
  have hwatched := Machine.Reach.of_run (Option.some_get watches_isSome).symm
  have hcall : built.calls[0]? = some
      ⟨.start { targets := ["10"], settings := some { redact := some true } }, .filing 0 (some {})⟩ := rfl
  exact masked_of_started Plain.redactLaws hbuilt (List.mem_of_getElem? hcall) rfl ⟨_, rfl, rfl⟩ rfl hwatched

end Daemon

end ZondDaemon
