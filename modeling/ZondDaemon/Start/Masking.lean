import ZondDaemon.Start.Carried
import ZondDaemon.Start.Pipeline

/-!
# A start that asks to be masked

`settings.redact` on its way from the request through the configuration to the scan: what a start that sets
it comes to is handed out masked, whatever kind of scan it asks for.
-/

namespace ZondDaemon

variable {E : Engine}

/-- What the engine makes of a request to be masked: a configuration that says so, whatever the targets. -/
structure RedactLaws (E : Engine) : Prop where
  applyTo (asked : ScanRequest E.toEngineTypes) (config : ZondConfig E.toEngineTypes) :
    asked.settings.redact = some true → (E.applyTo asked config).redact = true
  applyTargets (targets : E.DiscoveryTargets) (config : ZondConfig E.toEngineTypes) :
    (E.applyTargets targets config).redact = config.redact

namespace Start

theorem request_redact {wire : Proto.StartRequest E.F64} {asked : ScanRequest E.toEngineTypes}
    {named : Proto.Settings E.F64} (hnamed : wire.settings = some named) (h : request wire = .ok asked) :
    asked.settings.redact = named.redact := by
  have hsettings := (carried_of_ok h).2.settings
  rw [hnamed] at hsettings
  exact SettingsCarried.redact hsettings

/-- A scan handed out masked, where there is one. -/
def ComesMasked (out : Except Error (Sitting E)) : Prop := ∀ s, out = .ok s → s.scan.redaction = .standard

theorem comesMasked_error (error : Error) : ComesMasked (.error error : Except Error (Sitting E)) := by
  intro s heq
  cases heq

theorem comesMasked_started {id : String} {config : ZondConfig E.toEngineTypes} (h : config.redact = true)
    {p : Asking E Session} :
    (p >>= fun session => pure (started id session config)).Ensures ComesMasked := by
  apply Program.Ensures.of_bind comesMasked_error
  rintro session s heq
  cases heq
  show (if config.redact then Redaction.standard else .none) = .standard
  rw [h, if_pos rfl]

variable {wire : Proto.StartRequest E.F64} {under : Policy E}

/-- `settings.redact` is set. -/
def AsksMasked (wire : Proto.StartRequest E.F64) : Prop :=
  ∃ named, wire.settings = some named ∧ named.redact = some true

theorem masked_configure (laws : RedactLaws E) (hasks : AsksMasked wire) {asked : ScanRequest E.toEngineTypes}
    (h : request wire = .ok asked) : (configure asked).redact = true := by
  obtain ⟨named, hnamed, hredact⟩ := hasks
  exact laws.applyTo asked _ ((request_redact hnamed h).trans hredact)

theorem masked_ports (laws : RedactLaws E) (hasks : AsksMasked wire) :
    (ports wire under).Ensures ComesMasked := by
  unfold ports
  cases hrequest : request wire with
  | error error => exact comesMasked_error error
  | ok asked =>
    have hconfig := masked_configure laws hasks hrequest
    rw [Program.ofExcept_ok, Program.ret_bind]
    dsimp only
    split_ifs
    · exact comesMasked_error nothingToScan
    · iterate 8 refine .of_bind comesMasked_error fun _ => ?_
      exact comesMasked_started hconfig

theorem masked_sweep (laws : RedactLaws E) (hasks : AsksMasked wire) :
    (sweep wire under).Ensures ComesMasked := by
  unfold sweep
  cases hrequest : request wire with
  | error error => exact comesMasked_error error
  | ok asked =>
    have hconfig := masked_configure laws hasks hrequest
    rw [Program.ofExcept_ok, Program.ret_bind]
    dsimp only
    split_ifs
    · exact comesMasked_error nothingToScan
    · apply Program.Ensures.of_bind comesMasked_error
      intro resolver
      apply Program.Ensures.of_bind comesMasked_error
      intro answer
      apply Program.Ensures.of_bind comesMasked_error
      intro targets
      iterate 5 refine .of_bind comesMasked_error fun _ => ?_
      exact comesMasked_started ((laws.applyTargets targets _).trans hconfig)

theorem masked_watch (laws : RedactLaws E) (hasks : AsksMasked wire) :
    (watch wire under).Ensures ComesMasked := by
  unfold watch
  cases hrequest : request wire with
  | error error => exact comesMasked_error error
  | ok asked =>
    have hconfig := masked_configure laws hasks hrequest
    rw [Program.ofExcept_ok, Program.ret_bind]
    dsimp only
    split_ifs
    · exact comesMasked_error _
    · apply Program.Ensures.of_bind comesMasked_error
      intro answer
      cases answer with
      | error refused => exact comesMasked_error _
      | ok zones =>
        iterate 3 refine .of_bind comesMasked_error fun _ => ?_
        exact comesMasked_started hconfig

theorem masked_scan (laws : RedactLaws E) (hasks : AsksMasked wire) :
    (scan wire under).Ensures ComesMasked := by
  apply Program.Ensures.of_bind comesMasked_error
  intro _
  split
  · exact masked_sweep laws hasks
  · exact masked_watch laws hasks
  · exact masked_ports laws hasks

end Start

end ZondDaemon

