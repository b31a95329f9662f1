import ZondDaemon.Start.Gate

/-!
# What is asked before a journal is opened

The pieces of the pipelines that open no journal and do not set the engine going. What is known of a trace as
far as journals and the engine go is still known once one of these is through.
-/

namespace ZondDaemon

variable {E : Engine}

namespace Query

/-- A call that opens a journal, new or old, or sets the engine going. -/
def opens : Query E → Bool
  | .createJournal .. => true
  | .reopen _ => true
  | q => q.begins

end Query

namespace Start

variable {α : Type} {under : Policy E} {config : ZondConfig E.toEngineTypes}

/-- A program that opens no journal and does not set the engine going. -/
abbrev Preparing (p : Asking E α) : Prop := p.Only fun q => q.opens = false

theorem preparing_ofExcept (x : Except Error α) : Preparing (Program.ofExcept x : Asking E α) := by
  cases x <;> trivial

theorem preparing_orEngine (x : Except EngineError α) : Preparing (orEngine x : Asking E α) := by
  cases x <;> trivial

theorem preparing_portsOf (asked : ScanRequest E.toEngineTypes) : Preparing (portsOf asked) := by
  unfold portsOf
  split
  · exact preparing_orEngine _
  · trivial

theorem preparing_resolver : Preparing (resolver config) := by
  unfold resolver
  split_ifs
  · trivial
  · exact ⟨rfl, fun _ => trivial⟩

theorem preparing_toTargetMap (targets : List String) (ports : E.PortSet) (resolver : Option E.Resolver) :
    Preparing (toTargetMap targets ports resolver) := by
  cases resolver with
  | none => exact ⟨rfl, fun answer => preparing_orEngine answer⟩
  | some resolver => exact ⟨rfl, fun answer => preparing_orEngine answer⟩

theorem preparing_exclusions (excluded : List String) (resolver : Option E.Resolver) :
    Preparing (exclusions excluded resolver) :=
  ⟨rfl, fun answer => preparing_orEngine answer⟩

theorem preparing_write (audit : Audit) (entry : AuditEntry) : Preparing (E := E) (audit.write entry) := by
  unfold Audit.write
  split_ifs
  · refine ⟨rfl, fun answer => ?_⟩
    cases answer <;> trivial
  · trivial

theorem preparing_refuse (audit : Audit) (refusal : Error) (kind : String) (targets : List String) :
    Preparing (E := E) (do audit.refused refusal kind targets; .fail refusal : Asking E Unit) := by
  apply Program.Only.bind
  · intro _
    trivial
  · exact ⟨rfl, fun _ => preparing_write _ _⟩

theorem preparing_room (kind : String) (targets : List String) : Preparing (under.room kind targets) := by
  unfold Policy.room
  split_ifs
  · trivial
  · exact preparing_refuse _ _ _ _

theorem preparing_permit (reaching : E.IpSet) (kind : String) (targets : List String) :
    Preparing (under.permit reaching kind targets) := by
  unfold Policy.permit
  split
  · exact preparing_refuse _ _ _ _
  · trivial

theorem preparing_record (id kind : String) (targets : List String) :
    Preparing (under.record id kind targets) :=
  ⟨rfl, fun _ => preparing_write _ _⟩

end Start

end ZondDaemon
