import ZondDaemon.Start.Pipeline

/-!
# A daemon with no room

What is owed to a request that finds no slot (`TurnedAway`): it is told so, the refusal is written down, and
nothing else of it is looked at. A start is turned away before it is read, whatever it says. A resume is
not: it lists the store and reopens the record first, so it is never turned away so (`turned_away_iff`).
-/

namespace ZondDaemon.Start

open Program (Step Ends Reaches)

variable {E : Engine} {under : Policy E} {rules : Rules E}

/-- A question of the audit's alone: the time and the line. -/
def audits : Query E → Bool
  | .now => true
  | .auditWrite _ => true
  | _ => false

/-- The write of a refusal for want of room. -/
def writesFull : Query E → Bool
  | .auditWrite (.refused _ _ _ code _) => code = Error.atCapacity.code
  | _ => false

/-- What a request is owed that finds no room. -/
structure TurnedAway (audit : Audit) (t : List (Step (Q := Query E) Query.Answer))
    (out : Except Error (Sitting E)) : Prop where
  told : out = .error .atCapacity ∨ ∃ broken, out = .error (.unwritable broken) ∧
    ∃ entry, ⟨.auditWrite entry, .error broken⟩ ∈ t
  written : t.countP (fun step => writesFull step.1) = if audit.configured then 1 else 0
  nothing : ∀ step ∈ t, audits step.1 = true

/-- The gate shuts on a request before anything else is asked. -/
theorem room_turns_away (hfull : under.hasRoom = false) {kind : String} {targets : List String}
    {f : Unit → Asking E (Sitting E)} {t : List (Step (Q := Query E) Query.Answer)}
    {out : Except Error (Sitting E)} (h : (under.room kind targets >>= f).Ends t out) :
    TurnedAway under.audit t out := by
  have hroom : (under.room kind targets : Asking E Unit) =
      under.audit.refused .atCapacity kind targets >>= fun _ => .fail .atCapacity := by
    rw [Policy.room, hfull]
    rfl
  rw [hroom, Audit.refused, call] at h
  obtain ⟨now, rest, rfl, hwrite⟩ := h.ask_cases
  by_cases hconfigured : under.audit.configured = true
  · simp only [Audit.write, if_pos hconfigured] at hwrite
    obtain ⟨answer, rest', rfl, hend⟩ := Ends.ask_cases hwrite
    cases answer with
    | ok _ =>
      obtain ⟨rfl, rfl⟩ := hend.of_fail
      exact ⟨.inl rfl, by simp [hconfigured, writesFull], by simp [audits]⟩
    | error broken =>
      obtain ⟨rfl, rfl⟩ := hend.of_fail
      exact ⟨.inr ⟨broken, rfl, _, List.mem_cons_of_mem _ List.mem_cons_self⟩,
        by simp [hconfigured, writesFull], by simp [audits]⟩
  · simp only [Audit.write, if_neg hconfigured] at hwrite
    obtain ⟨rfl, rfl⟩ := hwrite.of_fail
    exact ⟨.inl rfl, by simp [hconfigured, writesFull], by simp [audits]⟩

/-- **With no slot free, a request is turned away and nothing of it looked at just where it is a start.** -/
theorem turned_away_iff {request : Request E} {t : List (Step (Q := Query E) Query.Answer)}
    {out : Except Error (Sitting E)} (h : (request.pipeline rules none).Ends t out) :
    TurnedAway rules.audit t out ↔ ∃ wire, request = .start wire := by
  cases request with
  | start wire => exact ⟨fun _ => ⟨wire, rfl⟩, fun _ => room_turns_away rfl h⟩
  | resume id =>
    refine ⟨fun hturned => ?_, fun ⟨wire, heq⟩ => by cases heq⟩
    obtain ⟨entries, rest, rfl, _⟩ := Ends.ask_cases h
    cases hturned.nothing _ List.mem_cons_self

/-- A daemon of the plain engine that writes everything down and runs one scan at a time. -/
def oneAtATime : Rules Plain.engine where
  root := true
  scope := .anywhere
  audit := ⟨true⟩
  ceiling := some 1
  ceiling_le := Rules.one_le

/-- A world whose journal holds one scan that stopped part way. -/
def interrupted : (q : Query Plain.engine) → q.Answer
  | .listStore => .ok [⟨"A.journal", "A", 0, "1 probe", 1, .portScan, .free, false, none,
      .error ⟨"journal.incomplete", "A has not finished"⟩⟩]
  | q => Plain.world q

theorem turned_away_iff_start :
    TurnedAway oneAtATime.audit
      (((Request.start { targets := ["10"] }).pipeline oneAtATime none).transcript Plain.world)
      (((Request.start { targets := ["10"] }).pipeline oneAtATime none).eval Plain.world) :=
  (turned_away_iff (Program.ends_transcript Plain.world _)).mpr ⟨_, rfl⟩

/-- A full daemon asked to resume: it reopens the record before it finds that it has no room, and a name
no record has is told so. -/
theorem resumed_when_full :
    ((Request.resume "A").pipeline oneAtATime none).eval interrupted = .error .atCapacity ∧
      (∃ answer, ⟨.reopen "A.journal", answer⟩ ∈
        ((Request.resume "A").pipeline oneAtATime none).transcript interrupted) ∧
      ¬ TurnedAway oneAtATime.audit (((Request.resume "A").pipeline oneAtATime none).transcript interrupted)
        (.error .atCapacity) ∧
      ((Request.resume "B").pipeline oneAtATime none).eval interrupted = .error (.noSuchScan "B") := by
  refine ⟨rfl, ⟨_, List.mem_cons_of_mem _ List.mem_cons_self⟩, ?_, rfl⟩
  intro h
  cases h.nothing _ List.mem_cons_self

end ZondDaemon.Start
