import ZondDaemon.Base.Absent
import ZondDaemon.Stdio.Frames

/-!
# Left out

What a request comes to without the members that say what holds anyway: a plain field at the schema's
default, an optional one at null, in the params and in the messages inside them (`Inside`). The message is
read alike without them. But `params` itself, where it is left out of the request, is null and no message,
so a request that leaves it out is malformed to every method that reads its params (`left_out_iff`).
-/

namespace ZondDaemon

open Proto

variable {E : Engine}

namespace Proto

/-! ## The schema -/

/-- How the schema declares a field, as far as it says what the field is where nothing is said of it. -/
inductive Label
  | optional
  | repeated
  | string
  | whole
  /-- An enum, by the name of its value of no number. -/
  | enum (unspecified : String)

/-- The schema's default. -/
def Label.unsaid : Label → Json
  | .optional => .null
  | .repeated => .array []
  | .string => .string ""
  | .whole => .number (.posInt 0)
  | .enum unspecified => .string unspecified

/-- A field is there and at the schema's default. -/
def Unsaid (schema : List (String × Label)) (member : String × Json) : Prop :=
  ∃ label, (member.1, label) ∈ schema ∧ member.2 = label.unsaid

def Evasion.schema : List (String × Label) := [("source_port", .optional), ("ttl", .optional),
  ("fragment_mtu", .optional), ("padding", .optional), ("decoys", .repeated), ("flags", .optional),
  ("spoof_mac", .optional), ("bad_tcp_checksum", .optional)]

def Settings.schema : List (String × Label) := [("effort", .optional), ("host_timeout", .optional),
  ("scan_timeout", .optional), ("max_probe_rate", .optional), ("min_probe_rate", .optional),
  ("max_attempts", .optional), ("no_dns", .optional), ("redact", .optional), ("tls_enumeration", .optional),
  ("host_probe_interval_ms", .optional), ("dampen_silent_hosts", .optional), ("default_ports", .optional),
  ("tcp_technique", .optional), ("sctp_technique", .optional), ("send_mode", .optional),
  ("timeout_scale", .optional)]

def StartRequest.schema : List (String × Label) := [("targets", .repeated), ("exclude", .repeated),
  ("ports", .optional), ("service_detection", .optional), ("os_detection", .optional),
  ("detection", .optional), ("traceroute", .optional), ("characterise", .optional),
  ("icmp_evidence", .optional), ("assume_up", .optional), ("ip_protocols", .repeated),
  ("send_source", .repeated), ("evasion", .optional), ("kind", .enum "SCAN_KIND_UNSPECIFIED"),
  ("links", .repeated), ("listen_for_seconds", .optional), ("settings", .optional)]

def WatchRequest.schema : List (String × Label) := [("scan_id", .string), ("from_seq", .whole)]

def GetRequest.schema : List (String × Label) := [("scan_id", .string)]

def ResumeRequest.schema : List (String × Label) := [("scan_id", .string)]

def ExportRequest.schema : List (String × Label) :=
  [("scan_id", .string), ("format", .enum "EXPORT_FORMAT_UNSPECIFIED"), ("redact", .optional)]

def ListRequest.schema : List (String × Label) := [("limit", .optional)]

def PruneRequest.schema : List (String × Label) :=
  [("completed_after_seconds", .optional), ("incomplete_after_seconds", .optional)]

def DiffRequest.schema : List (String × Label) :=
  [("baseline_id", .string), ("current_id", .string), ("format", .enum "DIFF_FORMAT_UNSPECIFIED")]

def MergeRequest.schema : List (String × Label) :=
  [("scan_ids", .repeated), ("format", .enum "EXPORT_FORMAT_UNSPECIFIED"), ("redact", .optional)]

/-- The request for the corpus has no fields. -/
structure DetectionsRequest

def DetectionsRequest.reader : Reader DetectionsRequest := .message [] {}

example {F64 : Type} (double : Number → F64) :
    StartRequest.schema.map Prod.fst = (StartRequest.fields double).map Reader.Field.name ∧
    Settings.schema.map Prod.fst = (Settings.fields double).map Reader.Field.name ∧
    Evasion.schema.map Prod.fst = Evasion.fields.map Reader.Field.name := ⟨rfl, rfl, rfl⟩

end Proto

namespace Stdio

/-! ## The messages -/

/-- What a message says nothing with is what the schema says nothing with. -/
theorem silent_of_unsaid {M : Type} {r : Reader M} {schema : List (String × Label)}
    (h : ∀ field ∈ schema, Reader.Silent r (field.1, field.2.unsaid)) :
    ∀ member, Unsaid schema member → Reader.Silent r member := by
  rintro ⟨name, value⟩ ⟨label, hmem, rfl⟩
  exact h (name, label) hmem

section fields
variable {F64 : Type} (double : Number → F64)

theorem evasion_commuting : Reader.Commuting Evasion.fields := by
  simp only [Reader.Commuting, Evasion.fields, List.pairwise_cons, List.forall_mem_cons]
  and_intros
  all_goals first | exact fun _ _ _ => rfl | simp

theorem settings_commuting : Reader.Commuting (Settings.fields double) := by
  simp only [Reader.Commuting, Settings.fields, List.pairwise_cons, List.forall_mem_cons]
  and_intros
  all_goals first | exact fun _ _ _ => rfl | simp

theorem start_commuting : Reader.Commuting (StartRequest.fields double) := by
  simp only [Reader.Commuting, StartRequest.fields, List.pairwise_cons, List.forall_mem_cons]
  and_intros
  all_goals first | exact fun _ _ _ => rfl | simp

theorem evasion_silent : ∀ field ∈ Evasion.schema,
    Reader.Silent Evasion.reader (field.1, field.2.unsaid) := by
  simp only [Evasion.schema, List.forall_mem_cons]
  and_intros
  all_goals first | rfl | simp

theorem settings_silent : ∀ field ∈ Settings.schema,
    Reader.Silent (Settings.reader double) (field.1, field.2.unsaid) := by
  simp only [Settings.schema, List.forall_mem_cons]
  and_intros
  all_goals first | rfl | simp

theorem start_silent : ∀ field ∈ StartRequest.schema,
    Reader.Silent (StartRequest.reader double) (field.1, field.2.unsaid) := by
  simp only [StartRequest.schema, List.forall_mem_cons]
  and_intros
  all_goals first | rfl | simp

/-- No value has a message inside. -/
def Nowhere (_ : String) (_ _ : Json) : Prop := False

theorem nowhere_alike {M : Type} (fields : List (Reader.Field M)) : Reader.Alike fields Nowhere := by
  rintro _ _ _ ⟨⟩

/-- The messages inside a `StartRequest`, without what says nothing there. -/
inductive Inside : String → Json → Json → Prop
  | evasion {members less : List (String × Json)} : (members.map Prod.fst).Nodup →
      Reader.Thins (Unsaid Evasion.schema) Nowhere members less →
        Inside "evasion" (.object members) (.object less)
  | settings {members less : List (String × Json)} : (members.map Prod.fst).Nodup →
      Reader.Thins (Unsaid Settings.schema) Nowhere members less →
        Inside "settings" (.object members) (.object less)

theorem inside_alike : Reader.Alike (StartRequest.fields double) Inside := by
  intro name value value' hinside field hfield
  cases hinside with
  | @evasion members less hone hthins =>
    have hread : Evasion.reader.read (.object members) = Evasion.reader.read (.object less) :=
      Reader.read_thins evasion_commuting (silent_of_unsaid evasion_silent) (nowhere_alike _) hthins hone
    have hdeclared : Reader.declared (StartRequest.fields double) "evasion" =
      some ⟨"evasion", .optional Evasion.reader, fun value held => { held with evasion := value }⟩ := rfl
    cases hfield.symm.trans hdeclared
    exact congrArg (Option.map some) hread
  | @settings members less hone hthins =>
    have hread : (Settings.reader double).read (.object members) =
        (Settings.reader double).read (.object less) :=
      Reader.read_thins (settings_commuting double) (silent_of_unsaid (settings_silent double))
        (nowhere_alike _) hthins hone
    have hdeclared : Reader.declared (StartRequest.fields double) "settings" =
      some ⟨"settings", .optional (Settings.reader double),
        fun value held => { held with settings := value }⟩ :=
      rfl
    cases hfield.symm.trans hdeclared
    exact congrArg (Option.map some) hread

end fields

/-- What a method reads its params as. -/
structure Asks where
  {M : Type}
  reader : Reader M
  schema : List (String × Label)
  /-- A value of its object without what says nothing inside it. -/
  less : String → Json → Json → Prop

variable (serde : Serde E.F64)

/-- The request message of each method. -/
def asks : String → Option Asks
  | "start" => some ⟨StartRequest.reader serde.double, StartRequest.schema, Inside⟩
  | "get" => some ⟨GetRequest.reader, GetRequest.schema, Nowhere⟩
  | "stop" => some ⟨GetRequest.reader, GetRequest.schema, Nowhere⟩
  | "detections" => some ⟨DetectionsRequest.reader, [], Nowhere⟩
  | "resume" => some ⟨ResumeRequest.reader, ResumeRequest.schema, Nowhere⟩
  | "diff" => some ⟨DiffRequest.reader, DiffRequest.schema, Nowhere⟩
  | "merge" => some ⟨MergeRequest.reader, MergeRequest.schema, Nowhere⟩
  | "prune" => some ⟨PruneRequest.reader, PruneRequest.schema, Nowhere⟩
  | "list" => some ⟨ListRequest.reader, ListRequest.schema, Nowhere⟩
  | "export" => some ⟨ExportRequest.reader, ExportRequest.schema, Nowhere⟩
  | "watch" => some ⟨WatchRequest.reader, WatchRequest.schema, Nowhere⟩
  | _ => none

variable {serde : Serde E.F64} {method : String} {a : Asks} {members less : List (String × Json)}

/-- **What the schema says nothing with may be left out of the params of every method.** -/
theorem read_less (hasks : asks serde method = some a) (hone : (members.map Prod.fst).Nodup)
    (hthins : Reader.Thins (Unsaid a.schema) a.less members less) :
    a.reader.read (.object members) = a.reader.read (.object less) := by
  unfold asks at hasks
  split at hasks
  · cases hasks
    exact Reader.read_thins (start_commuting _) (silent_of_unsaid (start_silent _)) (inside_alike _)
      hthins hone
  all_goals cases hasks
  all_goals
    refine Reader.read_thins ?_ (silent_of_unsaid ?_) (nowhere_alike _) hthins hone
    · simp only [Reader.Commuting, List.pairwise_cons, List.forall_mem_cons]
      and_intros
      all_goals first | exact fun _ _ _ => rfl | simp
    · simp only [WatchRequest.schema, GetRequest.schema, ResumeRequest.schema, ExportRequest.schema,
        ListRequest.schema, PruneRequest.schema, DiffRequest.schema, MergeRequest.schema,
        List.forall_mem_cons]
      and_intros
      all_goals first | rfl | simp

theorem fromValue_read {M : Type} {r : Reader M} {params : Json} {read : M} (h : r.read params = some read)
    (message : String) : fromValue serde message r params = .ok read := by
  rw [fromValue, h]

theorem asked_read (hasks : asks serde method = some a) (read : a.M) :
    ∃ call, ∀ params, a.reader.read params = some read → asked serde method params = .ok call := by
  unfold asks at hasks
  split at hasks
  all_goals cases hasks
  case h_4 => exact ⟨_, fun _ _ => rfl⟩
  all_goals exact ⟨_, fun params h => congrArg (_ <$> ·) (fromValue_read h _)⟩

/-- Null is no message, and only the request for the corpus is not read. -/
theorem asked_null (hasks : asks serde method = some a) (hreads : method ≠ "detections") :
    ∃ detail, asked serde method .null = .error (.malformed detail) := by
  unfold asks at hasks
  split at hasks
  all_goals cases hasks
  all_goals first | exact absurd rfl hreads | exact ⟨_, rfl⟩

/-! ## The request -/

/-- The two requests are labelled alike and come to the same, whatever the daemon: the one refusal, or the
one call of the registry. -/
def Same (serde : Serde E.F64) (request request' : Request) : Prop :=
  request'.id = request.id ∧
    asked serde request.method request.params = asked serde request'.method request'.params ∧
    ∀ rules d, begin serde rules d request.method request.params =
      begin serde rules d request'.method request'.params

theorem ofJson_params {before after : List (String × Json)} {params : Json} {request : Request}
    (h : Request.ofJson (.object (before ++ ("params", params) :: after)) = some request) :
    request.params = params ∧
      (∀ other, Request.ofJson (.object (before ++ ("params", other) :: after)) =
        some { request with params := other }) ∧
      Request.ofJson (.object (before ++ after)) = some { request with params := .null } := by
  have hid (other : Json) : Request.under "id" (before ++ ("params", other) :: after) =
      Request.under "id" (before ++ after) := by
    simp [Request.under]
  have hmethod (other : Json) : Request.under "method" (before ++ ("params", other) :: after) =
      Request.under "method" (before ++ after) := by
    simp [Request.under]
  have hparams (other : Json) : Request.under "params" (before ++ ("params", other) :: after) =
      Request.under "params" before ++ other :: Request.under "params" after := by
    simp [Request.under]
  have hrest : Request.under "params" (before ++ after) =
      Request.under "params" before ++ Request.under "params" after := by
    simp [Request.under]
  simp only [Request.ofJson, hid, hmethod, hparams, hrest] at h ⊢
  split at h
  · rename_i id method value hidEq hmethodEq hvalue
    cases h
    -- the request is read, so there is no second member of the name
    have hbefore : Request.under "params" before = [] := by
      cases hunder : Request.under "params" before with
      | nil => rfl
      | cons first others =>
        rw [hunder] at hvalue
        cases others <;> cases hvalue
    have hafter : Request.under "params" after = [] := by
      cases hunder : Request.under "params" after with
      | nil => rfl
      | cons second others =>
        rw [hbefore, hunder] at hvalue
        cases hvalue
    rw [hbefore, hafter] at hvalue
    cases hvalue
    simp only [hidEq, hmethodEq, hbefore, hafter]
    exact ⟨trivial, fun _ => rfl, rfl⟩
  · cases h

/-- The request with its params among its members, or without any. -/
def sent (before : List (String × Json)) (params : Option Json) (after : List (String × Json)) : Json :=
  .object (before ++ ((params.map fun params => ("params", params)).toList ++ after))

/-- **What says nothing may be left out of a request's params, and its params where its method reads none.** -/
theorem left_out_iff {request : Request} {before after : List (String × Json)} {params : Option Json}
    (hsent : Request.ofJson (sent before (some (.object members)) after) = some request)
    (hasks : asks serde request.method = some a) (htakes : a.reader.takes (.object members))
    (hone : (members.map Prod.fst).Nodup) (hthins : Reader.Thins (Unsaid a.schema) a.less members less)
    (hparams : params = some (.object less) ∨ params = none ∧ less = []) :
    ∃ request', Request.ofJson (sent before params after) = some request' ∧
      (Same serde request request' ↔ params.isSome ∨ request.method = "detections") := by
  obtain ⟨heq, hother, hnone⟩ := ofJson_params hsent
  obtain ⟨read, hread⟩ := Option.isSome_iff_exists.mp ((a.reader.isSome_read _).mpr htakes)
  obtain ⟨call, hcall⟩ := asked_read hasks read
  have hbefore : asked serde request.method request.params = .ok call := by
    rw [heq]
    exact hcall _ hread
  rcases hparams with rfl | ⟨rfl, rfl⟩
  · have hafter := hcall _ ((read_less hasks hone hthins).symm.trans hread)
    refine ⟨_, hother _, iff_of_true ⟨rfl, hbefore.trans hafter.symm, ?_⟩ (.inl rfl)⟩
    intro rules d
    rw [begin, begin, hbefore, hafter]
  · refine ⟨_, hnone, ?_⟩
    by_cases hreads : request.method = "detections"
    · refine iff_of_true ⟨rfl, ?_, fun rules d => ?_⟩ (.inr hreads)
      · rw [hreads]
        rfl
      · rw [hreads]
        rfl
    · obtain ⟨detail, hnull⟩ := asked_null hasks hreads
      refine iff_of_false ?_ ?_
      · rintro ⟨-, hsame, -⟩
        rw [hbefore, hnull] at hsame
        cases hsame
      · simp [hreads]

/-- The members of a request for a method beside its params. -/
def calling (method : String) : List (String × Json) :=
  [("id", .number (.posInt 1)), ("method", .string method)]

/-- A start that spells out what holds anyway, of its settings too. -/
def spelt : List (String × Json) := [("exclude", .array []), ("kind", .string "SCAN_KIND_UNSPECIFIED"),
  ("ports", .null), ("settings", .object [("effort", .null), ("redact", .bool true)]),
  ("targets", .array [.string "10"])]

theorem left_out_iff_spelt : ∃ request request',
    Request.ofJson (sent (calling "start") (some (.object spelt)) []) = some request ∧
    Request.ofJson (sent (calling "start") (some (.object [("settings", .object [("redact", .bool true)]),
      ("targets", .array [.string "10"])])) []) = some request' ∧
    Same plainSerde request request' := by
  have hsettings : Reader.Thins (Unsaid Settings.schema) Nowhere
      [("effort", .null), ("redact", .bool true)] [("redact", .bool true)] :=
    .drops ⟨.optional, by simp [Settings.schema], rfl⟩ (.keeps (.inl rfl) .nil)
  have hthins : Reader.Thins (Unsaid StartRequest.schema) Inside spelt
      [("settings", .object [("redact", .bool true)]), ("targets", .array [.string "10"])] :=
    .drops ⟨.repeated, by simp [StartRequest.schema], rfl⟩
      (.drops ⟨.enum "SCAN_KIND_UNSPECIFIED", by simp [StartRequest.schema], rfl⟩
        (.drops ⟨.optional, by simp [StartRequest.schema], rfl⟩
          (.keeps (.inr (.settings (by decide) hsettings)) (.keeps (.inl rfl) .nil))))
  have htakes : (StartRequest.reader plainSerde.double).takes (.object spelt) :=
    ((StartRequest.reader plainSerde.double).isSome_read _).mp (by decide +kernel)
  have hone : (spelt.map Prod.fst).Nodup := by decide
  have hasked : Request.ofJson (sent (calling "start") (some (.object spelt)) []) =
    some ⟨.number (.posInt 1), "start", .object spelt⟩ := rfl
  obtain ⟨request', hsent, hsame⟩ := left_out_iff hasked rfl htakes hone hthins (.inl rfl)
  exact ⟨_, request', hasked, hsent, hsame.mpr (.inl rfl)⟩

/-- A list asked for with empty params is answered; one asked for without any is malformed. -/
theorem list_without_params : ∃ request request',
    Request.ofJson (sent (calling "list") (some (.object [])) []) = some request ∧
    Request.ofJson (sent (calling "list") none []) = some request' ∧
    asked plainSerde request.method request.params = .ok (.list none) ∧
    asked plainSerde request'.method request'.params = .error (.malformed "") ∧
    ¬ Same plainSerde request request' := by
  refine ⟨_, _, rfl, rfl, rfl, rfl, ?_⟩
  rintro ⟨-, hsame, -⟩
  cases hsame

end Stdio

end ZondDaemon
