import ZondDaemon.Daemon.Daemon
import ZondDaemon.Start.Resume
import ZondDaemon.Stdio.Wire

/-!
# What a method is asked

The methods of `stdio.rs`, each reading its params as its own request message before it does anything else,
and what a `start` makes of an object: the members its message does not declare, those of `settings` and of
`evasion` among them, are passed over, so that an object is turned down for a value a declared member cannot
have and for nothing else.
-/

namespace ZondDaemon

open Proto

variable {E : Engine}

namespace Error

/-- A frame that was not the shape the schema says. -/
def malformed (detail : String) : Error := ⟨"rpc.malformed", detail⟩

/-- A method this build does not have. -/
def noSuchMethod (method : String) : Error := ⟨"rpc.unknown_method", s!"no method named {method}"⟩

end Error

/-- What is serde_json's own: how it takes a number as a double, what it says where a value cannot be read as
a message, the value a text holds, its outermost members as they stand and what is in them as a `Value` holds
it, and what it says of a text that is no request. -/
structure Serde (F64 : Type) where
  double : Number → F64
  complaint : String → Json → String
  text : String → Option Json
  refusal : String → String

/-- A request that was read: what the registry is asked. -/
inductive Asked (E : Engine)
  /-- `start` and `resume`. -/
  | call (request : Request E)
  | get (id : String)
  | stop (id : String)
  | detections
  /-- `diff`, `merge` and `export`. -/
  | report (call : ReportCall)
  | prune (asked : PruneRequest)
  | list (limit : Option Nat)
  | watch (id : String) (fromSeq : Nat)

namespace Stdio

variable (serde : Serde E.F64)

/-- `serde_json::from_value(params).map_err(Error::malformed)`. -/
def fromValue {M : Type} (message : String) (r : Reader M) (params : Json) : Except Error M :=
  match r.read params with
  | some asked => .ok asked
  | none => .error (.malformed (serde.complaint message params))

/-- `answer`, as far as the request is read. -/
def asked (method : String) (params : Json) : Except Error (Asked E) :=
  match method with
  | "start" => (fun wire => .call (.start wire)) <$>
      fromValue serde "StartRequest" (StartRequest.reader serde.double) params
  | "get" => (fun asked => .get asked.scanId) <$> fromValue serde "GetRequest" GetRequest.reader params
  | "stop" => (fun asked => .stop asked.scanId) <$> fromValue serde "GetRequest" GetRequest.reader params
  | "detections" => .ok .detections
  | "resume" => (fun asked => .call (.resume asked.scanId)) <$>
      fromValue serde "ResumeRequest" ResumeRequest.reader params
  | "diff" => (fun asked => .report (.diffing asked)) <$>
      fromValue serde "DiffRequest" DiffRequest.reader params
  | "merge" => (fun asked => .report (.merging asked)) <$>
      fromValue serde "MergeRequest" MergeRequest.reader params
  | "prune" => .prune <$> fromValue serde "PruneRequest" PruneRequest.reader params
  | "list" => (fun asked => .list asked.limit) <$> fromValue serde "ListRequest" ListRequest.reader params
  | "export" => (fun asked => .report (.exporting asked)) <$>
      fromValue serde "ExportRequest" ExportRequest.reader params
  | "watch" => (fun asked => .watch asked.scanId asked.fromSeq) <$>
      fromValue serde "WatchRequest" WatchRequest.reader params
  | other => .error (.noSuchMethod other)

/-- What a request does at once: the error it is answered with, or a call of the registry on its way. -/
def begin (rules : Rules E) (d : Daemon E) (method : String) (params : Json) : Daemon E × Option Error :=
  match asked serde method params with
  | .error refused => (d, some refused)
  | .ok (.call request) => ({ d with calls := d.calls ++ [Daemon.arriving rules request] }, none)
  | .ok _ => (d, none)

/-! ## Keys nobody declared -/

/-- Some key of the object, of its `settings` or of its `evasion` is none the schema declares there. -/
def Stray (members : List (String × Json)) : Prop :=
  Reader.Undeclared (StartRequest.fields serde.double) members ∨
  (∃ inner, ("settings", .object inner) ∈ members ∧
    Reader.Undeclared (Settings.fields serde.double) inner) ∨
  ∃ inner, ("evasion", .object inner) ∈ members ∧ Reader.Undeclared Evasion.fields inner

/-- A `start` with these params is answered that they are malformed, and nothing is started. -/
def Refused (rules : Rules E) (d : Daemon E) (params : Json) : Prop :=
  ∃ refused, begin serde rules d "start" params = (d, some refused) ∧ refused.code = "rpc.malformed"

/-- Some key the schema declares holds a value its field does not take. -/
def Misread (members : List (String × Json)) : Prop :=
  Reader.Misread (StartRequest.fields serde.double) members

variable {serde : Serde E.F64} {rules : Rules E} {d : Daemon E} {members : List (String × Json)}

theorem begin_start (params : Json) : begin serde rules d "start" params =
    match (StartRequest.reader serde.double).read params with
    | none => (d, some (.malformed (serde.complaint "StartRequest" params)))
    | some wire => ({ d with calls := d.calls ++ [Daemon.arriving rules (.start wire)] }, none) := by
  unfold begin asked fromValue
  cases (StartRequest.reader serde.double).read params with
  | none => rfl
  | some wire => rfl

theorem read_eq_none :
    (StartRequest.reader serde.double).read (.object members) = none ↔ Misread serde members :=
  Reader.read_object_eq_none

theorem refused_iff : Refused serde rules d (.object members) ↔ Misread serde members := by
  rw [← read_eq_none]
  unfold Refused
  rw [begin_start]
  constructor
  · rintro ⟨refused, hbegin, -⟩
    cases hread : (StartRequest.reader serde.double).read (.object members) with
    | none => rfl
    | some wire =>
      rw [hread] at hbegin
      cases (Prod.mk.inj hbegin).2
  · intro hread
    rw [hread]
    exact ⟨_, rfl, rfl⟩

/-- What is started is what the object says without the keys nobody declared. -/
theorem begin_filter (h : ¬ Misread serde members) :
    begin serde rules d "start" (.object members) =
      begin serde rules d "start" (.object (members.filter fun member =>
        (Reader.declared (StartRequest.fields serde.double) member.1).isSome)) := by
  have hfilter := Reader.readMembers_filter (StartRequest.fields serde.double) members {}
  cases hread : (StartRequest.reader serde.double).read (.object members) with
  | none => exact absurd (read_eq_none.mp hread) h
  | some wire =>
    have hless : (StartRequest.reader serde.double).read (.object (members.filter fun member =>
        (Reader.declared (StartRequest.fields serde.double) member.1).isSome)) = some wire :=
      hfilter.trans hread
    rw [begin_start, begin_start, hread, hless]

/-- **A `start` with a key nobody declared is refused just where a declared key is reason enough.** -/
theorem strict_iff (serde : Serde E.F64) (rules : Rules E) (d : Daemon E) (members : List (String × Json)) :
    (Stray serde members → Refused serde rules d (.object members)) ↔
      ¬ Stray serde members ∨ Misread serde members := by
  rw [refused_iff]
  exact imp_iff_not_or

/-- A request for the corpus, the one text that is read. -/
def corpusAsked : Json := .object [("id", .number (.posInt 1)), ("method", .string "detections")]

/-- Doubles read as whole numbers, nothing said of what is no message, one text read, and any other said to
hold no value from its first character on. -/
def plainSerde : Serde Plain.engine.F64 where
  double
    | .posInt n => n
    | .negInt n => -n
    | .float _ => 0
  complaint _ _ := ""
  text text := if text.toList = corpusAsked.render then some corpusAsked else none
  refusal _ := "expected value at line 1 column 1"

/-- A start that names a target and rules it out, as the key it rules it out under is spelt. -/
def rulingOut (key : String) : List (String × Json) :=
  [(key, .array [.string "10"]), ("targets", .array [.string "10"])]

/-- What the engine is told to leave out by the scan that is started. -/
def leftOut (members : List (String × Json)) : Option (List String) :=
  ((StartRequest.reader plainSerde.double).read (.object members)).bind fun wire =>
    (Start.jobOf (Start.startTrace wire)).map fun job => job.exclusions

/-- With `exclude` misspelt the scan goes ahead, over the address it was to leave alone. -/
theorem not_strict :
    Stray plainSerde (rulingOut "exlude") ∧
    ¬ Refused plainSerde Start.tenOnly (Daemon.fresh (.ok [])) (.object (rulingOut "exlude")) ∧
    leftOut (rulingOut "exclude") = some ["10"] ∧ leftOut (rulingOut "exlude") = some [] := by
  refine ⟨?_, ?_, ?_, ?_⟩
  · exact .inl ⟨("exlude", .array [.string "10"]), by simp [rulingOut], by decide +kernel⟩
  · rw [refused_iff, ← read_eq_none]
    exact Option.isSome_iff_ne_none.mp (by decide +kernel)
  · decide +kernel
  · decide +kernel

end Stdio

end ZondDaemon
