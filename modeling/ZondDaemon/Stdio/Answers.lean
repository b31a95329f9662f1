import ZondDaemon.Base.Sorted
import ZondDaemon.Stdio.Written

/-!
# What a call is answered with

The messages a method answers with, written and read as the serde derives do it. What `json!` puts into a
frame is the message as a `Value` holds it, the members of every object in the order of their names, and it
is that a client reads back (`returns`).
-/

namespace ZondDaemon

namespace Proto

/-! ## The messages -/

instance : Named ScanHold where
  asStrName
    | .unspecified => "SCAN_HOLD_UNSPECIFIED"
    | .free => "SCAN_HOLD_FREE"
    | .held => "SCAN_HOLD_HELD"
    | .crashed => "SCAN_HOLD_CRASHED"

inductive DetectionTier | unspecified | flow | compute | host
deriving DecidableEq

instance : Named DetectionTier where
  all := [.unspecified, .flow, .compute, .host]
  number | .unspecified => 0 | .flow => 1 | .compute => 2 | .host => 3
  asStrName
    | .unspecified => "DETECTION_TIER_UNSPECIFIED"
    | .flow => "DETECTION_TIER_FLOW"
    | .compute => "DETECTION_TIER_COMPUTE"
    | .host => "DETECTION_TIER_HOST"

instance : Inverse ScanHold := ⟨fun x => by cases x <;> rfl⟩
instance : Inverse DetectionTier := ⟨fun x => by cases x <;> rfl⟩
instance : Inverse ExportFormat := ⟨fun x => by cases x <;> rfl⟩
instance : Inverse DiffFormat := ⟨fun x => by cases x <;> rfl⟩

structure StartResponse where
  scanId : String
deriving DecidableEq

structure ListResponse where
  scans : List ScanListing
deriving DecidableEq

structure HeldRecord where
  scanId : String
  reason : String
deriving DecidableEq

structure PruneResponse where
  removed : List String
  kept : List HeldRecord
deriving DecidableEq

structure Detection where
  id : String
  title : String
  version : String
  contentHash : String
  tier : Int
  effect : Int
  gate : Option Gate

structure DetectionsResponse where
  detections : List Detection

/-! ## Writing and reading them -/

open Writer (text flag whole list optional object)

namespace StartResponse

def fields : List (Reader.Field StartResponse) := [
  ⟨"scan_id", .text, fun value held => { held with scanId := value }⟩]

def reader : Reader StartResponse := .message fields ⟨""⟩

def write (m : StartResponse) : Option Json := object [("scan_id", text m.scanId)]

end StartResponse

namespace ScanState

/-- `report` is deprecated: it is written as null and what is read of it is kept nowhere. -/
def fields : List (Reader.Field ScanState) := [
  ⟨"scan_id", .text, fun value held => { held with scanId := value }⟩,
  ⟨"running", .flag, fun value held => { held with running := value }⟩,
  ⟨"cause", .optional (named StopCause), fun value held => { held with cause := value }⟩,
  ⟨"progress", .optional Progress.reader, fun value held => { held with progress := value }⟩,
  ⟨"seq", u64, fun value held => { held with seq := value }⟩,
  ⟨"report", .optional .text, fun _ held => held⟩]

def reader : Reader ScanState := .message fields ⟨"", false, none, none, 0⟩

def write (m : ScanState) : Option Json := object [
  ("scan_id", text m.scanId),
  ("running", flag m.running),
  ("cause", optional (serialize StopCause) m.cause),
  ("progress", optional Progress.write m.progress),
  ("seq", whole m.seq),
  ("report", optional text none)]

end ScanState

namespace ScanListing

def fields : List (Reader.Field ScanListing) := [
  ⟨"scan_id", .text, fun value held => { held with scanId := value }⟩,
  ⟨"kind", named ScanKind, fun value held => { held with kind := value }⟩,
  ⟨"started_at", .text, fun value held => { held with startedAt := value }⟩,
  ⟨"summary", .text, fun value held => { held with summary := value }⟩,
  ⟨"planned", .optional u64, fun value held => { held with planned := value }⟩,
  ⟨"settled", .optional u64, fun value held => { held with settled := value }⟩,
  ⟨"complete", .flag, fun value held => { held with complete := value }⟩,
  ⟨"hold", named ScanHold, fun value held => { held with hold := value }⟩]

def reader : Reader ScanListing := .message fields ⟨"", 0, "", "", none, none, false, 0⟩

def write (m : ScanListing) : Option Json := object [
  ("scan_id", text m.scanId),
  ("kind", serialize ScanKind m.kind),
  ("started_at", text m.startedAt),
  ("summary", text m.summary),
  ("planned", optional whole m.planned),
  ("settled", optional whole m.settled),
  ("complete", flag m.complete),
  ("hold", serialize ScanHold m.hold)]

end ScanListing

namespace ListResponse

def fields : List (Reader.Field ListResponse) := [
  ⟨"scans", .list ScanListing.reader, fun value held => { held with scans := value }⟩]

def reader : Reader ListResponse := .message fields ⟨[]⟩

def write (m : ListResponse) : Option Json := object [("scans", list ScanListing.write m.scans)]

end ListResponse

namespace HeldRecord

def fields : List (Reader.Field HeldRecord) := [
  ⟨"scan_id", .text, fun value held => { held with scanId := value }⟩,
  ⟨"reason", .text, fun value held => { held with reason := value }⟩]

def reader : Reader HeldRecord := .message fields ⟨"", ""⟩

def write (m : HeldRecord) : Option Json := object [("scan_id", text m.scanId), ("reason", text m.reason)]

end HeldRecord

namespace PruneResponse

def fields : List (Reader.Field PruneResponse) := [
  ⟨"removed", .list .text, fun value held => { held with removed := value }⟩,
  ⟨"kept", .list HeldRecord.reader, fun value held => { held with kept := value }⟩]

def reader : Reader PruneResponse := .message fields ⟨[], []⟩

def write (m : PruneResponse) : Option Json := object [
  ("removed", list text m.removed),
  ("kept", list HeldRecord.write m.kept)]

end PruneResponse

namespace ExportResponse

def fields : List (Reader.Field ExportResponse) := [
  ⟨"document", .text, fun value held => { held with document := value }⟩,
  ⟨"format", named ExportFormat, fun value held => { held with format := value }⟩]

def reader : Reader ExportResponse := .message fields ⟨"", 0⟩

def write (m : ExportResponse) : Option Json := object [
  ("document", text m.document),
  ("format", serialize ExportFormat m.format)]

end ExportResponse

namespace DiffResponse

def fields : List (Reader.Field DiffResponse) := [
  ⟨"document", .text, fun value held => { held with document := value }⟩,
  ⟨"format", named DiffFormat, fun value held => { held with format := value }⟩]

def reader : Reader DiffResponse := .message fields ⟨"", 0⟩

def write (m : DiffResponse) : Option Json := object [
  ("document", text m.document),
  ("format", serialize DiffFormat m.format)]

end DiffResponse

/-- A gate's arm is flattened into it, so it is read of an object and of nothing else. -/
def Gate.reader : Reader Gate where
  takes value := ∃ members, value = .object members
  read := Gate.ofJson
  isSome_read value := by cases value <;> simp [Gate.ofJson]

namespace Detection

def fields : List (Reader.Field Detection) := [
  ⟨"id", .text, fun value held => { held with id := value }⟩,
  ⟨"title", .text, fun value held => { held with title := value }⟩,
  ⟨"version", .text, fun value held => { held with version := value }⟩,
  ⟨"content_hash", .text, fun value held => { held with contentHash := value }⟩,
  ⟨"tier", named DetectionTier, fun value held => { held with tier := value }⟩,
  ⟨"class", named DetectionClass, fun value held => { held with effect := value }⟩,
  ⟨"gate", .optional Gate.reader, fun value held => { held with gate := value }⟩]

def reader : Reader Detection := .message fields ⟨"", "", "", "", 0, 0, none⟩

def write (m : Detection) : Option Json := object [
  ("id", text m.id),
  ("title", text m.title),
  ("version", text m.version),
  ("content_hash", text m.contentHash),
  ("tier", serialize DetectionTier m.tier),
  ("class", serialize DetectionClass m.effect),
  ("gate", optional Gate.write m.gate)]

end Detection

namespace DetectionsResponse

def fields : List (Reader.Field DetectionsResponse) := [
  ⟨"detections", .list Detection.reader, fun value held => { held with detections := value }⟩]

def reader : Reader DetectionsResponse := .message fields ⟨[]⟩

def write (m : DetectionsResponse) : Option Json :=
  object [("detections", list Detection.write m.detections)]

end DetectionsResponse

/-! ## Reading them back in the order of the names -/

open Reader (Commuting)
open Writer (Returns sorted sortedIn sorted_optional sorted_list returns_sorted returns_optional returns_list
  returns_text returns_flag returns_whole isSome_object isSome_list isSome_optional)

theorem sorted_serialize {X : Type} [Proto.Named X] (raw : Int) :
    sorted (serialize X raw) = serialize X raw := Writer.sorted_named _ _

theorem sorted_words (x : Option String) : sorted (optional text x) = optional text x := sorted_optional x

theorem sorted_numbers (x : Option Nat) : sorted (optional whole x) = optional whole x := sorted_optional x

theorem sorted_enum {X : Type} [Proto.Named X] (x : Option Int) :
    sorted (optional (serialize X) x) = optional (serialize X) x := by
  rw [sorted_optional]
  simp only [sorted_serialize]

theorem sorted_texts (x : List String) : sorted (list text x) = list text x := sorted_list x

theorem sorted_wholes (x : List Nat) : sorted (list whole x) = list whole x := sorted_list x

theorem solid_sorted {X : Type} (members : X → List (String × Option Json)) :
    Writer.Solid fun x => sorted (object (members x)) := by
  intro x h
  obtain ⟨value, hvalue, hnull⟩ := Option.map_eq_some_iff.mp h
  obtain ⟨held, -, rfl⟩ := Option.map_eq_some_iff.mp hvalue
  cases hnull

theorem Progress.returns {m : Progress} (h : m.Typed) : Returns Progress.reader (sorted m.write) m := by
  refine returns_sorted ?_ (by simp) ?_
  · simp only [Commuting, List.pairwise_cons, List.forall_mem_cons]
    and_intros
    all_goals first | exact fun _ _ _ => rfl | simp
  · simp only [sortedIn, List.map_cons, List.map_nil, sorted_serialize, sorted_numbers]
    exact .cons rfl (returns_serialize _) (.cons rfl (returns_u64 h.stageDone)
      (.cons rfl (returns_u64 h.stageTotal) (.cons rfl (returns_u64 h.overallDone)
      (.cons rfl (returns_u64 h.overallTotal) .nil))))

theorem StartResponse.returns (m : StartResponse) : Returns StartResponse.reader (sorted m.write) m :=
  returns_sorted (List.pairwise_singleton _ _) (by simp) (.cons rfl (returns_text _) .nil)

structure ScanState.Typed (m : ScanState) : Prop where
  progress : ∀ reached ∈ m.progress, reached.Typed
  seq : m.seq ≤ u64Max

theorem ScanState.returns {m : ScanState} (h : m.Typed) : Returns ScanState.reader (sorted m.write) m := by
  refine returns_sorted ?_ (by simp) ?_
  · simp only [Commuting, ScanState.fields, List.pairwise_cons, List.forall_mem_cons]
    and_intros
    all_goals first | exact fun _ _ _ => rfl | simp
  · have hprogress : Returns (.optional Progress.reader) (sorted (optional Progress.write m.progress))
        m.progress := by
      rw [sorted_optional]
      exact returns_optional (solid_sorted _) fun reached hreached =>
        Progress.returns (h.progress reached hreached)
    simp only [sortedIn, List.map_cons, List.map_nil, sorted_enum, sorted_words, Writer.sorted_text,
      Writer.sorted_flag, Writer.sorted_whole]
    exact .cons rfl (returns_text _) (.cons rfl (returns_flag _) (.cons rfl (returns_enum _)
      (.cons rfl hprogress (.cons rfl (returns_whole h.seq) (.cons rfl (returns_words _) .nil)))))

structure ScanListing.Typed (m : ScanListing) : Prop where
  planned : ∀ n ∈ m.planned, n ≤ u64Max
  settled : ∀ n ∈ m.settled, n ≤ u64Max

theorem ScanListing.returns {m : ScanListing} (h : m.Typed) :
    Returns ScanListing.reader (sorted m.write) m := by
  refine returns_sorted ?_ (by simp) ?_
  · simp only [Commuting, ScanListing.fields, List.pairwise_cons, List.forall_mem_cons]
    and_intros
    all_goals first | exact fun _ _ _ => rfl | simp
  · simp only [sortedIn, List.map_cons, List.map_nil, sorted_serialize, sorted_numbers, Writer.sorted_text,
      Writer.sorted_flag]
    exact .cons rfl (returns_text _) (.cons rfl (returns_serialize _) (.cons rfl (returns_text _)
      (.cons rfl (returns_text _) (.cons rfl (returns_u64 h.planned) (.cons rfl (returns_u64 h.settled)
      (.cons rfl (returns_flag _) (.cons rfl (returns_serialize _) .nil)))))))

theorem ListResponse.returns {m : ListResponse} (h : ∀ entry ∈ m.scans, entry.Typed) :
    Returns ListResponse.reader (sorted m.write) m := by
  refine returns_sorted (List.pairwise_singleton _ _) (by simp) (.cons rfl ?_ .nil)
  rw [sorted_list]
  exact returns_list fun entry hentry => ScanListing.returns (h entry hentry)

theorem HeldRecord.returns (m : HeldRecord) : Returns HeldRecord.reader (sorted m.write) m := by
  refine returns_sorted ?_ (by simp) (.cons rfl (returns_text _) (.cons rfl (returns_text _) .nil))
  simp only [Commuting, HeldRecord.fields, List.pairwise_cons, List.forall_mem_cons]
  and_intros
  all_goals first | exact fun _ _ _ => rfl | simp

theorem PruneResponse.returns (m : PruneResponse) : Returns PruneResponse.reader (sorted m.write) m := by
  refine returns_sorted ?_ (by simp) (.cons rfl ?_ (.cons rfl ?_ .nil))
  · simp only [Commuting, PruneResponse.fields, List.pairwise_cons, List.forall_mem_cons]
    and_intros
    all_goals first | exact fun _ _ _ => rfl | simp
  · rw [sorted_texts]
    exact returns_texts _
  · rw [sorted_list]
    exact returns_list fun held _ => HeldRecord.returns held

theorem ExportResponse.returns (m : ExportResponse) : Returns ExportResponse.reader (sorted m.write) m := by
  refine returns_sorted ?_ (by simp) (.cons rfl (returns_text _) (.cons rfl ?_ .nil))
  · simp only [Commuting, ExportResponse.fields, List.pairwise_cons, List.forall_mem_cons]
    and_intros
    all_goals first | exact fun _ _ _ => rfl | simp
  · rw [sorted_serialize]
    exact returns_serialize _

theorem DiffResponse.returns (m : DiffResponse) : Returns DiffResponse.reader (sorted m.write) m := by
  refine returns_sorted ?_ (by simp) (.cons rfl (returns_text _) (.cons rfl ?_ .nil))
  · simp only [Commuting, DiffResponse.fields, List.pairwise_cons, List.forall_mem_cons]
    and_intros
    all_goals first | exact fun _ _ _ => rfl | simp
  · rw [sorted_serialize]
    exact returns_serialize _

theorem PortGate.returns {m : PortGate} (hport : ∀ n ∈ m.port, n ≤ u32Max)
    (hports : ∀ n ∈ m.ports, n ≤ u32Max) :
    Returns PortGate.reader (sorted m.write) m := by
  refine returns_sorted ?_ (by simp) ?_
  · simp only [Commuting, List.pairwise_cons, List.forall_mem_cons]
    and_intros
    all_goals first | exact fun _ _ _ => rfl | simp
  · simp only [sortedIn, List.map_cons, List.map_nil, sorted_words, sorted_texts, sorted_numbers, sorted_wholes]
    exact .cons rfl (returns_words _) (.cons rfl (returns_texts _) (.cons rfl (returns_u32 hport)
      (.cons rfl (returns_u32s hports) (.cons rfl (returns_words _) (.cons rfl (returns_words _) .nil)))))

theorem HostGate.returns {m : HostGate} (h : ∀ n ∈ m.portsOpen, n ≤ u32Max) :
    Returns HostGate.reader (sorted m.write) m := by
  refine returns_sorted ?_ (by simp) ?_
  · simp only [Commuting, List.pairwise_cons, List.forall_mem_cons]
    and_intros
    all_goals first | exact fun _ _ _ => rfl | simp
  · simp only [sortedIn, List.map_cons, List.map_nil, sorted_texts, sorted_wholes]
    exact .cons rfl (returns_u32s h) (.cons rfl (returns_texts _) .nil)

theorem Gate.returns {m : Gate} (h : ∀ against ∈ m.against, against.Typed) :
    Returns Gate.reader (sorted m.write) m := by
  intro value hvalue
  obtain ⟨plain, hplain, rfl⟩ := Option.map_eq_some_iff.mp hvalue
  obtain ⟨against⟩ := m
  obtain ⟨members, hmembers, rfl⟩ := Option.map_eq_some_iff.mp hplain
  cases against with
  | none =>
    cases hmembers
    rfl
  | some against =>
    obtain ⟨told, htold, hnil⟩ := Option.bind_eq_some_iff.mp hmembers
    cases hnil
    show some (Gate.mk (Writer.readArm Against.arms [(against.name, told.sorted)])) = _
    have htyped := h against rfl
    have hread : Writer.readArm Against.arms [(against.name, told.sorted)] = some against := by
      cases against with
      | port gate =>
        refine Writer.readArm_self rfl (PortGate.returns htyped.1 htyped.2 told.sorted ?_)
        exact congrArg (Option.map Json.sorted) htold
      | host gate =>
        refine Writer.readArm_self rfl (HostGate.returns htyped told.sorted ?_)
        exact congrArg (Option.map Json.sorted) htold
    rw [hread]

theorem Detection.returns {m : Detection} (h : ∀ gate ∈ m.gate, ∀ against ∈ gate.against, against.Typed) :
    Returns Detection.reader (sorted m.write) m := by
  refine returns_sorted ?_ (by simp) ?_
  · simp only [Commuting, Detection.fields, List.pairwise_cons, List.forall_mem_cons]
    and_intros
    all_goals first | exact fun _ _ _ => rfl | simp
  · have hgate : Returns (.optional Gate.reader) (sorted (optional Gate.write m.gate)) m.gate := by
      rw [sorted_optional]
      exact returns_optional (solid_sorted _) fun gate hgate => Gate.returns (h gate hgate)
    simp only [sortedIn, List.map_cons, List.map_nil, sorted_serialize, Writer.sorted_text]
    exact .cons rfl (returns_text _) (.cons rfl (returns_text _) (.cons rfl (returns_text _)
      (.cons rfl (returns_text _) (.cons rfl (returns_serialize _) (.cons rfl (returns_serialize _)
      (.cons rfl hgate .nil))))))

theorem DetectionsResponse.returns {m : DetectionsResponse}
    (h : ∀ entry ∈ m.detections, ∀ gate ∈ entry.gate, ∀ against ∈ gate.against, against.Typed) :
    Returns DetectionsResponse.reader (sorted m.write) m := by
  refine returns_sorted (List.pairwise_singleton _ _) (by simp) (.cons rfl ?_ .nil)
  rw [sorted_list]
  exact returns_list fun entry hentry => Detection.returns (h entry hentry)

/-! ## One of them -/

/-- What a method answers with, other than `watch`. -/
inductive Answer
  | started (m : StartResponse)
  | state (m : ScanState)
  | listing (m : ListResponse)
  | pruned (m : PruneResponse)
  | exported (m : ExportResponse)
  | compared (m : DiffResponse)
  | detections (m : DetectionsResponse)

namespace Answer

def write : Answer → Option Json
  | .started m => m.write
  | .state m => m.write
  | .listing m => m.write
  | .pruned m => m.write
  | .exported m => m.write
  | .compared m => m.write
  | .detections m => m.write

/-- The enum fields hold numbers the schema declares. -/
def Known : Answer → Prop
  | .state m => (∀ cause ∈ m.cause, Declared StopCause cause) ∧
    ∀ reached ∈ m.progress, Declared Stage reached.stage
  | .listing m => ∀ entry ∈ m.scans, Declared ScanKind entry.kind ∧ Declared ScanHold entry.hold
  | .exported m => Declared ExportFormat m.format
  | .compared m => Declared DiffFormat m.format
  | .detections m => ∀ entry ∈ m.detections, Declared DetectionTier entry.tier ∧
    Declared DetectionClass entry.effect
  | _ => True

/-- The numbers fit the types they have. -/
def Typed : Answer → Prop
  | .state m => m.Typed
  | .listing m => ∀ entry ∈ m.scans, entry.Typed
  | .detections m => ∀ entry ∈ m.detections, ∀ gate ∈ entry.gate, ∀ against ∈ gate.against, against.Typed
  | _ => True

/-- The value is read as the answer. -/
def ReadFrom (value : Json) : Answer → Prop
  | .started m => StartResponse.reader.read value = some m
  | .state m => ScanState.reader.read value = some m
  | .listing m => ListResponse.reader.read value = some m
  | .pruned m => PruneResponse.reader.read value = some m
  | .exported m => ExportResponse.reader.read value = some m
  | .compared m => DiffResponse.reader.read value = some m
  | .detections m => DetectionsResponse.reader.read value = some m

theorem isSome_progress (m : Progress) : m.write.isSome ↔ Declared Stage m.stage := by
  simp [Progress.write, isSome_object, isSome_serialize, isSome_numbers]

theorem isSome_listing (m : ScanListing) :
    m.write.isSome ↔ Declared ScanKind m.kind ∧ Declared ScanHold m.hold := by
  have htext : ∀ x, (text x).isSome := fun _ => rfl
  have hflag : ∀ x, (flag x).isSome := fun _ => rfl
  simp [ScanListing.write, isSome_object, isSome_serialize, isSome_numbers, htext, hflag]

theorem isSome_detection (m : Detection) :
    m.write.isSome ↔ Declared DetectionTier m.tier ∧ Declared DetectionClass m.effect := by
  have htext : ∀ x, (text x).isSome := fun _ => rfl
  have hgate : (optional Gate.write m.gate).isSome := isSome_optional.mpr fun gate _ => Gate.isSome_write gate
  simp [Detection.write, isSome_object, isSome_serialize, htext, hgate]

/-- **An answer is written just where its enum fields hold what the schema declares.** -/
theorem isSome_write (answer : Answer) : answer.write.isSome ↔ answer.Known := by
  have htext : ∀ x, (text x).isSome := fun _ => rfl
  have hflag : ∀ x, (flag x).isSome := fun _ => rfl
  have hwhole : ∀ x, (whole x).isSome := fun _ => rfl
  cases answer with
  | started m => simp [write, StartResponse.write, isSome_object, Known, htext]
  | state m =>
    simp [write, ScanState.write, isSome_object, isSome_serialize, isSome_optional, isSome_progress, Known,
      htext, hflag, hwhole]
  | listing m => simp [write, ListResponse.write, isSome_object, isSome_list, isSome_listing, Known]
  | pruned m =>
    have hheld : (list HeldRecord.write m.kept).isSome :=
      isSome_list.mpr fun held _ => by simp [HeldRecord.write, isSome_object, htext]
    simp [write, PruneResponse.write, isSome_object, isSome_texts, hheld, Known]
  | exported m => simp [write, ExportResponse.write, isSome_object, isSome_serialize, Known, htext]
  | compared m => simp [write, DiffResponse.write, isSome_object, isSome_serialize, Known, htext]
  | detections m => simp [write, DetectionsResponse.write, isSome_object, isSome_list, isSome_detection, Known]

/-- **And it is read back as it was.** -/
theorem readFrom_sorted {answer : Answer} (h : answer.Typed) {value : Json}
    (hvalue : sorted answer.write = some value) : answer.ReadFrom value := by
  cases answer with
  | started m => exact m.returns value hvalue
  | state m => exact ScanState.returns h value hvalue
  | listing m => exact ListResponse.returns h value hvalue
  | pruned m => exact m.returns value hvalue
  | exported m => exact m.returns value hvalue
  | compared m => exact m.returns value hvalue
  | detections m => exact DetectionsResponse.returns h value hvalue

end Answer

end Proto

end ZondDaemon
