import ZondDaemon.Base.Json
import ZondDaemon.Base.Lines
import ZondDaemon.Start.Prepare

/-!
# The audit's file

What `Audit` of `audit.rs` makes of its file. An entry is a JSON object on a line, appended in one write that
may fail with any part of the line already there, and the file is what the writes of its whole history
appended, one after the other. A line torn off stays, and the next entry goes on in it: an entry stands on a
line of its own exactly where no line was left torn before it (`accounted_iff`).
-/

namespace ZondDaemon

open Json (newline)
open Lines (cut)

namespace AuditEntry

def texts (values : List String) : Json := .array (values.map .string)

/-- The object the entry is written as. -/
def toJson : AuditEntry → Json
  | .started at' scanId kind targets => .obj [("at", .string at'), ("event", .string "started"),
      ("scan_id", .string scanId), ("kind", .string kind), ("targets", texts targets)]
  | .refused at' kind targets code detail => .obj [("at", .string at'), ("event", .string "refused"),
      ("kind", .string kind), ("targets", texts targets), ("code", .string code),
      ("detail", .string detail)]

def line (entry : AuditEntry) : List UInt8 := entry.toJson.bytes ++ [newline]

end AuditEntry

namespace AuditFile

/-- How a write comes out: as a whole, or failing with so many bytes of the line in the file. -/
inductive Outcome
  | whole
  | failed (written : Nat) (broken : String)
deriving DecidableEq

/-- What the write is answered with. -/
def Outcome.answer : Outcome → Except String Unit
  | .whole => .ok ()
  | .failed _ broken => .error broken

structure Write where
  entry : AuditEntry
  outcome : Outcome

namespace Write

/-- What a write leaves in the file. -/
def appended (w : Write) : List UInt8 :=
  match w.outcome with
  | .whole => w.entry.line
  | .failed written _ => w.entry.line.take written

/-- The line is all there. -/
def Whole (w : Write) : Prop := w.appended = w.entry.line

/-- Some of the line is there and some is not. -/
def Torn (w : Write) : Prop := 0 < w.appended.length ∧ w.appended.length < w.entry.line.length

theorem appended_prefix (w : Write) : w.appended <+: w.entry.line := by
  unfold appended
  split
  · exact List.prefix_refl _
  · exact List.take_prefix _ _

theorem Torn.not_whole {w : Write} (h : w.Torn) : ¬ w.Whole := fun hwhole => by
  rw [Torn, hwhole] at h
  omega

theorem appended_nil {w : Write} (hwhole : ¬ w.Whole) (htorn : ¬ w.Torn) : w.appended = [] := by
  by_contra hne
  have hle := w.appended_prefix.length_le
  refine htorn ⟨List.length_pos_of_ne_nil hne, Nat.lt_of_le_of_ne hle fun heq => ?_⟩
  exact hwhole (w.appended_prefix.eq_of_length heq)

theorem Torn.newline_not_mem {w : Write} (h : w.Torn) : newline ∉ w.appended := by
  obtain ⟨more, hmore⟩ := w.appended_prefix
  have hpre : w.appended <+: w.entry.toJson.bytes := by
    rcases List.prefix_concat_iff.mp w.appended_prefix with heq | hpre
    · exact absurd heq h.not_whole
    · exact hpre
  exact fun hmem => Json.newline_not_mem_bytes _ (hpre.subset hmem)

end Write

/-- What the writes leave in the file, one after the other. -/
def file (history : List Write) : List UInt8 := history.flatMap Write.appended

/-- Every line torn off has been ended since by one that is all there. -/
def Settled (history : List Write) : Prop := ∀ earlier w later, history = earlier ++ w :: later →
  w.Torn → ∃ other ∈ later, other.Whole

variable {history before after : List Write} {w : Write} {entry : AuditEntry}

theorem settled_concat : Settled (history ++ [w]) ↔ w.Whole ∨ (Settled history ∧ ¬ w.Torn) := by
  constructor
  · intro h
    by_cases hwhole : w.Whole
    · exact .inl hwhole
    · refine .inr ⟨fun earlier torn later heq htorn => ?_, fun htorn => ?_⟩
      · obtain ⟨other, hother, hends⟩ := h earlier torn (later ++ [w]) (by simp [heq]) htorn
        rcases List.mem_append.mp hother with hother | hother
        · exact ⟨other, hother, hends⟩
        · rw [List.mem_singleton.mp hother] at hends
          exact absurd hends hwhole
      · obtain ⟨other, hother, -⟩ := h history w [] rfl htorn
        cases hother
  · intro h earlier torn later heq htorn
    rcases List.eq_nil_or_concat later with rfl | ⟨later', last, rfl⟩
    · obtain ⟨-, hlast⟩ := List.append_inj' heq rfl
      cases hlast
      rcases h with hwhole | ⟨-, hnot⟩
      · exact absurd hwhole htorn.not_whole
      · exact absurd htorn hnot
    · rw [List.concat_eq_append] at heq ⊢
      rw [← List.cons_append, ← List.append_assoc] at heq
      obtain ⟨hhistory, hlast⟩ := List.append_inj' heq rfl
      cases hlast
      rcases h with hwhole | ⟨hsettled, -⟩
      · exact ⟨w, List.mem_concat_self, hwhole⟩
      · obtain ⟨other, hother, hends⟩ := hsettled earlier torn later' hhistory htorn
        exact ⟨other, List.mem_append_left _ hother, hends⟩

theorem file_concat : file (history ++ [w]) = file history ++ w.appended := by
  rw [file, List.flatMap_append, List.flatMap_singleton]
  rfl

theorem rest_eq_nil_iff (history : List Write) : (cut newline (file history)).rest = [] ↔ Settled history := by
  induction history using List.reverseRecOn with
  | nil => exact ⟨fun _ earlier w later heq => by simp at heq, fun _ => rfl⟩
  | append_singleton history w ih =>
    rw [file_concat, settled_concat]
    by_cases hwhole : w.Whole
    · rw [hwhole, AuditEntry.line, Lines.cut_append_line (Json.newline_not_mem_bytes _)]
      simp [hwhole]
    · by_cases htorn : w.Torn
      · rw [Lines.cut_append htorn.newline_not_mem]
        have hsome : w.appended ≠ [] := List.ne_nil_of_length_pos htorn.1
        simp [hwhole, htorn, hsome]
      · rw [Write.appended_nil hwhole htorn, List.append_nil, ih]
        simp [hwhole, htorn]

/-- The line an entry stands on, once its write went through: what stood there before, and the entry. -/
theorem line_of_entry (before after : List Write) (entry : AuditEntry) :
    (cut newline (file (before ++ ⟨entry, .whole⟩ :: after))).whole[(cut newline (file before)).whole.length]? =
      some ((cut newline (file before)).rest ++ entry.toJson.bytes) := by
  have hline : (cut newline (file (before ++ [⟨entry, .whole⟩]))).whole =
      (cut newline (file before)).whole ++ [(cut newline (file before)).rest ++ entry.toJson.bytes] := by
    rw [file_concat]
    show (cut newline (_ ++ entry.line)).whole = _
    rw [AuditEntry.line, Lines.cut_append_line (Json.newline_not_mem_bytes _)]
  have hfile : file (before ++ ⟨entry, .whole⟩ :: after) =
      file (before ++ [⟨entry, .whole⟩]) ++ file after := by
    rw [List.append_cons, file, List.flatMap_append]
    rfl
  obtain ⟨more, hmore⟩ := Lines.whole_prefix newline (file (before ++ [⟨entry, .whole⟩])) (file after)
  rw [hfile, ← hmore, hline, List.append_assoc, List.getElem?_append_right (Nat.le_refl _), Nat.sub_self]
  rfl

/-- **An entry whose write went through stands on a line of its own exactly where no line was left torn
before it.** The line it stands on is the one after those that were whole by then. -/
theorem accounted_iff (before after : List Write) (entry : AuditEntry) :
    (cut newline (file (before ++ ⟨entry, .whole⟩ :: after))).whole[(cut newline (file before)).whole.length]? =
      some entry.toJson.bytes ↔ Settled before := by
  rw [line_of_entry, ← rest_eq_nil_iff]
  simp

/-- A start is written down as it begins, and the disk is full half way; the disk is cleared, and another
start is written down. -/
def filled : Write := ⟨.started "10:00" "A" "port_scan" ["10"], .failed 9 "no space left on device"⟩

def cleared : Write := ⟨.started "10:05" "B" "port_scan" ["11"], .whole⟩

/-- The second start's write went through, and no line of the file is its entry. -/
theorem not_accounted : cleared.outcome.answer = .ok () ∧
    cleared.entry.toJson.bytes ∉ (cut newline (file [filled, cleared])).whole ∧
    (cut newline (file [filled, cleared])).whole =
      [filled.entry.toJson.bytes.take 9 ++ cleared.entry.toJson.bytes] := by
  refine ⟨rfl, ?_, ?_⟩
  · decide +kernel
  · decide +kernel

/-! ## Every scan that ran -/

open Start (Trace)

variable {E : Engine}

/-- **A scan that ran is accounted for by a line of the file**: where its start asked the engine, with the
audit on and every write of the start's being one of the file's, and no line was left torn before its
`started` entry. -/
theorem accounted {Canonical : E.IpSet → Prop} (laws : IpSetLaws E Canonical) {rules : Rules E}
    {allowed denied : List String} (hscope : Scope.read allowed denied = .ok rules.scope)
    {request : Request E} {slot : Option Slot} {t : Trace E} {q : Query E}
    (hasks : (request.pipeline rules slot).Asks t q) (hcall : q.engineCall = true)
    (haudit : rules.audit.configured = true)
    (hwrites : ∀ entry, ⟨.auditWrite entry, .ok ()⟩ ∈ t → ⟨entry, .whole⟩ ∈ history)
    (hsettled : ∀ earlier w later, history = earlier ++ w :: later → w.outcome = .whole → Settled earlier) :
    ∃ id at' kind targets, Start.Recorded t id ∧
      (AuditEntry.started at' id kind targets).toJson.bytes ∈ (cut newline (file history)).whole := by
  have hgated := Start.gated_pipeline laws hscope request slot
  obtain ⟨-, -, hwritten⟩ := (hgated.asked hasks).gated hcall
  obtain ⟨id, at', kind, targets, hmem⟩ := hwritten haudit
  obtain ⟨before, after, rfl⟩ := List.append_of_mem (hwrites _ hmem)
  refine ⟨id, at', kind, targets, ⟨at', kind, targets, hmem⟩, ?_⟩
  have hline := line_of_entry before after (.started at' id kind targets)
  rw [(rest_eq_nil_iff before).mpr (hsettled before _ after rfl rfl), List.nil_append] at hline
  exact List.mem_of_getElem? hline

end AuditFile

end ZondDaemon
