import ZondDaemon.Base.Sorted
import ZondDaemon.Server.Tasks
import ZondDaemon.Stdio.Speak

/-!
# A client with several requests at once

`Zond` of `examples/scan.ts`, reading the lines of one connection: each frame goes to the handlers that wait
under its id, an event to the stream and anything else to the answer, which takes both away. Where no two of
its requests have the same id, each is handed its own frames, in order and all of them, however the daemon
interleaves what it writes (`handed`).
-/

namespace ZondDaemon

open Sequence (said)

variable {E : Engine}

namespace Client

/-- What waits under an id, and what it has been given. -/
structure Waiting where
  /-- `#answers` has the id. -/
  answers : Bool
  /-- `#streams` has the id. -/
  streams : Bool
  events : List Json
  /-- How the promise came out: rejected with an error, or resolved. -/
  settled : Option (Except Json Json)

def numberOf : Json → Option Nat
  | .number (.posInt id) => some id
  | _ => none

/-- The id of a frame, where it is one a client gives. -/
def idOf (frame : Json) : Option Nat := (frame.member "id").bind numberOf

theorem numberOf_eq_some {id : Json} {n : Nat} : numberOf id = some n ↔ id = .number (.posInt n) := by
  unfold numberOf
  split <;> simp_all

/-- How an answer comes out. -/
def outcome (frame : Json) : Except Json Json :=
  match frame.member "error" with
  | some error => .error error
  | none => .ok ((frame.member "result").getD .null)

/-- A frame under the id. What `event` and `error` hold is an object, so they are there or they are not. -/
def Waiting.takes (w : Waiting) (frame : Json) : Waiting :=
  match frame.member "event" with
  | some event => if w.streams then { w with events := w.events ++ [event] } else w
  | none => if w.answers then ⟨false, false, w.events, some (outcome frame)⟩ else w

/-- What a client does with its connection. -/
inductive Move
  /-- It asks, by `#call` or by `watch`. -/
  | asks (streams : Bool)
  /-- It is given a line of the daemon's. -/
  | hears (frame : Json)

def Move.asking : Move → Bool
  | .asks _ => true
  | .hears _ => false

def Move.heard : Move → Option Json
  | .asks _ => none
  | .hears frame => some frame

/-- The number of its next request, and what waits under each. -/
structure Zond where
  next : Nat
  waits : Nat → Waiting

namespace Zond

def fresh : Zond := ⟨1, fun _ => ⟨false, false, [], none⟩⟩

/-- The handlers are there before the request is written. -/
def asks (zond : Zond) (streams : Bool) : Zond :=
  ⟨zond.next + 1, Function.update zond.waits zond.next ⟨true, streams, [], none⟩⟩

/-- A line of the daemon's. -/
def onLine (zond : Zond) (frame : Json) : Zond :=
  match idOf frame with
  | none => zond
  | some id => ⟨zond.next, Function.update zond.waits id ((zond.waits id).takes frame)⟩

def goes (zond : Zond) : Move → Zond
  | .asks streams => zond.asks streams
  | .hears frame => zond.onLine frame

def through (zond : Zond) (moves : List Move) : Zond := moves.foldl goes zond

/-! ## One id at a time -/

variable {zond : Zond} {moves before after : List Move} {frame : Json} {id : Nat} {streams : Bool}

theorem asks_next : (zond.asks streams).next = zond.next + 1 := rfl

theorem onLine_next : (zond.onLine frame).next = zond.next := by
  unfold onLine
  cases idOf frame <;> rfl

theorem onLine_self (h : idOf frame = some id) :
    (zond.onLine frame).waits id = (zond.waits id).takes frame := by
  unfold onLine
  rw [h]
  exact Function.update_self ..

theorem onLine_of_ne (h : idOf frame ≠ some id) : (zond.onLine frame).waits id = zond.waits id := by
  unfold onLine
  cases hother : idOf frame with
  | none => rfl
  | some other =>
    refine Function.update_of_ne ?_ ..
    rintro rfl
    exact h hother

theorem waits_through (h : id < zond.next) : (zond.through moves).waits id =
    ((moves.filterMap Move.heard).filter fun frame => idOf frame = some id).foldl Waiting.takes
      (zond.waits id) := by
  induction moves generalizing zond with
  | nil => rfl
  | cons move rest ih =>
    have hrest : zond.through (move :: rest) = (zond.goes move).through rest := rfl
    rw [hrest]
    cases move with
    | asks streams =>
      have hself : (zond.asks streams).waits id = zond.waits id := Function.update_of_ne (Nat.ne_of_lt h) ..
      rw [List.filterMap_cons_none rfl, goes, ih (Nat.lt_succ_of_lt h), hself]
    | hears frame =>
      have hheard : (Move.hears frame :: rest).filterMap Move.heard = frame :: rest.filterMap Move.heard := rfl
      rw [hheard, goes, ih (onLine_next.symm ▸ h)]
      by_cases hid : idOf frame = some id
      · rw [List.filter_cons_of_pos (by simpa using hid), List.foldl_cons, onLine_self hid]
      · rw [List.filter_cons_of_neg (by simpa using hid), onLine_of_ne hid]

theorem next_through : (zond.through moves).next = zond.next + moves.countP Move.asking := by
  induction moves generalizing zond with
  | nil => rfl
  | cons move rest ih =>
    have hrest : zond.through (move :: rest) = (zond.goes move).through rest := rfl
    rw [hrest, ih]
    cases move with
    | asks streams =>
      rw [List.countP_cons_of_pos rfl, goes, asks_next]
      omega
    | hears frame => rw [List.countP_cons_of_neg (by simp [Move.asking]), goes, onLine_next]

theorem waits_asked (hbefore : ∀ frame ∈ before.filterMap Move.heard,
    idOf frame ≠ some (before.countP Move.asking + 1)) :
    (fresh.through (before ++ .asks streams :: after)).waits (before.countP Move.asking + 1) =
      (((before ++ .asks streams :: after).filterMap Move.heard).filter
        fun frame => idOf frame = some (before.countP Move.asking + 1)).foldl Waiting.takes
          ⟨true, streams, [], none⟩ := by
  have hnext : (fresh.through before).next = before.countP Move.asking + 1 :=
    next_through.trans (Nat.add_comm ..)
  have hthrough : fresh.through (before ++ .asks streams :: after) =
      ((fresh.through before).asks streams).through after := List.foldl_append
  have hnone : (before.filterMap Move.heard).filter
      (fun frame => idOf frame = some (before.countP Move.asking + 1)) = [] :=
    List.filter_eq_nil_iff.mpr fun frame hframe => by simpa using hbefore frame hframe
  have hself : ((fresh.through before).asks streams).waits (before.countP Move.asking + 1) =
      ⟨true, streams, [], none⟩ := hnext ▸ Function.update_self ..
  rw [hthrough, waits_through (by rw [asks_next, hnext]; omega), hself, List.filterMap_append,
    List.filter_append, hnone, List.nil_append, List.filterMap_cons_none rfl]

end Zond

theorem takes_event {frame event : Json} {w : Waiting} (h : frame.member "event" = some event)
    (hstreams : w.streams = true) : w.takes frame = { w with events := w.events ++ [event] } := by
  rw [Waiting.takes, h]
  exact if_pos hstreams

theorem takes_last {frame : Json} {w : Waiting} (h : frame.member "event" = none)
    (hanswers : w.answers = true) :
    w.takes frame = ⟨false, false, w.events, some (outcome frame)⟩ := by
  rw [Waiting.takes, h]
  exact if_pos hanswers

end Client

/-! ## The frames of the daemon -/

namespace Stdio.Frame

/-- What an event says. -/
def told : Frame → Option Json
  | .event _ told => some told
  | _ => none

/-- How a promise comes out by the end of an answer, which says nothing more where a watch is over. -/
def settles : Frame → Except Json Json
  | .result _ answer => .ok answer
  | .error _ refused => .error (.obj [("code", .string refused.code), ("message", .string refused.message)])
  | _ => .ok .null

variable {frame : Frame}

theorem member_id : frame.toJson.member "id" = some frame.id := by
  cases frame <;> exact (Json.member_pair (by decide)).trans (if_pos rfl)

theorem member_event : frame.toJson.member "event" = frame.told := by
  cases frame <;> exact Json.member_pair (by decide)

theorem outcome_toJson (h : frame.terminal = true) : Client.outcome frame.toJson = frame.settles := by
  cases frame with
  | event => cases h
  | result id answer =>
    rw [Client.outcome, toJson, Json.member_pair (by decide), Json.member_pair (by decide)]
    rfl
  | error id refused =>
    rw [Client.outcome, toJson, Json.member_pair (by decide)]
    rfl
  | ended id =>
    rw [Client.outcome, toJson, Json.member_pair (by decide), Json.member_pair (by decide)]
    rfl

theorem idOf_toJson {n : Nat} : Client.idOf frame.toJson = some n ↔ frame.id = .number (.posInt n) := by
  rw [Client.idOf, member_id, Option.bind_some, Client.numberOf_eq_some]

end Stdio.Frame

namespace Client

open Stdio (Answered Streaming)

variable {r : Stdio.Request} {frames : List Stdio.Frame} {w : Waiting}

/-! ## The frames of one answer -/

theorem takes_streaming (h : Streaming r frames) (hw : w.streams = true ∨ r.method ≠ "watch") :
    (frames.map Stdio.Frame.toJson).foldl Waiting.takes w =
      { w with events := w.events ++ frames.filterMap Stdio.Frame.told } := by
  obtain ⟨told, rfl, hmethod⟩ := h
  rcases hmethod with rfl | hwatch
  · simp
  · have hstreams : w.streams = true := hw.resolve_right fun hother => hother hwatch
    clear hw hwatch
    induction told generalizing w with
    | nil => simp
    | cons one rest ih =>
      have htold : ((Stdio.Frame.event r.id one) :: rest.map (Stdio.Frame.event r.id)).filterMap
          Stdio.Frame.told =
          one :: (rest.map (Stdio.Frame.event r.id)).filterMap Stdio.Frame.told := List.filterMap_cons_some rfl
      rw [List.map_cons, List.map_cons, List.foldl_cons, takes_event Stdio.Frame.member_event hstreams,
        ih (w := { w with events := w.events ++ [one] }) hstreams, htold, List.append_assoc]
      rfl

theorem find_streaming (h : Streaming r frames) : frames.find? Stdio.Frame.terminal = none := by
  obtain ⟨told, rfl, -⟩ := h
  simp [List.find?_eq_none, Stdio.Frame.terminal]

theorem takes_answered (h : Answered r frames) (hw : w.streams = true ∨ r.method ≠ "watch")
    (hanswers : w.answers = true) : (frames.map Stdio.Frame.toJson).foldl Waiting.takes w =
      ⟨false, false, w.events ++ frames.filterMap Stdio.Frame.told,
        (frames.find? Stdio.Frame.terminal).map Stdio.Frame.settles⟩ := by
  obtain ⟨told, last, rfl, hstreaming, -, hlast⟩ := h
  have htold : last.told = none := by
    cases last with
    | event => cases hlast
    | _ => rfl
  have hevents : (told ++ [last]).filterMap Stdio.Frame.told = told.filterMap Stdio.Frame.told := by
    rw [List.filterMap_append, List.filterMap_cons_none htold, List.filterMap_nil, List.append_nil]
  have hfind : (told ++ [last]).find? Stdio.Frame.terminal = some last := by
    rw [List.find?_append, find_streaming hstreaming, Option.none_or, List.find?_cons_of_pos hlast]
  rw [hevents, hfind, List.map_append, List.foldl_append, takes_streaming hstreaming hw]
  refine (takes_last (w := { w with events := w.events ++ told.filterMap Stdio.Frame.told })
    (Stdio.Frame.member_event.trans htold) hanswers).trans ?_
  rw [Stdio.Frame.outcome_toJson hlast]
  rfl

theorem find_answered (h : Answered r frames) : (frames.find? Stdio.Frame.terminal).isSome = true := by
  obtain ⟨told, last, rfl, -, -, hlast⟩ := h
  rw [List.find?_isSome]
  exact ⟨last, List.mem_concat_self, hlast⟩

theorem id_of_streaming (h : Streaming r frames) : ∀ frame ∈ frames, frame.id = r.id := by
  obtain ⟨told, rfl, -⟩ := h
  intro frame hframe
  obtain ⟨one, -, rfl⟩ := List.mem_map.mp hframe
  rfl

theorem id_of_answered (h : Answered r frames) : ∀ frame ∈ frames, frame.id = r.id := by
  obtain ⟨told, last, rfl, hstreaming, hlast, -⟩ := h
  intro frame hframe
  rcases List.mem_append.mp hframe with hframe | hframe
  · exact id_of_streaming hstreaming frame hframe
  · rw [List.mem_singleton.mp hframe]
    exact hlast

end Client

namespace Stdio.Connection

variable {serde : Serde E.F64} {input : List UInt8} {c : Connection E} {t : Nat} {a : Answering E}

/-- The requests are numbered from one, as they are asked. -/
def Numbered (c : Connection E) : Prop :=
  ∀ (i : Nat) (b : Answering E), c.answering[i]? = some b → b.request.id = .number (.posInt (i + 1))

theorem id_of_said (h : (machine serde).Reach Legible (opened input) c) (ha : c.answering[t]? = some a) :
    ∀ frame ∈ said some (.task t) c.written, frame.id = a.request.id := by
  have htold := told h ha
  by_cases hdone : a.done = true
  · exact Client.id_of_answered (htold.answered hdone)
  · exact Client.id_of_streaming ((Answering.told_of_not_done (Bool.eq_false_iff.mpr hdone)).mp htold).2

theorem id_of_refused (h : (machine serde).Reach Legible (opened input) c) :
    ∀ frame ∈ said some .loop c.written, frame.id = .null := by
  intro frame hframe
  have hmem := List.mem_append_left c.pending hframe
  rw [refused h, List.mem_filterMap] at hmem
  obtain ⟨line, -, hline⟩ := hmem
  unfold refusalOf at hline
  split at hline
  · cases hline
    rfl
  · cases hline

theorem filter_written (h : (machine serde).Reach Legible (opened input) c) (hnumbered : c.Numbered) :
    (c.written.map fun w => w.2.toJson).filter (fun frame => Client.idOf frame = some (t + 1)) =
      (said some (.task t) c.written).map Frame.toJson := by
  have hauthor : ∀ w ∈ c.written, Client.idOf w.2.toJson = some (t + 1) ↔ w.1 = .task t := by
    rintro ⟨p, frame⟩ hw
    rw [Frame.idOf_toJson]
    cases p with
    | loop =>
      have hnull := id_of_refused h frame (Sequence.mem_said.mpr ⟨_, hw, rfl⟩)
      simp [hnull]
    | task i =>
      have hb := List.getElem?_eq_getElem (authors h hw)
      have hunder := id_of_said h hb frame (Sequence.mem_said.mpr ⟨_, hw, rfl⟩)
      rw [hunder, hnumbered i _ hb]
      simp
  exact Sequence.filter_eq_said (p := fun frame => decide (Client.idOf frame = some (t + 1)))
    fun w hw => decide_eq_true_iff.trans (hauthor w hw)

/-- What waits under the number of a request has been handed the frames of its task. -/
theorem waits_eq {before after : List Client.Move} {streams : Bool}
    (h : (machine serde).Reach Legible (opened input) c) (hnumbered : c.Numbered)
    (ha : c.answering[t]? = some a) (hasked : before.countP Client.Move.asking = t)
    (hstreams : streams = decide (a.request.method = "watch"))
    (hbefore : ∀ frame ∈ before.filterMap Client.Move.heard, Client.idOf frame ≠ some (t + 1))
    (hheard : (before ++ .asks streams :: after).filterMap Client.Move.heard =
      c.written.map fun w => w.2.toJson) :
    (Client.Zond.fresh.through (before ++ .asks streams :: after)).waits (t + 1) =
      ⟨!a.done, streams && !a.done, (said some (.task t) c.written).filterMap Frame.told,
        ((said some (.task t) c.written).find? Frame.terminal).map Frame.settles⟩ ∧
      ((said some (.task t) c.written).find? Frame.terminal).isSome = a.done := by
  have htold := told h ha
  have hwatch : streams = true ∨ a.request.method ≠ "watch" := by
    by_cases hmethod : a.request.method = "watch"
    · exact .inl (by simp [hstreams, hmethod])
    · exact .inr hmethod
  subst hasked
  rw [Client.Zond.waits_asked hbefore, hheard, filter_written h hnumbered]
  cases hdone : a.done with
  | true =>
    have hanswered := htold.answered hdone
    rw [Client.takes_answered hanswered hwatch rfl, Client.find_answered hanswered]
    simp
  | false =>
    have hstreaming := ((Answering.told_of_not_done hdone).mp htold).2
    rw [Client.takes_streaming hstreaming hwatch, Client.find_streaming hstreaming]
    simp

end Stdio.Connection

namespace Server

variable {o : Outside E} {rules : Rules E} {s : Server E} {a : Stdio.Answering E}

/-- **Each request of a client with several at once is handed its own frames**, all of them and in order: its
stream the events, its promise the end of the answer, which is when both are taken away. -/
theorem handed {P : Server E → Act E → Prop} {store : Except EngineError (List (Entry E.toEngineTypes))}
    {c t : Nat} {conn : Stdio.Connection E} (before after : List Client.Move) {streams : Bool}
    (h : (machine o rules).Reach P (fresh store) s) (hconn : s.connections[c]? = some conn)
    (hsevered : s.severed c = false) (hread : ∀ line ∈ conn.heard, Stdio.Readable line)
    (hnumbered : conn.Numbered) (ha : conn.answering[t]? = some a)
    (hasked : before.countP Client.Move.asking = t) (hstreams : streams = decide (a.request.method = "watch"))
    (hbefore : ∀ frame ∈ before.filterMap Client.Move.heard, Client.idOf frame ≠ some (t + 1))
    (hheard : (before ++ .asks streams :: after).filterMap Client.Move.heard =
      conn.written.map fun w => w.2.toJson) :
    (Client.Zond.fresh.through (before ++ .asks streams :: after)).waits (t + 1) =
      ⟨!a.done, streams && !a.done, (said some (.task t) conn.written).filterMap Stdio.Frame.told,
        ((said some (.task t) conn.written).find? Stdio.Frame.terminal).map Stdio.Frame.settles⟩ ∧
      ((said some (.task t) conn.written).find? Stdio.Frame.terminal).isSome = a.done := by
  obtain ⟨input, halways⟩ := connection_reach h hconn hsevered
  exact Stdio.Connection.waits_eq (Stdio.Connection.reach_legible halways hread) hnumbered ha hasked
    hstreams hbefore hheard

/-- What there is to see of a client that counts its requests and watches first. -/
def piped (conn : Stdio.Connection Plain.engine) : Bool :=
  (conn.answering.zipIdx.all fun b => Client.numberOf b.1.request.id == some (b.2 + 1)) &&
    decide (∀ line ∈ conn.heard, Stdio.Readable line) &&
    (conn.answering[0]?).any fun a => decide (a.request.method = "watch")

theorem numbered_of_piped {conn : Stdio.Connection Plain.engine} {a : Stdio.Answering Plain.engine}
    (h : piped conn = true) (ha : conn.answering[0]? = some a) :
    conn.Numbered ∧ (∀ line ∈ conn.heard, Stdio.Readable line) ∧
      true = decide (a.request.method = "watch") := by
  rw [piped, ha, Option.any_some, Bool.and_eq_true, Bool.and_eq_true, decide_eq_true_eq] at h
  obtain ⟨⟨hall, hreadable⟩, hwatch⟩ := h
  refine ⟨fun i b hb => ?_, hreadable, hwatch.symm⟩
  have hb' := List.all_eq_true.mp hall (b, i) (List.mk_mem_zipIdx_iff_getElem?.mpr hb)
  exact Client.numberOf_eq_some.mp (beq_iff_eq.mp hb')

theorem watcher_piped : (!answered.severed 1 && (answered.connections[1]?).any piped) = true := by
  decide +kernel

/-- A client is given all there is to read. -/
def given (conn : Stdio.Connection E) : List Client.Move := conn.written.map fun w => .hears w.2.toJson

theorem heard_of_given (conn : Stdio.Connection E) :
    ([] ++ Client.Move.asks true :: given conn).filterMap Client.Move.heard =
      conn.written.map fun w => w.2.toJson := by
  rw [List.nil_append, List.filterMap_cons_none rfl, given, List.filterMap_map]
  exact congrFun List.filterMap_eq_map _

theorem idOf_none_before : ∀ frame ∈ ([] : List Client.Move).filterMap Client.Move.heard,
    Client.idOf frame ≠ some (0 + 1) :=
  fun _ hframe => by simp at hframe

theorem handed_answered : (said some (.task 0) watcher.written).length = 2 ∧
    (Client.Zond.fresh.through ([] ++ .asks true :: given watcher)).waits (0 + 1) =
        ⟨!watchTask.done, true && !watchTask.done,
          (said some (.task 0) watcher.written).filterMap Stdio.Frame.told,
          ((said some (.task 0) watcher.written).find? Stdio.Frame.terminal).map Stdio.Frame.settles⟩ ∧
      ((said some (.task 0) watcher.written).find? Stdio.Frame.terminal).isSome = watchTask.done := by
  have hseen := watcher_piped
  rw [watcher_eq, Option.any_some, Bool.and_eq_true, Bool.not_eq_true'] at hseen
  obtain ⟨hnumbered, hreadable, hwatch⟩ := numbered_of_piped hseen.2 watchTask_eq
  have hhanded := handed [] (given watcher) (reach_started.trans reach_answered) watcher_eq hseen.1 hreadable
    hnumbered watchTask_eq rfl hwatch idOf_none_before (heard_of_given _)
  exact ⟨watcher_seen.2, hhanded⟩

end Server

end ZondDaemon
