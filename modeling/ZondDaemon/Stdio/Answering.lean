import ZondDaemon.Stdio.Connection

/-!
# What an answer comes to

One task of a connection by itself: where it stands says what it may still write (`Pc.Due`) and what it has
written so far (`Told`), events and, once it is over, the one frame that ends the answer. Its steps keep that
(`open_of_goes`, `Told.goes`), and so does its call of `frame`, which adds the frame it was in
(`Told.flushed`).
-/

namespace ZondDaemon

variable {E : Engine}

namespace Stdio

/-- Events and nothing else, and those only for `watch`. -/
def Streaming (r : Request) (frames : List Frame) : Prop :=
  ∃ told : List Json, frames = told.map (.event r.id) ∧ (told = [] ∨ r.method = "watch")

/-- A whole answer: events, only for `watch`, and one frame that ends it, under the id of the request. -/
def Answered (r : Request) (frames : List Frame) : Prop :=
  ∃ told last, frames = told ++ [last] ∧ Streaming r told ∧ last.id = r.id ∧ last.terminal = true

/-- What the answer may have come to: only a `watch` has a scan to follow, and after a frame come more events
or nothing. -/
def Pc.Due (r : Request) : Pc E → Prop
  | .spawned => True
  | .calling (.watch _ _) => r.method = "watch"
  | .calling _ => True
  | .snapshotting => r.method = "watch"
  | .telling _ _ => r.method = "watch"
  | .following _ => r.method = "watch"
  | .framing writing next =>
    (r.method = "watch" ∧ (∃ told, writing.frame = .event r.id told) ∧
        ∃ left cursor, next = .telling left cursor) ∨
      (writing.frame.id = r.id ∧ writing.frame.terminal = true ∧ next = .returned)
  | .returned => True
  | .aborted => False

namespace Answering

variable {serde : Serde E.F64} {a a' : Answering E}

theorem exists_puts_eq (a : Answering E) (w : Option Writing) : ∃ pc, a.puts w = a.goes pc := by
  unfold puts
  split
  · exact ⟨_, rfl⟩
  · exact ⟨_, rfl⟩
  · exact ⟨a.pc, rfl⟩

theorem eq_framing {writing : Writing} (h : a.writing = some writing) :
    ∃ request next, a = ⟨request, .framing writing next⟩ := by
  obtain ⟨request, pc⟩ := a
  unfold Answering.writing at h
  split at h
  · rename_i next hpc
    cases h
    exact ⟨request, next, congrArg _ hpc⟩
  · cases h

theorem writing_puts {writing writing' : Writing} (h : a.writing = some writing) :
    (a.puts (some writing')).writing = some writing' := by
  obtain ⟨request, next, rfl⟩ := eq_framing h
  rfl

theorem done_of_writing {writing : Writing} (h : a.writing = some writing) : a.done = false := by
  obtain ⟨request, next, rfl⟩ := eq_framing h
  rfl

theorem ok_of_map {ε α β : Type} {x : Except ε α} {f : α → β} {b : β} (h : f <$> x = .ok b) :
    ∃ v, x = .ok v ∧ f v = b := by
  cases x with
  | error e => cases h
  | ok v => exact ⟨v, rfl, Except.ok.inj h⟩

theorem method_of_asked {method id : String} {params : Json} {fromSeq : Nat}
    (h : asked serde method params = .ok (.watch id fromSeq)) : method = "watch" := by
  unfold asked at h
  split at h
  case h_11 => rfl
  all_goals
    first
    | cases h
    | (obtain ⟨v, -, hv⟩ := ok_of_map h
       cases hv)

/-- The answer of a task that is not over has not been ended. -/
structure Open (a : Answering E) (pc : Pc E) : Prop where
  due : a.pc.Due a.request → pc.Due a.request
  before : a.writing = none ∧ a.done = false
  after : (a.goes pc).done = false
  waits : ∀ writing, (a.goes pc).writing = some writing → writing.turn = .waiting

theorem Open.framing {frame : Frame} {next : Pc E} (hbefore : a.writing = none ∧ a.done = false)
    (hdue : a.pc.Due a.request → (Pc.framing ⟨frame, .waiting⟩ next).Due a.request) :
    a.Open (.framing ⟨frame, .waiting⟩ next) := by
  refine ⟨hdue, hbefore, rfl, ?_⟩
  intro writing hw
  cases hw
  rfl

theorem Open.last {frame : Frame} (hbefore : a.writing = none ∧ a.done = false)
    (hid : frame.id = a.request.id) (hterminal : frame.terminal = true) :
    a.Open (.framing ⟨frame, .waiting⟩ .returned) :=
  .framing hbefore fun _ => .inr ⟨hid, hterminal, rfl⟩

theorem open_of_proceed (h : a.proceed serde = some a') : ∃ pc, a' = a.goes pc ∧ a.Open pc := by
  obtain ⟨r, pc⟩ := a
  unfold proceed at h
  split at h
  · rename_i hpc
    obtain rfl : pc = .spawned := hpc
    split at h
    · rename_i call hcall
      cases h
      refine ⟨_, rfl, fun _ => ?_, ⟨rfl, rfl⟩, rfl, nofun⟩
      cases call with
      | watch id fromSeq => exact method_of_asked hcall
      | call | get | stop | detections | report | prune | list => trivial
    · cases h
      exact ⟨_, rfl, .last ⟨rfl, rfl⟩ rfl rfl⟩
  · rename_i event left cursor hpc
    obtain rfl : pc = .telling (event :: left) cursor := hpc
    cases h
    exact ⟨_, rfl, .framing ⟨rfl, rfl⟩ fun hdue => .inl ⟨hdue, ⟨_, rfl⟩, _, _, rfl⟩⟩
  · rename_i cursor hpc
    obtain rfl : pc = .telling [] cursor := hpc
    cases h
    exact ⟨_, rfl, fun hdue => hdue, ⟨rfl, rfl⟩, rfl, nofun⟩
  · cases h

theorem open_of_reply {r : Reply} (h : a.reply r = some a') : ∃ pc, a' = a.goes pc ∧ a.Open pc := by
  obtain ⟨request, pc⟩ := a
  unfold reply at h
  split at h
  · rename_i hpc
    obtain rfl : pc = _ := hpc
    cases h
    exact ⟨_, rfl, .last ⟨rfl, rfl⟩ rfl rfl⟩
  · rename_i id fromSeq hpc
    obtain rfl : pc = _ := hpc
    cases h
    by_cases hzero : fromSeq = 0
    · rw [if_pos hzero]
      exact ⟨_, rfl, fun hdue => hdue, ⟨rfl, rfl⟩, rfl, nofun⟩
    · rw [if_neg hzero]
      exact ⟨_, rfl, fun hdue => hdue, ⟨rfl, rfl⟩, rfl, nofun⟩
  · cases h
  · rename_i call answer _ hpc
    obtain rfl : pc = _ := hpc
    cases h
    exact ⟨_, rfl, .last ⟨rfl, rfl⟩ rfl rfl⟩
  · rename_i call refused _ hpc
    obtain rfl : pc = _ := hpc
    cases h
    exact ⟨_, rfl, .last ⟨rfl, rfl⟩ rfl rfl⟩
  · rename_i caughtUp hpc
    obtain rfl : pc = _ := hpc
    cases h
    exact ⟨_, rfl, fun hdue => hdue, ⟨rfl, rfl⟩, rfl, nofun⟩
  · rename_i cursor hpc
    obtain rfl : pc = _ := hpc
    cases h
    exact ⟨_, rfl, .last ⟨rfl, rfl⟩ rfl rfl⟩
  · rename_i cursor event left hpc
    obtain rfl : pc = _ := hpc
    cases h
    exact ⟨_, rfl, fun hdue => hdue, ⟨rfl, rfl⟩, rfl, nofun⟩
  · cases h

theorem open_of_goes {act : Act} {i : Nat}
    (h : act = .proceed i ∧ a.proceed serde = some a' ∨ ∃ r, act = .reply i r ∧ a.reply r = some a') :
    ∃ pc, a' = a.goes pc ∧ a.Open pc := by
  rcases h with ⟨-, h⟩ | ⟨r, -, h⟩
  · exact open_of_proceed h
  · exact open_of_reply h

/-- What a task has written, by where it stands: of an answer that is not over, the events. -/
def Told (a : Answering E) (frames : List Frame) : Prop :=
  a.pc.Due a.request ∧
    match a.pc with
    | .returned => Answered a.request frames
    | _ => Streaming a.request frames

theorem told_spawned (request : Request) : (⟨request, .spawned⟩ : Answering E).Told [] :=
  ⟨trivial, [], rfl, .inl rfl⟩

theorem told_of_not_done {frames : List Frame} (hdone : a.done = false) :
    a.Told frames ↔ a.pc.Due a.request ∧ Streaming a.request frames := by
  obtain ⟨request, pc⟩ := a
  unfold Told
  split
  · rename_i hpc
    obtain rfl : pc = _ := hpc
    cases hdone
  · rfl

theorem Told.goes {frames : List Frame} {pc : Pc E} (h : a.Told frames) (hopen : a.Open pc) :
    (a.goes pc).Told frames := by
  obtain ⟨hdue, hframes⟩ := (told_of_not_done hopen.before.2).mp h
  exact (told_of_not_done hopen.after).mpr ⟨hopen.due hdue, hframes⟩

theorem Told.puts {frames : List Frame} {frame : Frame} {turn turn' : Turn} (h : a.Told frames)
    (hw : a.writing = some ⟨frame, turn⟩) : (a.puts (some ⟨frame, turn'⟩)).Told frames := by
  obtain ⟨request, next, rfl⟩ := eq_framing hw
  exact h

theorem Told.flushed {frames : List Frame} {frame : Frame} {turn : Turn} (h : a.Told frames)
    (hw : a.writing = some ⟨frame, turn⟩) : (a.puts none).Told (frames ++ [frame]) := by
  obtain ⟨request, next, rfl⟩ := eq_framing hw
  obtain ⟨hdue, told, rfl, htold⟩ := h
  rcases hdue with ⟨hmethod, ⟨one, hone⟩, left, cursor, rfl⟩ | ⟨hid, hterminal, rfl⟩
  · obtain rfl : frame = .event request.id one := hone
    refine ⟨hmethod, told ++ [one], ?_, .inr hmethod⟩
    rw [List.map_append]
    rfl
  · exact ⟨trivial, _, frame, rfl, ⟨told, rfl, htold⟩, hid, hterminal⟩

theorem Told.writing_puts_none {frames : List Frame} {writing : Writing} (h : a.Told frames)
    (hw : a.writing = some writing) : (a.puts none).writing = none := by
  obtain ⟨request, next, rfl⟩ := eq_framing hw
  rcases h.1 with ⟨-, -, left, cursor, rfl⟩ | ⟨-, -, rfl⟩
  · rfl
  · rfl

theorem Told.done_puts_none {frames : List Frame} {frame : Frame} {turn : Turn} (h : a.Told frames)
    (hw : a.writing = some ⟨frame, turn⟩) : (a.puts none).done = frame.terminal := by
  obtain ⟨request, next, rfl⟩ := eq_framing hw
  rcases h.1 with ⟨-, ⟨one, hone⟩, left, cursor, rfl⟩ | ⟨-, hterminal, rfl⟩
  · obtain rfl : frame = .event request.id one := hone
    rfl
  · exact hterminal.symm

theorem Told.answered {frames : List Frame} (h : a.Told frames) (hdone : a.done = true) :
    Answered a.request frames := by
  obtain ⟨request, pc⟩ := a
  obtain ⟨hdue, hframes⟩ := h
  unfold done at hdone
  split at hdone
  · rename_i hpc
    obtain rfl : pc = _ := hpc
    exact hframes
  · rename_i hpc
    obtain rfl : pc = _ := hpc
    cases hdue
  · cases hdone

end Answering

end Stdio

end ZondDaemon
