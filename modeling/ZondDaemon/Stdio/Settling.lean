import ZondDaemon.Stdio.Kept

/-!
# A connection can always go on

From every state of a run that reads no line that is not UTF-8, a run goes on in which every task and the
refusal under way come to their end, with not another line read (`settles`), and where the lines still to come
are UTF-8 as well, one in which the loop returns (`returns`). What is still to be done is measured (`rank`),
and as long as there is any a step can be taken that leaves less of it: by whoever is inside the lock, and
where it is free by anybody.
-/

namespace ZondDaemon

open Machine (Always)

variable {E : Engine}

namespace Stdio

/-! ## What is still to be done -/

def Writing.rank (w : Writing) : Nat :=
  match w.turn with
  | .waiting => 3
  | .holding (_ :: _) => 2
  | .holding [] => 1

/-- The steps a task takes at most, where the registry answers with an error or with no events. -/
def Pc.rank : Pc E → Nat
  | .spawned => 5
  | .calling _ => 4
  | .snapshotting => 6
  | .telling left _ => 5 + 4 * left.length
  | .following _ => 4
  | .framing writing next => writing.rank + next.rank
  | .returned => 0
  | .aborted => 0

def Loop.rank : Loop → Nat
  | .reading => 2
  | .refusing writing => writing.rank + 2
  | .joining => 1
  | .returned => 0
  | .failed => 0

theorem Writing.rank_pos (w : Writing) : 0 < w.rank := by
  unfold rank
  split <;> decide

namespace Answering

variable {serde : Serde E.F64} {a : Answering E} {writing writing' : Writing}

theorem rank_puts_some (h : a.writing = some writing) (hrank : writing'.rank < writing.rank) :
    (a.puts (some writing')).pc.rank < a.pc.rank := by
  obtain ⟨request, next, rfl⟩ := eq_framing h
  exact Nat.add_lt_add_right hrank _

theorem rank_puts_none (h : a.writing = some writing) : (a.puts none).pc.rank < a.pc.rank := by
  obtain ⟨request, next, rfl⟩ := eq_framing h
  exact Nat.lt_add_of_pos_left writing.rank_pos

theorem exists_goes (serde : Serde E.F64) (hdone : a.done = false) (hw : a.writing = none) :
    ∃ a', (a.proceed serde = some a' ∨ ∃ r, a.reply r = some a') ∧ a'.pc.rank < a.pc.rank := by
  obtain ⟨request, pc⟩ := a
  cases pc with
  | spawned =>
    cases hasked : Stdio.asked serde request.method request.params with
    | ok call =>
      refine ⟨⟨request, .calling call⟩, .inl ?_, (by decide : 4 < 5)⟩
      unfold proceed
      dsimp only
      rw [hasked]
      rfl
    | error refused =>
      refine ⟨⟨request, .framing ⟨.error request.id refused, .waiting⟩ .returned⟩, .inl ?_,
        (by decide : 3 < 5)⟩
      unfold proceed
      dsimp only
      rw [hasked]
      rfl
  | calling call =>
    cases call with
    | watch id fromSeq =>
      exact ⟨_, .inr ⟨.found (some (.noSuchScan id)), rfl⟩, (by decide : 3 < 4)⟩
    | call | get | stop | detections | report | prune | list =>
      exact ⟨_, .inr ⟨.answer (.error (.noSuchScan "")), rfl⟩, (by decide : 3 < 4)⟩
  | snapshotting => exact ⟨_, .inr ⟨.events [], rfl⟩, (by decide : 5 < 6)⟩
  | telling left cursor =>
    cases left with
    | nil => exact ⟨_, .inl rfl, (by decide : 4 < 5)⟩
    | cons event left =>
      refine ⟨_, .inl rfl, ?_⟩
      show 3 + (5 + 4 * left.length) < 5 + 4 * (left.length + 1)
      omega
  | following cursor => exact ⟨_, .inr ⟨.events [], rfl⟩, (by decide : 3 < 4)⟩
  | framing => cases hw
  | returned | aborted => cases hdone

end Answering

namespace Connection

/-- A line read is a task or a refusal more, which is less than a line. -/
def rank (c : Connection E) : Nat :=
  6 * c.input.length + (c.answering.map fun a => a.pc.rank).sum + c.loop.rank

/-- Nobody is at work: every task is over, and no line is being answered that was no request. -/
structure Settled (c : Connection E) : Prop where
  done : ∀ a ∈ c.answering, a.done = true
  quiet : ∀ writing, c.loop ≠ .refusing writing

variable {serde : Serde E.F64} {P : Connection E → Act → Prop} {input : List UInt8} {c c' : Connection E}
  {act : Act} {p : Party} {i : Nat} {a a' : Answering E} {writing writing' : Writing}

theorem rank_goes (ha : c.answering[i]? = some a) (hrank : a'.pc.rank < a.pc.rank) :
    (c.goes i a').rank < c.rank := by
  have hset := Sequence.sum_set_add (f := fun a : Answering E => a.pc.rank) a' ha
  unfold rank goes
  dsimp only at hset ⊢
  omega

theorem rank_puts_some (hw : c.writing p = some writing) (hrank : writing'.rank < writing.rank) :
    (c.puts p (some writing')).rank < c.rank := by
  rcases writing_eq_some hw with ⟨rfl, hloop⟩ | ⟨i, a, rfl, ha, hwa⟩
  · unfold rank
    rw [loop_puts_some, hloop]
    exact Nat.add_lt_add_left (Nat.add_lt_add_right hrank 2) _
  · rw [puts_task ha]
    exact rank_goes ha (Answering.rank_puts_some hwa hrank)

theorem rank_puts_none (hw : c.writing p = some writing) : (c.puts p none).rank < c.rank := by
  rcases writing_eq_some hw with ⟨rfl, hloop⟩ | ⟨i, a, rfl, ha, hwa⟩
  · unfold rank
    rw [loop_puts_none, hloop]
    exact Nat.add_lt_add_left (Nat.lt_add_of_pos_left writing.rank_pos) _
  · rw [puts_task ha]
    exact rank_goes ha (Answering.rank_puts_none hwa)

/-! ## A step that leaves less -/

theorem write_lock {frame : Frame} (hw : c.writing p = some ⟨frame, .waiting⟩) (hfree : c.holder = none) :
    c.write p .lock = some { c.puts p (some ⟨frame, .holding frame.line⟩) with holder := some p } := by
  unfold write
  rw [hw, Option.bind_some]
  exact if_pos hfree

theorem write_put {frame : Frame} {left : List UInt8} {n : Nat} (hw : c.writing p = some ⟨frame, .holding left⟩)
    (hn : 0 < n ∧ n ≤ left.length) : c.write p (.put n) =
      some { c.puts p (some ⟨frame, .holding (left.drop n)⟩) with output := c.output ++ left.take n } := by
  unfold write
  rw [hw, Option.bind_some]
  exact if_pos hn

theorem write_flush {frame : Frame} (hw : c.writing p = some ⟨frame, .holding []⟩) : c.write p .flush =
    some { c.puts p none with holder := none, written := c.written ++ [(p, frame)] } := by
  unfold write
  rw [hw, Option.bind_some]

theorem rank_holding (frame : Frame) :
    (⟨frame, .holding frame.line⟩ : Writing).rank < (⟨frame, .waiting⟩ : Writing).rank := by
  unfold Writing.rank
  cases frame.line with
  | nil => exact (by decide : 1 < 3)
  | cons => exact (by decide : 2 < 3)

theorem exists_write (h : (machine serde).Reach Legible (opened input) c) (hw : c.writing p = some writing) :
    ∃ q w c', c.write q w = some c' ∧ c'.rank < c.rank := by
  cases hholder : c.holder with
  | none =>
    obtain ⟨frame, turn⟩ := writing
    cases turn with
    | waiting => exact ⟨p, .lock, _, write_lock hw hholder, rank_puts_some hw (rank_holding frame)⟩
    | holding left =>
      have hinside := (framed h).alone p frame left hw
      rw [hholder] at hinside
      cases hinside
  | some q =>
    obtain ⟨frame, left, part, hq, -, -⟩ := (framed h).held q hholder
    cases left with
    | nil => exact ⟨q, .flush, _, write_flush hq, rank_puts_none hq⟩
    | cons byte left =>
      have hdrop : (byte :: left).drop (left.length + 1) = [] := by simp
      refine ⟨q, .put (left.length + 1), _, write_put hq ⟨Nat.succ_pos _, Nat.le_refl _⟩, ?_⟩
      apply rank_puts_some hq
      rw [hdrop]
      exact (by decide : 1 < 2)

/-- As long as somebody is at work a step can be taken that reads no line and leaves less to do. -/
theorem strides (h : (machine serde).Reach Legible (opened input) c) (hbusy : ¬ c.Settled) :
    ∃ act c', act ≠ .speak ∧ (machine serde).step c act = some c' ∧ c'.rank < c.rank := by
  have hwrite : ∀ p writing, c.writing p = some writing →
      ∃ act c', act ≠ .speak ∧ (machine serde).step c act = some c' ∧ c'.rank < c.rank := by
    intro p writing hw
    obtain ⟨q, w, c', hc', hrank⟩ := exists_write h hw
    exact ⟨.write q w, c', by simp, hc', hrank⟩
  by_cases hdone : ∀ a ∈ c.answering, a.done = true
  · -- The tasks are over, so it is the loop that is writing.
    by_cases hquiet : ∀ writing, c.loop ≠ .refusing writing
    · exact absurd ⟨hdone, hquiet⟩ hbusy
    · push Not at hquiet
      obtain ⟨writing, hloop⟩ := hquiet
      apply hwrite .loop writing
      simp [Connection.writing, hloop]
  · push Not at hdone
    obtain ⟨a, hmem, hdone⟩ := hdone
    obtain ⟨i, ha⟩ := List.mem_iff_getElem?.mp hmem
    cases hw : a.writing with
    | some writing =>
      apply hwrite (.task i) writing
      simp [Connection.writing, ha, hw]
    | none =>
      obtain ⟨a', hgoes, hrank⟩ := Answering.exists_goes serde (by simpa using hdone) hw
      rcases hgoes with hproceed | ⟨r, hreply⟩
      · refine ⟨.proceed i, c.goes i a', by simp, ?_, rank_goes ha hrank⟩
        show (c.answering[i]?).bind _ = _
        rw [ha, Option.bind_some, hproceed]
        rfl
      · refine ⟨.reply i r, c.goes i a', by simp, ?_, rank_goes ha hrank⟩
        show (c.answering[i]?).bind _ = _
        rw [ha, Option.bind_some, hreply]
        rfl

theorem legible_of_ne_speak (hact : act ≠ .speak) : c.Legible act := by
  cases act with
  | speak => exact absurd rfl hact
  | proceed | reply | write | abort => trivial

theorem reads_nothing (h : (machine serde).step c act = some c') (hact : act ≠ .speak) :
    c'.input = c.input ∧ c'.heard = c.heard := by
  cases moves_of_step h with
  | closes | garbles | skips | refuses | spawns | joins => exact absurd rfl hact
  | goes | locks | puts | flushes | aborts => exact ⟨rfl, rfl⟩

/-- **Whatever has been read is answered in some run that goes on from here, with not another line read.** -/
theorem settles (h : (machine serde).Reach Legible (opened input) c) :
    ∃ t, (machine serde).Reach Legible c t ∧
      ((machine serde).Reach Legible (opened input) t ∧ t.input = c.input ∧ t.heard = c.heard) ∧ t.Settled := by
  apply Machine.Reach.descend (I := fun t => (machine serde).Reach Legible (opened input) t ∧
    t.input = c.input ∧ t.heard = c.heard) rank ?_ ⟨h, rfl, rfl⟩
  rintro t ⟨ht, hinput, hheard⟩ hbusy
  obtain ⟨act, u, hact, hstep, hrank⟩ := strides ht hbusy
  have hlegible := legible_of_ne_speak (c := t) hact
  obtain ⟨hinput', hheard'⟩ := reads_nothing hstep hact
  refine ⟨u, .tail .refl hlegible hstep, ⟨.tail ht hlegible hstep, ?_, ?_⟩, hrank⟩
  · rw [hinput', hinput]
  · rw [hheard', hheard]

theorem exists_speak (h : (machine serde).Reach Legible (opened input) c) (hsettled : c.Settled)
    (hreadable : ∀ line ∈ c.input, Readable line) (hloop : c.loop ≠ .returned) :
    ∃ c', c.speak serde = some c' ∧ c'.rank < c.rank := by
  unfold speak
  cases hat : c.loop with
  | reading =>
    cases hinput : c.input with
    | nil =>
      refine ⟨_, rfl, ?_⟩
      simp [rank, hinput, hat, Loop.rank]
    | cons line rest =>
      dsimp only
      cases hhear : hear serde line with
      | garbled => exact absurd (hreadable line (hinput ▸ List.mem_cons_self)) (garbled_iff.mp hhear)
      | blank =>
        refine ⟨_, rfl, ?_⟩
        simp [rank, hinput, hat, Loop.rank]
      | malformed detail =>
        refine ⟨_, rfl, ?_⟩
        simp only [rank, hinput, hat, Loop.rank, Writing.rank, List.length_cons]
        omega
      | request request =>
        refine ⟨_, rfl, ?_⟩
        simp only [rank, hinput, hat, Loop.rank, Pc.rank, List.length_cons, List.map_append, List.sum_append,
          List.map_cons, List.map_nil, List.sum_cons, List.sum_nil]
        omega
  | refusing writing => exact absurd hat (hsettled.quiet writing)
  | joining =>
    have hall : c.answering.all Answering.done = true := List.all_eq_true.mpr hsettled.done
    refine ⟨{ c with loop := .returned }, ?_, ?_⟩
    · dsimp only
      rw [if_pos hall]
    · simp [rank, hat, Loop.rank]
  | returned => exact absurd hat hloop
  | failed => exact absurd hat (loop_ne_failed h)

/-- **Some run goes on from here to the loop's return, where all that is still to come is UTF-8.** -/
theorem returns (h : (machine serde).Reach Legible (opened input) c)
    (hreadable : ∀ line ∈ inputLines input, Readable line) :
    ∃ t, (machine serde).Reach Legible c t ∧ (machine serde).Reach Legible (opened input) t ∧
      t.loop = .returned := by
  apply Machine.Reach.descend (I := fun t => (machine serde).Reach Legible (opened input) t) rank ?_ h
  intro t ht hloop
  have hcoming : ∀ line ∈ t.input, Readable line := fun line hline => hreadable line
    (heard_append_input ht ▸ List.mem_append_right _ hline)
  by_cases hsettled : t.Settled
  · obtain ⟨u, hstep, hrank⟩ := exists_speak ht hsettled hcoming hloop
    have hlegible : t.Legible .speak := fun line rest _ hinput =>
      hcoming line (hinput ▸ List.mem_cons_self)
    exact ⟨u, .tail .refl hlegible hstep, .tail ht hlegible hstep, hrank⟩
  · obtain ⟨act, u, hact, hstep, hrank⟩ := strides ht hsettled
    have hlegible := legible_of_ne_speak (c := t) hact
    exact ⟨u, .tail .refl hlegible hstep, .tail ht hlegible hstep, hrank⟩

end Connection

end Stdio

end ZondDaemon
