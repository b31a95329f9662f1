import ZondDaemon.Base.Sequence
import ZondDaemon.Stdio.Answering

/-!
# What a connection keeps

Over every run of a connection: the lines read so far are the first of those that come in, a task is there
for each that was a request and a refusal for each that was none, in their order (`asked`, `refused`). In a
run that reads no line that is not UTF-8 the loop never fails, so no task is aborted, and what a task has
written of its answer is what it is due to have written (`told`); one party at most is inside the lock, and
the output is the frames written followed by what was taken of the one the lock is held for (`framed`).
-/

namespace ZondDaemon

open Sequence (said)

variable {E : Engine}

namespace Stdio

/-- The request a line is. -/
def requestOf (serde : Serde E.F64) (line : List UInt8) : Option Request :=
  match hear serde line with
  | .request request => some request
  | _ => none

/-- What a line that is no request is answered. -/
def refusalOf (serde : Serde E.F64) (line : List UInt8) : Option Frame :=
  match hear serde line with
  | .malformed detail => some (.error .null (.malformed detail))
  | _ => none

namespace Connection

variable {serde : Serde E.F64} {P : Connection E → Act → Prop} {input : List UInt8} {c c' : Connection E}
  {act : Act} {p q : Party} {i : Nat} {a a' : Answering E} {w : Option Writing} {writing : Writing}

/-! ## What a frame's writing leaves alone -/

@[simp] theorem loop_puts_some : (c.puts .loop (some writing)).loop = .refusing writing := rfl

@[simp] theorem loop_puts_none : (c.puts .loop none).loop = .reading := rfl

@[simp] theorem length_puts : (c.puts p w).answering.length = c.answering.length := by
  unfold puts
  split <;> simp

@[simp] theorem length_goes : (c.goes i a).answering.length = c.answering.length := List.length_set

@[simp] theorem answering_puts_loop : (c.puts .loop w).answering = c.answering := rfl

theorem puts_task (ha : c.answering[i]? = some a) : c.puts (.task i) w = c.goes i (a.puts w) := by
  have hmodify : c.answering.modify i (fun a => a.puts w) = c.answering.set i (a.puts w) := by
    apply List.ext_getElem?
    intro k
    rw [List.getElem?_modify, List.getElem?_set]
    split_ifs with hk hlt
    · subst hk
      rw [ha]
      rfl
    · subst hk
      exact absurd (List.getElem?_eq_some_iff.mp ha).1 hlt
    · simp
  unfold puts goes
  dsimp only
  rw [hmodify]

theorem writing_eq_some (h : c.writing p = some writing) :
    (p = .loop ∧ c.loop = .refusing writing) ∨
      ∃ i a, p = .task i ∧ c.answering[i]? = some a ∧ a.writing = some writing := by
  cases p with
  | loop =>
    left
    unfold Connection.writing at h
    dsimp only at h
    split at h
    · rename_i hloop
      cases h
      exact ⟨rfl, hloop⟩
    · cases h
  | task i =>
    obtain ⟨a, ha, hw⟩ := Option.bind_eq_some_iff.mp h
    exact .inr ⟨i, a, rfl, ha, hw⟩

theorem map_request_goes (ha : c.answering[i]? = some a) (pc : Pc E) :
    (c.goes i (a.goes pc)).answering.map Answering.request = c.answering.map Answering.request := by
  apply List.ext_getElem?
  intro k
  show ((c.answering.set i _).map Answering.request)[k]? = _
  rw [List.getElem?_map, List.getElem?_map, List.getElem?_set]
  split_ifs with hk hlt
  · subst hk
    rw [ha]
    rfl
  · subst hk
    exact absurd (List.getElem?_eq_some_iff.mp ha).1 hlt
  · rfl

theorem getElem?_goes {k : Nat} {b : Answering E} (h : (c.goes i a).answering[k]? = some b) :
    (k = i ∧ b = a) ∨ (k ≠ i ∧ c.answering[k]? = some b) := by
  have hset : (c.answering.set i a)[k]? = some b := h
  rw [List.getElem?_set] at hset
  split_ifs at hset with hk hlt
  · exact .inl ⟨hk.symm, (Option.some.inj hset).symm⟩
  · exact .inr ⟨Ne.symm hk, hset⟩

theorem countP_goes (ha : c.answering[i]? = some a) (a' : Answering E) :
    (c.goes i a').answering.countP Answering.done + (if a.done then 1 else 0) =
      c.answering.countP Answering.done + if a'.done then 1 else 0 :=
  Sequence.countP_set_add a' ha

theorem map_request_puts (hw : c.writing p = some writing) :
    (c.puts p w).answering.map Answering.request = c.answering.map Answering.request := by
  rcases writing_eq_some hw with ⟨rfl, -⟩ | ⟨i, a, rfl, ha, -⟩
  · rw [answering_puts_loop]
  · obtain ⟨pc, hpc⟩ := Answering.exists_puts_eq a w
    rw [puts_task ha, hpc, map_request_goes ha]

theorem writing_puts_self (hw : c.writing p = some writing) (writing' : Writing) :
    (c.puts p (some writing')).writing p = some writing' := by
  rcases writing_eq_some hw with ⟨rfl, -⟩ | ⟨i, a, rfl, ha, hwa⟩
  · rfl
  · rw [puts_task ha]
    show ((c.answering.set i _)[i]?).bind Answering.writing = _
    rw [List.getElem?_set_self (List.getElem?_eq_some_iff.mp ha).1]
    exact Answering.writing_puts hwa

theorem writing_goes_ne (hp : p ≠ .task i) : (c.goes i a).writing p = c.writing p := by
  cases p with
  | loop => rfl
  | task k =>
    show ((c.answering.set i a)[k]?).bind _ = (c.answering[k]?).bind _
    rw [List.getElem?_set_ne fun hik => hp (by rw [hik])]

theorem writing_goes_self (ha : c.answering[i]? = some a) : (c.goes i a').writing (.task i) = a'.writing := by
  show ((c.answering.set i a')[i]?).bind _ = _
  rw [List.getElem?_set_self (List.getElem?_eq_some_iff.mp ha).1]
  rfl

theorem countP_puts_some (hw : c.writing p = some writing) (writing' : Writing) :
    (c.puts p (some writing')).answering.countP Answering.done = c.answering.countP Answering.done := by
  rcases writing_eq_some hw with ⟨rfl, -⟩ | ⟨i, a, rfl, ha, hwa⟩
  · rw [answering_puts_loop]
  · have hset := countP_goes ha (a.puts (some writing'))
    rw [Answering.done_of_writing hwa, Answering.done_of_writing (Answering.writing_puts hwa)] at hset
    rw [puts_task ha]
    simpa using hset

theorem writing_puts_ne (hw : c.writing p = some writing) (hq : q ≠ p) :
    (c.puts p w).writing q = c.writing q := by
  rcases writing_eq_some hw with ⟨rfl, -⟩ | ⟨i, a, rfl, ha, -⟩
  · cases q with
    | loop => exact absurd rfl hq
    | task i => rfl
  · rw [puts_task ha]
    exact writing_goes_ne hq

/-- What the loop is about to write. -/
def pending (c : Connection E) : List Frame := (c.writing .loop).toList.map Writing.frame

theorem pending_refusing (h : c.loop = .refusing writing) : c.pending = [writing.frame] := by
  simp [pending, Connection.writing, h]

theorem pending_eq_nil (h : ∀ writing, c.loop ≠ .refusing writing) : c.pending = [] := by
  unfold pending Connection.writing
  dsimp only
  split
  · rename_i hloop
    exact absurd hloop (h _)
  · rfl

/-! ## Over every run -/

/-- The invariant rule, over what the steps can do. -/
theorem invariant {I : Connection E → Prop} (init : I (opened input))
    (step : ∀ {c c' : Connection E} {act : Act}, (machine serde).Reach P (opened input) c → I c → P c act →
      Moves serde c act c' → I c')
    (h : (machine serde).Reach P (opened input) c) : I c :=
  h.invariant init fun ht hI hP hstep => step ht hI hP (moves_of_step hstep)

theorem heard_append_input (h : (machine serde).Reach P (opened input) c) :
    c.heard ++ c.input = inputLines input := by
  refine invariant (I := fun c => c.heard ++ c.input = inputLines input) rfl ?_ h
  intro c c' act _ hlines _ hmove
  cases hmove with
  | garbles _ hinput | skips _ hinput | refuses _ hinput | spawns _ hinput =>
    rw [hinput] at hlines
    simpa using hlines
  | closes | joins | goes | locks | puts | flushes | aborts => exact hlines

theorem asked (h : (machine serde).Reach P (opened input) c) :
    c.answering.map Answering.request = c.heard.filterMap (requestOf serde) := by
  refine invariant (I := fun c => c.answering.map Answering.request = c.heard.filterMap (requestOf serde)) rfl
    ?_ h
  intro c c' act _ hasked _ hmove
  cases hmove with
  | garbles _ _ hhear | skips _ _ hhear | refuses _ _ hhear | spawns _ _ hhear =>
    simp [hasked, requestOf, hhear]
  | closes | joins => exact hasked
  | goes ha hgoes =>
    obtain ⟨pc, rfl, -⟩ := Answering.open_of_goes hgoes
    exact (map_request_goes ha pc).trans hasked
  | aborts _ ha => exact (map_request_goes ha .aborted).trans hasked
  | locks hw | puts hw | flushes hw => exact (map_request_puts hw).trans hasked

theorem refused (h : (machine serde).Reach P (opened input) c) :
    said some .loop c.written ++ c.pending = c.heard.filterMap (refusalOf serde) := by
  refine invariant (I := fun c => said some .loop c.written ++ c.pending =
    c.heard.filterMap (refusalOf serde)) rfl ?_ h
  intro c c' act _ hrefused _ hmove
  cases hmove with
  | garbles hloop _ hhear | skips hloop _ hhear | refuses hloop _ hhear | spawns hloop _ hhear =>
    rw [pending_eq_nil (by simp [hloop]), List.append_nil] at hrefused
    simp [hrefused, refusalOf, hhear, pending, Connection.writing, hloop]
  | closes hloop | joins hloop =>
    rw [pending_eq_nil (by simp [hloop])] at hrefused
    exact hrefused
  | goes | aborts => exact hrefused
  | locks hw | puts hw =>
    rcases writing_eq_some hw with ⟨rfl, hloop⟩ | ⟨i, a, rfl, -, -⟩
    · rw [pending_refusing hloop] at hrefused
      exact hrefused
    · exact hrefused
  | flushes hw =>
    rcases writing_eq_some hw with ⟨rfl, hloop⟩ | ⟨i, a, rfl, -, -⟩
    · rw [pending_refusing hloop] at hrefused
      dsimp only
      rw [Sequence.said_append_self rfl, pending_eq_nil (by simp), List.append_nil]
      exact hrefused
    · dsimp only
      rw [Sequence.said_append_of_ne rfl (show Party.task i ≠ .loop from fun heq => by cases heq)]
      exact hrefused

/-! ## Over the runs that read no line that is not UTF-8 -/

/-- The line the step reads, where it reads one, is UTF-8. -/
def Legible (c : Connection E) : Act → Prop
  | .speak => ∀ line rest, c.loop = .reading → c.input = line :: rest → Readable line
  | _ => True

theorem loop_ne_failed (h : (machine serde).Reach Legible (opened input) c) : c.loop ≠ .failed := by
  refine invariant (I := fun c => c.loop ≠ .failed) nofun ?_ h
  intro c c' act _ hloop hlegible hmove
  cases hmove with
  | garbles hreading hinput hhear => exact absurd (hlegible _ _ hreading hinput) (garbled_iff.mp hhear)
  | skips | spawns | goes => exact hloop
  | closes | refuses | joins => simp
  | aborts hfailed => exact absurd hfailed hloop
  | @locks p | @puts p | @flushes p =>
    cases p with
    | loop => simp
    | task i => exact hloop

theorem authors {frame : Frame} (h : (machine serde).Reach P (opened input) c)
    (hframe : (.task i, frame) ∈ c.written) : i < c.answering.length := by
  revert i frame
  refine invariant (I := fun c => ∀ {i frame}, (Party.task i, frame) ∈ c.written → i < c.answering.length)
    nofun ?_ h
  intro c c' act _ hauthors _ hmove i frame hframe
  cases hmove with
  | closes | garbles | skips | refuses | joins => exact hauthors hframe
  | spawns =>
    rw [List.length_append]
    exact Nat.lt_add_right _ (hauthors hframe)
  | goes | aborts =>
    rw [length_goes]
    exact hauthors hframe
  | locks | puts =>
    rw [length_puts]
    exact hauthors hframe
  | flushes hw =>
    rw [length_puts]
    rcases List.mem_append.mp hframe with hframe | hframe
    · exact hauthors hframe
    · cases List.mem_singleton.mp hframe
      obtain ⟨a, ha, -⟩ := Option.bind_eq_some_iff.mp hw
      exact (List.getElem?_eq_some_iff.mp ha).1

theorem said_eq_nil (h : (machine serde).Reach P (opened input) c) (hi : c.answering.length ≤ i) :
    said some (.task i) c.written = [] := by
  apply List.eq_nil_iff_forall_not_mem.mpr
  intro frame hframe
  obtain ⟨w, hw, hwe⟩ := Sequence.mem_said.mp hframe
  cases hwe
  have := authors h hw
  omega

/-- **What a task has written is what it is due to have written.** -/
theorem told (h : (machine serde).Reach Legible (opened input) c) (ha : c.answering[i]? = some a) :
    a.Told (said some (.task i) c.written) := by
  revert i a
  refine invariant (I := fun c => ∀ {i : Nat} {a : Answering E}, c.answering[i]? = some a →
    a.Told (said some (.task i) c.written)) nofun ?_ h
  intro c c' act ht htold _ hmove k b hb
  cases hmove with
  | closes | garbles | skips | refuses | joins => exact htold hb
  | spawns =>
    rcases Nat.lt_or_ge k c.answering.length with hk | hk
    · rw [List.getElem?_append_left hk] at hb
      exact htold hb
    · have hspawned := List.mem_of_getElem? (List.getElem?_append_right hk ▸ hb)
      rw [List.mem_singleton.mp hspawned, said_eq_nil ht hk]
      exact Answering.told_spawned _
  | goes ha hgoes =>
    obtain ⟨pc, rfl, hopen⟩ := Answering.open_of_goes hgoes
    rcases getElem?_goes hb with ⟨rfl, rfl⟩ | ⟨-, hb⟩
    · exact (htold ha).goes hopen
    · exact htold hb
  | locks hw | puts hw =>
    rcases writing_eq_some hw with ⟨rfl, -⟩ | ⟨i, a, rfl, ha, hwa⟩
    · exact htold hb
    · rw [puts_task ha] at hb
      rcases getElem?_goes hb with ⟨rfl, rfl⟩ | ⟨-, hb⟩
      · exact (htold ha).puts hwa
      · exact htold hb
  | flushes hw =>
    rcases writing_eq_some hw with ⟨rfl, -⟩ | ⟨i, a, rfl, ha, hwa⟩
    · dsimp only
      rw [Sequence.said_append_of_ne rfl (show Party.loop ≠ .task k from nofun)]
      exact htold hb
    · rw [puts_task ha] at hb
      dsimp only
      rcases getElem?_goes hb with ⟨rfl, rfl⟩ | ⟨hk, hb⟩
      · rw [Sequence.said_append_self rfl]
        exact (htold ha).flushed hwa
      · rw [Sequence.said_append_of_ne rfl (show Party.task i ≠ .task k by simpa using Ne.symm hk)]
        exact htold hb
  | aborts hfailed => exact absurd hfailed (loop_ne_failed ht)

theorem writing_puts_none (h : (machine serde).Reach Legible (opened input) c)
    (hw : c.writing p = some writing) : (c.puts p none).writing p = none := by
  rcases writing_eq_some hw with ⟨rfl, -⟩ | ⟨i, a, rfl, ha, hwa⟩
  · rfl
  · rw [puts_task ha, writing_goes_self ha]
    exact (told h ha).writing_puts_none hwa

/-! ## The lock and the output -/

/-- The frames written, a line each. -/
def lines (c : Connection E) : List UInt8 := c.written.flatMap fun w => w.2.line

/-- Whoever is inside the lock holds it, and the output is the frames written and as much as was taken of the
one it is held for. -/
structure Framed (c : Connection E) : Prop where
  alone : ∀ p frame left, c.writing p = some ⟨frame, .holding left⟩ → c.holder = some p
  held : ∀ p, c.holder = some p → ∃ frame left part, c.writing p = some ⟨frame, .holding left⟩ ∧
    part ++ left = frame.line ∧ c.output = c.lines ++ part
  free : c.holder = none → c.output = c.lines

theorem Framed.of_same (h : c.Framed) (hholder : c'.holder = c.holder) (houtput : c'.output = c.output)
    (hwritten : c'.written = c.written)
    (hsame : ∀ p frame left, c'.writing p = some ⟨frame, .holding left⟩ ↔
      c.writing p = some ⟨frame, .holding left⟩) : c'.Framed where
  alone p frame left hw := hholder ▸ h.alone p frame left ((hsame p frame left).mp hw)
  held p hp := by
    obtain ⟨frame, left, part, hw, hpart, hout⟩ := h.held p (hholder ▸ hp)
    refine ⟨frame, left, part, (hsame p frame left).mpr hw, hpart, ?_⟩
    rw [houtput, hout, lines, lines, hwritten]
  free hfree := by rw [houtput, h.free (hholder ▸ hfree), lines, lines, hwritten]

theorem Framed.locks {frame : Frame} (h : c.Framed) (hw : c.writing p = some ⟨frame, .waiting⟩)
    (hfree : c.holder = none) :
    Framed { c.puts p (some ⟨frame, .holding frame.line⟩) with holder := some p } := by
  refine ⟨?_, ?_, nofun⟩
  · intro q frame' left hq
    by_cases hqp : q = p
    · rw [hqp]
    · have hinside := h.alone q frame' left ((writing_puts_ne hw hqp).symm.trans hq)
      rw [hfree] at hinside
      cases hinside
  · intro q hq
    cases hq
    refine ⟨frame, frame.line, [], writing_puts_self hw _, rfl, ?_⟩
    rw [List.append_nil]
    exact h.free hfree

theorem Framed.puts {frame : Frame} {left : List UInt8} (h : c.Framed)
    (hw : c.writing p = some ⟨frame, .holding left⟩) (n : Nat) :
    Framed { c.puts p (some ⟨frame, .holding (left.drop n)⟩) with output := c.output ++ left.take n } := by
  have hholder := h.alone p frame left hw
  refine ⟨?_, ?_, ?_⟩
  · intro q frame' left' hq
    by_cases hqp : q = p
    · rw [hqp]
      exact hholder
    · exact h.alone q frame' left' ((writing_puts_ne hw hqp).symm.trans hq)
  · intro q hq
    cases hholder.symm.trans hq
    obtain ⟨frame', left', part, hw', hpart, hout⟩ := h.held p hholder
    cases hw.symm.trans hw'
    refine ⟨frame, left.drop n, part ++ left.take n, writing_puts_self hw _, ?_, ?_⟩
    · rw [List.append_assoc, List.take_append_drop, hpart]
    · show c.output ++ left.take n = c.lines ++ _
      rw [hout, List.append_assoc]
  · intro hfree
    cases hholder.symm.trans hfree

theorem Framed.flushes {frame : Frame} (h : c.Framed) (hw : c.writing p = some ⟨frame, .holding []⟩)
    (hnone : (c.puts p none).writing p = none) :
    Framed { c.puts p none with holder := none, written := c.written ++ [(p, frame)] } := by
  have hholder := h.alone p frame [] hw
  refine ⟨?_, nofun, ?_⟩
  · intro q frame' left' hq
    have hq' : (c.puts p none).writing q = some ⟨frame', .holding left'⟩ := hq
    by_cases hqp : q = p
    · rw [hqp, hnone] at hq'
      cases hq'
    · rw [writing_puts_ne hw hqp] at hq'
      have hother := h.alone q frame' left' hq'
      exact absurd (Option.some.inj (hother.symm.trans hholder)) hqp
  · intro _
    obtain ⟨frame', left', part, hw', hpart, hout⟩ := h.held p hholder
    cases hw.symm.trans hw'
    rw [List.append_nil] at hpart
    show c.output = (c.written ++ [(p, frame)]).flatMap _
    rw [hout, hpart, List.flatMap_append, List.flatMap_singleton]
    rfl

theorem Framed.speaks (h : c.Framed) (hloop : ∀ writing, c.loop ≠ .refusing writing)
    (hnot : ∀ frame left, c'.loop ≠ .refusing ⟨frame, .holding left⟩) (hanswering : c'.answering = c.answering)
    (hholder : c'.holder = c.holder) (houtput : c'.output = c.output) (hwritten : c'.written = c.written) :
    c'.Framed := by
  refine h.of_same hholder houtput hwritten ?_
  intro p frame left
  cases p with
  | loop =>
    constructor
    · intro hw
      rcases writing_eq_some hw with ⟨-, hat⟩ | ⟨i, a, hp, -, -⟩
      · exact absurd hat (hnot frame left)
      · cases hp
    · intro hw
      rcases writing_eq_some hw with ⟨-, hat⟩ | ⟨i, a, hp, -, -⟩
      · exact absurd hat (hloop _)
      · cases hp
  | task i =>
    show (c'.answering[i]?).bind _ = _ ↔ (c.answering[i]?).bind _ = _
    rw [hanswering]

theorem writing_spawned (c : Connection E) (request : Request) (p : Party) :
    ({ c with answering := c.answering ++ [⟨request, .spawned⟩] } : Connection E).writing p = c.writing p := by
  cases p with
  | loop => rfl
  | task i =>
    show ((c.answering ++ [⟨request, .spawned⟩])[i]?).bind _ = (c.answering[i]?).bind _
    rcases Nat.lt_or_ge i c.answering.length with hi | hi
    · rw [List.getElem?_append_left hi]
    · rw [List.getElem?_append_right hi, List.getElem?_singleton, List.getElem?_eq_none hi]
      split_ifs
      · rfl
      · rfl

theorem Framed.goes {pc : Pc E} (h : c.Framed) (ha : c.answering[i]? = some a) (hopen : a.Open pc) :
    (c.goes i (a.goes pc)).Framed := by
  refine h.of_same rfl rfl rfl ?_
  intro p frame left
  by_cases hp : p = .task i
  · subst hp
    have hbefore : c.writing (.task i) = none := by
      show (c.answering[i]?).bind _ = none
      rw [ha]
      exact hopen.before.1
    rw [writing_goes_self ha, hbefore]
    constructor
    · intro hw
      cases hopen.waits _ hw
    · intro hw
      cases hw
  · rw [writing_goes_ne hp]

theorem framed (h : (machine serde).Reach Legible (opened input) c) : c.Framed := by
  refine invariant (I := Framed) ⟨nofun, nofun, fun _ => rfl⟩ ?_ h
  intro c c' act ht hframed _ hmove
  cases hmove with
  | closes hloop | garbles hloop | skips hloop | refuses hloop | joins hloop =>
    exact hframed.speaks (by simp [hloop]) (by simp [hloop]) rfl rfl rfl rfl
  | @spawns line rest request =>
    refine hframed.of_same rfl rfl rfl ?_
    intro p frame left
    rw [← writing_spawned c request p]
    rfl
  | goes ha hgoes =>
    obtain ⟨pc, rfl, hopen⟩ := Answering.open_of_goes hgoes
    exact hframed.goes ha hopen
  | locks hw hfree => exact hframed.locks hw hfree
  | puts hw => exact hframed.puts hw _
  | flushes hw => exact hframed.flushes hw (writing_puts_none ht hw)
  | aborts hfailed => exact absurd hfailed (loop_ne_failed ht)

/-! ## The end of it -/

theorem terminal_of_refusing (h : (machine serde).Reach P (opened input) c)
    (hloop : c.loop = .refusing writing) : writing.frame.terminal = true := by
  have hmem : writing.frame ∈ c.heard.filterMap (refusalOf serde) := by
    rw [← refused h, pending_refusing hloop]
    exact List.mem_append_right _ (List.mem_singleton_self _)
  obtain ⟨line, -, hline⟩ := List.mem_filterMap.mp hmem
  unfold refusalOf at hline
  split at hline
  · rw [← Option.some.inj hline]
    rfl
  · cases hline

theorem counted (h : (machine serde).Reach Legible (opened input) c) :
    c.written.countP (fun w => w.2.terminal) =
      c.answering.countP Answering.done + (said some .loop c.written).length := by
  refine invariant (I := fun c => c.written.countP (fun w => w.2.terminal) =
    c.answering.countP Answering.done + (said some .loop c.written).length) rfl ?_ h
  intro c c' act ht hcounted _ hmove
  cases hmove with
  | closes | garbles | skips | refuses | joins => exact hcounted
  | spawns =>
    rw [List.countP_append, List.countP_singleton]
    exact hcounted
  | @goes _ i a a' ha hgoes =>
    obtain ⟨pc, rfl, hopen⟩ := Answering.open_of_goes hgoes
    have hset := countP_goes ha (a.goes pc)
    rw [hopen.before.2, hopen.after] at hset
    exact hcounted.trans (congrArg (· + _) hset.symm)
  | locks hw | puts hw =>
    dsimp only
    rw [countP_puts_some hw]
    exact hcounted
  | @flushes p frame hw =>
    rw [List.countP_append, List.countP_singleton]
    rcases writing_eq_some hw with ⟨rfl, hloop⟩ | ⟨i, a, rfl, ha, hwa⟩
    · have hterminal : frame.terminal = true := terminal_of_refusing ht hloop
      dsimp only
      rw [Sequence.said_append_self rfl, List.length_append, if_pos hterminal, hcounted]
      exact Nat.add_assoc ..
    · have hset := countP_goes ha (a.puts none)
      rw [Answering.done_of_writing hwa, (told ht ha).done_puts_none hwa] at hset
      dsimp only
      rw [Sequence.said_append_of_ne rfl (show Party.task i ≠ .loop from fun heq => by cases heq), puts_task ha]
      simp only [Bool.false_eq_true, if_false] at hset
      omega
  | aborts hfailed => exact absurd hfailed (loop_ne_failed ht)

theorem input_nil (h : (machine serde).Reach P (opened input) c)
    (hloop : c.loop = .joining ∨ c.loop = .returned) : c.input = [] := by
  revert hloop
  refine invariant (I := fun c => c.loop = .joining ∨ c.loop = .returned → c.input = []) ?_ ?_ h
  · rintro (hloop | hloop) <;> cases hloop
  intro c c' act _ hclosed _ hmove hloop
  cases hmove with
  | closes _ hinput => exact hinput
  | garbles | refuses => rcases hloop with hloop | hloop <;> cases hloop
  | skips hreading | spawns hreading => simp [hreading] at hloop
  | joins hjoining => exact hclosed (.inl hjoining)
  | goes | aborts => exact hclosed hloop
  | @locks p | @puts p | @flushes p =>
    cases p with
    | loop => simp at hloop
    | task i => exact hclosed hloop

theorem all_done (h : (machine serde).Reach P (opened input) c) (hloop : c.loop = .returned) :
    ∀ a ∈ c.answering, a.done = true := by
  revert hloop
  refine invariant (I := fun c => c.loop = .returned → ∀ a ∈ c.answering, a.done = true) nofun ?_ h
  intro c c' act _ hdone _ hmove hloop
  cases hmove with
  | closes | garbles | refuses => cases hloop
  | skips hreading | spawns hreading => simp [hreading] at hloop
  | joins _ hall => exact hall
  | goes ha hgoes =>
    obtain ⟨pc, rfl, hopen⟩ := Answering.open_of_goes hgoes
    have hover := hdone hloop _ (List.mem_of_getElem? ha)
    rw [hopen.before.2] at hover
    cases hover
  | aborts hfailed => cases hfailed.symm.trans hloop
  | locks hw | puts hw | flushes hw =>
    rcases writing_eq_some hw with ⟨rfl, -⟩ | ⟨i, a, rfl, ha, hwa⟩
    · simp at hloop
    · have hover := hdone hloop _ (List.mem_of_getElem? ha)
      rw [Answering.done_of_writing hwa] at hover
      cases hover

end Connection

end Stdio

end ZondDaemon
