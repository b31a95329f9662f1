import ZondDaemon.Stdio.Settling

/-!
# What a client may assume

Where every line that comes in is UTF-8, a client gets of a connection what the documentation of `stdio.rs`
promises it (`speak_answers`): whole frames, a whole answer under its own id for each request, a refusal for
each line that is no request, and by the time the loop returns one frame for each that ends it. A line that is
not UTF-8 is the end of all of that: the reader's error takes the loop out, unanswered itself and with every
answer still on its way, and so no line read may be one (`unsilenced_iff`).
-/

namespace ZondDaemon

open Json (newline)
open Machine (Always)
open Sequence (said)

variable {E : Engine}

namespace Stdio

instance : DecidablePred Readable := fun line => inferInstanceAs (Decidable ((decode line).isSome = true))

/-- The line is text, and nothing but blanks. -/
def blankLine (line : List UInt8) : Bool := (decode line).any blank

/-- The line cannot be read as a request. -/
def unread (serde : Serde E.F64) (line : List UInt8) : Bool :=
  match hear serde line with
  | .garbled => true
  | .malformed _ => true
  | _ => false

variable {serde : Serde E.F64} {line : List UInt8} {lines : List (List UInt8)}

theorem hear_eq_blank : hear serde line = .blank ↔ blankLine line = true := by
  unfold hear blankLine
  cases decode line with
  | none => simp
  | some text =>
    dsimp only
    split_ifs with hblank
    · simpa using hblank
    · split <;> simpa using hblank

theorem length_questions (hreadable : ∀ line ∈ lines, Readable line) :
    (lines.filterMap (requestOf serde)).length + (lines.filterMap (refusalOf serde)).length =
      lines.countP fun line => !blankLine line := by
  induction lines with
  | nil => rfl
  | cons line lines ih =>
    have hrest := ih fun other hother => hreadable other (List.mem_cons_of_mem _ hother)
    have hblank : hear serde line = .blank ↔ blankLine line = true := hear_eq_blank
    rw [List.countP_cons, ← hrest]
    cases hhear : hear serde line with
    | garbled => exact absurd (hreadable line List.mem_cons_self) (garbled_iff.mp hhear)
    | blank =>
      rw [hhear] at hblank
      simp [requestOf, refusalOf, hhear, hblank.mp rfl]
    | malformed detail =>
      have hsaid : blankLine line = false := by simpa [hhear] using hblank
      have hrequest : requestOf serde line = none := by simp [requestOf, hhear]
      have hrefusal : refusalOf serde line = some (.error .null (.malformed detail)) := by
        simp [refusalOf, hhear]
      rw [List.filterMap_cons_none hrequest, List.filterMap_cons_some hrefusal, List.length_cons]
      simp only [hsaid, Bool.not_false, if_true]
      omega
    | request request =>
      have hsaid : blankLine line = false := by simpa [hhear] using hblank
      have hrequest : requestOf serde line = some request := by simp [requestOf, hhear]
      have hrefusal : refusalOf serde line = none := by simp [refusalOf, hhear]
      rw [List.filterMap_cons_some hrequest, List.filterMap_cons_none hrefusal, List.length_cons]
      simp only [hsaid, Bool.not_false, if_true]
      omega

theorem length_unread (serde : Serde E.F64) (lines : List (List UInt8)) :
    lines.countP (unread serde) =
      (lines.filterMap (refusalOf serde)).length + lines.countP fun line => !decide (Readable line) := by
  induction lines with
  | nil => rfl
  | cons line lines ih =>
    have hgarbled : hear serde line = .garbled ↔ ¬ Readable line := garbled_iff
    rw [List.countP_cons, List.countP_cons, ih]
    cases hhear : hear serde line with
    | garbled =>
      rw [hhear] at hgarbled
      have hrefusal : refusalOf serde line = none := by simp [refusalOf, hhear]
      rw [List.filterMap_cons_none hrefusal]
      simp only [unread, hhear, hgarbled.mp rfl, decide_false, Bool.not_false, if_true]
      omega
    | blank | request =>
      have hline : Readable line := by simpa [hhear] using hgarbled
      simp [unread, refusalOf, hhear, hline]
    | malformed detail =>
      have hline : Readable line := by simpa [hhear] using hgarbled
      have hrefusal : refusalOf serde line = some (.error .null (.malformed detail)) := by
        simp [refusalOf, hhear]
      rw [List.filterMap_cons_some hrefusal, List.length_cons]
      simp only [unread, hhear, hline, decide_true, Bool.not_true, Bool.false_eq_true, if_true, if_false]
      omega

/-- Whether the loop is out on an error. -/
def Loop.gaveUp : Loop → Bool
  | .failed => true
  | _ => false

theorem Loop.eq_failed {loop : Loop} (h : loop.gaveUp = true) : loop = .failed := by
  cases loop with
  | failed => rfl
  | _ => cases h

namespace Connection

variable {input : List UInt8} {c c' t : Connection E} {act : Act}

/-! ## Every question one answer -/

/-- What a client may assume of a connection, in whatever state it is. -/
structure Answers (serde : Serde E.F64) (input : List UInt8) (c : Connection E) : Prop where
  /-- The output is whole frames, and of the one the lock is held for as much as was taken. -/
  whole : ∃ part, c.output = c.lines ++ part ∧ (part = [] ∨ ∃ p frame left, c.holder = some p ∧
    c.writing p = some ⟨frame, .holding left⟩ ∧ part ++ left = frame.line)
  /-- With nobody inside the lock a reader splits it into just these. -/
  lines : c.holder = none → Lines.cut newline c.output = ⟨c.written.map fun w => w.2.toJson.bytes, []⟩
  /-- A task is there for each request, and nobody but these and the loop writes anything. -/
  asked : c.answering.map Answering.request = c.heard.filterMap (requestOf serde)
  authors : ∀ w ∈ c.written, w.1 = .loop ∨ ∃ i < c.answering.length, w.1 = .task i
  /-- What a task has written is its whole answer once it is over, and until then events of it. -/
  answered : ∀ (i : Nat) (a : Answering E), c.answering[i]? = some a →
    if a.done then Answered a.request (said some (.task i) c.written)
    else Streaming a.request (said some (.task i) c.written)
  /-- What the loop has written, or is writing, is a refusal for each line that is no request. -/
  refused : said some .loop c.written ++ c.pending = c.heard.filterMap (refusalOf serde)
  /-- When the loop returns it has read every line, and there is a last frame for each that is not blank. -/
  returned : c.loop = .returned → c.heard = inputLines input ∧ c.pending = [] ∧
    (∀ a ∈ c.answering, a.done = true) ∧
    c.written.countP (fun w => w.2.terminal) = (inputLines input).countP fun line => !blankLine line
  /-- And it can always come to that. -/
  returns : ∃ t, (machine serde).Reach Always c t ∧ t.loop = .returned

theorem heard_mono (h : (machine serde).step c act = some c') : c.heard <+: c'.heard := by
  cases moves_of_step h with
  | garbles | skips | refuses | spawns => exact List.prefix_append _ _
  | closes | joins | goes | locks | puts | flushes | aborts => exact List.prefix_refl _

theorem reach_legible (h : (machine serde).Reach Always (opened input) c)
    (hheard : ∀ line ∈ c.heard, Readable line) : (machine serde).Reach Legible (opened input) c := by
  induction h with
  | refl => exact .refl
  | @tail t u act _ _ hstep ih =>
    have hmono := heard_mono hstep
    refine .tail (ih fun line hline => hheard line (hmono.mem hline)) ?_ hstep
    cases act with
    | proceed | reply | write | abort => trivial
    | speak =>
      intro line rest hloop hinput
      apply hheard line
      cases moves_of_step hstep with
      | closes _ hempty => simp [hempty] at hinput
      | joins hjoining => simp [hjoining] at hloop
      | garbles _ hline | skips _ hline | refuses _ hline | spawns _ hline =>
        cases hline.symm.trans hinput
        exact List.mem_append_right _ List.mem_cons_self
      | goes _ hgoes => rcases hgoes with ⟨⟨⟩, -⟩ | ⟨r, ⟨⟩, -⟩

theorem whole_of_framed (h : c.Framed) : ∃ part, c.output = c.lines ++ part ∧ (part = [] ∨ ∃ p frame left,
    c.holder = some p ∧ c.writing p = some ⟨frame, .holding left⟩ ∧ part ++ left = frame.line) := by
  cases hholder : c.holder with
  | none => exact ⟨[], by rw [h.free hholder, List.append_nil], .inl rfl⟩
  | some p =>
    obtain ⟨frame, left, part, hw, hpart, hout⟩ := h.held p hholder
    exact ⟨part, hout, .inr ⟨p, frame, left, rfl, hw, hpart⟩⟩

theorem cut_output (h : c.Framed) (hfree : c.holder = none) :
    Lines.cut newline c.output = ⟨c.written.map fun w => w.2.toJson.bytes, []⟩ := by
  have hlines : c.lines = (c.written.map fun w => w.2).flatMap Frame.line := by
    rw [List.flatMap_map]
    rfl
  rw [h.free hfree, hlines, Frame.cut_lines, List.map_map]
  rfl

/-- By its return the loop has had a last frame written for each line that is not blank. -/
theorem terminal_of_returned (hreadable : ∀ line ∈ inputLines input, Readable line)
    (h : (machine serde).Reach Legible (opened input) c) (hloop : c.loop = .returned) :
    c.heard = inputLines input ∧ c.pending = [] ∧ (∀ a ∈ c.answering, a.done = true) ∧
      c.written.countP (fun w => w.2.terminal) = (inputLines input).countP fun line => !blankLine line := by
  have hheard : c.heard = inputLines input := by
    have hlines := heard_append_input h
    rwa [input_nil h (.inr hloop), List.append_nil] at hlines
  have hpending : c.pending = [] := pending_eq_nil (by simp [hloop])
  have hdone := all_done h hloop
  refine ⟨hheard, hpending, hdone, ?_⟩
  have htasks : c.answering.countP Answering.done = (c.heard.filterMap (requestOf serde)).length := by
    rw [List.countP_eq_length.mpr hdone, ← asked h, List.length_map]
  have hrefusals : (said some .loop c.written).length = (c.heard.filterMap (refusalOf serde)).length := by
    rw [← refused h, hpending, List.append_nil]
  rw [counted h, htasks, hrefusals, hheard, length_questions hreadable]

/-- **Every question gets exactly one answer, framed whole.** -/
theorem speak_answers (serde : Serde E.F64) (input : List UInt8) (c : Connection E)
    (hreadable : ∀ line ∈ inputLines input, Readable line)
    (h : (machine serde).Reach Always (opened input) c) : Answers serde input c := by
  have hlines := heard_append_input h
  have hlegible : (machine serde).Reach Legible (opened input) c := by
    apply reach_legible h
    intro line hline
    exact hreadable line (hlines ▸ List.mem_append_left _ hline)
  refine ⟨whole_of_framed (framed hlegible), cut_output (framed hlegible), Connection.asked h, ?_, ?_,
    Connection.refused h, terminal_of_returned hreadable hlegible, ?_⟩
  · rintro ⟨p, frame⟩ hw
    cases p with
    | loop => exact .inl rfl
    | task i => exact .inr ⟨i, Connection.authors h hw, rfl⟩
  · intro i a ha
    have htold := told hlegible ha
    split_ifs with hdone
    · exact htold.answered hdone
    · exact ((Answering.told_of_not_done (Bool.eq_false_iff.mpr hdone)).mp htold).2
  · obtain ⟨t, ht, -, hreturned⟩ := Connection.returns hlegible hreadable
    exact ⟨t, ht.always, hreturned⟩

/-- A request, a blank line and one that is no request. -/
def asking : List UInt8 := corpusAsked.bytes ++ [newline, 0x20, newline, 0x78, newline]

/-- What they are answered. -/
def corpus : Frame := .result (.number (.posInt 1)) (.obj [("detections", .array [])])

def refusal : Frame := .error .null (.malformed "expected value at line 1 column 1")

/-- The refusal goes out first, in two pieces, and the answer waits for it. -/
def conversation : List Act :=
  [.speak, .proceed 0, .speak, .speak, .write .loop .lock,
    .reply 0 (.answer (.ok (.obj [("detections", .array [])]))), .write .loop (.put 7),
    .write .loop (.put (refusal.line.length - 7)), .write .loop .flush, .write (.task 0) .lock,
    .write (.task 0) (.put corpus.line.length), .write (.task 0) .flush, .speak, .speak]

theorem answers_asking : ∃ c, (machine plainSerde).run (opened asking) conversation = some c ∧
    c.output = refusal.line ++ corpus.line ∧ c.Answers plainSerde asking := by
  have hrun : ((machine plainSerde).run (opened asking) conversation).map (fun c => c.output) =
      some (refusal.line ++ corpus.line) := by decide +kernel
  obtain ⟨c, hc, hout⟩ := Option.map_eq_some_iff.mp hrun
  exact ⟨c, hc, hout, speak_answers plainSerde asking c (by decide +kernel) (.of_run hc)⟩

/-! ## One line that is not UTF-8 -/

/-- What the lines read have not taken from anybody: with no more read, it can come to it that every request
has its whole answer, every line that cannot be read as one its malformed frame, and the next line is read if
there is one. -/
def Unsilenced (serde : Serde E.F64) (c : Connection E) : Prop :=
  ∃ t, (machine serde).Reach Always c t ∧ t.input = c.input ∧ t.heard = c.heard ∧
    (∀ (i : Nat) (request : Request), (t.heard.filterMap (requestOf serde))[i]? = some request →
      Answered request (said some (.task i) t.written)) ∧
    List.Forall₂ (fun _ frame => ∃ detail, frame = .error .null (.malformed detail))
      (t.heard.filter (unread serde)) (said some .loop t.written) ∧
    (t.input = [] ∨ t.loop = .reading)

theorem refusals_of_unread (hreadable : ∀ line ∈ lines, Readable line) :
    List.Forall₂ (fun _ frame => ∃ detail, frame = .error .null (.malformed detail))
      (lines.filter (unread serde)) (lines.filterMap (refusalOf serde)) := by
  induction lines with
  | nil => exact .nil
  | cons line lines ih =>
    have hrest := ih fun other hother => hreadable other (List.mem_cons_of_mem _ hother)
    cases hhear : hear serde line with
    | garbled => exact absurd (hreadable line List.mem_cons_self) (garbled_iff.mp hhear)
    | blank | request => simpa [unread, refusalOf, hhear] using hrest
    | malformed detail =>
      have hunread : unread serde line = true := by simp [unread, hhear]
      have hrefusal : refusalOf serde line = some (.error .null (.malformed detail)) := by
        simp [refusalOf, hhear]
      rw [List.filter_cons_of_pos hunread, List.filterMap_cons_some hrefusal]
      exact .cons ⟨detail, rfl⟩ hrest

/-- With a line read that is not UTF-8, it has no frame and never will. -/
theorem readable_of_unsilenced (h : (machine serde).Reach Always (opened input) c) (hc : c.Unsilenced serde) :
    ∀ line ∈ c.heard, Readable line := by
  obtain ⟨t, ht, -, hheard, -, hrefused, -⟩ := hc
  have hlength := hrefused.length_eq
  have hfew := congrArg List.length (Connection.refused (h.trans ht))
  rw [List.length_append] at hfew
  rw [← List.countP_eq_length_filter, length_unread] at hlength
  have hnone : t.heard.countP (fun line => !decide (Readable line)) = 0 := by omega
  intro line hline
  have hread := List.countP_eq_zero.mp hnone line (hheard ▸ hline)
  simpa using hread

/-- **No line silences the others just where every line read is UTF-8.** -/
theorem unsilenced_iff (serde : Serde E.F64) (input : List UInt8) (c : Connection E)
    (h : (machine serde).Reach Always (opened input) c) :
    c.Unsilenced serde ↔ ∀ line ∈ c.heard, Readable line := by
  refine ⟨readable_of_unsilenced h, fun hheard => ?_⟩
  obtain ⟨t, hct, ⟨ht, hinput, hlines⟩, hsettled⟩ := settles (reach_legible h hheard)
  have hpending : t.pending = [] := pending_eq_nil hsettled.quiet
  have hrefused := Connection.refused ht
  rw [hpending, List.append_nil] at hrefused
  refine ⟨t, hct.always, hinput, hlines, ?_, ?_, ?_⟩
  · intro i request hrequest
    rw [← Connection.asked ht, List.getElem?_map] at hrequest
    obtain ⟨a, ha, rfl⟩ := Option.map_eq_some_iff.mp hrequest
    exact (told ht ha).answered (hsettled.done a (List.mem_of_getElem? ha))
  · rw [hrefused]
    exact refusals_of_unread fun line hline => hheard line (hlines ▸ hline)
  · cases hloop : t.loop with
    | reading => exact .inr rfl
    | refusing writing => exact absurd hloop (hsettled.quiet writing)
    | joining => exact .inl (input_nil ht (.inl hloop))
    | returned => exact .inl (input_nil ht (.inr hloop))
    | failed => exact absurd hloop (loop_ne_failed ht)

/-- Once the loop is out on an error and the tasks are over, nothing happens any more. -/
theorem eq_of_failed (hloop : c.loop = .failed) (hdone : ∀ a ∈ c.answering, a.done = true)
    (h : (machine serde).Reach Always c t) : t = c := by
  have hidle : ∀ p writing, c.writing p ≠ some writing := by
    intro p writing hw
    rcases writing_eq_some hw with ⟨-, hrefusing⟩ | ⟨i, a, -, ha, hwa⟩
    · cases hloop.symm.trans hrefusing
    · cases (hdone a (List.mem_of_getElem? ha)).symm.trans (Answering.done_of_writing hwa)
  induction h with
  | refl => rfl
  | tail _ _ hstep ih =>
    rw [ih] at hstep
    cases moves_of_step hstep with
    | closes hat | garbles hat | skips hat | refuses hat | spawns hat | joins hat => cases hloop.symm.trans hat
    | goes ha hgoes =>
      obtain ⟨pc, -, hopen⟩ := Answering.open_of_goes hgoes
      cases (hdone _ (List.mem_of_getElem? ha)).symm.trans hopen.before.2
    | locks hw | puts hw | flushes hw => exact absurd hw (hidle _ _)
    | aborts _ ha hopen => cases (hdone _ (List.mem_of_getElem? ha)).symm.trans hopen

/-- A request, a byte that is no text, and a request. -/
def cutOff : List UInt8 := corpusAsked.bytes ++ [newline, 0xff, newline] ++ corpusAsked.bytes ++ [newline]

/-- Before the byte is read the request will be answered. -/
theorem unsilenced_before : ∃ c, (machine plainSerde).run (opened cutOff) [.speak] = some c ∧
    c.answering.length = 1 ∧ c.Unsilenced plainSerde := by
  have hrun : ((machine plainSerde).run (opened cutOff) [.speak]).map
      (fun c => (c.answering.length, c.heard.all fun line => decide (Readable line))) = some (1, true) := by
    decide +kernel
  obtain ⟨c, hc, hread⟩ := Option.map_eq_some_iff.mp hrun
  simp only [Prod.mk.injEq, List.all_eq_true, decide_eq_true_eq] at hread
  exact ⟨c, hc, hread.1, (unsilenced_iff plainSerde cutOff c (.of_run hc)).mpr hread.2⟩

/-- The loop is out once it is read: the first request, read before it, is never answered, and the second one
is never read. -/
theorem silenced : ∃ c, (machine plainSerde).run (opened cutOff) [.speak, .speak, .abort 0] = some c ∧
    c.input.length = 1 ∧ c.written = [] ∧ (∀ t, (machine plainSerde).Reach Always c t → t = c) ∧
    ¬ c.Unsilenced plainSerde := by
  have hrun : ((machine plainSerde).run (opened cutOff) [.speak, .speak, .abort 0]).map
      (fun c => (c.input.length, c.written.isEmpty, c.answering.all Answering.done, c.loop.gaveUp,
        c.heard.all fun line => decide (Readable line))) = some (1, true, true, true, false) := by
    decide +kernel
  obtain ⟨c, hc, hend⟩ := Option.map_eq_some_iff.mp hrun
  simp only [Prod.mk.injEq, List.isEmpty_iff, List.all_eq_true] at hend
  obtain ⟨hinput, hwritten, hdone, hloop, hread⟩ := hend
  refine ⟨c, hc, hinput, hwritten, fun t ht => eq_of_failed (Loop.eq_failed hloop) hdone ht,
    fun hun => ?_⟩
  have hall : (c.heard.all fun line => decide (Readable line)) = true := by
    rw [List.all_eq_true]
    intro line hline
    exact decide_eq_true (readable_of_unsilenced (.of_run hc) hun line hline)
  rw [hread] at hall
  cases hall

end Connection

end Stdio

end ZondDaemon
