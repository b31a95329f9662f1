import ZondDaemon.Scans.Tail
import ZondDaemon.Server.Tasks

/-!
# What a client is told of a scan

The task of a `watch` and the watch in the registry stand at the same line of one function (`Stands`), and
what the task has written is what the watch has (`Along`), whatever the other tasks, the other connections, the
engine and the directory do in between (`reach_coupled`). So a fact about the watches of a live scan is a fact
about the frames a client is written (`written_live`).
-/

namespace ZondDaemon

open Proto

variable {E : Engine}

namespace Watch

variable {w w' : Watch E}

/-- The steps of a watch, of a live scan or of a record, one constructor for each. -/
inductive Forths (w : Watch E) : Watch E → Prop
  | marks {seq : Nat} : w.pc = .opening → Forths w { w with pc := .marked seq }
  | opens {caughtUp : List (Event E.ScopedIp)} {cursor : Nat} :
      (w.pc = .opening ∨ ∃ seq, w.pc = .marked seq) →
      cursor = (caughtUp.getLast?.map Event.seq).getD w.fromSeq →
      Forths w { w with pc := .saying caughtUp cursor, start := cursor, caughtUp := some caughtUp }
  | shows {event : Event E.ScopedIp} {left : List (Event E.ScopedIp)} {cursor : Nat} :
      w.pc = .saying (event :: left) cursor → Forths w (w.tell event (.saying left cursor))
  | said {cursor : Nat} : w.pc = .saying [] cursor → Forths w { w with pc := .tailing cursor .starting }
  | waits {cursor : Nat} {call call' : After E} : w.pc = .tailing cursor call →
      Forths w { w with pc := .tailing cursor call' }
  | ends {cursor : Nat} {call : After E} : w.pc = .tailing cursor call →
    Forths w { w with pc := .ending cursor }
  | hears {event : Event E.ScopedIp} {left : List (Event E.ScopedIp)} {cursor : Nat} {call : After E} :
      w.pc = .tailing cursor call → Forths w { w with pc := .telling (event :: left) cursor }
  | tells {event : Event E.ScopedIp} {left : List (Event E.ScopedIp)} {cursor : Nat} :
      w.pc = .telling (event :: left) cursor → Forths w (w.tell event (.telling left (max cursor event.seq)))
  | told {cursor : Nat} : w.pc = .telling [] cursor → Forths w { w with pc := .tailing cursor .starting }
  | closes {cursor : Nat} : w.pc = .ending cursor →
      Forths w { w with pc := .ended cursor, written := w.written ++ [.ended] }

theorem cursor_eq (caughtUp : List (Event E.ScopedIp)) (fromSeq : Nat) :
    (match caughtUp.getLast? with
      | some last => last.seq
      | none => fromSeq) = (caughtUp.getLast?.map Event.seq).getD fromSeq := by
  cases caughtUp.getLast? with
  | none => rfl
  | some last => rfl

theorem forths_of_step {scan : Scan E} (h : w.step scan = some w') : w.Forths w' := by
  unfold step at h
  split at h
  · rename_i hpc
    cases h
    exact .marks hpc
  · rename_i seq hpc
    cases h
    exact .opens (.inr ⟨seq, hpc⟩) (cursor_eq _ _)
  · rename_i hpc
    cases h
    exact .shows hpc
  · rename_i hpc
    cases h
    exact .said hpc
  · rename_i hpc
    cases h
    exact .ends hpc
  · rename_i hpc
    cases h
    exact .hears hpc
  · rename_i hpc
    obtain ⟨call', -, rfl⟩ := Option.map_eq_some_iff.mp h
    exact .waits hpc
  · rename_i hpc
    cases h
    exact .tells hpc
  · rename_i hpc
    cases h
    exact .told hpc
  · rename_i hpc
    cases h
    exact .closes hpc
  · cases h

theorem forths_of_recorded {recorded : Recorded E} (h : recorded.step w = some w') : w.Forths w' := by
  unfold Recorded.step at h
  split at h
  · rename_i hpc
    cases h
    exact .opens (.inl hpc) (cursor_eq _ _)
  · cases h
  · rename_i hpc
    cases h
    exact .shows hpc
  · rename_i hpc
    cases h
    exact .said hpc
  · rename_i hpc
    cases h
    exact .ends hpc
  · rename_i hpc
    cases h
    exact .hears hpc
  · rename_i hpc
    cases h
    exact .waits hpc
  · rename_i hpc
    cases h
    exact .tells hpc
  · rename_i hpc
    cases h
    exact .told hpc
  · rename_i hpc
    cases h
    exact .closes hpc
  · cases h

/-- What is written is the events, and the `end` frame where the call has ended. -/
structure Last (w : Watch E) : Prop where
  ended : ∀ cursor, w.pc = .ended cursor → w.written = w.events.map .event ++ [.ended]
  going : (∀ cursor, w.pc ≠ .ended cursor) → w.written = w.events.map .event

theorem last_call (fromSeq : Nat) : (call fromSeq : Watch E).Last where
  ended cursor h := by
    by_cases hzero : fromSeq = 0 <;> simp [call, hzero] at h
  going _ := rfl

theorem Last.at {pc : WatchPc E} {start : Nat} {caughtUp : Option (List (Event E.ScopedIp))} (h : w.Last)
    (hgoing : ∀ cursor, w.pc ≠ .ended cursor) (hpc : ∀ cursor, pc ≠ .ended cursor) :
    Last { w with pc := pc, start := start, caughtUp := caughtUp } where
  ended cursor heq := absurd heq (hpc cursor)
  going _ := h.going hgoing

theorem Last.tell {event : Event E.ScopedIp} {pc : WatchPc E} (h : w.Last)
    (hgoing : ∀ cursor, w.pc ≠ .ended cursor)
    (hpc : ∀ cursor, pc ≠ .ended cursor) : (w.tell event pc).Last where
  ended cursor heq := absurd heq (hpc cursor)
  going _ := by
    rw [events_tell, List.map_append, ← h.going hgoing]
    rfl

theorem Last.forths (h : w.Last) (hw : w.Forths w') : w'.Last := by
  cases hw with
  | marks hpc | said hpc | waits hpc | ends hpc | hears hpc | told hpc => exact h.at (by simp [hpc]) (by simp)
  | opens hpc =>
    refine h.at ?_ (by simp)
    rintro cursor hended
    simp [hended] at hpc
  | shows hpc | tells hpc => exact h.tell (by simp [hpc]) (by simp)
  | @closes cursor hpc =>
    refine ⟨fun _ _ => ?_, fun hgoing => absurd rfl (hgoing _)⟩
    have hevents : Watch.events { w with pc := .ended cursor, written := w.written ++ [.ended] } =
      w.events := by
      simp [events]
    rw [hevents, h.going (by simp [hpc])]

theorem Last.split (h : w.Last) :
    ∃ last, w.written = w.events.map .event ++ last ∧
      (last = [] ∨ last = [.ended] ∧ ∃ cursor, w.pc = .ended cursor) := by
  by_cases hended : ∃ cursor, w.pc = .ended cursor
  · obtain ⟨cursor, hpc⟩ := hended
    exact ⟨[.ended], h.ended cursor hpc, .inr ⟨rfl, cursor, hpc⟩⟩
  · refine ⟨[], ?_, .inl rfl⟩
    rw [List.append_nil]
    exact h.going fun cursor hpc => hended ⟨cursor, hpc⟩

end Watch

namespace Server

variable {o : Outside E} {rules : Rules E} {s : Server E} {d d' : Daemon E} {who : Nat × Nat} {link : Link E}
  {a a' : Stdio.Answering E} {w w' : Watch E} {frames more : List Stdio.Frame} {id : Json}

theorem forths_of_forth (h : Forth w w') : w.Forths w' := by
  rcases h with ⟨scan, h⟩ | ⟨recorded, h⟩
  · exact Watch.forths_of_step h
  · exact Watch.forths_of_recorded h

/-! ## Two views of one watch -/

/-- The frame a line of a watch is written as. -/
def Written (o : Outside E) (id : Json) : Frame E → Stdio.Frame → Prop
  | .event event, frame => ∃ spoken, o.spoken event = some spoken ∧ frame = .event id spoken.json
  | .ended, frame => frame = .ended id

/-- The cursor a task goes on from, having told these events. -/
def cursorAfter (cursor : Nat) (told : List Stdio.Spoken) : Nat :=
  told.foldl (fun cursor event => max cursor event.seq) cursor

/-- Where a watch stands in the registry and where its task stands on the connection are the same line. -/
inductive Stands (o : Outside E) (id : Json) : WatchPc E → Stdio.Pc E → Prop
  | opening : Stands o id .opening .snapshotting
  | marked {seq : Nat} : Stands o id (.marked seq) .snapshotting
  | saying {left : List (Event E.ScopedIp)} {spoken : List Stdio.Spoken} {cursor : Nat} :
      left.mapM o.spoken = some spoken → Stands o id (.saying left cursor) (.telling spoken cursor)
  | shows {left : List (Event E.ScopedIp)} {next : Stdio.Spoken} {spoken : List Stdio.Spoken} {cursor : Nat}
      {turn : Stdio.Turn} : left.mapM o.spoken = some (next :: spoken) →
      Stands o id (.saying left cursor) (.framing ⟨.event id next.json, turn⟩ (.telling spoken cursor))
  | tailing {cursor : Nat} {call : After E} : Stands o id (.tailing cursor call) (.following cursor)
  | telling {left : List (Event E.ScopedIp)} {spoken : List Stdio.Spoken} {cursor : Nat} :
      left.mapM o.spoken = some spoken →
      Stands o id (.telling left cursor) (.telling spoken (cursorAfter cursor spoken))
  | tells {left : List (Event E.ScopedIp)} {next : Stdio.Spoken} {spoken : List Stdio.Spoken} {cursor : Nat}
      {turn : Stdio.Turn} : left.mapM o.spoken = some (next :: spoken) →
      Stands o id (.telling left cursor)
        (.framing ⟨.event id next.json, turn⟩ (.telling spoken (cursorAfter cursor (next :: spoken))))
  | ending {cursor : Nat} {turn : Stdio.Turn} :
      Stands o id (.ending cursor) (.framing ⟨.ended id, turn⟩ .returned)
  | ended {cursor : Nat} : Stands o id (.ended cursor) .returned
  | aborted {pc : WatchPc E} : Stands o id pc .aborted

/-- The task of a `watch` and its watch: what was asked, where they stand, and what is written. -/
structure Along (o : Outside E) (a : Stdio.Answering E) (name : String) (w : Watch E)
    (frames : List Stdio.Frame) : Prop where
  asked : Stdio.asked o.serde a.request.method a.request.params = .ok (.watch name w.fromSeq)
  opens : (w.pc = .opening ∨ ∃ seq, w.pc = .marked seq) → w.fromSeq = 0
  stands : Stands o a.request.id w.pc a.pc
  wrote : List.Forall₂ (Written o a.request.id) w.written frames
  last : w.Last

theorem mapM_spoken_cons {event : Event E.ScopedIp} {left : List (Event E.ScopedIp)}
    {spoken : List Stdio.Spoken} (h : (event :: left).mapM o.spoken = some spoken) :
    ∃ next rest, o.spoken event = some next ∧ left.mapM o.spoken = some rest ∧ spoken = next :: rest := by
  rw [List.mapM_cons] at h
  obtain ⟨next, hnext, h⟩ := Option.bind_eq_some_iff.mp h
  obtain ⟨rest, hrest, h⟩ := Option.bind_eq_some_iff.mp h
  cases h
  exact ⟨next, rest, hnext, hrest, rfl⟩

theorem spoken_seq {event : Event E.ScopedIp} {next : Stdio.Spoken} (h : o.spoken event = some next) :
    next.seq = event.seq := by
  obtain ⟨json, -, rfl⟩ := Option.map_eq_some_iff.mp h
  rfl

theorem cursor_of_snapshot {caughtUp : List (Event E.ScopedIp)} {spoken : List Stdio.Spoken}
    (h : caughtUp.mapM o.spoken = some spoken) :
    spoken.getLast?.map Stdio.Spoken.seq = caughtUp.getLast?.map Event.seq := by
  have hseq : spoken.map Stdio.Spoken.seq = caughtUp.map Event.seq := by
    induction caughtUp generalizing spoken with
    | nil =>
      cases h
      rfl
    | cons event left ih =>
      obtain ⟨next, rest, hnext, hrest, rfl⟩ := mapM_spoken_cons h
      rw [List.map_cons, List.map_cons, spoken_seq hnext, ih hrest]
  rw [← List.getLast?_map, ← List.getLast?_map, hseq]

/-! ## A step of the two -/

theorem Along.proceeds {name : String} (h : Along o a name w frames) (hne : ∀ cursor, a.pc ≠ .telling [] cursor)
    (ha : a.proceed o.serde = some a') : Along o a' name w frames := by
  obtain ⟨request, pc⟩ := a
  obtain ⟨hasked, hopens, hstands, hwrote, hlast⟩ := h
  dsimp only at hstands
  generalize hpc : w.pc = stood at hstands
  cases hstands with
  | opening | marked | shows | tailing | tells | ending | ended | aborted => cases ha
  | @saying left spoken cursor hspoken =>
    cases spoken with
    | nil => exact absurd rfl (hne cursor)
    | cons next spoken =>
      cases ha
      exact ⟨hasked, hopens, hpc ▸ .shows hspoken, hwrote, hlast⟩
  | @telling left spoken cursor hspoken =>
    cases spoken with
    | nil => exact absurd rfl (hne _)
    | cons next spoken =>
      cases ha
      exact ⟨hasked, hopens, hpc ▸ .tells hspoken, hwrote, hlast⟩

theorem eq_nil_of_spoken {left : List (Event E.ScopedIp)} (h : left.mapM o.spoken = some []) : left = [] := by
  cases left with
  | nil => rfl
  | cons event left =>
    obtain ⟨next, rest, -, -, heq⟩ := mapM_spoken_cons h
    cases heq

theorem Along.follows {name : String} {cursor : Nat} (h : Along o a name w frames)
    (hpc : a.pc = .telling [] cursor)
    (ha : a.proceed o.serde = some a') (hw : w.Forths w') : Along o a' name w' frames := by
  obtain ⟨request, pc⟩ := a
  obtain ⟨hasked, hopens, hstands, hwrote, hlast⟩ := h
  dsimp only at hstands hpc
  have hlast' := hlast.forths hw
  subst hpc
  cases ha
  generalize hstood : w.pc = stood at hstands
  cases hstands with
  | saying hspoken =>
    obtain rfl := eq_nil_of_spoken hspoken
    cases hw with
    | said hpc =>
      cases hstood.symm.trans hpc
      exact ⟨hasked, by simp, .tailing, hwrote, hlast'⟩
    | marks hpc | shows hpc | waits hpc | ends hpc | hears hpc | tells hpc | told hpc | closes hpc =>
      cases hstood.symm.trans hpc
    | opens hpc => simp [hstood] at hpc
  | telling hspoken =>
    obtain rfl := eq_nil_of_spoken hspoken
    cases hw with
    | told hpc =>
      cases hstood.symm.trans hpc
      exact ⟨hasked, by simp, .tailing, hwrote, hlast'⟩
    | marks hpc | shows hpc | said hpc | waits hpc | ends hpc | hears hpc | tells hpc | closes hpc =>
      cases hstood.symm.trans hpc
    | opens hpc => simp [hstood] at hpc

theorem Along.puts {name : String} {frame : Stdio.Frame} {turn turn' : Stdio.Turn} (h : Along o a name w frames)
    (ha : a.writing = some ⟨frame, turn⟩) : Along o (a.puts (some ⟨frame, turn'⟩)) name w frames := by
  obtain ⟨request, pc⟩ := a
  obtain ⟨hasked, hopens, hstands, hwrote, hlast⟩ := h
  dsimp only at hstands
  generalize hstood : w.pc = stood at hstands
  cases hstands with
  | opening | marked | saying | tailing | telling | ended | aborted => cases ha
  | shows hspoken =>
    cases ha
    exact ⟨hasked, hopens, hstood ▸ .shows hspoken, hwrote, hlast⟩
  | tells hspoken =>
    cases ha
    exact ⟨hasked, hopens, hstood ▸ .tells hspoken, hwrote, hlast⟩
  | ending =>
    cases ha
    exact ⟨hasked, hopens, hstood ▸ .ending, hwrote, hlast⟩

theorem Along.flushes {name : String} {frame : Stdio.Frame} {turn : Stdio.Turn} (h : Along o a name w frames)
    (ha : a.writing = some ⟨frame, turn⟩) (hw : w.Forths w') :
    Along o (a.puts none) name w' (frames ++ [frame]) := by
  obtain ⟨request, pc⟩ := a
  obtain ⟨hasked, hopens, hstands, hwrote, hlast⟩ := h
  dsimp only at hstands
  have hlast' := hlast.forths hw
  generalize hstood : w.pc = stood at hstands
  cases hstands with
  | opening | marked | saying | tailing | telling | ended | aborted => cases ha
  | @shows left next spoken cursor turn hspoken =>
    cases ha
    cases left with
    | nil => cases hspoken
    | cons event left =>
      obtain ⟨next', rest, hnext, hrest, heq⟩ := mapM_spoken_cons hspoken
      cases heq
      cases hw with
      | shows hpc =>
        cases hstood.symm.trans hpc
        refine ⟨hasked, by simp [Watch.tell], .saying hrest, ?_, hlast'⟩
        exact List.rel_append hwrote (.cons ⟨next, hnext, rfl⟩ .nil)
      | marks hpc | said hpc | waits hpc | ends hpc | hears hpc | tells hpc | told hpc | closes hpc =>
        cases hstood.symm.trans hpc
      | opens hpc => simp [hstood] at hpc
  | @tells left next spoken cursor turn hspoken =>
    cases ha
    cases left with
    | nil => cases hspoken
    | cons event left =>
      obtain ⟨next', rest, hnext, hrest, heq⟩ := mapM_spoken_cons hspoken
      cases heq
      cases hw with
      | tells hpc =>
        cases hstood.symm.trans hpc
        have hcursor : cursorAfter cursor (next :: spoken) = cursorAfter (max cursor event.seq) spoken := by
          rw [cursorAfter, List.foldl_cons, spoken_seq hnext]
          rfl
        refine ⟨hasked, by simp [Watch.tell], ?_, ?_, hlast'⟩
        · show Stands o request.id (.telling left _) (.telling spoken (cursorAfter cursor (next :: spoken)))
          rw [hcursor]
          exact .telling hrest
        · exact List.rel_append hwrote (.cons ⟨next, hnext, rfl⟩ .nil)
      | marks hpc | shows hpc | said hpc | waits hpc | ends hpc | hears hpc | told hpc | closes hpc =>
        cases hstood.symm.trans hpc
      | opens hpc => simp [hstood] at hpc
  | ending =>
    cases ha
    cases hw with
    | closes hpc =>
      cases hstood.symm.trans hpc
      exact ⟨hasked, by simp, .ended, List.rel_append hwrote (.cons rfl .nil), hlast'⟩
    | marks hpc | shows hpc | said hpc | waits hpc | ends hpc | hears hpc | tells hpc | told hpc =>
      cases hstood.symm.trans hpc
    | opens hpc => simp [hstood] at hpc

theorem Along.watches {name : String} {t : Nat} {reply : Option Stdio.Reply} (h : Along o a name w frames)
    (hpc : a.pc = .snapshotting ∨ ∃ cursor, a.pc = .following cursor) (hw : w.Forths w')
    (hheard : heard o w'.pc = some reply) (ha : Stdio.Views o.serde t a (reply.map (.reply t)) a' more) :
    more = [] ∧ Along o a' name w' frames := by
  obtain ⟨request, pc⟩ := a
  obtain ⟨hasked, hopens, hstands, hwrote, hlast⟩ := h
  dsimp only at hstands hpc
  have hlast' := hlast.forths hw
  generalize hstood : w.pc = stood at hstands
  cases hstands with
  | saying | shows | telling | tells | ending | ended | aborted => simp at hpc
  | opening =>
    cases hw with
    | marks =>
      cases hheard
      cases ha
      exact ⟨rfl, hasked, fun _ => hopens (.inl hstood), .marked, hwrote, hlast'⟩
    | @opens caughtUp cursor _ hcursor =>
      obtain ⟨spoken, hspoken, rfl⟩ := Option.map_eq_some_iff.mp hheard
      cases ha with
      | replies ha =>
        cases ha
        refine ⟨rfl, hasked, by simp, ?_, hwrote, hlast'⟩
        rw [hopens (.inl hstood), ← cursor_of_snapshot hspoken] at hcursor
        rw [← hcursor]
        exact .saying hspoken
    | shows hat | said hat | waits hat | ends hat | hears hat | tells hat | told hat | closes hat =>
      cases hstood.symm.trans hat
  | @marked seq =>
    cases hw with
    | @opens caughtUp cursor _ hcursor =>
      obtain ⟨spoken, hspoken, rfl⟩ := Option.map_eq_some_iff.mp hheard
      cases ha with
      | replies ha =>
        cases ha
        refine ⟨rfl, hasked, by simp, ?_, hwrote, hlast'⟩
        rw [hopens (.inr ⟨seq, hstood⟩), ← cursor_of_snapshot hspoken] at hcursor
        rw [← hcursor]
        exact .saying hspoken
    | marks hat | shows hat | said hat | waits hat | ends hat | hears hat | tells hat | told hat | closes hat =>
      cases hstood.symm.trans hat
  | tailing =>
    cases hw with
    | waits hat =>
      cases hstood.symm.trans hat
      cases hheard
      cases ha
      exact ⟨rfl, hasked, by simp, .tailing, hwrote, hlast'⟩
    | ends hat =>
      cases hstood.symm.trans hat
      cases hheard
      cases ha with
      | replies ha =>
        cases ha
        exact ⟨rfl, hasked, by simp, .ending, hwrote, hlast'⟩
    | hears hat =>
      cases hstood.symm.trans hat
      obtain ⟨spoken, hspoken, rfl⟩ := Option.map_eq_some_iff.mp hheard
      obtain ⟨next, rest, hnext, hrest, rfl⟩ := mapM_spoken_cons hspoken
      cases ha with
      | replies ha =>
        cases ha
        exact ⟨rfl, hasked, by simp, .telling hspoken, hwrote, hlast'⟩
    | marks hat | shows hat | said hat | tells hat | told hat | closes hat => cases hstood.symm.trans hat
    | opens hat => simp [hstood] at hat

theorem Along.aborts {name : String} (h : Along o a name w frames) : Along o (a.goes .aborted) name w frames :=
  ⟨h.asked, h.opens, .aborted, h.wrote, h.last⟩

/-! ## Every task -/

/-- A frame a request is answered with: a `watch` that has found nothing is answered with an error. -/
def Answers (o : Outside E) (r : Stdio.Request) (frame : Stdio.Frame) : Prop :=
  ∀ name fromSeq, Stdio.asked o.serde r.method r.params = .ok (.watch (E := E) name fromSeq) →
    ∃ refused, frame = .error r.id refused

/-- What a task may be at that has no watch: on its way to the registry, in it, or writing or having written
the one frame it is answered with. -/
inductive Plain (o : Outside E) (a : Stdio.Answering E) : List Stdio.Frame → Prop
  | spawned : a.pc = .spawned → Plain o a []
  | calling {q : Asked E} : a.pc = .calling q →
      Stdio.asked o.serde a.request.method a.request.params = .ok q → Plain o a []
  | framing {frame : Stdio.Frame} {turn : Stdio.Turn} : a.pc = .framing ⟨frame, turn⟩ .returned →
      Answers o a.request frame → Plain o a []
  | returned {frame : Stdio.Frame} : a.pc = .returned → Answers o a.request frame → Plain o a [frame]
  | aborted {told : List Stdio.Frame} : a.pc = .aborted → (told = [] ∨ ∃ frame, told = [frame] ∧
      Answers o a.request frame) → Plain o a told

/-- The name of what is watched. -/
def nameOf (d : Daemon E) : Link E → Option String
  | .live j => (d.scans[j]?).map fun l => l.sitting.scan.id
  | .recorded k => (d.watches[k]?).map fun v => v.recorded.id
  | _ => none

/-- A task and what it is doing in the registry. -/
inductive Coupled (o : Outside E) (d : Daemon E) (who : Nat × Nat) (link : Link E) (a : Stdio.Answering E)
    (frames : List Stdio.Frame) : Prop
  | plain : (∀ j, link ≠ .live j) → (∀ k, link ≠ .recorded k) → Plain o a frames → Coupled o d who link a frames
  | along {name : String} {w : Watch E} : watching d who link = some w → nameOf d link = some name →
      Along o a name w frames → Coupled o d who link a frames

theorem nameOf_kept {name : String} {act : Daemon.Act E} (h : d.step rules act = some d')
    (hname : nameOf d link = some name) : nameOf d' link = some name := by
  have hmove : Daemon.Moves rules d act d' := Daemon.moves_of_step h
  cases link with
  | none | call | look => cases hname
  | live j =>
    obtain ⟨l, hl, rfl⟩ := Option.map_eq_some_iff.mp hname
    obtain ⟨l', hl', rfl | ⟨act, hact⟩⟩ := (Daemon.moves_scans hmove).after hl
    · exact Option.map_eq_some_iff.mpr ⟨l', hl', rfl⟩
    · exact Option.map_eq_some_iff.mpr ⟨l', hl', Live.step_id hact⟩
  | recorded k =>
    obtain ⟨v, hv, rfl⟩ := Option.map_eq_some_iff.mp hname
    cases hmove with
    | opens =>
      show ((d.watches ++ _)[k]?).map _ = _
      rw [List.getElem?_append_left (List.getElem?_eq_some_iff.mp hv).1, hv]
      rfl
    | @reads i v' w hv' =>
      show ((d.watches.set i _)[k]?).map _ = _
      by_cases hi : i = k
      · subst hi
        cases hv'.symm.trans hv
        rw [List.getElem?_set_self (List.getElem?_eq_some_iff.mp hv).1]
        rfl
      · rw [List.getElem?_set_ne hi, hv]
        rfl
    | _ => exact hname

theorem nameOf_perhaps {name : String} {act : Option (Daemon.Act E)}
    (h : perhaps (Daemon.step rules) d act = some d') (hname : nameOf d link = some name) :
    nameOf d' link = some name := by
  rcases perhaps_eq_some.mp h with ⟨-, rfl⟩ | ⟨act, -, hd⟩
  · exact hname
  · exact nameOf_kept hd hname

theorem Coupled.kept {act : Daemon.Act E} (hd : d.step rules act = some d') (hact : ¬ Reaches who link act)
    (h : Coupled o d who link a frames) : Coupled o d' who link a frames := by
  cases h with
  | plain hlive hrecorded hplain => exact .plain hlive hrecorded hplain
  | along hwatching hname halong =>
    exact .along (watching_kept hd hact hwatching) (nameOf_kept hd hname) halong

theorem Plain.proceeds (h : Plain o a frames) (hne : ∀ cursor, a.pc ≠ .telling [] cursor)
    (ha : a.proceed o.serde = some a') : Plain o a' frames := by
  obtain ⟨request, pc⟩ := a
  cases h with
  | spawned hpc =>
    obtain rfl : pc = _ := hpc
    simp only [Stdio.Answering.proceed] at ha
    split at ha
    · rename_i q hasked
      cases ha
      exact .calling rfl hasked
    · cases ha
      exact .framing rfl fun _ _ _ => ⟨_, rfl⟩
  | calling hpc | framing hpc | returned hpc | aborted hpc =>
    obtain rfl : pc = _ := hpc
    cases ha

theorem Plain.puts {frame : Stdio.Frame} {turn turn' : Stdio.Turn} (h : Plain o a frames)
    (ha : a.writing = some ⟨frame, turn⟩) : Plain o (a.puts (some ⟨frame, turn'⟩)) frames := by
  obtain ⟨request, pc⟩ := a
  cases h with
  | framing hpc hframe =>
    obtain rfl : pc = _ := hpc
    cases ha
    exact .framing rfl hframe
  | spawned hpc | calling hpc | returned hpc | aborted hpc =>
    obtain rfl : pc = _ := hpc
    cases ha

theorem Plain.flushes {frame : Stdio.Frame} {turn : Stdio.Turn} (h : Plain o a frames)
    (ha : a.writing = some ⟨frame, turn⟩) : Plain o (a.puts none) (frames ++ [frame]) := by
  obtain ⟨request, pc⟩ := a
  cases h with
  | framing hpc hframe =>
    obtain rfl : pc = _ := hpc
    cases ha
    exact .returned rfl hframe
  | spawned hpc | calling hpc | returned hpc | aborted hpc =>
    obtain rfl : pc = _ := hpc
    cases ha

theorem Plain.single (h : Plain o a frames) : a.Single := by
  cases h with
  | spawned hpc | calling hpc | framing hpc | returned hpc | aborted hpc =>
    exact ⟨by simp [hpc], by simp [hpc], by simp [hpc]⟩

theorem Plain.replies {answer : Except Error Json} (h : Plain o a frames)
    (ha : a.reply (.answer answer) = some a') : Plain o a' frames := by
  obtain ⟨request, pc⟩ := a
  cases h with
  | calling hpc hasked =>
    obtain rfl : pc = _ := hpc
    rename_i q
    cases q with
    | watch => cases ha
    | call | get | stop | detections | report | prune | list =>
      cases answer with
      | ok json =>
        cases ha
        exact .framing rfl fun _ _ hwatch => by cases hasked.symm.trans hwatch
      | error refused =>
        cases ha
        exact .framing rfl fun _ _ _ => ⟨refused, rfl⟩
  | spawned hpc | framing hpc | returned hpc | aborted hpc =>
    obtain rfl : pc = _ := hpc
    cases answer with
    | ok | error => cases ha

theorem Plain.aborts (h : Plain o a frames) : Plain o (a.goes .aborted) frames := by
  cases h with
  | spawned | calling | framing => exact .aborted rfl (.inl rfl)
  | returned _ hframe => exact .aborted rfl (.inr ⟨_, rfl, hframe⟩)
  | aborted _ htold => exact .aborted rfl htold

theorem watching_of_finds {name : String} {fromSeq j : Nat} (hfiled : d.Filed)
    (hget : d.get rules name = .ok (.live j)) (hd : d.step rules (.watch (client who) name fromSeq) = some d') :
    watching d' who (.live j) = some (Watch.call fromSeq) ∧ nameOf d' (.live j) = some name := by
  have hinner : d.inner name = some j := by
    unfold Daemon.get at hget
    split at hget
    · rename_i k hk
      cases hget
      exact hk
    · split_ifs at hget
      cases hread : Recorded.read d.store name with
      | error refused => simp [hread, Except.map] at hget
      | ok record => simp [hread, Except.map] at hget
  obtain ⟨l, hl, hid⟩ := hfiled name j hinner
  simp only [Daemon.step, Daemon.watch, hget] at hd
  obtain ⟨m, hm, hd⟩ := Option.bind_eq_some_iff.mp hd
  cases hm.symm.trans hl
  obtain ⟨l', hstep, rfl⟩ := Option.map_eq_some_iff.mp hd
  have hlt := (List.getElem?_eq_some_iff.mp hl).1
  constructor
  · show ((d.scans.set j l')[j]?).bind _ = _
    rw [List.getElem?_set_self hlt, Option.bind_some]
    simp only [Live.step] at hstep
    split at hstep
    · cases hstep
      rw [Live.clients_set_self]
      rfl
    · cases hstep
  · show ((d.scans.set j l')[j]?).map _ = _
    rw [List.getElem?_set_self hlt, Option.map_some, Live.step_id hstep, hid]

theorem watching_of_opens {name : String} {fromSeq : Nat} {record : Recorded E}
    (hget : d.get rules name = .ok (.recorded record))
    (hd : d.step rules (.watch (client who) name fromSeq) = some d') :
    watching d' who (.recorded d.watches.length) = some (Watch.call fromSeq) ∧
      nameOf d' (.recorded d.watches.length) = some name := by
  have hread : Recorded.read d.store name = .ok record := by
    unfold Daemon.get at hget
    split at hget
    · cases hget
    · split_ifs at hget
      cases hread : Recorded.read d.store name with
      | error refused => simp [hread, Except.map] at hget
      | ok record' =>
        simp only [hread, Except.map, Except.ok.injEq, Found.recorded.injEq] at hget
        rw [hget]
  rw [watches_of_opens hget hd]
  constructor
  · show ((d.watches ++ _)[d.watches.length]?).map _ = _
    rw [List.getElem?_concat_length]
    rfl
  · show ((d.watches ++ _)[d.watches.length]?).map _ = _
    rw [List.getElem?_concat_length, Option.map_some, Recorded.id_of_read hread]

theorem along_call {name : String} {fromSeq : Nat} (hpc : a.pc = .calling (.watch name fromSeq))
    (hasked : Stdio.asked o.serde a.request.method a.request.params = .ok (.watch name fromSeq))
    (ha : a.reply (.found none) = some a') : Along o a' name (Watch.call fromSeq) [] := by
  obtain ⟨request, pc⟩ := a
  obtain rfl : pc = _ := hpc
  cases ha
  by_cases hzero : fromSeq = 0
  · subst hzero
    exact ⟨hasked, fun _ => rfl, .opening, .nil, Watch.last_call 0⟩
  · have hcall : (Watch.call fromSeq : Watch E).pc = .tailing fromSeq .starting := if_neg hzero
    refine ⟨hasked, by simp [hcall], ?_, .nil, Watch.last_call fromSeq⟩
    rw [hcall, if_neg hzero]
    exact .tailing

theorem Coupled.turn_plain {act : Task E} {x : Deal E} (hfiled : d.Filed) (hlive : ∀ j, link ≠ .live j)
    (hrecorded : ∀ k, link ≠ .recorded k) (hplain : Plain o a frames) (hdeal : Deals o rules d who link a act x)
    (hd : perhaps (Daemon.step rules) d x.act = some d') (hviews : Stdio.Views o.serde who.2 a x.said a' more) :
    Coupled o d' who x.link a' (frames ++ more) := by
  cases hdeal with
  | proceeds hne =>
    cases hviews with
    | proceeds ha =>
      rw [List.append_nil]
      exact .plain hlive hrecorded (hplain.proceeds hne ha)
  | follows hpc => exact absurd hpc (hplain.single.telling _ _)
  | writes hne =>
    cases hviews with
    | writes _ ha =>
      rw [List.append_nil]
      exact .plain hlive hrecorded (hplain.puts ha)
    | flushes => exact absurd rfl hne
  | flushes =>
    cases hviews with
    | flushes ha => exact .plain hlive hrecorded (hplain.flushes ha)
    | writes hne => exact absurd rfl hne
  | aborts =>
    cases hviews
    rw [List.append_nil]
    exact .plain hlive hrecorded hplain.aborts
  | calls hpc =>
    cases hviews
    rw [List.append_nil]
    exact .plain (by simp) (by simp) hplain
  | misses hpc =>
    cases hviews with
    | replies ha =>
      obtain ⟨request, pc⟩ := a
      obtain rfl : pc = _ := hpc
      cases ha
      cases hplain with
      | calling =>
        rw [List.append_nil]
        exact .plain (by simp) (by simp) (.framing rfl fun _ _ _ => ⟨_, rfl⟩)
      | spawned hpc | framing hpc | returned hpc | aborted hpc => cases hpc
  | finds hpc hlink hget =>
    cases hviews with
    | replies ha =>
      cases hplain with
      | calling hpc' hasked =>
        cases hpc.symm.trans hpc'
        obtain ⟨hwatching, hname⟩ := watching_of_finds hfiled hget hd
        exact .along hwatching hname (along_call hpc hasked ha)
      | spawned hpc' | framing hpc' | returned hpc' | aborted hpc' => cases hpc.symm.trans hpc'
  | opens hpc hlink hget =>
    cases hviews with
    | replies ha =>
      cases hplain with
      | calling hpc' hasked =>
        cases hpc.symm.trans hpc'
        obtain ⟨hwatching, hname⟩ := watching_of_opens hget hd
        exact .along hwatching hname (along_call hpc hasked ha)
      | spawned hpc' | framing hpc' | returned hpc' | aborted hpc' => cases hpc.symm.trans hpc'
  | begins =>
    cases hviews
    rw [List.append_nil]
    exact .plain (by simp) (by simp) hplain
  | looks =>
    cases hviews
    rw [List.append_nil]
    exact .plain (by simp) (by simp) hplain
  | answers =>
    cases hviews with
    | replies ha =>
      rw [List.append_nil]
      exact .plain (by simp) (by simp) (hplain.replies ha)
  | watches hpc => exact absurd hpc hplain.single.not_watches

theorem Coupled.turn_along {act : Task E} {x : Deal E} {name : String}
    (hwatching : watching d who link = some w) (hname : nameOf d link = some name)
    (halong : Along o a name w frames) (hdeal : Deals o rules d who link a act x)
    (hd : perhaps (Daemon.step rules) d x.act = some d')
    (hviews : Stdio.Views o.serde who.2 a x.said a' more) : Coupled o d' who x.link a' (frames ++ more) := by
  have hname' := nameOf_perhaps hd hname
  cases hdeal with
  | proceeds hne =>
    cases hd
    cases hviews with
    | proceeds ha =>
      rw [List.append_nil]
      exact .along hwatching hname (halong.proceeds hne ha)
  | follows hpc =>
    obtain ⟨w', -, hwatching', hforth⟩ := watching_goes hd hwatching
    cases hviews with
    | proceeds ha =>
      rw [List.append_nil]
      exact .along hwatching' hname' (halong.follows hpc ha (forths_of_forth hforth))
  | writes hne =>
    cases hd
    cases hviews with
    | writes _ ha =>
      rw [List.append_nil]
      exact .along hwatching hname (halong.puts ha)
    | flushes => exact absurd rfl hne
  | flushes =>
    obtain ⟨w', -, hwatching', hforth⟩ := watching_goes hd hwatching
    cases hviews with
    | flushes ha => exact .along hwatching' hname' (halong.flushes ha (forths_of_forth hforth))
    | writes hne => exact absurd rfl hne
  | aborts hact =>
    cases hviews
    rcases hact with ⟨i, rfl, -⟩ | ⟨-, -, rfl⟩
    · cases hwatching
    · rw [List.append_nil]
      exact .along (watching_lost hd hwatching) hname' halong.aborts
  | calls _ hlink | misses _ hlink | finds _ hlink | opens _ hlink | begins _ hlink | looks hlink =>
    rw [hlink] at hwatching
    cases hwatching
  | answers hback =>
    cases link with
    | none | live | recorded => cases hback
    | call | look => cases hwatching
  | watches hpc hnext hheard =>
    obtain ⟨w', hnext', hwatching', hforth⟩ := watching_goes hd hwatching
    cases hnext.symm.trans hnext'
    obtain ⟨rfl, halong'⟩ := halong.watches hpc (forths_of_forth hforth) hheard hviews
    rw [List.append_nil]
    exact .along hwatching' hname' halong'

/-! ## Over whole runs -/

section runs
variable {P : Server E → Act E → Prop} {store : Except EngineError (List (Entry E.toEngineTypes))}

/-- **A task and its watch are two views of one function, in every state the server reaches.** -/
theorem reach_coupled (h : (machine o rules).Reach P (fresh store) s) (ha : s.task who = some a) :
    Coupled o s.daemon who (s.links who) a (s.wrote who) := by
  refine each_of_reach (I := Coupled o) .refl (fun _ _ hnone => by cases hnone) ?_ ?_ ?_ ?_ h ha
  · intro d who request _
    exact .plain (by simp) (by simp) (.spawned rfl)
  · intro d d' who link a frames act _ hd hact hcoupled
    exact hcoupled.kept hd hact
  · intro d d' who link a a' frames more act x hreach hdeal hd hviews hcoupled
    cases hcoupled with
    | plain hlive hrecorded hplain =>
      exact Coupled.turn_plain (Daemon.reach_filed hreach) hlive hrecorded hplain hdeal hd hviews
    | along hwatching hname halong => exact Coupled.turn_along hwatching hname halong hdeal hd hviews
  · intro d d' who link a frames writing _ _ hd hcoupled
    cases hcoupled with
    | plain hlive hrecorded hplain => exact .plain hlive hrecorded hplain.aborts
    | along hwatching hname halong =>
      exact .along (watching_lost hd hwatching) (nameOf_perhaps hd hname) halong.aborts

/-- The record was read under the name from the directory as it stood once. -/
def Read (rules : Rules E) (store : Except EngineError (List (Entry E.toEngineTypes))) (d : Daemon E)
    (name : String) (record : Recorded E) : Prop :=
  ∃ t, (Daemon.machine rules).Reach Machine.Always (.fresh store) t ∧
    (Daemon.machine rules).Reach Machine.Always t d ∧
    Recorded.read t.store name = .ok record

theorem reach_recorded (h : (Daemon.machine rules).Reach Machine.Always (.fresh store) d) {v : RecordedWatch E}
    (hv : v ∈ d.watches) : v.recorded.Faithful v.watch ∧ Read rules store d v.recorded.id v.recorded := by
  revert v
  refine h.invariant (I := fun d => ∀ {v : RecordedWatch E}, v ∈ d.watches →
    v.recorded.Faithful v.watch ∧ Read rules store d v.recorded.id v.recorded) (fun hv => by cases hv) ?_
  intro t u act hreach ht _ hstep v hv
  have hkept : ∀ {v : RecordedWatch E}, v ∈ t.watches →
      v.recorded.Faithful v.watch ∧ Read rules store u v.recorded.id v.recorded := by
    intro v hv
    obtain ⟨hfaithful, e, he, het, hread⟩ := ht hv
    exact ⟨hfaithful, e, he, het.tail trivial hstep, hread⟩
  cases Daemon.moves_of_step hstep with
  | opens _ hread =>
    rcases List.mem_append.mp hv with hv | hv
    · exact hkept hv
    · rw [List.mem_singleton.mp hv]
      refine ⟨Recorded.call_faithful _, t, hreach.always, Machine.Reach.refl.tail trivial hstep, ?_⟩
      exact (Recorded.id_of_read hread).symm ▸ hread
  | reads hk hread =>
    rcases List.mem_or_eq_of_mem_set hv with hv | rfl
    · exact hkept hv
    · obtain ⟨hfaithful, hread'⟩ := hkept (List.mem_of_getElem? hk)
      exact ⟨(Recorded.step_faithful hread hfaithful).1, hread'⟩
  | _ => exact hkept hv

end runs

/-! ## What a client of a scan is written -/

/-- Of a live scan: from nothing, so much of a snapshot stamped with a mark the log stood at, and once that is
whole the log's entries right after the mark; from a number, the entries right after that. The `end` frame, where
it is written, is the last, and follows no snapshot but a whole one. -/
def Follows (o : Outside E) (id : Json) (l : Live E) (fromSeq : Nat) (frames : List Stdio.Frame) : Prop :=
  ∃ mark snapshot tail last, List.Forall₂ (Written o id) ((snapshot ++ tail).map .event ++ last) frames ∧
    (last = [] ∨ last = [.ended]) ∧ Watch.Continues l.log.entries mark tail ∧
    (fromSeq ≠ 0 → mark = fromSeq ∧ snapshot = []) ∧
    (fromSeq = 0 → ∃ m : Live E, (Live.machine E).Reach Machine.Always m l ∧ mark ≤ m.log.watermark ∧
      snapshot <+: m.sitting.scan.snapshotAt mark ∧
      (tail = [] ∧ last = [] ∨ snapshot = m.sitting.scan.snapshotAt mark))

/-- What the client of a `watch` has been written: nothing yet, an error, what a live scan of that name has in
its log, or what is recorded of it. -/
inductive Watched (o : Outside E) (rules : Rules E) (store : Except EngineError (List (Entry E.toEngineTypes)))
    (d : Daemon E) (id : Json) (name : String) (fromSeq : Nat) (frames : List Stdio.Frame) : Prop
  | nothing : frames = [] → Watched o rules store d id name fromSeq frames
  | refused {refused : Error} : frames = [.error id refused] → Watched o rules store d id name fromSeq frames
  | live {j : Nat} {l : Live E} : d.scans[j]? = some l → l.sitting.scan.id = name →
      Follows o id l fromSeq frames → Watched o rules store d id name fromSeq frames
  | recorded {record : Recorded E} {told left : List (Frame E)} : Read rules store d name record →
      List.Forall₂ (Written o id) told frames →
      told ++ left = (record.answered fromSeq).map .event ++ [.ended] →
      Watched o rules store d id name fromSeq frames

theorem follows_of_watching {l : Live E} {i : Nat} {scanId : String} {progress : Engine.Progress}
    {redaction : Redaction} (h : (Live.machine E).Reach Machine.Always
      (.start (.fresh scanId progress redaction)) l)
    (hw : (l.clients i).watching = some w) (hlast : w.Last)
    (hwrote : List.Forall₂ (Written o id) w.written frames) : Follows o id l w.fromSeq frames := by
  have hfaithful := (Live.reach_faithful h i).watching hw
  obtain ⟨snapshot, tail, hevents, hcontinues, hnone, hsome⟩ := hfaithful.split (Live.reach_wellNumbered h)
  obtain ⟨last, hwritten, hended⟩ := hlast.split
  rw [hwritten, hevents] at hwrote
  have hlast' : last = [] ∨ last = [.ended] := hended.imp_right And.left
  have hgoing : (∀ cursor, w.pc ≠ .ended cursor) → last = [] := fun hgoing =>
    hended.resolve_right fun ⟨_, cursor, hpc⟩ => hgoing cursor hpc
  by_cases hzero : w.fromSeq = 0
  · rcases hfaithful.opened hzero with ⟨hnothing, -, hopen⟩ | ⟨caughtUp, hcaughtUp⟩
    · -- nothing is written yet, so any mark will do
      obtain ⟨rfl, rfl⟩ := List.append_eq_nil_iff.mp (hevents.symm.trans hnothing)
      refine ⟨l.log.watermark, [], [], last, hwrote, hlast', ?_, fun hne => absurd hzero hne, fun _ => ?_⟩
      · intro n event hget
        cases hget
      · exact ⟨l, .refl, Nat.le_refl _, List.nil_prefix, .inl ⟨rfl, hgoing hopen⟩⟩
    · obtain ⟨m, ⟨earlier, -, hmark, hm, hl⟩, rfl⟩ := (Live.reach_marked h i w hw).snapshot caughtUp hcaughtUp
      obtain ⟨hpre, htail⟩ := hsome _ hcaughtUp
      refine ⟨w.start, snapshot, tail, last, hwrote, hlast', hcontinues, fun hne => absurd hzero hne,
        fun _ => ?_⟩
      refine ⟨m, hl, ?_, hpre, htail.imp_left fun ⟨hnil, hopen⟩ => ⟨hnil, hgoing hopen⟩⟩
      rw [← hmark]
      exact (Live.reach_grows hm).length_le
  · obtain ⟨hstart, hcaughtUp⟩ := hfaithful.start_of_ne hzero
    refine ⟨w.start, snapshot, tail, last, hwrote, hlast', hcontinues, fun _ => ⟨hstart, hnone hcaughtUp⟩, ?_⟩
    exact fun heq => absurd heq hzero

theorem follows_of_along {store : Except EngineError (List (Entry E.toEngineTypes))} {name : String} {j : Nat}
    (hreach : (Daemon.machine rules).Reach Machine.Always (.fresh store) d)
    (hwatching : watching d who (.live j) = some w) (hname : nameOf d (.live j) = some name)
    (halong : Along o a name w frames) :
    ∃ l, d.scans[j]? = some l ∧ l.sitting.scan.id = name ∧ Follows o a.request.id l w.fromSeq frames := by
  obtain ⟨l, hl, hw⟩ := watching_live hwatching
  obtain ⟨l', hl', hid⟩ := Option.map_eq_some_iff.mp hname
  cases hl.symm.trans hl'
  obtain ⟨scanId, progress, redaction, hbegun⟩ := Daemon.scan_reach_always hreach hl
  exact ⟨l, hl, hid, follows_of_watching hbegun hw halong.last halong.wrote⟩

theorem left_of_faithful {record : Recorded E} (h : record.Faithful w) :
    ∃ left, w.written ++ left = (record.answered w.fromSeq).map .event ++ [.ended] := by
  unfold Recorded.Faithful at h
  split at h
  case h_1 => exact ⟨_, by rw [h.2, List.nil_append]⟩
  case h_2 left cursor hpc =>
    refine ⟨left.map .event ++ [.ended], ?_⟩
    rw [← List.append_assoc, h.2, Recorded.answered, if_pos h.1]
  case h_3 | h_4 | h_8 | h_9 => exact h.elim
  case h_5 | h_6 => exact ⟨[.ended], by rw [h]⟩
  case h_7 => exact ⟨[], by rw [h, List.append_nil]⟩

/-- **Whatever the other requests, the other connections, the engine and the directory do in between, what a
client of `watch` is written is the scan's log from where it asked, in order and without a gap**: or it is the
record as it was read once, or one error. -/
theorem watched {P : Server E → Act E → Prop} {store : Except EngineError (List (Entry E.toEngineTypes))}
    {c t : Nat} {conn : Stdio.Connection E} {name : String} {fromSeq : Nat}
    (h : (machine o rules).Reach P (fresh store) s) (hconn : s.connections[c]? = some conn)
    (ha : conn.answering[t]? = some a)
    (hasked : Stdio.asked o.serde a.request.method a.request.params = .ok (.watch name fromSeq)) :
    Watched o rules store s.daemon a.request.id name fromSeq (Sequence.said some (.task t) conn.written) := by
  have htask : s.task (c, t) = some a := (task_eq hconn).trans ha
  rw [← wrote_eq hconn]
  cases reach_coupled h htask with
  | plain _ _ hplain =>
    generalize s.wrote (c, t) = frames at hplain
    cases hplain with
    | spawned | calling | framing => exact .nothing rfl
    | returned _ hframe =>
      obtain ⟨refused, rfl⟩ := hframe name fromSeq hasked
      exact .refused rfl
    | aborted _ htold =>
      rcases htold with rfl | ⟨frame, rfl, hframe⟩
      · exact .nothing rfl
      · obtain ⟨refused, rfl⟩ := hframe name fromSeq hasked
        exact .refused rfl
  | @along name' w hwatching hname halong =>
    cases hasked.symm.trans halong.asked
    have hreach := daemon_reach h
    cases hlink : s.links (c, t) with
    | none | call | look =>
      rw [hlink] at hwatching
      cases hwatching
    | live j =>
      rw [hlink] at hwatching hname
      obtain ⟨l, hl, hid, hfollows⟩ := follows_of_along hreach hwatching hname halong
      exact .live hl hid hfollows
    | recorded k =>
      rw [hlink] at hwatching hname
      obtain ⟨v, hv, rfl⟩ := Option.map_eq_some_iff.mp hwatching
      obtain ⟨v', hv', hid⟩ := Option.map_eq_some_iff.mp hname
      cases hv.symm.trans hv'
      obtain ⟨hfaithful, hread⟩ := reach_recorded hreach (List.mem_of_getElem? hv)
      obtain ⟨left, hleft⟩ := left_of_faithful hfaithful
      exact .recorded (hid ▸ hread) halong.wrote hleft

theorem watched_answered : (Sequence.said some (.task 0) watcher.written).length = 2 ∧
    Watched plainOutside Daemon.recording (.ok []) answered.daemon watchTask.request.id "A" 0
      (Sequence.said some (.task 0) watcher.written) := by
  refine ⟨watcher_seen.2, ?_⟩
  exact watched (reach_started.trans reach_answered) watcher_eq watchTask_eq watchTask_asked

end Server

end ZondDaemon
