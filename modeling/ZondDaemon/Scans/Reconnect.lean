import ZondDaemon.Scans.Converge
import ZondDaemon.Scans.Over

/-!
# Coming back to a scan

A client loses its connection after some of the frames of a watch from nothing, and asks again from the
number of the last frame it has. Every frame of a snapshot carries one number, so a cut inside it is
answered with the tail alone: what the rest of the snapshot would have said comes back only where the
log says it again.
-/

namespace ZondDaemon

open Proto Sequence

variable {E : Engine}

/-- What was received, and what is received on coming back, have for every address the whole of the first
watch is about a document at least as late as its last. -/
def Recovered (s : Sitting E) (whole received back : List (Event E.ScopedIp)) : Prop :=
  ∀ address document, latest Event.said address whole = some document →
    ∃ event ∈ received ++ back, ∃ later, event.said = some (address, later) ∧
      (s.past address).idxOf document ≤ (s.past address).idxOf later

namespace Watch

variable {s : Sitting E} {entries caughtUp : List (Event E.ScopedIp)} {w : Watch E} {start k : Nat}

theorem Upto.events_eq (hn : Numbered Event.seq entries) {cursor : Nat} (h : w.Upto entries cursor)
    (hall : ∀ entry ∈ entries, entry.seq ≤ cursor) :
    w.events = w.caughtUp.getD [] ++ entries.drop w.start := by
  rw [h.told, hn.slice_eq_drop fun entry he _ => hall entry he]

theorem Upto.delivered (hn : Numbered Event.seq entries) {cursor : Nat} (h : w.Upto entries cursor)
    (hall : ∀ entry ∈ entries, entry.seq ≤ cursor) (hsnap : w.caughtUp = some caughtUp) :
    w.Delivered entries := by
  refine ⟨caughtUp, hsnap, ?_, fun entry he hlt => h.mem hn he hlt (hall entry he)⟩
  rw [h.told, hsnap]
  exact List.prefix_append _ _

theorem pairwise_seq (hn : Numbered Event.seq entries)
    (hseq : ∀ event ∈ caughtUp, event.seq = start) :
    (caughtUp ++ entries.drop start).Pairwise fun one other => start < other.seq → one.seq < other.seq := by
  rw [List.pairwise_append]
  refine ⟨?_, ?_, ?_⟩
  · apply List.pairwise_of_forall_mem_list
    intro one _ other hother hlt
    rw [hseq other hother] at hlt
    exact absurd hlt (Nat.lt_irrefl _)
  · apply (hn.pairwise.sublist (List.drop_sublist start entries)).imp
    intro one other hlt _
    exact hlt
  · intro one hone other _ hlt
    rw [hseq one hone]
    exact hlt

theorem lastSeq_lt (hn : Numbered Event.seq entries) (hseq : ∀ event ∈ caughtUp, event.seq = start)
    {entry : Event E.ScopedIp} (hentry : entry ∈ (caughtUp ++ entries.drop start).drop k)
    (hstart : start < entry.seq) :
    lastSeq ((caughtUp ++ entries.drop start).take k) < entry.seq := by
  have hpair := pairwise_seq hn hseq
  rw [← List.take_append_drop k (caughtUp ++ entries.drop start), List.pairwise_append] at hpair
  unfold lastSeq
  split
  · rename_i last hlast
    exact hpair.2.2 last (List.mem_of_getLast? hlast) entry hentry hstart
  · omega

/-- What a client comes back for is past the mark, so what it is told then is the log's. -/
theorem start_le_lastSeq (hn : Numbered Event.seq entries)
    (hseq : ∀ event ∈ caughtUp, event.seq = start) (hk : 0 < k) (hsome : caughtUp ≠ []) :
    start ≤ lastSeq ((caughtUp ++ entries.drop start).take k) := by
  unfold lastSeq
  split
  · rename_i last hlast
    rcases List.mem_append.mp (List.mem_of_mem_take (List.mem_of_getLast? hlast)) with hmem | hmem
    · exact Nat.le_of_eq (hseq last hmem).symm
    · exact Nat.le_of_lt (hn.mem_drop.mp hmem).2
  · rename_i hnone
    rw [List.getLast?_eq_none_iff, List.take_eq_nil_iff] at hnone
    rcases hnone with hzero | hnil
    · omega
    · exact absurd (List.append_eq_nil_iff.mp hnil).1 hsome

/-- What the cut leaves out of the snapshot the log says again, past the mark. -/
def SaidAgain (entries caughtUp : List (Event E.ScopedIp)) (start k : Nat) : Prop :=
  ∀ event ∈ caughtUp.drop k, event.said.isSome →
    ∃ entry ∈ entries, start < entry.seq ∧ entry.said.map Prod.fst = event.said.map Prod.fst

instance (entries caughtUp : List (Event E.ScopedIp)) (start k : Nat) :
    Decidable (SaidAgain entries caughtUp start k) :=
  inferInstanceAs (Decidable (∀ event ∈ caughtUp.drop k, event.said.isSome → _))

/-- Coming back to the tail alone recovers everything exactly where the cut left nothing out of the
snapshot that the log does not say again. -/
theorem recovered_tail_iff (hn : Numbered Event.seq entries) (hcovers : Covers s start caughtUp)
    (hseq : ∀ event ∈ caughtUp, event.seq = start) (hk : 0 < k)
    {c : Nat} (hc : c = lastSeq ((caughtUp ++ entries.drop start).take k)) :
    Recovered s (caughtUp ++ entries.drop start) ((caughtUp ++ entries.drop start).take k)
      (entries.drop c) ↔ SaidAgain entries caughtUp start k := by
  constructor
  · intro hrecovered event hevent hsome
    obtain ⟨⟨address, document⟩, hsaid⟩ := Option.isSome_iff_exists.mp hsome
    obtain ⟨last, hlast⟩ := latest_isSome (List.mem_append_left (entries.drop start)
      (List.mem_of_mem_drop hevent)) hsaid
    obtain ⟨found, hfound, later, hlater, -⟩ := hrecovered address last hlast
    have htail : ∀ found ∈ entries.drop start, found.said = some (address, later) →
        ∃ entry ∈ entries, start < entry.seq ∧ entry.said.map Prod.fst = event.said.map Prod.fst :=
      fun found hfound hlater => ⟨found, (hn.mem_drop.mp hfound).1, (hn.mem_drop.mp hfound).2, by
        rw [hlater, hsaid]
        rfl⟩
    rcases List.mem_append.mp hfound with hfound | hfound
    · rw [List.take_append, List.mem_append] at hfound
      rcases hfound with hfound | hfound
      · -- the snapshot would say two things of the address
        have hsingle := hcovers.single
        rw [← List.take_append_drop k caughtUp, List.pairwise_append] at hsingle
        exact absurd hsaid (hsingle.2.2 found hfound event hevent address later document hlater)
      · exact htail found (List.mem_of_mem_take hfound) hlater
    · refine htail found ?_ hlater
      have hle := hc ▸ start_le_lastSeq hn hseq hk hcovers.nonempty
      obtain ⟨hmem, hlt⟩ := hn.mem_drop.mp hfound
      exact hn.mem_drop.mpr ⟨hmem, by omega⟩
  · intro hagain address document hlast
    have hreceived : ∀ event ∈ caughtUp ++ entries.drop start, start < event.seq →
        event ∈ (caughtUp ++ entries.drop start).take k ++ entries.drop c := by
      intro event hevent hlt
      rw [← List.take_append_drop k (caughtUp ++ entries.drop start), List.mem_append] at hevent
      refine List.mem_append.mpr (hevent.imp id fun hevent => ?_)
      have hpast := lastSeq_lt hn hseq hevent hlt
      have hmem : event ∈ entries := by
        rcases List.mem_append.mp (List.mem_of_mem_drop hevent) with hsnap | htail
        · have := hseq event hsnap
          omega
        · exact List.mem_of_mem_drop htail
      exact hn.mem_drop.mpr ⟨hmem, hc ▸ hpast⟩
    cases htail : latest Event.said address (entries.drop start) with
    | some last =>
      rw [latest_append_of_some htail, Option.some.injEq] at hlast
      obtain ⟨entry, hentry, hsaid⟩ := latest_mem htail
      exact ⟨entry, hreceived entry (List.mem_append_right _ hentry) (hn.mem_drop.mp hentry).2, last,
        hsaid, Nat.le_of_eq (by rw [hlast])⟩
    | none =>
      rw [latest_append_of_none htail] at hlast
      obtain ⟨event, hevent, hsaid⟩ := latest_mem hlast
      rw [← List.take_append_drop k caughtUp, List.mem_append] at hevent
      rcases hevent with hevent | hevent
      · refine ⟨event, List.mem_append_left _ ?_, document, hsaid, Nat.le_refl _⟩
        rw [List.take_append]
        exact List.mem_append_left _ hevent
      · obtain ⟨entry, hentry, hlt, hsame⟩ := hagain event hevent (by rw [hsaid]; rfl)
        rw [hsaid] at hsame
        obtain ⟨⟨_, later⟩, hlater, rfl⟩ := Option.map_eq_some_iff.mp hsame
        exact absurd hlater (latest_eq_none.mp htail entry (hn.mem_drop.mpr ⟨hentry, hlt⟩) later)

theorem saidAgain_of_lt (hseq : ∀ event ∈ caughtUp, event.seq = start)
    (hlt : start < lastSeq ((caughtUp ++ entries.drop start).take k)) :
    SaidAgain entries caughtUp start k := by
  have hk : caughtUp.length ≤ k := by
    by_contra hshort
    rw [List.take_append_of_le_length (by omega)] at hlt
    unfold lastSeq at hlt
    split at hlt
    · rename_i last hlast
      have := hseq last (List.mem_of_mem_take (List.mem_of_getLast? hlast))
      omega
    · omega
  intro event hevent
  rw [List.drop_eq_nil_of_le hk] at hevent
  cases hevent

end Watch

namespace Live

variable {l : Live E} {id : String} {progress : Engine.Progress} {redaction : Redaction}

/-- The runs in which a client that comes back is answered as far as the code can: the engine announces
what it changes, and the flag is set behind no reader's back. -/
def Settled (l : Live E) (a : Act E) : Prop := Orderly l a ∧ Unhurried l a

/-- **Coming back recovers everything exactly where the cut left nothing out of the snapshot for good**:
nothing was received, or the snapshot carries no number, or the log says again what was left out. -/
theorem recovered_iff (h : (machine E).Reach Settled (start (.fresh id progress redaction)) l)
    {i j k : Nat} {w v : Watch E}
    (hw : l.clients i = .watch w) (hzero : w.fromSeq = 0) (hended : Frame.ended ∈ w.written)
    (hv : l.clients j = .watch v) (hback : v.fromSeq = lastSeq (w.events.take k))
    (hread : Frame.ended ∈ v.written) :
    Recovered l.sitting w.events (w.events.take k) v.events ↔
      k = 0 ∨ w.start = 0 ∨ Watch.SaidAgain l.log.entries (w.caughtUp.getD []) w.start k := by
  have horderly : (machine E).Reach Orderly _ l := h.mono fun _ _ hP => hP.1
  have hunhurried : (machine E).Reach Unhurried _ l := h.mono fun _ _ hP => hP.2
  have hn := reach_wellNumbered h
  obtain ⟨hclosed, hbegun, cursor, hupto, hpassed⟩ := upto_of_over hunhurried hw hended
  obtain ⟨-, hbegun', cursor', hupto', hpassed'⟩ := upto_of_over hunhurried hv hread
  have hwhole := hupto.events_eq hn hpassed
  have hrest := hupto'.events_eq hn hpassed'
  obtain ⟨-, -, caughtUp, hsnap, hseq⟩ := hbegun.resolve_right fun hbad => hbad.1 hzero
  rw [hsnap, Option.getD_some] at hwhole ⊢
  have hcovers := reach_covers horderly i w caughtUp (by rw [hw]; rfl) hsnap
  by_cases hc : v.fromSeq = 0
  · -- asked again from nothing, and so told everything again
    obtain ⟨-, -, caughtUp', hsnap', -⟩ := hbegun'.resolve_right fun hbad => hbad.1 hc
    refine iff_of_true (fun address document hlast => ?_) ?_
    · rw [latest_of_delivered horderly hclosed (by rw [hw]; rfl) (hupto.delivered hn hpassed hsnap),
        ← latest_of_delivered horderly hclosed (i := j) (by rw [hv]; rfl)
          (hupto'.delivered hn hpassed' hsnap')] at hlast
      obtain ⟨event, hevent, hsaid⟩ := latest_mem hlast
      exact ⟨event, List.mem_append_right _ hevent, document, hsaid, Nat.le_refl _⟩
    · by_cases hk : k = 0
      · exact .inl hk
      · have hle := Watch.start_le_lastSeq hn hseq (Nat.pos_of_ne_zero hk) hcovers.nonempty
        rw [← hwhole, ← hback, hc] at hle
        exact .inr (.inl (Nat.le_zero.mp hle))
  · obtain ⟨-, hstart, hnone⟩ := hbegun'.resolve_left fun hbad => hc hbad.1
    rw [hnone, Option.getD_none, List.nil_append, hstart] at hrest
    have hk : 0 < k := by
      by_contra hk
      rw [Nat.eq_zero_of_not_pos hk] at hback
      exact hc hback
    rw [hrest, hwhole, Watch.recovered_tail_iff hn hcovers hseq hk (hwhole ▸ hback)]
    refine ⟨fun hagain => .inr (.inr hagain), ?_⟩
    rintro (hbad | hnumberless | hagain)
    · omega
    · apply Watch.saidAgain_of_lt hseq
      rw [← hwhole, ← hback]
      omega
    · exact hagain

/-! ### Two runs -/

/-- What `Settled` asks of the plain engine where the clients are the first two. -/
def settled (l : Live Plain.engine) (a : Act Plain.engine) : Bool := orderly l a && unhurried 2 l a

theorem reach_settled {l : Live Plain.engine} {actions : List (Act Plain.engine)}
    (h : (machine Plain.engine).runIf settled (start .plain) actions = some l) :
    (machine Plain.engine).Reach Settled (start .plain) l := by
  apply (Machine.Reach.of_runIf (fun _ _ hok => hok) h).weaken
  intro t a ht hok
  have hboth := Bool.and_eq_true_iff.mp hok
  exact ⟨orderly_sound t a hboth.1, unhurried_sound
    (idle_of_le (n := 2) (fun _ _ hP => (Bool.and_eq_true_iff.mp hP).2) ht) hboth.2⟩

/-- Two hosts are found and said, a watch takes its snapshot of both, and `between` happens before the
scan ends; the watch is read to the end, and so is a second one that asks from the snapshot's number. -/
def cutRun (between : List (Act Plain.engine)) (entries : Nat) : List (Act Plain.engine) :=
  [.sitting (.spawn true)] ++ found 1 "open 22" ++ following 5 ++ found 2 "open 80" ++ following 5 ++
    [.watch 0 0] ++ reading 0 2 ++ between ++ hangingUp ++ following 9 ++ reading 0 (14 + entries) ++
    [.watch 1 2] ++ reading 1 (10 + entries)

/-- The second host changes once the snapshot is taken. -/
def changedRun : List (Act Plain.engine) := cutRun (found 2 "open 80, 443" ++ following 5) 2

theorem changedRun_isSome : ((machine Plain.engine).runIf settled (start .plain) changedRun).isSome := by
  decide +kernel

def changed : Live Plain.engine :=
  ((machine Plain.engine).runIf settled (start .plain) changedRun).get changedRun_isSome

def changedWhole : Watch Plain.engine := (changed.clients 0).watching.get (by decide +kernel)

def changedBack : Watch Plain.engine := (changed.clients 1).watching.get (by decide +kernel)

/-- Cut after the first frame, the second host's frame is lost and its change is not. -/
theorem recovered_iff_changed :
    (changedWhole.events.take 1).filterMap Event.said = [(1, "open 22")] ∧
    changedBack.fromSeq = 2 ∧ changedBack.events.filterMap Event.said = [(2, "open 80, 443")] ∧
    Recovered changed.sitting changedWhole.events (changedWhole.events.take 1) changedBack.events := by
  refine ⟨by decide +kernel, by decide +kernel, by decide +kernel, ?_⟩
  exact (recovered_iff (reach_settled (Option.some_get changedRun_isSome).symm) (i := 0) (j := 1)
    (by decide +kernel) (by decide +kernel) (by decide +kernel) (by decide +kernel)
    (by decide +kernel) (by decide +kernel)).mpr (.inr (.inr (by decide +kernel)))

/-- Nothing changes once the snapshot is taken. -/
def unchangedRun : List (Act Plain.engine) := cutRun [] 1

theorem unchangedRun_isSome :
    ((machine Plain.engine).runIf settled (start .plain) unchangedRun).isSome := by
  decide +kernel

def unchanged : Live Plain.engine :=
  ((machine Plain.engine).runIf settled (start .plain) unchangedRun).get unchangedRun_isSome

def unchangedWhole : Watch Plain.engine := (unchanged.clients 0).watching.get (by decide +kernel)

def unchangedBack : Watch Plain.engine := (unchanged.clients 1).watching.get (by decide +kernel)

/-- Cut after the first frame, the second host is lost: the client is never told of it. -/
theorem not_recovered : (machine Plain.engine).Reach Settled (start .plain) unchanged ∧
    (unchanged.clients 0 = .watch unchangedWhole ∧ unchangedWhole.fromSeq = 0 ∧
      Frame.ended ∈ unchangedWhole.written) ∧
    (unchanged.clients 1 = .watch unchangedBack ∧
      unchangedBack.fromSeq = lastSeq (unchangedWhole.events.take 1) ∧
      Frame.ended ∈ unchangedBack.written) ∧
    ¬ Recovered unchanged.sitting unchangedWhole.events (unchangedWhole.events.take 1)
      unchangedBack.events := by
  refine ⟨reach_settled (Option.some_get unchangedRun_isSome).symm, by decide +kernel,
    by decide +kernel, fun hrecovered => ?_⟩
  obtain ⟨event, hevent, later, hlater, -⟩ := hrecovered 2 "open 80" (by decide +kernel)
  have hsilent : ∀ event ∈ unchangedWhole.events.take 1 ++ unchangedBack.events,
      event.said.map Prod.fst ≠ some 2 := by decide +kernel
  exact hsilent event hevent (by rw [hlater]; rfl)

end Live

end ZondDaemon
