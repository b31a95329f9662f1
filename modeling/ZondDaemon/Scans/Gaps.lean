import ZondDaemon.Scans.Announce
import ZondDaemon.Scans.Notices

/-!
# What a gap costs

A gap in the stream drops notices, not findings: the host is in the store, and its next notice has its
document read and written down. The log ends with every host as it finally stood just where such a notice
follows its last change (`log_ends_current`), so a gap costs something where it takes the last one there is
(`last_notice_dropped`). `unread` of a run's `Notes` keeps the addresses changed since they were looked up.
-/

namespace ZondDaemon

open Machine Proto Sequence

variable {E : Engine}

theorem Follower.drained_of_concluded {f : Follower E} (h : f.concluded = true) : f.drained = true := by
  cases f with
  | pushing body next | notifying next => cases next <;> first | rfl | cases h
  | _ => first | rfl | cases h

namespace Sitting

/-- What the engine promises: it stores hosts while it announces them, all of which serialise, no two
documents of one address hash alike, and every change has been announced when it hangs up. -/
def Promised (s : Sitting E) : Act E → Prop
  | .update host => s.hungUp = false ∧ ∃ document, E.document s.scan.redaction host = some document ∧
      ∀ earlier ∈ s.past (E.scopedIp host), Log.hash earlier = Log.hash document → earlier = document
  | .hangUp => s.owed = []
  | _ => True

/-- The stream does not end on a host that has changed since the follower last looked it up. -/
def Heeded (x : Sitting E × Notes E) : Act E → Prop
  | .follow => x.1.follower = .draining → x.1.events = [] → x.1.hungUp = true → x.2.unread = []
  | _ => True

/-- The document the follower holds for the address, before the log has judged it. -/
def held : Follower E → E.ScopedIp → Option String
  | .judging other document, address => if other = address then some document else none
  | _, _ => none

theorem held_of_concluded {f : Follower E} (h : f.concluded = true) : held f = fun _ => none := by
  cases f with
  | judging address document => cases h
  | _ => rfl

/-- What the follower knows of the hosts that have not changed since it looked them up. -/
structure Current (s : Sitting E) (notes : Notes E) : Prop where
  distinct : ∀ address, ∀ one ∈ s.past address, ∀ other ∈ s.past address,
    Log.hash one = Log.hash other → one = other
  stored : ∀ address, s.scan.documentOf address = (s.past address).getLast?
  read : ∀ address, ∀ document ∈ said Notice.read address notes.notices, document ∈ s.past address
  judging : ∀ address document, held s.follower address = some document → document ∈ s.past address
  known : ∀ address, address ∉ notes.unread →
    s.scan.documentOf address = (held s.follower address).or (latest Notice.read address notes.notices)
  drained : s.follower.drained = true → s.hungUp = true ∧ notes.unread = []

variable {s t : Sitting E} {notes notes' : Notes E} {a : Act E} {address : E.ScopedIp}

theorem Current.quiet (hs : s.Current notes) (hkept : s.Kept t) (hfrom : held s.follower = fun _ => none)
    (hto : held t.follower = fun _ => none)
    (hread : ∀ address, said Notice.read address notes'.notices = said Notice.read address notes.notices)
    (hunread : notes'.unread = notes.unread)
    (hdrained : t.follower.drained = true → s.hungUp = true ∧ notes.unread = []) : t.Current notes' where
  distinct := by
    rw [hkept.past]
    exact hs.distinct
  stored := by
    rw [hkept.documentOf, hkept.past]
    exact hs.stored
  read address := by
    rw [hread, hkept.past]
    exact hs.read address
  judging address document hheld := by
    rw [hto] at hheld
    cases hheld
  known address hknown := by
    have := hs.known address (hunread ▸ hknown)
    rw [hkept.documentOf, this, hfrom, hto, latest, latest, hread]
  drained := by
    rw [hkept.hungUp, hunread]
    exact hdrained

theorem looks_current {document : String} (hs : s.Current notes) (hf : s.follower = .looking address)
    (hdocument : s.scan.documentOf address = some document) :
    Current { s with follower := .judging address document }
      { notes with unread := notes.unread.filter fun other => other ≠ address } where
  distinct := hs.distinct
  stored := hs.stored
  read := hs.read
  judging other one hheld := by
    simp only [held] at hheld
    split_ifs at hheld with heq
    subst heq
    rw [← Option.some.inj hheld]
    exact List.mem_of_getLast? ((hs.stored address).symm.trans hdocument)
  known other hknown := by
    simp only [held]
    by_cases heq : address = other
    · subst heq
      simp only [if_true, Option.some_or]
      exact hdocument
    · have hunread : other ∉ notes.unread := by
        intro hmem
        exact hknown (List.mem_filter.mpr ⟨hmem, by simpa using Ne.symm heq⟩)
      rw [if_neg heq, Option.none_or]
      have := hs.known other hunread
      rwa [hf] at this
  drained := nofun

theorem passes_current (hs : s.Current notes) (hf : s.follower = .looking address)
    (hnone : s.scan.documentOf address = none) :
    Current { s with follower := .draining }
      (Notes.add { notes with unread := notes.unread.filter fun other => other ≠ address }
        (.host address none)) := by
  have hread (other : E.ScopedIp) : said (Notice.read (E := E)) other (notes.notices ++ [.host address none]) =
      said Notice.read other notes.notices := said_append_of_none rfl
  refine ⟨hs.distinct, hs.stored, fun other => ?_, ?_, fun other hknown => ?_, ?_⟩
  · rw [Notes.add, hread]
    exact hs.read other
  · intro other one hheld
    cases hheld
  · simp only [held, Option.none_or, Notes.add, latest, hread]
    by_cases heq : address = other
    · subst heq
      have hpast : s.past address = [] := List.getLast?_eq_none_iff.mp ((hs.stored address).symm.trans hnone)
      have hnever : said Notice.read address notes.notices = [] := by
        rw [List.eq_nil_iff_forall_not_mem]
        intro document hmem
        have := hs.read address document hmem
        rw [hpast] at this
        cases this
      rw [hnever]
      exact hnone
    · have hunread : other ∉ notes.unread := by
        intro hmem
        exact hknown (List.mem_filter.mpr ⟨hmem, by simpa using Ne.symm heq⟩)
      have := hs.known other hunread
      rwa [hf] at this
  · intro hdrained
    cases hdrained

theorem judges_current {document : String} (hs : s.Current notes) (hkept : s.Kept t)
    (hf : s.follower = .judging address document) (hto : held t.follower = fun _ => none)
    (hopen : t.follower.drained = false) : t.Current (notes.add (.host address (some document))) := by
  have hkey : Notice.read (.host address (some document) : Notice E) = some (address, document) := rfl
  have hheld (other : E.ScopedIp) :
      held s.follower other = if address = other then some document else none := by
    rw [hf]
    rfl
  refine ⟨?_, ?_, fun other one hone => ?_, fun other one hone => ?_, fun other hknown => ?_, fun hd => ?_⟩
  · rw [hkept.past]
    exact hs.distinct
  · rw [hkept.documentOf, hkept.past]
    exact hs.stored
  · rw [hkept.past]
    by_cases heq : address = other
    · subst heq
      rw [Notes.add, said_append_self hkey, List.mem_append, List.mem_singleton] at hone
      rcases hone with hone | rfl
      · exact hs.read address one hone
      · exact hs.judging address one (by rw [hheld, if_pos rfl])
    · rw [Notes.add, said_append_of_ne hkey heq] at hone
      exact hs.read other one hone
  · rw [hto] at hone
    cases hone
  · have hknew := hs.known other hknown
    simp only [hkept.documentOf, hto, Option.none_or, hknew, hheld, Notes.add, latest]
    by_cases heq : address = other
    · subst heq
      rw [if_pos rfl, said_append_self hkey, List.getLast?_concat, Option.some_or]
    · rw [if_neg heq, said_append_of_ne hkey heq, Option.none_or]
  · rw [hopen] at hd
    cases hd

theorem follow_current (hs : s.Current notes) (hheeded : Heeded (s, notes) .follow) (h : s.follow = some t) :
    t.Current (note s .follow notes) := by
  have hkept := follow_kept h
  have hdrained := hs.drained
  cases follows_of_follow h with
  | @hears event rest hevents hf =>
    have hfrom : held s.follower = fun _ => none := by rw [hf]; rfl
    cases event with
    | hostUpdated address | stageChanged stage =>
      simp only [note, hf, hevents]
      exact hs.quiet hkept hfrom rfl (fun _ => rfl) rfl (fun hd => by cases hd)
    | scannerFailed scanner reason | eventsDropped missed | other =>
      simp only [note, hf, hevents]
      exact hs.quiet hkept hfrom rfl (fun _ => said_append_of_none rfl) rfl (fun hd => by cases hd)
  | joins hempty hhung hf =>
    have hnote : note s .follow notes = notes := by simp only [note, hf, hempty]
    rw [hnote]
    exact hs.quiet hkept (by rw [hf]; rfl) rfl (fun _ => rfl) rfl fun _ => ⟨hhung, hheeded hf hempty hhung⟩
  | looks hdocument hf =>
    simp only [note, hf, hdocument]
    exact looks_current hs hf hdocument
  | passes hnone hf =>
    simp only [note, hf, hnone]
    exact passes_current hs hf hnone
  | knows _ hf =>
    simp only [note, hf]
    exact judges_current hs hkept hf rfl rfl
  | learns _ hf =>
    simp only [note, hf]
    exact judges_current hs hkept hf rfl rfl
  | measures hf =>
    simp only [note, hf]
    split
    · exact hs.quiet hkept (by rw [hf]; rfl) rfl (fun _ => said_append_of_none rfl) rfl (fun hd => by cases hd)
    · exact hs.quiet hkept (by rw [hf]; rfl) rfl (fun _ => rfl) rfl (fun hd => by cases hd)
  | @pushes body next hf =>
    simp only [note, hf]
    refine hs.quiet hkept (by rw [hf]; rfl) rfl (fun _ => rfl) rfl fun hd => hdrained ?_
    rw [hf]
    cases next <;> first | rfl | cases hd
  | @notifies next hf =>
    simp only [note, hf]
    refine hs.quiet hkept (by rw [hf]; rfl) (by cases next <;> rfl) (fun _ => rfl) rfl fun hd => hdrained ?_
    rw [hf]
    cases next <;> first | rfl | cases hd
  | _ =>
    rename_i hf
    simp only [note, hf]
    exact hs.quiet hkept (by rw [hf]; rfl) rfl (fun _ => rfl) rfl fun hd => hdrained (by rw [hf]; rfl)

/-! ## The engine's steps -/

/-- A document that hashes as an earlier one of its address is that one. -/
theorem update_distinct {host : E.Host} (hs : s.Current notes) {document : String}
    (hdocument : E.document s.scan.redaction host = some document)
    (hnew : ∀ earlier ∈ s.past (E.scopedIp host), Log.hash earlier = Log.hash document → earlier = document)
    (address : E.ScopedIp) :
    ∀ one ∈ Function.update s.past (E.scopedIp host) (s.pastWith host) address,
      ∀ other ∈ Function.update s.past (E.scopedIp host) (s.pastWith host) address,
        Log.hash one = Log.hash other → one = other := by
  by_cases hne : address = E.scopedIp host
  · subst hne
    have hmem {one : String} (hone : one ∈ s.pastWith host) :
        one ∈ s.past (E.scopedIp host) ∨ one = document := by
      rw [pastWith, hdocument, List.mem_append] at hone
      refine hone.imp_right fun hone => ?_
      split_ifs at hone
      · cases hone
      · simpa using hone
    rw [Function.update_self]
    intro one hone other hother hhash
    rcases hmem hone with hone | rfl <;> rcases hmem hother with hother | rfl
    · exact hs.distinct _ one hone other hother hhash
    · exact hnew one hone hhash
    · exact (hnew other hother hhash.symm).symm
    · rfl
  · rw [Function.update_of_ne hne]
    exact hs.distinct address

theorem update_current {host : E.Host} (hs : s.Current notes) (hP : Promised s (.update host))
    (h : s.step (.update host) = some t) : t.Current (note s (.update host) notes) := by
  obtain ⟨hopen, document, hdocument, hnew⟩ := hP
  have hnotices : (note s (.update host) notes).notices = notes.notices := by
    simp only [note]
    split_ifs <;> rfl
  have hsub : notes.unread ⊆ (note s (.update host) notes).unread := by
    simp only [note]
    split_ifs
    · exact List.Subset.refl _
    · exact List.subset_cons_self _ _
  cases h
  have hpast := past_update s host
  refine ⟨update_distinct hs hdocument hnew, update_stored hs.stored hdocument, ?_, ?_, ?_, ?_⟩
  · intro address one hone
    rw [hnotices] at hone
    exact (hpast address).subset (hs.read address one hone)
  · intro address one hone
    exact (hpast address).subset (hs.judging address one hone)
  · intro address hknown
    have hknew := hs.known address fun hmem => hknown (hsub hmem)
    rw [hnotices, ← hknew]
    -- an address that is read has the document it had
    by_cases hne : address = E.scopedIp host
    · subst hne
      by_cases hsame : s.scan.documentOf (E.scopedIp host) = E.document s.scan.redaction host
      · rw [Scan.documentOf_put_self]
        exact hsame.symm
      · exact absurd (by simp [note, hsame]) hknown
    · exact Scan.documentOf_put_of_ne _ hne
  · intro hd
    have := (hs.drained hd).1
    rw [hopen] at this
    cases this

theorem step_current (hP : Promised s a) (hheeded : Heeded (s, notes) a) (h : s.step a = some t)
    (hs : s.Current notes) : t.Current (note s a notes) := by
  cases steps_of_step h with
  | updates host => exact update_current hs hP h
  | follows => exact follow_current hs hheeded h
  | raises i =>
    refine ⟨hs.distinct, fun address => ?_, hs.read, hs.judging, fun address => ?_, hs.drained⟩
    · rw [Scan.documentOf_raise]
      exact hs.stored address
    · rw [Scan.documentOf_raise]
      exact hs.known address
  | hangsUp =>
    exact ⟨hs.distinct, hs.stored, hs.read, hs.judging, hs.known, fun hd => ⟨rfl, (hs.drained hd).2⟩⟩
  | spawns slot hf =>
    refine ⟨hs.distinct, hs.stored, hs.read, ?_, fun address hknown => ?_, ?_⟩
    · intro address document hheld
      cases hheld
    · have := hs.known address hknown
      rwa [hf] at this
    · intro hd
      cases hd
  | _ => exact ⟨hs.distinct, hs.stored, hs.read, hs.judging, hs.known, hs.drained⟩

/-! ## Over whole runs -/

theorem fresh_current (id : String) (progress : Engine.Progress) (redaction : Redaction) :
    (fresh id progress redaction : Sitting E).Current .nothing where
  distinct _ _ hone := by cases hone
  stored _ := rfl
  read _ _ hone := by cases hone
  judging _ _ hheld := by cases hheld
  known _ _ := rfl
  drained hd := by cases hd

/-- The run the promises are kept in, and in which no gap has the last word on a host. -/
def Spared (x : Sitting E × Notes E) (a : Act E) : Prop := Promised x.1 a ∧ Heeded x a

section runs
variable {id : String} {progress : Engine.Progress} {redaction : Redaction}

theorem reach_current (h : (noted E).Reach Spared (fresh id progress redaction, .nothing) (s, notes)) :
    s.Current notes := by
  refine h.invariant (I := fun x => x.1.Current x.2) (fresh_current id progress redaction) ?_
  intro x y a _ hx hP hstep
  obtain ⟨hstep, hnotes⟩ := noting_step.mp hstep
  rw [hnotes]
  exact step_current hP.1 hP.2 hstep hx

theorem reach_serialises (h : (machine E).Reach Promised (fresh id progress redaction) s) :
    ∀ host ∈ s.scan.hosts.items, (E.document s.scan.redaction host).isSome = true := by
  refine h.invariant (I := fun s => ∀ host ∈ s.scan.hosts.items,
    (E.document s.scan.redaction host).isSome = true) (by simp [fresh, Scan.new, Keyed.empty]) ?_
  intro t u a _ ht hP hstep
  cases steps_of_step hstep with
  | updates host =>
    obtain ⟨-, document, hdocument, -⟩ := hP
    intro stored hmem
    rcases Keyed.mem_put.mp hmem with rfl | ⟨hmem, -⟩
    · exact Option.isSome_of_eq_some hdocument
    · exact ht stored hmem
  | raises i => exact fun host hmem => ht host (Keyed.mem_raise.mp hmem)
  | follows =>
    rw [(follow_kept hstep).hosts, (follow_kept hstep).redaction]
    exact ht
  | _ => exact ht

/-- What the log says of an address, once the end is in it and nothing is unread, is what the store has. -/
theorem Current.latest_eq (hs : s.Current notes) (haccounted : s.Accounted notes)
    (hconcluded : s.follower.concluded = true) (hpending : s.follower.pending = []) (address : E.ScopedIp) :
    latest Event.said address s.scan.log.entries = s.scan.documentOf address := by
  have hdrained : s.follower.drained = true := Follower.drained_of_concluded hconcluded
  have hsaid := haccounted.said_eq (.inr ⟨hconcluded, hpending⟩) address
  have hknown := hs.known address (by rw [(hs.drained hdrained).2]; exact List.not_mem_nil)
  rw [held_of_concluded hconcluded, Option.none_or] at hknown
  have hhash : (changes Log.hash none (said Notice.read address notes.notices)).getLast?.map Log.hash =
      (said Notice.read address notes.notices).getLast?.map Log.hash := by
    have hmark : ((changes Log.hash none (said Notice.read address notes.notices)).getLast?.map Log.hash).or
        none = ((said Notice.read address notes.notices).getLast?.map Log.hash).or none := getLast?_changes
    simpa only [Option.or_none] using hmark
  rw [hknown, latest, hsaid, latest]
  -- the last change and the last document read hash alike, and no two documents of one address do
  cases hlast : (said Notice.read address notes.notices).getLast? with
  | none =>
    rw [hlast] at hhash
    exact Option.map_eq_none_iff.mp hhash
  | some document =>
    rw [hlast] at hhash
    obtain ⟨said, hchange, heq⟩ := Option.map_eq_some_iff.mp hhash
    have hearlier := hs.read address said (mem_of_mem_changes (List.mem_of_getLast? hchange))
    rw [hchange, hs.distinct address said hearlier document
      (hs.read address document (List.mem_of_getLast? hlast)) heq]

/-- **Where no gap has the last word on a host, the log ends with every host as the store has it.** -/
theorem log_ends_current (h : (noted E).Reach Spared (fresh id progress redaction, .nothing) (s, notes))
    {entry : Event E.ScopedIp} (hentry : entry ∈ s.scan.log.entries) {cause : Int}
    (hcause : entry.cause = some cause) :
    (∀ address, latest Event.said address s.scan.log.entries = s.scan.documentOf address) ∧
    ∀ host ∈ s.scan.hosts.items, ∃ document, E.document s.scan.redaction host = some document ∧
      latest Event.said (E.scopedIp host) s.scan.log.entries = some document := by
  have hreach : (machine E).Reach Promised (fresh id progress redaction) s :=
    Reach.forget (fun _ _ hP => hP.1) h
  obtain ⟨⟨hconcluded, hpending⟩, -⟩ := ended hreach.always hentry hcause
  have hlatest := (reach_current h).latest_eq
    (reach_accounted (h.mono fun _ _ _ => trivial)) hconcluded hpending
  refine ⟨hlatest, fun host hhost => ?_⟩
  obtain ⟨document, hdocument⟩ := Option.isSome_iff_exists.mp (reach_serialises hreach host hhost)
  refine ⟨document, hdocument, ?_⟩
  rw [hlatest, Scan.documentOf, Keyed.get_eq_some.mpr ⟨hhost, rfl⟩, Option.bind_some, hdocument]

end runs

/-- What `Promised` asks of the plain engine. -/
def promised (s : Sitting Plain.engine) : Act Plain.engine → Bool
  | .update host => !s.hungUp &&
      (s.past host.1).all fun earlier => Log.hash earlier != Log.hash host.2 || earlier == host.2
  | .hangUp => s.owed.isEmpty
  | _ => true

theorem promised_sound (s : Sitting Plain.engine) (a : Act Plain.engine) (h : promised s a = true) :
    Promised s a := by
  cases a with
  | update host =>
    simp only [promised, Bool.and_eq_true, Bool.not_eq_true', List.all_eq_true, Bool.or_eq_true,
      bne_iff_ne, beq_iff_eq] at h
    obtain ⟨hopen, hall⟩ := h
    exact ⟨hopen, host.2, rfl, fun earlier hmem heq => (hall earlier hmem).resolve_left fun hne => hne heq⟩
  | hangUp => exact List.isEmpty_iff.mp h
  | _ => trivial

/-- What `Spared` asks of it. -/
def spared (x : Sitting Plain.engine × Notes Plain.engine) : Act Plain.engine → Bool
  | .follow => match x.1.follower, x.1.events with
    | .draining, [] => !x.1.hungUp || x.2.unread.isEmpty
    | _, _ => true
  | a => promised x.1 a

theorem spared_sound (x : Sitting Plain.engine × Notes Plain.engine) (a : Act Plain.engine)
    (h : spared x a = true) : Spared x a := by
  cases a with
  | follow =>
    refine ⟨trivial, fun hf hevents hhung => ?_⟩
    simp only [spared, hf, hevents, hhung, Bool.not_true, Bool.false_or] at h
    exact List.isEmpty_iff.mp h
  | _ => exact ⟨promised_sound x.1 _ h, trivial⟩

/-- The engine stores a host's document and announces it. -/
def finds (address : Nat) (document : String) : List (Act Plain.engine) :=
  [.update (address, document), .announce (.hostUpdated address)]

def following (steps : Nat) : List (Act Plain.engine) := List.replicate steps .follow

/-- The engine hangs up, its task is over and the follower comes to rest. -/
def endsWith (steps : Nat) : List (Act Plain.engine) :=
  [.hangUp, .finish (.ok [])] ++ following steps

/-- The notice of a host's last change is lost in a gap, and nothing touches the host after it. -/
def swallowed : List (Act Plain.engine) :=
  [.spawn true] ++ finds 5 "open 22" ++ following 5 ++ finds 5 "open 22, 80" ++ [.lag 1] ++ endsWith 9

theorem last_notice_dropped : ∃ s : Sitting Plain.engine,
    (machine Plain.engine).Reach Promised plain s ∧
    (∃ entry ∈ s.scan.log.entries, entry.cause = some (number Proto.StopCause.completed)) ∧
    latest Event.said 5 s.scan.log.entries = some "open 22" ∧
    s.scan.documentOf 5 = some "open 22, 80" := by
  have hrun : ((machine Plain.engine).runIf promised plain swallowed).any (fun s =>
      (s.scan.log.entries.any fun entry => entry.cause == some (number Proto.StopCause.completed)) &&
      latest Event.said 5 s.scan.log.entries == some "open 22" &&
      s.scan.documentOf 5 == some "open 22, 80") = true := by
    decide +kernel
  obtain ⟨s, hs, hall⟩ := (Option.any_eq_true _ _).mp hrun
  simp only [Bool.and_eq_true, beq_iff_eq, List.any_eq_true] at hall
  exact ⟨s, Reach.of_runIf promised_sound hs, hall.1.1, hall.1.2, hall.2⟩

/-- The same gap, and then a change that is announced. -/
def repaired : List (Act Plain.engine) :=
  [.spawn true] ++ finds 5 "open 22" ++ following 5 ++ finds 5 "open 22, 80" ++ [.lag 1] ++
    finds 5 "open 22, 80, 443" ++ endsWith 15

theorem log_ends_current_repaired : ∃ s : Sitting Plain.engine,
    said Event.said 5 s.scan.log.entries = ["open 22", "open 22, 80, 443"] ∧
    s.scan.documentOf 5 = some "open 22, 80, 443" ∧
    ∀ address, latest Event.said address s.scan.log.entries = s.scan.documentOf address := by
  have hrun : ((noted Plain.engine).runIf spared (plain, .nothing) repaired).any (fun x =>
      (x.1.scan.log.entries.any fun entry => entry.cause == some (number Proto.StopCause.completed)) &&
      said Event.said 5 x.1.scan.log.entries == ["open 22", "open 22, 80, 443"] &&
      x.1.scan.documentOf 5 == some "open 22, 80, 443") = true := by
    decide +kernel
  obtain ⟨⟨s, notes⟩, hs, hall⟩ := (Option.any_eq_true _ _).mp hrun
  simp only [Bool.and_eq_true, beq_iff_eq, List.any_eq_true] at hall
  obtain ⟨⟨⟨entry, hentry, hcause⟩, hsaid⟩, hstored⟩ := hall
  exact ⟨s, hsaid, hstored, (log_ends_current (Reach.of_runIf spared_sound hs) hentry hcause).1⟩

end Sitting

end ZondDaemon
