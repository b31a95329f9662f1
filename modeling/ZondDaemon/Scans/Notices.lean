import ZondDaemon.Scans.Report

/-!
# Exactly the changes

What the log of a scan ought to be, told from the notices the follower read: `told` goes through them in
turn, with what the store gave at each, and keeps the documents that differ from the one read before for
the same address. The notices of a run are its history (`Notes`), which no step depends on, and the log is
what they tell (`Accounted`), with `Finished` after it once the stream is over (`log_is_told`).
-/

namespace ZondDaemon

open Machine Proto Sequence

variable {E : Engine}

/-- An event of the stream the follower is done with, and what it read at it. -/
inductive Notice (E : Engine)
  /-- With the document the store gave, and `none` for no such host or one that does not serialise. -/
  | host (address : E.ScopedIp) (document : Option String)
  | stage (stage : Engine.Stage) (progress : Proto.Progress)
  | failure (scanner reason : String)
  /-- A gap, or an event this build has no name for. -/
  | passed (event : Engine.ScanEvent E.ScopedIp)

/-- The document read at a notice of a host. -/
def Notice.read : Notice E → Option (E.ScopedIp × String)
  | .host address (some document) => some (address, document)
  | _ => none

/-- What notices tell: the entries, and the digest of the document read last for each address. -/
structure Telling (E : Engine) where
  seen : E.ScopedIp → Option UInt64
  bodies : List (Body E.ScopedIp)

namespace Telling

def nothing : Telling E := ⟨fun _ => none, []⟩

/-- With one notice more. -/
def next (told : Telling E) : Notice E → Telling E
  | .host address (some document) =>
    ⟨Function.update told.seen address (some (Log.hash document)),
      told.bodies ++ if told.seen address = some (Log.hash document) then []
        else [.host ⟨address, document⟩]⟩
  | .host _ none => told
  | .stage stage progress =>
    { told with bodies := told.bodies ++ [.stage ⟨number (Convert.stage stage)⟩, .progress progress] }
  | .failure scanner reason => { told with bodies := told.bodies ++ [.failure ⟨scanner, reason⟩] }
  | .passed _ => told

end Telling

/-- What the notices tell, in turn. -/
def told (notices : List (Notice E)) : Telling E := notices.foldl Telling.next .nothing

theorem told_concat (notices : List (Notice E)) (notice : Notice E) :
    told (notices ++ [notice]) = (told notices).next notice := by
  simp [told]

/-! ## What is told of one address -/

/-- The documents told of an address are those read for it, less those that are no change; the digest kept
for it is that of the last read. -/
theorem told_said (notices : List (Notice E)) (address : E.ScopedIp) :
    said Body.said address (told notices).bodies =
        changes Log.hash none (said Notice.read address notices) ∧
      (told notices).seen address = (latest Notice.read address notices).map Log.hash := by
  induction notices using List.reverseRecOn with
  | nil => exact ⟨rfl, rfl⟩
  | append_singleton notices notice ih =>
    obtain ⟨hsaid, hseen⟩ := ih
    rw [told_concat, latest]
    have hquiet (h : notice.read = none) (hnext : ((told notices).next notice).seen = (told notices).seen)
        (bodies : List (Body E.ScopedIp)) (hbodies : ∀ body ∈ bodies, body.said = none)
        (heq : ((told notices).next notice).bodies = (told notices).bodies ++ bodies) :
        said Body.said address ((told notices).next notice).bodies =
            changes Log.hash none (said Notice.read address (notices ++ [notice])) ∧
          ((told notices).next notice).seen address =
            (said Notice.read address (notices ++ [notice])).getLast?.map Log.hash := by
      have hnone : said Body.said address bodies = [] := by
        rw [said, List.filterMap_eq_nil_iff]
        intro body hbody
        rw [hbodies body hbody]
        rfl
      rw [said_append_of_none h, heq, said_append, hnone, List.append_nil, hnext]
      exact ⟨hsaid, hseen⟩
    cases notice with
    | host other document =>
      cases document with
      | none => exact hquiet rfl rfl [] (by simp) (by simp [Telling.next])
      | some document =>
        have hread : Notice.read (.host other (some document) : Notice E) = some (other, document) := rfl
        by_cases hne : other = address
        · subst hne
          rw [said_append_self hread, changes_concat, Telling.next, said_append, hsaid]
          refine ⟨?_, by simp⟩
          rw [hseen, latest]
          split_ifs <;> simp [said, Body.said]
        · rw [said_append_of_ne hread hne, Telling.next, said_append, hsaid]
          refine ⟨?_, ?_⟩
          · split_ifs <;> simp [said, Body.said, hne]
          · exact (Function.update_of_ne (Ne.symm hne) _ _).trans hseen
    | stage stage progress => exact hquiet rfl rfl _ (by simp [Body.said]) rfl
    | failure scanner reason => exact hquiet rfl rfl _ (by simp [Body.said]) rfl
    | passed event => exact hquiet rfl rfl [] (by simp) (by simp [Telling.next])

/-- The stage is said and the progress is not. -/
def Follower.staging : Follower E → Bool
  | .pushing _ .measuring => true
  | .notifying .measuring => true
  | .measuring => true
  | _ => false

theorem Follower.not_staging_of_concluded {f : Follower E} (h : f.concluded = true) : f.staging = false := by
  cases f with
  | pushing body next | notifying next => cases next <;> first | rfl | cases h
  | _ => first | rfl | cases h

/-- What the follower has read so far. -/
structure Notes (E : Engine) where
  /-- The notices it is done with. -/
  notices : List (Notice E)
  /-- The stage it has been told of and not yet read the progress for. -/
  stage : Option Engine.Stage
  /-- The addresses whose document has changed since it looked them up. -/
  unread : List E.ScopedIp

namespace Notes

def nothing : Notes E := ⟨[], none, []⟩

/-- One notice more is done with. -/
def add (notes : Notes E) (notice : Notice E) : Notes E :=
  { notes with notices := notes.notices ++ [notice] }

end Notes

namespace Sitting

/-- What a step of a scan adds to what the follower has read. -/
def note (s : Sitting E) (a : Act E) (notes : Notes E) : Notes E :=
  match a with
  | .update host =>
    if s.scan.documentOf (E.scopedIp host) = E.document s.scan.redaction host then notes
    else { notes with unread := E.scopedIp host :: notes.unread }
  | .follow =>
    match s.follower with
    | .draining =>
      match s.events with
      | [] => notes
      | .hostUpdated _ :: _ => notes
      | .stageChanged stage :: _ => { notes with stage := some stage }
      | .scannerFailed scanner reason :: _ => notes.add (.failure scanner reason)
      | event :: _ => notes.add (.passed event)
    | .looking address =>
      let notes := { notes with unread := notes.unread.filter fun other => other ≠ address }
      match s.scan.documentOf address with
      | some _ => notes
      | none => notes.add (.host address none)
    | .judging address document => notes.add (.host address (some document))
    | .measuring =>
      match notes.stage with
      | some stage => { notes.add (.stage stage s.scan.progress) with stage := none }
      | none => notes
    | _ => notes
  | _ => notes

/-- A scan with the history of what its follower read. -/
def noted (E : Engine) : Machine (Sitting E × Notes E) (Act E) := (machine E).noting note

variable {s t : Sitting E} {notes notes' : Notes E} {a : Act E}

/-- The stage the follower is in the middle of saying. -/
def half (notes : Notes E) : List (Body E.ScopedIp) :=
  (notes.stage.map fun stage => .stage ⟨number (Convert.stage stage)⟩).toList

/-- What is spoken is what the notices tell, with the stage being said and, once it is concluded, the end. -/
structure Accounted (s : Sitting E) (notes : Notes E) : Prop where
  seen : s.scan.log.seen = (told notes.notices).seen
  staged : notes.stage.isSome = s.follower.staging
  spoken : ∃ ending, s.spoken = (told notes.notices).bodies ++ half notes ++ ending ∧
    if s.follower.concluded then ∃ cause, ending = [.finished ⟨cause⟩] else ending = []

theorem Accounted.quiet (hs : s.Accounted notes) (hnotices : notes'.notices = notes.notices)
    (hstage : notes'.stage = notes.stage) (hseen : t.scan.log.seen = s.scan.log.seen)
    (hspoken : t.spoken = s.spoken) (hstaging : t.follower.staging = s.follower.staging)
    (hconcluded : t.follower.concluded = s.follower.concluded) : t.Accounted notes' where
  seen := by rw [hseen, hnotices, hs.seen]
  staged := by rw [hstage, hstaging, hs.staged]
  spoken := by
    rw [hspoken, hconcluded, hnotices, half, hstage]
    exact hs.spoken

theorem Accounted.stage_eq_none (hs : s.Accounted notes) (hfrom : s.follower.staging = false) :
    notes.stage = none := by
  rw [← Option.isNone_iff_eq_none, ← Option.not_isSome, hs.staged, hfrom]
  rfl

theorem Accounted.spoken_eq (hs : s.Accounted notes) (hfrom : s.follower.staging = false)
    (hopen : s.follower.concluded = false) : s.spoken = (told notes.notices).bodies := by
  obtain ⟨ending, heq, hending⟩ := hs.spoken
  simp only [hopen, Bool.false_eq_true, if_false] at hending
  simpa [half, hs.stage_eq_none hfrom, hending] using heq

theorem Accounted.tell (hs : s.Accounted notes) {notice : Notice E} (bodies : List (Body E.ScopedIp))
    (hnotices : notes'.notices = notes.notices ++ [notice]) (hstage : notes'.stage = notes.stage)
    (hfrom : s.follower.staging = false) (hto : t.follower.staging = false)
    (hopen : s.follower.concluded = false) (hopen' : t.follower.concluded = false)
    (hnext : (told notes.notices).next notice = ⟨t.scan.log.seen, (told notes.notices).bodies ++ bodies⟩)
    (hspoken : t.spoken = s.spoken ++ bodies) : t.Accounted notes' := by
  rw [hs.stage_eq_none hfrom] at hstage
  rw [hs.spoken_eq hfrom hopen] at hspoken
  refine ⟨?_, ?_, [], ?_, ?_⟩
  · rw [hnotices, told_concat, hnext]
  · rw [hstage, hto]
    rfl
  · simp [hnotices, told_concat, hnext, half, hstage, hspoken]
  · simp [hopen']

theorem hears_accounted {event : Engine.ScanEvent E.ScopedIp} {rest : List (Engine.ScanEvent E.ScopedIp)}
    (hs : s.Accounted notes) (hevents : s.events = event :: rest) (hf : s.follower = .draining) :
    Accounted { s with events := rest, follower := heard event } (note s .follow notes) := by
  have hstaging : s.follower.staging = false := by rw [hf]; rfl
  have hopen : s.follower.concluded = false := by rw [hf]; rfl
  have hspoken := hs.spoken_eq hstaging hopen
  have hseen := hs.seen
  simp only [spoken, hf, Follower.pending, List.append_nil] at hspoken
  cases event with
  | hostUpdated address =>
    simp only [note, hf, hevents]
    exact hs.quiet rfl rfl rfl (by simp [spoken, hf, heard, Follower.pending]) (by rw [hf]; rfl)
      (by rw [hf]; rfl)
  | stageChanged stage =>
    simp only [note, hf, hevents]
    refine ⟨hseen, rfl, [], ?_, ?_⟩
    · simp [spoken, heard, Follower.pending, half, hspoken]
    · simp [heard, Follower.concluded]
  | scannerFailed scanner reason =>
    simp only [note, hf, hevents]
    exact hs.tell [.failure ⟨scanner, reason⟩] rfl rfl hstaging rfl hopen rfl
      (by rw [Telling.next, hseen]) (by simp [spoken, hf, heard, Follower.pending])
  | eventsDropped missed | other =>
    simp only [note, hf, hevents]
    exact hs.tell [] rfl rfl hstaging rfl hopen rfl (by simp [Telling.next, hseen])
      (by simp [spoken, hf, heard, Follower.pending])

theorem follow_accounted (hs : s.Accounted notes) (h : s.follow = some t) :
    t.Accounted (note s .follow notes) := by
  have hseen := hs.seen
  cases follows_of_follow h with
  | hears hevents hf => exact hears_accounted hs hevents hf
  | passes hnone hf =>
    simp only [note, hf, hnone]
    exact hs.tell [] rfl rfl (by rw [hf]; rfl) rfl (by rw [hf]; rfl) rfl
      (by simp [Telling.next, hseen]) (by simp [spoken, hf, Follower.pending])
  | knows hknown hf =>
    simp only [note, hf]
    exact hs.tell [] rfl rfl (by rw [hf]; rfl) rfl (by rw [hf]; rfl) rfl
      (by simp [Telling.next, ← hseen, hknown]) (by simp [spoken, hf, Follower.pending])
  | @learns address document hnew hf =>
    simp only [note, hf]
    exact hs.tell [.host ⟨address, document⟩] rfl rfl (by rw [hf]; rfl) rfl (by rw [hf]; rfl) rfl
      (by simp [Telling.next, ← hseen, hnew]) (by simp [spoken, hf, Follower.pending])
  | measures hf =>
    have hstaged : notes.stage.isSome = true := by rw [hs.staged, hf]; rfl
    obtain ⟨stage, hstage⟩ := Option.isSome_iff_exists.mp hstaged
    obtain ⟨ending, heq, hending⟩ := hs.spoken
    simp only [hf, Follower.concluded, Bool.false_eq_true, if_false] at hending
    simp only [note, hf, hstage]
    refine ⟨?_, rfl, [], ?_, rfl⟩
    · rw [Notes.add, told_concat]
      exact hseen
    · simp only [half, hstage, hending, spoken, hf, Follower.pending, List.append_nil, Option.map_some,
        Option.toList_some] at heq
      simp [spoken, Follower.pending, Notes.add, told_concat, Telling.next, half, heq]
  | @concludes outcome hf =>
    have hspoken := hs.spoken_eq (by rw [hf]; rfl) (by rw [hf]; rfl)
    have hstage := hs.stage_eq_none (by rw [hf]; rfl)
    simp only [spoken, hf, Follower.pending, List.append_nil] at hspoken
    simp only [note, hf]
    refine ⟨hseen, by rw [hstage]; rfl, [.finished ⟨number (s.concludes outcome)⟩], ?_, _, rfl⟩
    simp [spoken, Follower.pending, half, hstage, hspoken]
  | @looks address document hdocument hf =>
    simp only [note, hf, hdocument]
    exact hs.quiet rfl rfl rfl (by simp [spoken, hf, Follower.pending]) (by rw [hf]; rfl) (by rw [hf]; rfl)
  | joins hempty hhung hf =>
    simp only [note, hf, hempty]
    exact hs.quiet rfl rfl rfl (by simp [spoken, hf, Follower.pending]) (by rw [hf]; rfl) (by rw [hf]; rfl)
  | @pushes body next hf =>
    simp only [note, hf]
    exact hs.quiet rfl rfl rfl (by simp [spoken, hf, Follower.pending]) (by rw [hf]; cases next <;> rfl)
      (by rw [hf]; cases next <;> rfl)
  | @notifies next hf =>
    simp only [note, hf]
    exact hs.quiet rfl rfl rfl (by cases next <;> simp [spoken, hf, Follower.pending, Next.follower])
      (by rw [hf]; cases next <;> rfl) (by rw [hf]; cases next <;> rfl)
  | _ =>
    rename_i hf
    simp only [note, hf]
    exact hs.quiet rfl rfl rfl (by simp [spoken, hf, Follower.pending]) (by rw [hf]; rfl) (by rw [hf]; rfl)

theorem step_accounted (hs : s.Accounted notes) (h : s.step a = some t) : t.Accounted (note s a notes) := by
  cases steps_of_step h with
  | follows => exact follow_accounted hs h
  | updates host =>
    refine hs.quiet ?_ ?_ rfl rfl rfl rfl <;> · simp only [note]; split_ifs <;> rfl
  | spawns slot hf =>
    exact hs.quiet rfl rfl rfl (by simp [spoken, hf, Follower.pending]) (by rw [hf]; rfl) (by rw [hf]; rfl)
  | _ => exact hs.quiet rfl rfl rfl rfl rfl rfl

/-! ## Over whole runs -/

section runs
variable {P : Sitting E × Notes E → Act E → Prop} {id : String} {progress : Engine.Progress}
  {redaction : Redaction}

theorem reach_accounted (h : (noted E).Reach P (fresh id progress redaction, .nothing) (s, notes)) :
    s.Accounted notes := by
  refine h.invariant (I := fun x => x.1.Accounted x.2) ⟨rfl, rfl, [], rfl, rfl⟩ ?_
  intro x y a _ hx _ hstep
  obtain ⟨hstep, hnotes⟩ := noting_step.mp hstep
  rw [hnotes]
  exact step_accounted hx hstep

theorem reach_bodied (h : (machine E).Reach Always (fresh id progress redaction) s) :
    ∀ entry ∈ s.scan.log.entries, entry.body.isSome = true := by
  refine h.invariant (I := fun s => ∀ entry ∈ s.scan.log.entries, entry.body.isSome = true)
    (by simp [fresh, Scan.new, Log.empty]) ?_
  intro t u a _ ht _ hstep
  rcases step_log hstep with ⟨he, -, -⟩ | ⟨body, -, -, -, hl⟩ | ⟨-, -, -, hl⟩
  · rwa [he]
  · rw [hl, Log.append_entries, List.forall_mem_append]
    exact ⟨ht, by simp⟩
  · rwa [hl]

theorem ended (h : (machine E).Reach Always (fresh id progress redaction) s) {entry : Event E.ScopedIp}
    (hentry : entry ∈ s.scan.log.entries) {cause : Int} (hcause : entry.cause = some cause) :
    (s.follower.concluded = true ∧ s.follower.pending = []) ∧
      ∃ before, s.scan.log.entries = before ++ [entry] ∧ ∀ other ∈ before, other.cause = none := by
  obtain ⟨body, hbody, hbodyCause⟩ := Option.bind_eq_some_iff.mp hcause
  have hmem : body ∈ s.spoken := List.mem_append_left _ (List.mem_filterMap.mpr ⟨entry, hentry, hbody⟩)
  have hends := reach_endsOnce h
  by_cases hconcluded : s.follower.concluded = true
  · rw [EndsOnce, if_pos hconcluded] at hends
    obtain ⟨told, last, hspoken, htold⟩ := hends
    obtain ⟨before, after, hsplit⟩ := List.append_of_mem hentry
    rw [spoken, hsplit, List.filterMap_append, List.filterMap_cons_some hbody, List.append_assoc] at hspoken
    -- what stands after the entry is empty, or the entry would stand before the end
    have hnil : after.filterMap Event.body ++ s.follower.pending = [] := by
      rcases List.eq_nil_or_concat (after.filterMap Event.body ++ s.follower.pending) with hnil | ⟨l, x, hx⟩
      · exact hnil
      · rw [List.cons_append, hx, List.concat_eq_append, ← List.cons_append, ← List.append_assoc] at hspoken
        have hearly := htold body ((List.append_inj' hspoken rfl).1 ▸ by simp)
        rw [hbodyCause] at hearly
        cases hearly
    have hafter : after = [] := by
      rw [List.eq_nil_iff_forall_not_mem]
      intro other hother
      have hsome := reach_bodied h other (hsplit ▸ by simp [hother])
      obtain ⟨said, hsaid⟩ := Option.isSome_iff_exists.mp hsome
      have := List.mem_filterMap.mpr ⟨other, hother, hsaid⟩
      rw [(List.append_eq_nil_iff.mp hnil).1] at this
      cases this
    rw [List.cons_append, hnil] at hspoken
    refine ⟨⟨hconcluded, (List.append_eq_nil_iff.mp hnil).2⟩, before, by rw [hsplit, hafter], ?_⟩
    intro other hother
    cases hsaid : other.body with
    | none => rw [Event.cause, hsaid, Option.bind_none]
    | some said =>
      rw [Event.cause, hsaid, Option.bind_some]
      exact htold said ((List.append_inj' hspoken rfl).1 ▸ List.mem_filterMap.mpr ⟨other, hother, hsaid⟩)
  · rw [EndsOnce, if_neg hconcluded] at hends
    rw [hends body hmem] at hbodyCause
    cases hbodyCause

theorem Accounted.bodies (hs : s.Accounted notes) :
    (s.follower = .draining → s.scan.log.entries.filterMap Event.body = (told notes.notices).bodies) ∧
      (s.follower.concluded = true → s.follower.pending = [] → ∃ cause,
        s.scan.log.entries.filterMap Event.body = (told notes.notices).bodies ++ [.finished ⟨cause⟩]) := by
  constructor
  · intro hf
    have hspoken := hs.spoken_eq (by rw [hf]; rfl) (by rw [hf]; rfl)
    simpa only [Sitting.spoken, hf, Follower.pending, List.append_nil] using hspoken
  · intro hconcluded hpending
    have hstage := hs.stage_eq_none (Follower.not_staging_of_concluded hconcluded)
    obtain ⟨ending, hspoken, hending⟩ := hs.spoken
    rw [if_pos hconcluded] at hending
    obtain ⟨cause, rfl⟩ := hending
    refine ⟨cause, ?_⟩
    simpa [Sitting.spoken, hpending, half, hstage] using hspoken

/-- What the log says of an address there: the documents read for it that are changes. -/
theorem Accounted.said_eq (hs : s.Accounted notes)
    (hrest : s.follower = .draining ∨ s.follower.concluded = true ∧ s.follower.pending = [])
    (address : E.ScopedIp) : said Event.said address s.scan.log.entries =
      changes Log.hash none (said Notice.read address notes.notices) := by
  have hbody : said Event.said address s.scan.log.entries =
      said Body.said address (s.scan.log.entries.filterMap Event.body) := (said_filterMap _ _).symm
  rw [hbody, ← (told_said notes.notices address).1]
  rcases hrest with hf | ⟨hconcluded, hpending⟩
  · rw [hs.bodies.1 hf]
  · obtain ⟨cause, heq⟩ := hs.bodies.2 hconcluded hpending
    rw [heq, said_append_of_none rfl]

end runs

end Sitting

end ZondDaemon
