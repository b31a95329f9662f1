import ZondDaemon.Scans.Follow

/-!
# An engine that announces what it changes

The runs in which the engine stores hosts that serialise, gives a host no document it has had before, and
announces each change before it hangs up, with no notice dropped and no two documents of one host hashing
alike. `Converging` is what holds all along: of every address either its last document is said, or there
is something that will have it said.
-/

namespace ZondDaemon

open Proto Sequence

variable {E : Engine}

namespace Follower

/-- The address the follower has been told of and has not decided about. -/
def holding : Follower E → Option E.ScopedIp
  | .looking address => some address
  | .judging address _ => some address
  | _ => none

/-- The stream is over. -/
def drained : Follower E → Bool
  | .pushing _ .closing => true
  | .notifying .closing => true
  | .joining => true
  | .settling _ => true
  | .concluding _ => true
  | .closing => true
  | .waking => true
  | .releasing => true
  | .done => true
  | _ => false

end Follower

namespace Sitting

/-- What the engine promises of what it stores and announces. -/
def Orderly (s : Sitting E) : Act E → Prop
  | .update host => s.hungUp = false ∧ ∃ document, E.document s.scan.redaction host = some document ∧
      (s.scan.documentOf (E.scopedIp host) = some document ∨
        ∀ earlier ∈ s.past (E.scopedIp host), Log.hash earlier ≠ Log.hash document)
  | .lag _ => False
  | .hangUp => s.owed = []
  | _ => True

/-- The address's last document is said, or is still to be: its change is unannounced, or announced and
unread, or the follower is about to look it up, or about to judge it. -/
def Due (s : Sitting E) (address : E.ScopedIp) : Prop :=
  address ∈ s.owed ∨ .hostUpdated address ∈ s.events ∨ s.follower = .looking address ∨
    (∃ document, s.follower = .judging address document ∧ s.scan.documentOf address = some document) ∨
    latest Body.said address s.spoken = s.scan.documentOf address

/-- The store has had this document for the address, and nothing said for it is later. -/
def Newest (s : Sitting E) (address : E.ScopedIp) (document : String) : Prop :=
  document ∈ s.past address ∧ ∀ earlier ∈ Sequence.said Body.said address s.spoken,
    (s.past address).idxOf earlier ≤ (s.past address).idxOf document

structure Converging (s : Sitting E) : Prop where
  distinct : ∀ address, ((s.past address).map Log.hash).Nodup
  current : ∀ address, s.scan.documentOf address = (s.past address).getLast?
  serialises : ∀ host ∈ s.scan.hosts.items, (E.document s.scan.redaction host).isSome
  seen : ∀ address, s.scan.log.seen address = (latest Body.said address s.spoken).map Log.hash
  said : ∀ address, ∀ document ∈ Sequence.said Body.said address s.spoken, document ∈ s.past address
  judging : ∀ address document, s.follower = .judging address document → s.Newest address document
  due : ∀ address, s.Due address
  hung : s.hungUp = true → s.owed = []
  drained : s.follower.drained = true → s.hungUp = true ∧ s.events = []

variable {s t : Sitting E} {a : Act E} {address : E.ScopedIp}

theorem Kept.documentOf (h : s.Kept t) : t.scan.documentOf = s.scan.documentOf := by
  funext address
  rw [Scan.documentOf, Scan.documentOf, h.hosts, h.redaction]

/-- No document of a host is stored under the hash of another. -/
theorem Converging.eq_of_hash (h : s.Converging) {one other : String} (hone : one ∈ s.past address)
    (hother : other ∈ s.past address) (heq : Log.hash one = Log.hash other) : one = other :=
  List.inj_on_of_nodup_map (h.distinct address) hone hother heq

theorem Converging.nodup (h : s.Converging) (address : E.ScopedIp) : (s.past address).Nodup :=
  (h.distinct address).of_map _

theorem Converging.newest (h : s.Converging) {document : String}
    (hdocument : s.scan.documentOf address = some document) : s.Newest address document := by
  rw [h.current] at hdocument
  exact ⟨List.mem_of_getLast? hdocument, fun earlier hmem =>
    idxOf_le_last (h.nodup address) hdocument (h.said address earlier hmem)⟩

theorem said_of_entry {entry : Event E.ScopedIp} {document : String}
    (he : entry ∈ s.scan.log.entries) (hsaid : entry.said = some (address, document)) :
    document ∈ Sequence.said Body.said address s.spoken := by
  obtain ⟨body, hbody, hsaid⟩ := Option.bind_eq_some_iff.mp hsaid
  exact mem_said.mpr ⟨body, List.mem_append_left _ (List.mem_filterMap.mpr ⟨entry, he, hbody⟩), hsaid⟩

/-! ## The follower's steps -/

theorem Converging.keep (hs : s.Converging) (hkept : s.Kept t)
    (hseen : ∀ address, t.scan.log.seen address = (latest Body.said address t.spoken).map Log.hash)
    (hsaid : ∀ address, ∀ document ∈ Sequence.said Body.said address t.spoken,
      document ∈ s.past address)
    (hjudging : ∀ address document, t.follower = .judging address document →
      t.Newest address document)
    (hdue : ∀ address, t.Due address)
    (hdrained : t.follower.drained = true → s.hungUp = true ∧ t.events = []) : t.Converging where
  distinct address := by
    rw [hkept.past]
    exact hs.distinct address
  current address := by
    rw [hkept.documentOf, hkept.past]
    exact hs.current address
  serialises := by
    rw [hkept.hosts, hkept.redaction]
    exact hs.serialises
  seen := hseen
  said := by
    rw [hkept.past]
    exact hsaid
  judging := hjudging
  due := hdue
  hung := by
    rw [hkept.hungUp, hkept.owed]
    exact hs.hung
  drained hd := by
    rw [hkept.hungUp]
    exact hdrained hd

theorem Due.keep (h : s.Due address) (hkept : s.Kept t)
    (hevents : .hostUpdated address ∈ s.events → .hostUpdated address ∈ t.events)
    (hlatest : latest Body.said address t.spoken = latest Body.said address s.spoken)
    (hother : s.follower.holding ≠ some address) : t.Due address := by
  rcases h with howed | hqueued | hf | ⟨document, hf, -⟩ | hsaid
  · exact .inl (hkept.owed ▸ howed)
  · exact .inr (.inl (hevents hqueued))
  · rw [hf] at hother
    exact absurd rfl hother
  · rw [hf] at hother
    exact absurd rfl hother
  · refine .inr (.inr (.inr (.inr ?_)))
    rw [hlatest, hkept.documentOf]
    exact hsaid

theorem Converging.quiet (hs : s.Converging) (hkept : s.Kept t)
    (hseen : t.scan.log.seen = s.scan.log.seen)
    (hsaid : ∀ address, Sequence.said Body.said address t.spoken =
      Sequence.said Body.said address s.spoken)
    (hfrom : s.follower.holding = none) (hto : t.follower.holding = none)
    (hevents : ∀ address, .hostUpdated address ∈ s.events → .hostUpdated address ∈ t.events)
    (hdrained : t.follower.drained = true → s.hungUp = true ∧ t.events = []) : t.Converging := by
  refine hs.keep hkept (fun address => ?_) (fun address => ?_) (fun address document hf => ?_)
    (fun address => ?_) hdrained
  · rw [hseen, latest, hsaid]
    exact hs.seen address
  · rw [hsaid]
    exact hs.said address
  · rw [hf] at hto
    cases hto
  · apply (hs.due address).keep hkept (hevents address) (by rw [latest, hsaid, latest])
    rw [hfrom]
    exact (Option.some_ne_none address).symm

theorem Converging.latest_eq_none (hs : s.Converging) (hnone : s.scan.documentOf address = none) :
    latest Body.said address s.spoken = none := by
  have hpast : s.past address = [] := by
    rw [hs.current] at hnone
    exact List.getLast?_eq_none_iff.mp hnone
  rw [latest, List.getLast?_eq_none_iff, List.eq_nil_iff_forall_not_mem]
  intro document hmem
  have := hs.said address document hmem
  rw [hpast] at this
  cases this

theorem follow_looking (hs : s.Converging) (hf : s.follower = .looking address)
    (h : s.follow = some t) : t.Converging := by
  have hkept := follow_kept h
  have hspoken : t.spoken = s.spoken := by
    rcases step_spoken (a := .follow) h with ⟨heq, -⟩ | ⟨body, next, htakes, -, -⟩
    · exact heq
    · cases htakes <;> simp_all
  have hother : ∀ other, other ≠ address → s.follower.holding ≠ some other := by
    intro other hne heq
    rw [hf] at heq
    exact hne (Option.some.inj heq).symm
  have hsaid := hspoken ▸ hs.said
  have hseen := hspoken ▸ hs.seen
  cases follows_of_follow h with
  | @looks _ document hdocument hf' =>
    cases hf.symm.trans hf'
    refine hs.keep hkept hseen hsaid (fun other document' heq => ?_) (fun other => ?_) nofun
    · cases heq
      rw [Newest, hspoken]
      exact hs.newest hdocument
    · by_cases hne : other = address
      · subst hne
        exact .inr (.inr (.inr (.inl ⟨document, rfl, hdocument⟩)))
      · exact (hs.due other).keep hkept id (by rw [hspoken]) (hother other hne)
  | passes hnone hf' =>
    cases hf.symm.trans hf'
    refine hs.keep hkept hseen hsaid nofun (fun other => ?_) nofun
    by_cases hne : other = address
    · subst hne
      refine .inr (.inr (.inr (.inr ?_)))
      rw [hspoken, hs.latest_eq_none hnone]
      exact hnone.symm
    · exact (hs.due other).keep hkept id (by rw [hspoken]) (hother other hne)
  | _ =>
    rename_i hf'
    cases hf.symm.trans hf'

/-- What judging a document comes to: it is the last one said for its address, by now or before. -/
structure Judged (s t : Sitting E) (address : E.ScopedIp) (document : String) : Prop where
  seen : t.scan.log.seen = Function.update s.scan.log.seen address (some (Log.hash document))
  events : t.events = s.events
  holding : t.follower.holding = none
  drained : t.follower.drained = false
  last : latest Body.said address t.spoken = some document
  said : ∀ other, ∀ one ∈ Sequence.said Body.said other t.spoken, one ∈ s.past other
  others : ∀ other, other ≠ address →
    Sequence.said Body.said other t.spoken = Sequence.said Body.said other s.spoken

theorem follow_judged {document : String} (hs : s.Converging)
    (hf : s.follower = .judging address document) (h : s.follow = some t) :
    s.Judged t address document := by
  have hdocument := (hs.judging address document hf).1
  have hspoken : s.spoken = s.scan.log.entries.filterMap Event.body := by
    simp only [spoken, hf, Follower.pending, List.append_nil]
  have hsaid := hs.said
  have hlast := hs.seen address
  rw [hspoken] at hsaid hlast
  cases follows_of_follow h with
  | knows hseen hf' =>
    cases hf.symm.trans hf'
    -- the last document said for the address has this hash, so it is this document
    obtain ⟨last, hlast, hhash⟩ := Option.map_eq_some_iff.mp (hlast.symm.trans hseen)
    have hmem := hsaid address last (List.mem_of_getLast? hlast)
    refine ⟨rfl, rfl, rfl, rfl, ?_, ?_, ?_⟩ <;>
      simp only [spoken, hf, Follower.pending, List.append_nil, Log.changed_entries]
    · rw [hlast, hs.eq_of_hash hmem hdocument hhash]
    · exact hsaid
    · exact fun _ _ => trivial
  | learns hseen hf' =>
    cases hf.symm.trans hf'
    have hkey : Body.said (.host ⟨address, document⟩) = some (address, document) := rfl
    refine ⟨rfl, rfl, rfl, rfl, ?_, ?_, ?_⟩ <;>
      simp only [spoken, hf, Follower.pending, List.append_nil, Log.changed_entries]
    · rw [latest, said_append_self hkey, List.getLast?_concat]
    · intro other one hone
      by_cases hne : other = address
      · subst hne
        rw [said_append_self hkey, List.mem_append, List.mem_singleton] at hone
        rcases hone with hone | rfl
        · exact hsaid other one hone
        · exact hdocument
      · rw [said_append_of_ne hkey (Ne.symm hne)] at hone
        exact hsaid other one hone
    · intro other hne
      rw [said_append_of_ne hkey hne.symm]
  | _ =>
    rename_i hf'
    cases hf.symm.trans hf'

theorem follow_judging {document : String} (hs : s.Converging)
    (hf : s.follower = .judging address document) (h : s.follow = some t) : t.Converging := by
  have hkept := follow_kept h
  have hjudged := follow_judged hs hf h
  refine hs.keep hkept (fun other => ?_) hjudged.said (fun other one heq => ?_) (fun other => ?_)
    (fun hd => by rw [hjudged.drained] at hd; cases hd)
  · rw [hjudged.seen]
    by_cases hne : other = address
    · subst hne
      rw [Function.update_self, hjudged.last]
      rfl
    · rw [Function.update_of_ne hne, hs.seen other, latest, latest, hjudged.others other hne]
  · have := hjudged.holding
    rw [heq] at this
    cases this
  · by_cases hne : other = address
    · subst hne
      rcases hs.due other with howed | hqueued | hf' | ⟨document', hf', hcurrent⟩ | hsaid
      · exact .inl (hkept.owed ▸ howed)
      · exact .inr (.inl (hjudged.events ▸ hqueued))
      · rw [hf] at hf'
        cases hf'
      · rw [hf] at hf'
        cases hf'
        refine .inr (.inr (.inr (.inr ?_)))
        rw [hjudged.last, hkept.documentOf, hcurrent]
      · -- the store's document was said before, and the one just judged is no earlier
        refine .inr (.inr (.inr (.inr ?_)))
        obtain ⟨hmem, hnewest⟩ := hs.judging other document hf
        rw [hjudged.last, hkept.documentOf, ← hsaid]
        cases hlast : latest Body.said other s.spoken with
        | none =>
          rw [hlast, hs.current, eq_comm, List.getLast?_eq_none_iff] at hsaid
          rw [hsaid] at hmem
          cases hmem
        | some last =>
          rw [hlast, hs.current] at hsaid
          rw [eq_last (hs.nodup other) hsaid.symm hmem (hnewest last (List.mem_of_getLast? hlast))]
    · refine (hs.due other).keep hkept (fun hq => hjudged.events ▸ hq) ?_ ?_
      · rw [latest, latest, hjudged.others other hne]
      · rw [hf]
        exact fun heq => hne (Option.some.inj heq).symm

theorem follow_said (h : s.follow = some t) (address : E.ScopedIp)
    (hf : ∀ document, s.follower ≠ .judging address document) :
    Sequence.said Body.said address t.spoken = Sequence.said Body.said address s.spoken := by
  rcases step_spoken (a := .follow) h with ⟨heq, -⟩ | ⟨body, next, htakes, heq, -⟩
  · rw [heq]
  · rw [heq]
    cases htakes with
    | host address' document hjudging =>
      by_cases hne : address' = address
      · exact absurd (hne ▸ hjudging) (hf document)
      · have hkey : Body.said (.host ⟨address', document⟩) = some (address', document) := rfl
        rw [said_append_of_ne hkey hne]
    | _ => rw [said_append_of_none rfl]

theorem follow_hears {event : Engine.ScanEvent E.ScopedIp} {rest : List (Engine.ScanEvent E.ScopedIp)}
    (hs : s.Converging) (hevents : s.events = event :: rest) (hf : s.follower = .draining)
    (h : s.follow = some { s with events := rest, follower := heard event }) :
    Converging { s with events := rest, follower := heard event } := by
  have hkept := follow_kept h
  have hsaid := fun address => follow_said h address (by simp [hf])
  have hfrom : s.follower.holding = none := by rw [hf]; rfl
  cases event with
  | hostUpdated address =>
    refine hs.keep hkept (fun other => ?_) (fun other => ?_) (fun other document hf => by cases hf)
      (fun other => ?_) (fun hd => by cases hd)
    · rw [latest, hsaid]
      exact hs.seen other
    · rw [hsaid]
      exact hs.said other
    · by_cases hne : other = address
      · subst hne
        exact .inr (.inr (.inl rfl))
      · refine (hs.due other).keep hkept (fun hq => ?_) (by rw [latest, latest, hsaid]) ?_
        · rw [hevents] at hq
          exact List.mem_of_ne_of_mem (fun heq => hne (by cases heq; rfl)) hq
        · rw [hfrom]
          exact (Option.some_ne_none other).symm
  | _ =>
    refine hs.quiet hkept rfl hsaid hfrom rfl (fun other hq => ?_) (fun hd => by cases hd)
    rw [hevents] at hq
    exact (List.mem_cons.mp hq).resolve_left (fun heq => by cases heq)

theorem follow_converging (hs : s.Converging) (h : s.follow = some t) : t.Converging := by
  have hkept := follow_kept h
  have hdrained := hs.drained
  cases follows_of_follow h with
  | looks _ hf | passes _ hf => exact follow_looking hs hf h
  | knows _ hf | learns _ hf => exact follow_judging hs hf h
  | hears hevents hf => exact follow_hears hs hevents hf h
  | joins hempty hhung hf =>
    exact hs.quiet hkept rfl (fun address => follow_said h address (by simp [hf])) (by rw [hf]; rfl) rfl
      (fun _ hq => hq) fun _ => ⟨hhung, hempty⟩
  | @notifies next hf =>
    have hsaid := fun address => follow_said h address (by simp [hf])
    cases next with
    | closing =>
      exact hs.quiet hkept rfl hsaid (by rw [hf]; rfl) rfl (fun _ hq => hq) fun _ =>
        hdrained (by rw [hf]; rfl)
    | _ => exact hs.quiet hkept rfl hsaid (by rw [hf]; rfl) rfl (fun _ hq => hq) nofun
  | @pushes body next hf =>
    have hsaid := fun address => follow_said h address (by simp [hf])
    apply hs.quiet hkept rfl hsaid (by rw [hf]; rfl) rfl (fun _ hq => hq)
    intro hd
    apply hdrained
    cases next <;> first | rw [hf]; rfl | cases hd
  | _ =>
    rename_i hf
    have hsaid := fun address => follow_said h address (by simp [hf])
    apply hs.quiet hkept rfl hsaid (by rw [hf]; rfl) rfl (fun _ hq => hq)
    intro hd
    apply hdrained
    first | rw [hf]; rfl | cases hd

/-! ## The engine's steps -/

theorem past_update (s : Sitting E) (host : E.Host) (address : E.ScopedIp) :
    s.past address <+: Function.update s.past (E.scopedIp host) (s.pastWith host) address := by
  by_cases hne : address = E.scopedIp host
  · subst hne
    rw [Function.update_self]
    exact List.prefix_append _ _
  · simp only [Function.update_of_ne hne, List.prefix_refl]

theorem update_stored {host : E.Host}
    (hs : ∀ address, s.scan.documentOf address = (s.past address).getLast?) {document : String}
    (hdocument : E.document s.scan.redaction host = some document) (address : E.ScopedIp) :
    Scan.documentOf { s.scan with hosts := s.scan.hosts.put host } address =
      (Function.update s.past (E.scopedIp host) (s.pastWith host) address).getLast? := by
  by_cases hne : address = E.scopedIp host
  · subst hne
    rw [Function.update_self, pastWith, Scan.documentOf_put_self, hdocument]
    split_ifs with hsame
    · rw [List.append_nil, ← hs, hsame]
    · rw [Option.toList_some, List.getLast?_concat]
  · rw [Function.update_of_ne hne, Scan.documentOf_put_of_ne _ hne]
    exact hs address

theorem update_converging {host : E.Host} (hs : s.Converging) (hP : Orderly s (.update host))
    (h : s.step (.update host) = some t) : t.Converging := by
  obtain ⟨hopen, document, hdocument, hnew⟩ := hP
  cases h
  have hpast := past_update s host
  refine ⟨fun address => ?_, update_stored hs.current hdocument, fun stored hmem => ?_, hs.seen, ?_, ?_,
    fun address => ?_, fun hhung => ?_, fun hd => ?_⟩
  · dsimp only
    by_cases hne : address = E.scopedIp host
    · subst hne
      rw [Function.update_self, pastWith, hdocument]
      split_ifs with hsame
      · rw [List.append_nil]
        exact hs.distinct _
      · have hnew := hnew.resolve_left hsame
        rw [Option.toList_some, List.map_append, List.nodup_append]
        refine ⟨hs.distinct _, by simp, ?_⟩
        rintro one hone other hother rfl
        simp only [List.map_cons, List.map_nil, List.mem_singleton] at hother
        obtain ⟨earlier, hearlier, rfl⟩ := List.mem_map.mp hone
        exact hnew earlier hearlier hother
    · rw [Function.update_of_ne hne]
      exact hs.distinct address
  · rcases Keyed.mem_put.mp hmem with rfl | ⟨hmem, -⟩
    · rw [hdocument]
      rfl
    · exact hs.serialises stored hmem
  · exact fun address one hone => (hpast address).subset (hs.said address one hone)
  · intro address one hf
    obtain ⟨hmem, hnewest⟩ := hs.judging address one hf
    refine ⟨(hpast address).subset hmem, fun earlier hearlier => ?_⟩
    show (Function.update s.past _ _ address).idxOf earlier ≤ (Function.update s.past _ _ address).idxOf one
    rw [idxOf_of_initial (hpast address) hmem,
      idxOf_of_initial (hpast address) (hs.said address earlier hearlier)]
    exact hnewest earlier hearlier
  · by_cases hne : address = E.scopedIp host
    · exact .inl (List.mem_cons.mpr (.inl hne))
    · rcases hs.due address with howed | hdue
      · exact .inl (List.mem_cons_of_mem _ howed)
      · rw [Due]
        dsimp only
        rw [Scan.documentOf_put_of_ne _ hne]
        exact .inr hdue
  · rw [show s.hungUp = true from hhung] at hopen
    cases hopen
  · rw [(hs.drained hd).1] at hopen
    cases hopen

theorem announce_converging {event : Engine.ScanEvent E.ScopedIp} (hs : s.Converging)
    (h : s.step (.announce event) = some t) : t.Converging := by
  cases steps_of_step h with | announces event hopen =>
  have hopen : s.hungUp ≠ true := by rw [hopen]; nofun
  refine ⟨hs.distinct, hs.current, hs.serialises, hs.seen, hs.said, hs.judging, fun address => ?_,
    fun hhung => absurd hhung hopen, fun hd => absurd (hs.drained hd).1 hopen⟩
  rcases hs.due address with howed | hqueued | hdue
  · cases event with
    | hostUpdated announced =>
      by_cases hne : address = announced
      · subst hne
        exact .inr (.inl (List.mem_append_right _ (List.mem_singleton_self _)))
      · exact .inl (List.mem_filter.mpr ⟨howed, by simpa using hne⟩)
    | _ => exact .inl howed
  · exact .inr (.inl (List.mem_append_left _ hqueued))
  · exact .inr (.inr hdue)

theorem step_converging (hP : Orderly s a) (h : s.step a = some t) (hs : s.Converging) :
    t.Converging := by
  cases steps_of_step h with
  | updates host => exact update_converging hs hP h
  | announces event => exact announce_converging hs h
  | follows => exact follow_converging hs h
  | lags => exact hP.elim
  | raises i =>
    refine ⟨hs.distinct, fun address => ?_, fun host hmem => hs.serialises host (Keyed.mem_raise.mp hmem),
      hs.seen, hs.said, hs.judging, fun address => ?_, hs.hung, hs.drained⟩
    · rw [Scan.documentOf_raise]
      exact hs.current address
    · have hdue := hs.due address
      simp only [Due, Scan.documentOf_raise] at hdue ⊢
      exact hdue
  | hangsUp =>
    exact ⟨hs.distinct, hs.current, hs.serialises, hs.seen, hs.said, hs.judging, hs.due, fun _ => hP,
      fun hd => ⟨rfl, (hs.drained hd).2⟩⟩
  | spawns slot hf =>
    have hspoken : s.scan.log.entries.filterMap Event.body ++ [] = s.spoken := by
      rw [spoken, hf]
      rfl
    refine ⟨hs.distinct, hs.current, hs.serialises, fun address => ?_, fun address => ?_,
      (fun _ _ hf => by cases hf), fun address => ?_, hs.hung, (fun hd => by cases hd)⟩
    · rw [hs.seen address, ← hspoken]
      rfl
    · have := hs.said address
      rw [← hspoken] at this
      exact this
    · rcases hs.due address with howed | hqueued | hf' | ⟨document, hf', -⟩ | hsaid
      · exact .inl howed
      · exact .inr (.inl hqueued)
      · rw [hf] at hf'
        cases hf'
      · rw [hf] at hf'
        cases hf'
      · rw [← hspoken] at hsaid
        exact .inr (.inr (.inr (.inr hsaid)))
  | _ =>
    exact ⟨hs.distinct, hs.current, hs.serialises, hs.seen, hs.said, hs.judging, hs.due, hs.hung,
      hs.drained⟩

theorem step_past (h : s.step a = some t) (address : E.ScopedIp) : s.past address <+: t.past address := by
  cases steps_of_step h with
  | updates host => exact past_update s host address
  | follows =>
    simp only [(follow_kept h).past, List.prefix_refl]
  | _ => exact List.prefix_refl _

/-! ## Over whole runs -/

theorem fresh_converging (id : String) (progress : Engine.Progress) (redaction : Redaction) :
    (fresh id progress redaction : Sitting E).Converging where
  distinct _ := .nil
  current _ := rfl
  serialises := nofun
  seen _ := rfl
  said := nofun
  judging := nofun
  due _ := .inr (.inr (.inr (.inr rfl)))
  hung := nofun
  drained := nofun

section runs
variable {id : String} {progress : Engine.Progress} {redaction : Redaction}

theorem reach_converging (h : (machine E).Reach Orderly (fresh id progress redaction) s) :
    s.Converging :=
  h.invariant (I := Converging) (fresh_converging id progress redaction) fun _ hs hP hstep =>
    step_converging hP hstep hs

/-- **Once the log is closed the last document in it of an address is the store's.** -/
theorem Converging.latest_of_shut (hs : s.Converging) (hshut : s.follower.shut = true)
    (address : E.ScopedIp) :
    latest Event.said address s.scan.log.entries = s.scan.documentOf address := by
  have hdrained : s.follower.drained = true := by
    cases hf : s.follower <;> simp_all [Follower.shut, Follower.drained]
  obtain ⟨hhung, hempty⟩ := hs.drained hdrained
  have hspoken : latest Event.said address s.scan.log.entries = latest Body.said address s.spoken := by
    rw [spoken, Follower.pending_of_shut hshut, List.append_nil, latest, latest, said_filterMap]
    rfl
  rw [hspoken]
  rcases hs.due address with howed | hqueued | hf | ⟨document, hf, -⟩ | hsaid
  · rw [hs.hung hhung] at howed
    cases howed
  · rw [hempty] at hqueued
    cases hqueued
  · rw [hf] at hshut
    cases hshut
  · rw [hf] at hshut
    cases hshut
  · exact hsaid

end runs

end Sitting

end ZondDaemon
