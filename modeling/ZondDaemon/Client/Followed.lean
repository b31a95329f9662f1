import ZondDaemon.Client.Zond
import ZondDaemon.Daemon.Slots
import ZondDaemon.Scans.Reconnect
import ZondDaemon.Server.Watched

/-!
# A client that follows a scan to its end

What `examples/scan.ts` does with the events of `watch(id, 0, …)`: it keeps the latest document of each host. Once
its promise resolves, what it has kept is what the daemon has: every host of the scan's store as it was left, or
every host of the record (`followed`). So it is in every run whose scans are read as `Live.Settled` has it, where
the engine announces what it changes and no scan is closed behind a reader's back.
-/

namespace ZondDaemon

open Proto
open Sequence (said latest)

variable {E : Engine}

/-! ## A watch that is lost -/

namespace Live

variable {l m : Live E} {a : Act E} {i : Nat} {w : Watch E}

theorem lost_of_step (h : l.step a = some m) (hlost : m.clients i = .lost w) :
    a = .lose i ∨ l.clients i = .lost w := by
  have hset : ∀ {k : Nat} {c : Client E}, m = l.set k c → (k = i → ∀ v, c ≠ .lost v) →
    l.clients i = .lost w := by
    rintro k c rfl hne
    by_cases hk : i = k
    · subst hk
      rw [clients_set_self] at hlost
      exact absurd hlost (hne rfl w)
    · rwa [clients_set_ne hk] at hlost
  cases a with
  | sitting act =>
    obtain ⟨sitting, -, rfl⟩ := Option.map_eq_some_iff.mp h
    exact .inr hlost
  | after k cursor | watch k fromSeq =>
    simp only [step] at h
    split at h <;> cases h
    exact .inr (hset rfl (by simp))
  | client k =>
    obtain ⟨c, hc, rfl⟩ := Option.map_eq_some_iff.mp h
    refine .inr (hset rfl fun _ v hv => ?_)
    cases hclient : l.clients k with
    | idle | lost =>
      rw [hclient] at hc
      cases hc
    | after | watch =>
      rw [hclient] at hc
      obtain ⟨x, -, rfl⟩ := Option.map_eq_some_iff.mp hc
      cases hv
  | lose k =>
    by_cases hk : k = i
    · exact .inl (hk ▸ rfl)
    · simp only [step] at h
      split at h <;> cases h
      exact .inr (hset rfl fun heq => absurd heq hk)

end Live

namespace Daemon

variable {rules : Rules E} {d d' : Daemon E} {a : Act E} {i j : Nat} {l : Live E} {w : Watch E}

theorem lost_of_step (h : d.step rules a = some d') (hl : d'.scans[j]? = some l)
    (hlost : l.clients i = .lost w) :
    a = .scan j (.lose i) ∨ ∃ m : Live E, d.scans[j]? = some m ∧ m.clients i = .lost w := by
  rcases (moves_scans (moves_of_step h)).before hl with hl | ⟨m, act, hm, hact, hwhich⟩ |
    ⟨-, call, s, slot, -, -, rfl⟩
  · exact .inr ⟨l, hl, hlost⟩
  · rcases Live.lost_of_step hact hlost with rfl | hwas
    · rcases hwhich with rfl | ⟨slot, heq⟩ | ⟨k, name, fromSeq, -, heq⟩
      · exact .inl rfl
      · cases heq
      · cases heq
    · exact .inr ⟨m, hm, hwas⟩
  · cases hlost

end Daemon

namespace Stdio

theorem Views.aborted {serde : Serde E.F64} {t : Nat} {a a' : Answering E} {act : Option Act}
    {frames : List Frame}
    (h : Views serde t a act a' frames) (ha : a.pc = .aborted) : a'.pc = .aborted := by
  obtain ⟨request, pc⟩ := a
  obtain rfl : pc = .aborted := ha
  cases h with
  | rests | aborts => rfl
  | proceeds hstep => cases hstep
  | replies hstep => cases hstep
  | writes _ hw => cases hw
  | flushes hw => cases hw

end Stdio

namespace Server

variable {o : Outside E} {rules : Rules E} {s : Server E} {d d' : Daemon E} {who : Nat × Nat} {link : Link E}
  {a : Stdio.Answering E}

/-- A watch is lost only with its task. -/
def Held (d : Daemon E) (who : Nat × Nat) (link : Link E) (a : Stdio.Answering E) : Prop :=
  ∀ (j : Nat) (l : Live E) (w : Watch E), link = .live j → d.scans[j]? = some l →
    l.clients (client who) = .lost w → a.pc = .aborted

theorem Held.kept {act : Option (Daemon.Act E)} (h : Held d who link a)
    (hd : perhaps (Daemon.step rules) d act = some d') (hact : ∀ j, act ≠ some (.scan j (.lose (client who)))) :
    Held d' who link a := by
  intro j l w hlink hl hlost
  rcases perhaps_eq_some.mp hd with ⟨-, rfl⟩ | ⟨one, rfl, hstep⟩
  · exact h j l w hlink hl hlost
  · rcases Daemon.lost_of_step hstep hl hlost with rfl | ⟨m, hm, hwas⟩
    · exact absurd rfl (hact j)
    · exact h j m w hlink hm hwas

theorem watchAct_ne (who : Nat × Nat) (link : Link E) (j i : Nat) :
    watchAct who link ≠ some (.scan j (.lose i)) := by
  cases link <;> simp [watchAct]

theorem held_finds {id : String} {fromSeq j : Nat} (hget : d.get rules id = .ok (.live j))
    (hd : d.step rules (.watch (client who) id fromSeq) = some d') : Held d' who (.live j) a := by
  intro k l w hlink hl hlost
  cases hlink
  rcases Daemon.lost_of_step hd hl hlost with heq | ⟨m, hm, hwas⟩
  · cases heq
  · simp only [Daemon.step, Daemon.watch, hget, hm, Option.bind_some, Live.step, hwas] at hd
    cases hd

theorem Held.turn {act : Task E} {x : Deal E} {a' : Stdio.Answering E} {frames : List Stdio.Frame}
    (h : Held d who link a) (hdeal : Deals o rules d who link a act x)
    (hd : perhaps (Daemon.step rules) d x.act = some d')
    (hviews : Stdio.Views o.serde who.2 a x.said a' frames) : Held d' who x.link a' := by
  have hkeeps : (∀ j, x.act ≠ some (.scan j (.lose (client who)))) → Held d' who link a' :=
    fun hact j l w hlink hl hlost => hviews.aborted (h.kept hd hact j l w hlink hl hlost)
  cases hdeal with
  | proceeds | writes => exact hkeeps fun _ => by simp
  | follows | flushes | watches => exact hkeeps fun j => watchAct_ne who link j _
  | aborts =>
    cases hviews
    exact fun _ _ _ _ _ _ => rfl
  | finds _ _ hget => exact held_finds hget hd
  | calls | misses | opens | begins | looks | answers => exact fun _ _ _ hlink => by cases hlink

theorem reach_held {P : Server E → Act E → Prop} {store : Except EngineError (List (Entry E.toEngineTypes))}
    (h : (machine o rules).Reach P (fresh store) s) (ha : s.task who = some a) :
    Held s.daemon who (s.links who) a := by
  refine each_of_reach (I := fun d who link a _ => Held d who link a) .refl
    (fun _ _ hnone => by cases hnone) ?_ ?_
    ?_ ?_ h ha
  · exact fun _ _ _ _ _ _ hlink => by cases hlink
  · intro d d' who link a frames act _ hd hact hheld
    have hperhaps : perhaps (Daemon.step rules) d (some act) = some d' := hd
    refine hheld.kept hperhaps fun j heq => hact ?_
    cases heq
    rfl
  · intro d d' who link a a' frames more act x _ hdeal hd hviews hheld
    exact hheld.turn hdeal hd hviews
  · exact fun _ _ _ _ _ _ _ _ _ _ => rfl

end Server

/-! ## What the events say -/

namespace Client

/-- The text under a name. -/
def textOf (json : Json) (name : String) : Option String :=
  match json.member name with
  | some (.string text) => some text
  | _ => none

/-- What `hosts.set` is given of an event that has a host. -/
def hostOf (event : Json) : Option (String × String) :=
  (event.member "host").bind fun host =>
    (textOf host "address").bind fun address => (textOf host "document").map fun document => (address, document)

/-- The document kept of each host, the last there was. -/
def hosts (events : List Json) (address : String) : Option String := latest hostOf address events

theorem written_body {seq : Nat} {body : Body String} {value : Json}
    (h : Event.write ⟨seq, some body⟩ = some value) :
    ∃ told, body.write = some told ∧ value = .object [("seq", .number (.posInt seq)), (body.name, told)] := by
  obtain ⟨members, hmembers, rfl⟩ := Option.map_eq_some_iff.mp h
  change ((body.write).bind fun told => some [(body.name, told)]).map
    (("seq", Json.number (.posInt seq)) :: ·) =
    some members at hmembers
  obtain ⟨rest, hrest, rfl⟩ := Option.map_eq_some_iff.mp hmembers
  obtain ⟨told, htold, hrest⟩ := Option.bind_eq_some_iff.mp hrest
  cases hrest
  exact ⟨told, htold, rfl⟩

theorem member_host {seq : Nat} {body : Body String} {told : Json} :
    (Json.object [("seq", .number (.posInt seq)), (body.name, told)]).sorted.member "host" =
      if body.name = "host" then some told.sorted else none := by
  have hne : body.name ≠ "seq" := by cases body <;> simp [Body.name]
  rw [Json.member_sorted (by simpa using Ne.symm hne)]
  split_ifs with hname <;> simp [Json.member, hname]

theorem textOf_sorted {members : List (String × Json)} {name text : String} (h : (members.map Prod.fst).Nodup)
    (hmem : (name, .string text) ∈ members) : textOf (Json.object members).sorted name = some text := by
  rw [textOf, Json.member_sorted h, (Json.member_eq_some h).mpr hmem]
  rfl

theorem hostOf_spoken {o : Outside E} {event : Event E.ScopedIp} {spoken : Stdio.Spoken}
    (h : o.spoken event = some spoken) :
    hostOf spoken.json = event.said.map fun told => (o.shown told.1, told.2) := by
  obtain ⟨json, hjson, rfl⟩ := Option.map_eq_some_iff.mp h
  obtain ⟨value, hvalue, rfl⟩ := Option.map_eq_some_iff.mp hjson
  obtain ⟨seq, body⟩ := event
  cases body with
  | none =>
    obtain rfl : Json.object [("seq", .number (.posInt seq))] = value := Option.some.inj hvalue
    have hnone : (Json.object [("seq", .number (.posInt seq))]).sorted.member "host" = none := by
      rw [Json.member_sorted (by simp)]
      simp [Json.member]
    rw [hostOf, hnone]
    rfl
  | some body =>
    obtain ⟨told, htold, rfl⟩ := written_body hvalue
    rw [hostOf, member_host]
    cases body with
    | host changed =>
      obtain rfl : Json.object [("address", .string (o.shown changed.address)),
        ("document", .string changed.document)] =
        told := Option.some.inj htold
      have hname : (Body.shown o.shown (.host changed)).name = "host" := rfl
      rw [if_pos hname, Option.bind_some,
        @textOf_sorted _ "address" (o.shown changed.address) (by simp) (by simp),
        @textOf_sorted _ "document" changed.document (by simp) (by simp)]
      rfl
    | stage | progress | failure | finished =>
      rw [if_neg (by simp [Body.shown, Body.name])]
      rfl

theorem written_of_mem {o : Outside E} {id : Json} {frame : Stdio.Frame} {written : List (Frame E)}
    {frames : List Stdio.Frame} (h : List.Forall₂ (Server.Written o id) written frames)
    (hframe : frame ∈ frames) :
    ∃ one ∈ written, Server.Written o id one frame := by
  induction h with
  | nil => cases hframe
  | cons hone _ ih =>
    rcases List.mem_cons.mp hframe with rfl | hrest
    · exact ⟨_, List.mem_cons_self, hone⟩
    · obtain ⟨other, hother, hwritten⟩ := ih hrest
      exact ⟨other, List.mem_cons_of_mem _ hother, hwritten⟩

theorem said_written {o : Outside E} {id : Json} (hshown : Function.Injective o.shown) (address : E.ScopedIp)
    {written : List (Frame E)} {frames : List Stdio.Frame}
    (h : List.Forall₂ (Server.Written o id) written frames) :
    ∀ w : Watch E, w.written = written →
      said hostOf (o.shown address) (frames.filterMap Stdio.Frame.told) = said Event.said address w.events := by
  induction h with
  | nil =>
    rintro w hw
    simp [Watch.events, hw, said]
  | @cons one frame rest frames hone _ ih =>
    intro w hw
    have hrest := ih { w with written := rest } rfl
    cases one with
    | event event =>
      obtain ⟨spoken, hspoken, rfl⟩ := hone
      have hevents : w.events = event :: ({ w with written := rest } : Watch E).events := by
        simp [Watch.events, hw]
      have htold : (Stdio.Frame.event id spoken.json :: frames).filterMap Stdio.Frame.told =
          spoken.json :: frames.filterMap Stdio.Frame.told := rfl
      rw [hevents, htold, said, said, List.filterMap_cons, List.filterMap_cons, ← said, ← said, hrest,
        hostOf_spoken hspoken]
      cases hsaid : event.said with
      | none => rfl
      | some told =>
        obtain ⟨other, document⟩ := told
        by_cases hother : other = address
        · simp [hother]
        · simp [hother, hshown.eq_iff]
    | ended =>
      obtain rfl : frame = .ended id := hone
      have hevents : w.events = ({ w with written := rest } : Watch E).events := by
        simp [Watch.events, hw]
      rw [hevents, ← hrest]
      rfl

end Client

namespace Watch

variable {w : Watch E} {events : List (Event E.ScopedIp)} {left : List (Frame E)}

theorem events_of_over (h : w.written ++ left = events.map .event ++ [.ended])
    (hover : Frame.ended ∈ w.written) : w.events = events := by
  have hnot : Frame.ended ∉ events.map (Frame.event (E := E)) := by simp
  rcases List.append_eq_append_iff.mp h with ⟨rest, hrest, -⟩ | ⟨rest, hrest, hleft⟩
  · rw [hrest] at hnot
    exact absurd (List.mem_append_left _ hover) hnot
  · have hlast : rest = [.ended] := by
      rcases List.singleton_eq_append_iff.mp hleft with ⟨hnil, -⟩ | ⟨hlast, -⟩
      · rw [hrest, hnil, List.append_nil] at hover
        exact absurd hover hnot
      · exact hlast
    simp [Watch.events, hrest, hlast]

end Watch

/-! ## Over whole runs -/

namespace Daemon

/-- A step of a live scan is one its readers can do with. -/
def Settled (d : Daemon E) : Act E → Prop
  | .scan j act => ∀ l : Live E, d.scans[j]? = some l → Live.Settled l act
  | _ => True

theorem begun_of_settled {rules : Rules E} {store : Except EngineError (List (Entry E.toEngineTypes))}
    {d : Daemon E} {j : Nat} {l : Live E} (h : (machine rules).Reach Settled (fresh store) d)
    (hl : d.scans[j]? = some l) :
    Begun Live.Settled l :=
  scan_reach (fun _ _ l _ hP hl => hP l hl) (fun _ _ => ⟨trivial, trivial⟩)
    (fun _ _ _ _ _ _ => ⟨trivial, trivial⟩) h hl

section plain
variable {n : Nat} {rules : Rules Plain.engine} {d : Daemon Plain.engine} {a : Act Plain.engine} {j : Nat}
  {l : Live Plain.engine} {store : Except EngineError (List (Entry Plain.engine.toEngineTypes))}

/-- What `Settled` asks, decided, where the clients of a scan are the first `n`. -/
def settles (n : Nat) (d : Daemon Plain.engine) : Act Plain.engine → Bool
  | .scan j act => (d.scans[j]?).all fun l => Live.orderly l act && Live.unhurried n l act
  | .watch i _ _ => i < n
  | _ => true

theorem settles_sound (hidle : ∀ (j : Nat) (l : Live Plain.engine), d.scans[j]? = some l →
    ∀ i, n ≤ i → l.clients i = .idle) (h : settles n d a = true) : Settled d a := by
  cases a with
  | scan j act =>
    intro l hl
    simp only [settles, hl, Option.all_some, Bool.and_eq_true] at h
    exact ⟨Live.orderly_sound l act h.1, Live.unhurried_sound (hidle j l hl) h.2⟩
  | _ => trivial

theorem idle_of_settles (h : (machine rules).Reach (fun d a => settles n d a = true) (fresh store) d)
    (hl : d.scans[j]? = some l) : ∀ i, n ≤ i → l.clients i = .idle := by
  have hown : ∀ (d : Daemon Plain.engine) (j : Nat) (l : Live Plain.engine) (act : Live.Act Plain.engine),
      settles n d (.scan j act) = true → d.scans[j]? = some l → Live.unhurried n l act = true := by
    intro d j l act hP hl
    simp only [settles, hl, Option.all_some, Bool.and_eq_true] at hP
    exact hP.2
  obtain ⟨id, progress, redaction, hreach⟩ := scan_reach (Q := fun l act => Live.unhurried n l act = true) hown
    (fun _ _ => rfl) (fun _ _ _ _ _ hP => hP) h hl
  exact Live.idle_of_le (fun _ _ hP => hP) hreach

end plain

end Daemon

namespace Server

variable {o : Outside E} {rules : Rules E} {s : Server E} {who : Nat × Nat} {a : Stdio.Answering E}
  {name : String} {store : Except EngineError (List (Entry E.toEngineTypes))}

/-- The engine announces what it changes, and no scan is closed behind a reader's back. -/
def Settled (o : Outside E) (rules : Rules E) (s : Server E) (act : Act E) : Prop :=
  ∀ a, s.does o rules act = some a → s.daemon.Settled a

/-- The documents there are under a name: those in the store of a live scan that is over, or those of a record. -/
inductive Documents (rules : Rules E) (store : Except EngineError (List (Entry E.toEngineTypes))) (d : Daemon E)
    (name : String) : (E.ScopedIp → Option String) → Prop
  | live {j : Nat} {l : Live E} : d.scans[j]? = some l → l.sitting.scan.id = name → l.log.closed = true →
      Documents rules store d name l.sitting.scan.documentOf
  | recorded {record : Recorded E} : Read rules store d name record →
      Documents rules store d name fun address => latest Event.said address record.hosts

theorem documents_of_along {w : Watch E} (h : (machine o rules).Reach (Settled o rules) (fresh store) s)
    (ha : s.task who = some a) (hnever : a.pc ≠ .aborted)
    (hwatching : watching s.daemon who (s.links who) = some w)
    (hname : nameOf s.daemon (s.links who) = some name) (hzero : w.fromSeq = 0)
    (hover : Frame.ended ∈ w.written) :
    ∃ documents, Documents rules store s.daemon name documents ∧
      ∀ address, latest Event.said address w.events = documents address := by
  have hdaemon : (Daemon.machine rules).Reach Daemon.Settled (.fresh store) s.daemon :=
    daemon_run (fun t act a hP hdoes => hP a hdoes) h
  cases hlink : s.links who with
  | none | call | look =>
    rw [hlink] at hwatching
    cases hwatching
  | live j =>
    rw [hlink] at hwatching hname
    obtain ⟨l, hl, hw⟩ := watching_live hwatching
    obtain ⟨l', hl', rfl⟩ := Option.map_eq_some_iff.mp hname
    cases hl.symm.trans hl'
    have hclient : l.clients (client who) = .watch w := by
      cases hclient : l.clients (client who) with
      | idle | after =>
        rw [hclient] at hw
        cases hw
      | watch v =>
        rw [hclient] at hw
        cases hw
        rfl
      | lost v => exact absurd (reach_held h ha j l v hlink hl hclient) hnever
    obtain ⟨id, progress, redaction, hbegun⟩ := Daemon.begun_of_settled hdaemon hl
    have horderly := hbegun.mono fun _ _ hP => hP.1
    obtain ⟨hclosed, hbegan, cursor, hupto, hpassed⟩ :=
      Live.upto_of_over (hbegun.mono fun _ _ hP => hP.2) hclient hover
    obtain ⟨-, -, caughtUp, hsnap, -⟩ := hbegan.resolve_right fun hbad => hbad.1 hzero
    have hdelivered := hupto.delivered (Live.reach_wellNumbered hbegun) hpassed hsnap
    exact ⟨_, .live hl rfl hclosed, Live.latest_of_delivered horderly hclosed hw hdelivered⟩
  | recorded k =>
    rw [hlink] at hwatching hname
    obtain ⟨v, hv, rfl⟩ := Option.map_eq_some_iff.mp hwatching
    obtain ⟨v', hv', rfl⟩ := Option.map_eq_some_iff.mp hname
    cases hv.symm.trans hv'
    obtain ⟨hfaithful, hread⟩ := reach_recorded (daemon_reach h) (List.mem_of_getElem? hv)
    obtain ⟨left, hleft⟩ := left_of_faithful hfaithful
    have hevents := Watch.events_of_over hleft hover
    rw [Recorded.answered, if_pos hzero] at hevents
    exact ⟨_, .recorded hread, fun address => by rw [hevents]⟩

theorem along_of_frame {d : Daemon E} {link : Link E} {frames : List Stdio.Frame} {frame : Stdio.Frame}
    {answer : Json} (h : Coupled o d who link a frames)
    (hasked : Stdio.asked o.serde a.request.method a.request.params = .ok (.watch name 0))
    (hframe : frame ∈ frames) (hlast : frame.terminal = true) (hok : frame.settles = .ok answer) :
    ∃ w, watching d who link = some w ∧ nameOf d link = some name ∧ w.fromSeq = 0 ∧ Frame.ended ∈ w.written ∧
      List.Forall₂ (Written o a.request.id) w.written frames := by
  have hrefused : ∀ other, Answers o a.request other → frame ≠ other := by
    rintro other hother rfl
    obtain ⟨refused, rfl⟩ := hother name 0 hasked
    cases hok
  cases h with
  | plain _ _ hplain =>
    exfalso
    cases hplain with
    | spawned | calling | framing => cases hframe
    | returned _ hother => exact hrefused _ hother (List.mem_singleton.mp hframe)
    | aborted _ htold =>
      rcases htold with rfl | ⟨other, rfl, hother⟩
      · cases hframe
      · exact hrefused _ hother (List.mem_singleton.mp hframe)
  | @along name' w hwatching hname halong =>
    have heq := hasked.symm.trans halong.asked
    simp only [Except.ok.injEq, Asked.watch.injEq] at heq
    obtain ⟨rfl, hzero⟩ := heq
    refine ⟨w, hwatching, hname, hzero.symm, ?_, halong.wrote⟩
    obtain ⟨one, hone, hwritten⟩ := Client.written_of_mem halong.wrote hframe
    cases one with
    | ended => exact hone
    | event event =>
      obtain ⟨spoken, -, rfl⟩ := hwritten
      cases hlast

/-- **A client that follows a scan to its end has what the daemon has**: once the promise of a `watch` from zero has
resolved, the documents the client has kept are those of the scan of that name as it was left, or those of its
record. -/
theorem followed {c t : Nat} {conn : Stdio.Connection E} {answer : Json} (before after : List Client.Move)
    {streams : Bool} (hshown : Function.Injective o.shown)
    (h : (machine o rules).Reach (Settled o rules) (fresh store) s) (hconn : s.connections[c]? = some conn)
    (hsevered : s.severed c = false) (hread : ∀ line ∈ conn.heard, Stdio.Readable line)
    (hnumbered : conn.Numbered) (ha : conn.answering[t]? = some a)
    (hwatch : Stdio.asked o.serde a.request.method a.request.params = .ok (.watch name 0))
    (hasked : before.countP Client.Move.asking = t) (hstreams : streams = decide (a.request.method = "watch"))
    (hbefore : ∀ frame ∈ before.filterMap Client.Move.heard, Client.idOf frame ≠ some (t + 1))
    (hheard : (before ++ .asks streams :: after).filterMap Client.Move.heard =
      conn.written.map fun w => w.2.toJson)
    (hsettled : ((Client.Zond.fresh.through (before ++ .asks streams :: after)).waits (t + 1)).settled =
      some (.ok answer)) :
    ∃ documents, Documents rules store s.daemon name documents ∧ ∀ address,
      Client.hosts ((Client.Zond.fresh.through (before ++ .asks streams :: after)).waits (t + 1)).events
        (o.shown address) = documents address := by
  obtain ⟨input, halways⟩ := connection_reach h hconn hsevered
  have hlegible := Stdio.Connection.reach_legible halways hread
  obtain ⟨hwaits, -⟩ := Stdio.Connection.waits_eq hlegible hnumbered ha hasked hstreams hbefore hheard
  rw [hwaits] at hsettled ⊢
  obtain ⟨frame, hfind, hok⟩ := Option.map_eq_some_iff.mp hsettled
  have htask : s.task (c, t) = some a := (task_eq hconn).trans ha
  have hcoupled := reach_coupled h htask
  rw [wrote_eq hconn] at hcoupled
  obtain ⟨w, hwatching, hname, hzero, hover, hwrote⟩ :=
    along_of_frame hcoupled hwatch (List.mem_of_find?_eq_some hfind) (List.find?_some hfind) hok
  have hnever : a.pc ≠ .aborted := by
    intro hpc
    have hdue := (Stdio.Connection.told hlegible ha).1
    rw [hpc] at hdue
    exact hdue
  obtain ⟨documents, hdocuments, hlatest⟩ :=
    documents_of_along h htask hnever hwatching hname hzero hover
  refine ⟨documents, hdocuments, fun address => ?_⟩
  rw [← hlatest address, Client.hosts, latest, latest, Client.said_written hshown address hwrote w rfl]

/-! ## A scan followed to its end -/

/-- What `Settled` asks, decided, where the clients of a scan are the first three. -/
def settles (s : Server Plain.engine) (act : Act Plain.engine) : Bool :=
  (s.does plainOutside Daemon.recording act).all (Daemon.settles 3 s.daemon)

theorem reach_settles {store : Except EngineError (List (Entry Plain.engine.toEngineTypes))}
    {s : Server Plain.engine}
    (h : (machine plainOutside Daemon.recording).Reach (fun s act => settles s act = true) (fresh store) s) :
    (machine plainOutside Daemon.recording).Reach (Settled plainOutside Daemon.recording) (fresh store) s := by
  refine h.weaken fun t act ht hcheck a hdoes => ?_
  have hdaemon : (Daemon.machine Daemon.recording).Reach (fun d a => Daemon.settles 3 d a = true) (.fresh store)
      t.daemon := by
    refine daemon_run (fun u act a hP hdoes => ?_) ht
    rwa [settles, hdoes, Option.all_some] at hP
  rw [settles, hdoes, Option.all_some] at hcheck
  exact Daemon.settles_sound (fun j l hl => Daemon.idle_of_settles hdaemon hl) hcheck

/-- A scan is started and finds a host; a client watches it, and it ends. -/
def followsOn : List (Act Plain.engine) := List.flatten [
  starts, (Daemon.finds 0 (1, "open 22")).map .daemon, watches, [.task 1 0 .proceed],
  (Daemon.untilOver 0 (.ok [(1, "open 22")])).map .daemon,
  List.replicate 4 (.task 1 0 .watch), [.task 1 0 .proceed],
  puts 1 0 (.event (.number (.posInt 1)) (.obj [
    ("finished", .obj [("cause", .string "STOP_CAUSE_COMPLETED")]), ("seq", .number (.posInt 2))])),
  [.task 1 0 .proceed], List.replicate 4 (.task 1 0 .watch), puts 1 0 (.ended (.number (.posInt 1)))]

/-- What the client that watches has been handed by the end. -/
def handedTo (conn : Stdio.Connection Plain.engine) : Client.Waiting :=
  (Client.Zond.fresh.through ([] ++ .asks true :: given conn)).waits (0 + 1)

def followerSeen (conn : Stdio.Connection Plain.engine) : Bool :=
  piped conn && ((conn.answering[0]?).any fun a => (asks a).bind about == some ("A", some 0)) &&
    ((handedTo conn).settled.any Except.isOk && Client.hosts (handedTo conn).events "1" == some "open 22")

def endSeen (s : Server Plain.engine) : Bool := !s.severed 1 && (s.connections[1]?).any followerSeen

theorem followsOn_seen :
    ((machine plainOutside Daemon.recording).runIf settles (fresh (.ok [])) followsOn).any endSeen = true := by
  decide +kernel

def toTheEnd : Server Plain.engine :=
  ((machine plainOutside Daemon.recording).runIf settles (fresh (.ok [])) followsOn).get
    (Option.isSome_of_any followsOn_seen)

theorem reach_toTheEnd : (machine plainOutside Daemon.recording).Reach (Settled plainOutside Daemon.recording)
    (fresh (.ok [])) toTheEnd :=
  reach_settles (.of_runIf (fun _ _ hcheck => hcheck)
    (Option.some_get (Option.isSome_of_any followsOn_seen)).symm)

theorem toTheEnd_seen : toTheEnd.severed 1 = false ∧ (toTheEnd.connections[1]?).any followerSeen = true := by
  have hseen : endSeen toTheEnd = true := Option.get_of_any_eq_true _ _ followsOn_seen
  rwa [endSeen, Bool.and_eq_true, Bool.not_eq_true'] at hseen

def follower : Stdio.Connection Plain.engine :=
  (toTheEnd.connections[1]?).get (Option.isSome_of_any toTheEnd_seen.2)

theorem follower_eq : toTheEnd.connections[1]? = some follower := (Option.some_get _).symm

theorem follower_seen : piped follower = true ∧
    ((follower.answering[0]?).any fun a => (asks a).bind about == some ("A", some 0)) = true ∧
    (handedTo follower).settled.any Except.isOk = true ∧
    Client.hosts (handedTo follower).events "1" = some "open 22" := by
  have hseen : followerSeen follower = true := Option.get_of_any_eq_true _ _ toTheEnd_seen.2
  simp only [followerSeen, Bool.and_eq_true] at hseen
  obtain ⟨⟨hpiped, hasks⟩, hsettled, hhost⟩ := hseen
  exact ⟨hpiped, hasks, hsettled, beq_iff_eq.mp hhost⟩

def followTask : Stdio.Answering Plain.engine :=
  (follower.answering[0]?).get (Option.isSome_of_any follower_seen.2.1)

theorem followTask_eq : follower.answering[0]? = some followTask := (Option.some_get _).symm

theorem followTask_asked :
    Stdio.asked plainOutside.serde followTask.request.method followTask.request.params =
      .ok (.watch "A" 0) := by
  have hseen : ((asks followTask).bind about == some ("A", some 0)) = true :=
    Option.get_of_any_eq_true _ _ follower_seen.2.1
  exact asked_watch (beq_iff_eq.mp hseen)

theorem follower_settled : ∃ answer, (handedTo follower).settled = some (.ok answer) := by
  obtain ⟨out, hout, hok⟩ := (Option.any_eq_true _ _).mp follower_seen.2.2.1
  cases out with
  | ok answer => exact ⟨answer, hout⟩
  | error refused => cases hok

/-- There the client has the host of the scan. -/
theorem followed_toTheEnd : Client.hosts (handedTo follower).events "1" = some "open 22" ∧
    ∃ documents, Documents Daemon.recording (.ok []) toTheEnd.daemon "A" documents ∧ ∀ address,
      Client.hosts ((Client.Zond.fresh.through ([] ++ .asks true :: given follower)).waits (0 + 1)).events
        (plainOutside.shown address) = documents address := by
  obtain ⟨hnumbered, hreadable, hmethod⟩ := numbered_of_piped follower_seen.1 followTask_eq
  obtain ⟨answer, hanswer⟩ := follower_settled
  unfold handedTo at hanswer
  have hdocuments := followed [] (given follower) (fun _ _ => Nat.repr_injective) reach_toTheEnd follower_eq
    toTheEnd_seen.1 hreadable hnumbered followTask_eq followTask_asked rfl hmethod idOf_none_before
      (heard_of_given _) hanswer
  exact ⟨follower_seen.2.2.2, hdocuments⟩

end Server

end ZondDaemon
