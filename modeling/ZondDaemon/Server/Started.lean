import ZondDaemon.Server.Got
import ZondDaemon.Server.Watched

/-!
# A scan that was named to a client

Once a client has been written the name of the scan it started, the scan is there under that name for every
request that comes in from then on, on any connection: a name is filed before it is answered (`Filing`) and is
never taken away, whatever the other connections do and whether the client that started it is still there.
-/

namespace ZondDaemon

open Proto

variable {E : Engine}

namespace Daemon

variable {rules : Rules E} {d d' : Daemon E} {a : Act E} {id : String}

theorem inner_step (h : d.step rules a = some d') (hid : (d.inner id).isSome) : (d'.inner id).isSome := by
  have hmove : Moves rules d a d' := moves_of_step h
  rcases moves_inner hmove with heq | ⟨i, j, call, slot, l, -, -, -, -, heq⟩
  · rwa [heq]
  · rw [heq, Function.update_apply]
    split_ifs
    · rfl
    · exact hid

theorem inner_later (h : Later rules d d') (hid : (d.inner id).isSome) : (d'.inner id).isSome :=
  Machine.Reach.invariant (I := fun d => (d.inner id).isSome) hid (fun _ ht _ hstep => inner_step hstep ht) h

/-- The scan `j` is there and filed under its name. -/
def FiledAt (d : Daemon E) (j : Nat) : Prop :=
  ∃ l, d.scans[j]? = some l ∧ (d.inner l.sitting.scan.id).isSome

/-- A call that is past filing its scan has it filed, and so has one that has answered with a name. -/
structure Filing (d : Daemon E) : Prop where
  following : ∀ call ∈ d.calls, ∀ j slot, call.pc = .following j slot → d.FiledAt j
  returned : ∀ call ∈ d.calls, ∀ name, call.pc = .returned (some (.ok name)) → (d.inner name).isSome

theorem filedAt_step {j : Nat} (h : d.step rules a = some d') (hj : d.FiledAt j) : d'.FiledAt j := by
  obtain ⟨l, hl, hid⟩ := hj
  have hmove : Moves rules d a d' := moves_of_step h
  obtain ⟨l', hl', rfl | ⟨act, hact⟩⟩ := (moves_scans hmove).after hl
  · exact ⟨l', hl', inner_step h hid⟩
  · refine ⟨l', hl', ?_⟩
    rw [Live.step_id hact]
    exact inner_step h hid

theorem Filing.of_calls (h : Filing d) (hstep : d.step rules a = some d')
    (hcalls : ∀ call ∈ d'.calls, call ∈ d.calls ∨
      (∀ j slot, call.pc = .following j slot → d'.FiledAt j) ∧
        ∀ name, call.pc = .returned (some (.ok name)) → (d'.inner name).isSome) : Filing d' where
  following call hcall j slot hpc := by
    rcases hcalls call hcall with hold | ⟨hnew, -⟩
    · exact filedAt_step hstep (h.following call hold j slot hpc)
    · exact hnew j slot hpc
  returned call hcall name hpc := by
    rcases hcalls call hcall with hold | ⟨-, hnew⟩
    · exact inner_step hstep (h.returned call hold name hpc)
    · exact hnew name hpc

theorem calls_of_goes {i : Nat} {call : Call E} {pc : CallPc E} (hfollowing : ∀ j slot, pc ≠ .following j slot)
    (hreturned : ∀ name, pc ≠ .returned (some (.ok name))) :
    ∀ other ∈ (d.goes i call pc).calls, other ∈ d.calls ∨
      (∀ j slot, other.pc = .following j slot → d'.FiledAt j) ∧
        ∀ name, other.pc = .returned (some (.ok name)) → (d'.inner name).isSome := by
  intro other hother
  rcases mem_goes hother with hother | rfl
  · exact .inl hother
  · exact .inr ⟨fun j slot hpc => absurd hpc (hfollowing j slot), fun name hpc => absurd hpc (hreturned name)⟩

theorem Filing.step (h : Filing d) (hstep : d.step rules a = some d') : Filing d' := by
  refine h.of_calls hstep ?_
  have hmove : Moves rules d a d' := moves_of_step hstep
  cases hmove with
  | arrives request =>
    intro call hcall
    rcases List.mem_append.mp hcall with hcall | hcall
    · exact .inl hcall
    · rw [List.mem_singleton.mp hcall]
      right
      cases request with
      | start wire => simp [arriving]
      | resume id => by_cases hroot : rules.root <;> simp [arriving, hroot]
  | tries hcall hpc hnext =>
    apply calls_of_goes
    · rcases hnext with ⟨taken, rfl⟩ | rfl <;> simp
    · rcases hnext with ⟨taken, rfl⟩ | rfl <;> simp
  | reserves | answers | builds | leaves => exact calls_of_goes (by simp) (by simp)
  | drops hcall hpc =>
    apply calls_of_goes
    · simp
    · rename_i error
      cases error <;> simp
  | @files i j call slot l hcall hpc hl =>
    intro other hother
    rcases mem_goes hother with hother | rfl
    · exact .inl hother
    · right
      refine ⟨fun k slot hpc => ?_, by simp⟩
      cases hpc
      exact ⟨l, hl, by simp⟩
  | @follows i j call slot l l' hcall hpc hl hact =>
    intro other hother
    rcases mem_goes hother with hother | rfl
    · exact .inl hother
    · right
      refine ⟨by simp, fun name hpc' => ?_⟩
      cases hpc'
      obtain ⟨m, hm, hid⟩ := h.following call (List.mem_of_getElem? hcall) j slot hpc
      cases hl.symm.trans hm
      exact hid
  | _ => exact fun call hcall => .inl hcall

theorem filing_of_reach {store : Except EngineError (List (Entry E.toEngineTypes))}
    (h : Later rules (fresh store) d) : Filing d := by
  have hfresh : Filing (fresh store : Daemon E) := ⟨by simp [fresh], by simp [fresh]⟩
  exact Machine.Reach.invariant (I := Filing) hfresh (fun _ ht _ hstep => Filing.step ht hstep) h

end Daemon

namespace Server

open Daemon (Later Describes)

variable {o : Outside E} {rules : Rules E} {s s' : Server E} {d d' : Daemon E} {who : Nat × Nat} {link : Link E}
  {a a' : Stdio.Answering E} {frames more : List Stdio.Frame} {request : Request E}
  {store : Except EngineError (List (Entry E.toEngineTypes))}

/-! ## The name is written -/

/-- What a call is answered with: an error, or a name that is filed. -/
def Names (d : Daemon E) (id : Json) (frame : Stdio.Frame) : Prop :=
  (∃ refused, frame = .error id refused) ∨ ∃ name json, Writer.sorted (StartResponse.write ⟨name⟩) = some json ∧
    frame = .result id json ∧ (d.inner name).isSome

/-- Where the task of a `start` or of a `resume` stands. -/
inductive Starting (request : Request E) (d : Daemon E) (a : Stdio.Answering E) : Link E →
    List Stdio.Frame → Prop
  | spawned : a.pc = .spawned → Starting request d a .none []
  | calling : a.pc = .calling (.call request) → Starting request d a .none []
  | called {i : Nat} : a.pc = .calling (.call request) ∨ a.pc = .aborted → Starting request d a (.call i) []
  | framing {frame : Stdio.Frame} {turn : Stdio.Turn} : a.pc = .framing ⟨frame, turn⟩ .returned →
      Names d a.request.id frame → Starting request d a .none []
  | returned {frame : Stdio.Frame} : a.pc = .returned → Names d a.request.id frame →
      Starting request d a .none [frame]
  | aborted {told : List Stdio.Frame} : a.pc = .aborted → (∀ frame ∈ told, Names d a.request.id frame) →
      Starting request d a .none told

theorem Names.step {act : Daemon.Act E} {id : Json} {frame : Stdio.Frame} (hd : d.step rules act = some d')
    (h : Names d id frame) : Names d' id frame := by
  rcases h with hrefused | ⟨name, json, hjson, hframe, hname⟩
  · exact .inl hrefused
  · exact .inr ⟨name, json, hjson, hframe, Daemon.inner_step hd hname⟩

theorem Starting.step {act : Daemon.Act E} (hd : d.step rules act = some d')
    (h : Starting request d a link frames) : Starting request d' a link frames := by
  cases h with
  | spawned hpc => exact .spawned hpc
  | calling hpc => exact .calling hpc
  | called hpc => exact .called hpc
  | framing hpc hnames => exact .framing hpc (hnames.step hd)
  | returned hpc hnames => exact .returned hpc (hnames.step hd)
  | aborted hpc htold => exact .aborted hpc fun frame hframe => (htold frame hframe).step hd

theorem Starting.stepped {act : Option (Daemon.Act E)} (hd : perhaps (Daemon.step rules) d act = some d')
    (h : Starting request d a link frames) : Starting request d' a link frames := by
  rcases perhaps_eq_some.mp hd with ⟨-, rfl⟩ | ⟨act, -, hstep⟩
  · exact h
  · exact h.step hstep

theorem Starting.aborts (h : Starting request d a link frames) :
    Starting request d (a.goes .aborted) link frames := by
  cases h with
  | spawned | calling | framing => exact .aborted rfl (by simp)
  | called => exact .called (.inr rfl)
  | returned _ hnames =>
    refine .aborted rfl fun frame hframe => ?_
    rw [List.mem_singleton.mp hframe]
    exact hnames
  | aborted _ htold => exact .aborted rfl htold

theorem Starting.proceeds (h : Starting request d a link frames)
    (hasked : Stdio.asked o.serde a.request.method a.request.params = .ok (.call request))
    (ha : a.proceed o.serde = some a') : Starting request d a' link frames := by
  obtain ⟨r, pc⟩ := a
  cases h with
  | spawned hpc =>
    obtain rfl : pc = _ := hpc
    simp only [Stdio.Answering.proceed, hasked] at ha
    cases ha
    exact .calling rfl
  | called hpc => rcases hpc with hpc | hpc <;> obtain rfl : pc = _ := hpc <;> cases ha
  | calling hpc | framing hpc | returned hpc | aborted hpc =>
    obtain rfl : pc = _ := hpc
    cases ha

theorem Starting.puts {frame : Stdio.Frame} {turn turn' : Stdio.Turn} (h : Starting request d a link frames)
    (ha : a.writing = some ⟨frame, turn⟩) : Starting request d (a.puts (some ⟨frame, turn'⟩)) link frames := by
  obtain ⟨r, pc⟩ := a
  cases h with
  | framing hpc hnames =>
    obtain rfl : pc = _ := hpc
    cases ha
    exact .framing rfl hnames
  | called hpc => rcases hpc with hpc | hpc <;> obtain rfl : pc = _ := hpc <;> cases ha
  | spawned hpc | calling hpc | returned hpc | aborted hpc =>
    obtain rfl : pc = _ := hpc
    cases ha

theorem Starting.flushes {frame : Stdio.Frame} {turn : Stdio.Turn} (h : Starting request d a link frames)
    (ha : a.writing = some ⟨frame, turn⟩) : Starting request d (a.puts none) link (frames ++ [frame]) := by
  obtain ⟨r, pc⟩ := a
  cases h with
  | framing hpc hnames =>
    obtain rfl : pc = _ := hpc
    cases ha
    exact .returned rfl hnames
  | called hpc => rcases hpc with hpc | hpc <;> obtain rfl : pc = _ := hpc <;> cases ha
  | spawned hpc | calling hpc | returned hpc | aborted hpc =>
    obtain rfl : pc = _ := hpc
    cases ha

theorem Starting.answers {answer : Except Error Answer} {json : Except Error Json}
    (h : Starting request d a link frames) (hfiling : d.Filing) (hback : back d link = some answer)
    (hframed : framed answer = some json) (ha : a.reply (.answer json) = some a') :
    Starting request d a' .none frames := by
  obtain ⟨r, pc⟩ := a
  cases h with
  | spawned | calling | framing | returned | aborted => cases hback
  | called hpc =>
    rcases hpc with hpc | hpc
    · obtain rfl : pc = _ := hpc
      obtain ⟨call, hcall, hback⟩ := Option.bind_eq_some_iff.mp hback
      split at hback
      · rename_i outcome hpc
        obtain rfl := Option.some.inj hback
        cases outcome with
        | ok name =>
          obtain ⟨value, hvalue, rfl⟩ : ∃ value, Writer.sorted (StartResponse.write ⟨name⟩) = some value ∧
            Except.ok value = json := Option.map_eq_some_iff.mp hframed
          cases ha
          refine .framing rfl (.inr ⟨name, value, hvalue, rfl, ?_⟩)
          exact hfiling.returned call (List.mem_of_getElem? hcall) name hpc
        | error refused =>
          cases hframed
          cases ha
          exact .framing rfl (.inl ⟨refused, rfl⟩)
      · cases hback
    · obtain rfl : pc = _ := hpc
      cases json <;> cases ha

theorem Starting.single (h : Starting request d a link frames) : a.Single := by
  cases h with
  | called hpc => rcases hpc with hpc | hpc <;> exact ⟨by simp [hpc], by simp [hpc], by simp [hpc]⟩
  | spawned hpc | calling hpc | framing hpc | returned hpc | aborted hpc =>
    exact ⟨by simp [hpc], by simp [hpc], by simp [hpc]⟩

theorem Starting.pc_calling {q : Asked E} (h : Starting request d a link frames) (hpc : a.pc = .calling q) :
    q = .call request := by
  cases h with
  | calling hpc' => exact Stdio.Pc.calling.inj (hpc.symm.trans hpc')
  | called hpc' =>
    rcases hpc' with hpc' | hpc'
    · exact Stdio.Pc.calling.inj (hpc.symm.trans hpc')
    · cases hpc.symm.trans hpc'
  | spawned hpc' | framing hpc' | returned hpc' | aborted hpc' => cases hpc.symm.trans hpc'

theorem Starting.turn {act : Task E} {x : Deal E} (h : Starting request d a link frames) (hfiling : d.Filing)
    (hasked : Stdio.asked o.serde a.request.method a.request.params = .ok (.call request))
    (hdeal : Deals o rules d who link a act x) (hd : perhaps (Daemon.step rules) d x.act = some d')
    (hviews : Stdio.Views o.serde who.2 a x.said a' more) : Starting request d' a' x.link (frames ++ more) := by
  cases hdeal with
  | proceeds =>
    cases hviews with
    | proceeds ha =>
      rw [List.append_nil]
      exact (h.proceeds hasked ha).stepped hd
  | follows hpc => exact absurd hpc (h.single.telling _ _)
  | writes hne =>
    cases hviews with
    | writes _ ha =>
      rw [List.append_nil]
      exact (h.puts ha).stepped hd
    | flushes => exact absurd rfl hne
  | flushes =>
    cases hviews with
    | flushes ha => exact (h.flushes ha).stepped hd
    | writes hne => exact absurd rfl hne
  | aborts =>
    cases hviews
    rw [List.append_nil]
    exact h.aborts.stepped hd
  | calls hpc hlink =>
    cases hviews
    rw [List.append_nil]
    obtain ⟨⟩ := h.pc_calling hpc
    subst hlink
    cases h with
    | calling => exact .called (.inl hpc)
    | spawned hpc' | framing hpc' | returned hpc' | aborted hpc' => cases hpc.symm.trans hpc'
  | misses hpc | finds hpc | opens hpc => cases h.pc_calling hpc
  | begins hpc _ hprogram =>
    obtain rfl := h.pc_calling hpc
    cases hprogram
  | looks hlink =>
    subst hlink
    cases h
  | answers hback hframed =>
    cases hd
    cases hviews with
    | replies ha =>
      rw [List.append_nil]
      exact h.answers hfiling hback hframed ha
  | watches hpc => exact absurd hpc h.single.not_watches

theorem reach_starting {P : Server E → Act E → Prop} (h : (machine o rules).Reach P (fresh store) s)
    (ha : s.task who = some a)
    (hasked : Stdio.asked o.serde a.request.method a.request.params = .ok (.call request)) :
    Starting request s.daemon a (s.links who) (s.wrote who) := by
  refine each_of_reach (I := fun d _ link a frames =>
    Stdio.asked o.serde a.request.method a.request.params = .ok (.call request) →
    Starting request d a link frames) .refl (fun _ _ hnone => by cases hnone) ?_ ?_ ?_ ?_ h ha hasked
  · intro d who r _ _
    exact .spawned rfl
  · intro d d' who link b frames act _ hstep _ hkept hq
    exact (hkept hq).step hstep
  · intro d d' who link b b' frames more act x hreach hdeal hd hviews hkept hq
    rw [request_of_views hviews] at hq
    exact (hkept hq).turn (Daemon.filing_of_reach hreach) hq hdeal hd hviews
  · intro d d' who link b frames writing _ _ hd hkept hq
    exact (hkept hq).aborts.stepped hd

theorem names_of_starting {frame : Stdio.Frame} (h : Starting request d a link frames)
    (hframe : frame ∈ frames) : Names d a.request.id frame := by
  cases h with
  | spawned | calling | called | framing => cases hframe
  | returned _ hnames =>
    rw [List.mem_singleton.mp hframe]
    exact hnames
  | aborted _ htold => exact htold frame hframe

theorem name_of_sorted {name name' : String} {json : Json}
    (h : Writer.sorted (StartResponse.write ⟨name⟩) = some json)
    (h' : Writer.sorted (StartResponse.write ⟨name'⟩) = some json) : name = name' := by
  have hread := StartResponse.returns ⟨name⟩ json h
  have hread' := StartResponse.returns ⟨name'⟩ json h'
  rw [hread] at hread'
  simpa using hread'

theorem inner_of_names {id : Json} {name : String} {json : Json} (h : Names d id (.result id json))
    (hjson : Writer.sorted (StartResponse.write ⟨name⟩) = some json) : (d.inner name).isSome := by
  rcases h with ⟨refused, heq⟩ | ⟨name', json', hjson', heq, hname⟩
  · cases heq
  · cases heq
    rwa [name_of_sorted hjson hjson']

/-! ## And is found ever after -/

/-- The task of a `watch` of a name that is filed: on its way to the registry, or following the live scan. -/
def Tailing (name : String) (fromSeq : Nat) (a : Stdio.Answering E) (link : Link E)
    (frames : List Stdio.Frame) :
    Prop :=
  (∃ j, link = .live j) ∨ link = .none ∧ frames = [] ∧
    (a.pc = .spawned ∨ a.pc = .calling (.watch name fromSeq) ∨ a.pc = .aborted)

theorem get_of_inner {name : String} {j : Nat} (h : d.inner name = some j) :
    d.get rules name = .ok (.live j) := by
  simp [Daemon.get, h]

theorem Tailing.aborts {name : String} {fromSeq : Nat} (h : Tailing name fromSeq a link frames) :
    Tailing name fromSeq (a.goes .aborted) link frames := by
  rcases h with hlive | ⟨hlink, hframes, -⟩
  · exact .inl hlive
  · exact .inr ⟨hlink, hframes, .inr (.inr rfl)⟩

theorem Tailing.turn_none {name : String} {fromSeq : Nat} {act : Task E} {x : Deal E}
    (hname : (d.inner name).isSome) (hasked : Stdio.asked o.serde a.request.method a.request.params =
      .ok (.watch (E := E) name fromSeq))
    (hpc : a.pc = .spawned ∨ a.pc = .calling (.watch name fromSeq) ∨ a.pc = .aborted)
    (hdeal : Deals o rules d who .none a act x) (hviews : Stdio.Views o.serde who.2 a x.said a' more) :
    Tailing name fromSeq a' x.link more := by
  obtain ⟨j, hj⟩ := Option.isSome_iff_exists.mp hname
  have hget : d.get rules name = .ok (.live j) := get_of_inner hj
  obtain ⟨r, pc⟩ := a
  dsimp only at hpc
  have hwriting : (⟨r, pc⟩ : Stdio.Answering E).writing = none := by
    rcases hpc with rfl | rfl | rfl <;> rfl
  cases hdeal with
  | proceeds =>
    cases hviews with
    | proceeds ha =>
      rcases hpc with rfl | rfl | rfl
      · simp only [Stdio.Answering.proceed, hasked] at ha
        cases ha
        exact .inr ⟨rfl, rfl, .inr (.inl rfl)⟩
      · cases ha
      · cases ha
  | follows hat => rcases hpc with rfl | rfl | rfl <;> cases hat
  | writes | flushes =>
    cases hviews with
    | writes _ ha | flushes ha =>
      rw [hwriting] at ha
      cases ha
  | aborts =>
    cases hviews
    exact .inr ⟨rfl, rfl, .inr (.inr rfl)⟩
  | calls hat => rcases hpc with rfl | rfl | rfl <;> cases hat
  | misses hat _ hmiss =>
    rcases hpc with rfl | rfl | rfl <;> cases hat
    cases hget.symm.trans hmiss
  | finds => exact .inl ⟨_, rfl⟩
  | opens hat _ hopen =>
    rcases hpc with rfl | rfl | rfl <;> cases hat
    cases hget.symm.trans hopen
  | begins hat _ hprogram =>
    rcases hpc with rfl | rfl | rfl <;> cases hat
    cases hprogram
  | looks hlink => cases hlink
  | answers hback => cases hback
  | watches hat => rcases hpc with rfl | rfl | rfl <;> simp at hat

theorem live_of_deals {act : Task E} {x : Deal E} {j : Nat} (hdeal : Deals o rules d who (.live j) a act x) :
    x.link = .live j := by
  cases hdeal with
  | proceeds | follows | writes | flushes | aborts | watches => rfl
  | calls _ hlink | misses _ hlink | finds _ hlink | opens _ hlink | begins _ hlink | looks hlink => cases hlink
  | answers hback => cases hback

theorem reach_tailing {P : Server E → Act E → Prop} {name : String} {fromSeq : Nat}
    (hs : (machine o rules).Reach Machine.Always (fresh store) s) (hname : (s.daemon.inner name).isSome)
    (hnew : s.task who = none) (h : (machine o rules).Reach P s s') (ha : s'.task who = some a)
    (hasked : Stdio.asked o.serde a.request.method a.request.params = .ok (.watch (E := E) name fromSeq)) :
    Tailing name fromSeq a (s'.links who) (s'.wrote who) := by
  refine each_of_reach (I := fun d other link a frames => other = who →
    Stdio.asked o.serde a.request.method a.request.params = .ok (.watch (E := E) name fromSeq) →
    Tailing name fromSeq a link frames) hs ?_ ?_ ?_ ?_ ?_ h ha rfl hasked
  · rintro _ b hb rfl
    cases hnew.symm.trans hb
  · exact fun _ _ _ _ _ => .inr ⟨rfl, rfl, .inl rfl⟩
  · exact fun _ _ _ hkept => hkept
  · intro d d' other link b b' frames more act x hd hdeal _ hviews hkept hother hq
    rw [request_of_views hviews] at hq
    rcases hkept hother hq with ⟨j, rfl⟩ | ⟨rfl, rfl, hpc⟩
    · exact .inl ⟨j, live_of_deals hdeal⟩
    · exact Tailing.turn_none (Daemon.inner_later hd hname) hq hpc hdeal hviews
  · exact fun _ _ _ hkept hother hq => (hkept hother hq).aborts

theorem follows_of_reach {P : Server E → Act E → Prop} {name : String} {fromSeq : Nat}
    (hs : (machine o rules).Reach Machine.Always (fresh store) s) (hname : (s.daemon.inner name).isSome)
    (hnew : s.task who = none) (h : (machine o rules).Reach P s s') (ha : s'.task who = some a)
    (hasked : Stdio.asked o.serde a.request.method a.request.params = .ok (.watch (E := E) name fromSeq)) :
    s'.wrote who = [] ∨ ∃ (j : Nat) (l : Live E), s'.daemon.scans[j]? = some l ∧ l.sitting.scan.id = name ∧
      Follows o a.request.id l fromSeq (s'.wrote who) := by
  rcases reach_tailing hs hname hnew h ha hasked with ⟨j, hlink⟩ | ⟨-, hframes, -⟩
  · right
    have hcoupled := reach_coupled (hs.trans h.always) ha
    rw [hlink] at hcoupled
    cases hcoupled with
    | plain hlive => exact absurd rfl (hlive j)
    | along hwatching hnamed halong =>
      cases hasked.symm.trans halong.asked
      obtain ⟨l, hl, hid, hfollows⟩ := follows_of_along (daemon_reach (hs.trans h.always)) hwatching hnamed
        halong
      exact ⟨j, l, hl, hid, hfollows⟩
  · exact .inl hframes

theorem stateOf_of_reach {P : Server E → Act E → Prop} {name : String} {q : Asked E}
    (hs : (machine o rules).Reach Machine.Always (fresh store) s) (hname : (s.daemon.inner name).isSome)
    (hnew : s.task who = none) (h : (machine o rules).Reach P s s') (ha : s'.task who = some a)
    (hasked : Stdio.asked o.serde a.request.method a.request.params = .ok q)
    (hq : q = .get name ∨ q = .stop name) {frame : Stdio.Frame} (hframe : frame ∈ s'.wrote who) :
    ∃ (j : Nat) (l : Live E) (st : ScanState) (json : Json), s'.daemon.scans[j]? = some l ∧
      l.sitting.scan.id = name ∧ Daemon.StateOf l st ∧ Writer.sorted st.write = some json ∧
      frame = .result a.request.id json := by
  rcases stated_of_reach hs hnew h ha hasked hq hframe with
    ⟨e, _, he, hget, -⟩ | ⟨st, json, hjson, hresult, hst⟩
  · obtain ⟨j, hj⟩ := Option.isSome_iff_exists.mp (Daemon.inner_later he hname)
    cases (get_of_inner hj).symm.trans hget
  · cases hst with
    | live _ _ _ hl hid hstate => exact ⟨_, _, st, json, hl, hid, hstate, hjson, hresult⟩
    | recorded ht hget =>
      obtain ⟨j, hj⟩ := Option.isSome_iff_exists.mp (Daemon.inner_later ht hname)
      cases (get_of_inner hj).symm.trans hget

/-- **A scan whose name a client was written is found under it by every request from then on**, whichever
connection it comes in on and whatever became of the one that started the scan: `get` and `stop` are answered
with the live scan's state and never with a refusal, and `watch` follows the live scan's log. -/
theorem found_ever_after {P : Server E → Act E → Prop} {c t c' t' : Nat} {conn conn' : Stdio.Connection E}
    {b : Stdio.Answering E} {name : String} {json : Json} {q : Asked E}
    (hs : (machine o rules).Reach Machine.Always (fresh store) s) (hconn : s.connections[c]? = some conn)
    (hb : conn.answering[t]? = some b)
    (hstart : Stdio.asked o.serde b.request.method b.request.params = .ok (.call request))
    (hjson : Writer.sorted (StartResponse.write ⟨name⟩) = some json)
    (htold : .result b.request.id json ∈ Sequence.said some (.task t) conn.written)
    (hnew : s.task (c', t') = none) (h : (machine o rules).Reach P s s')
    (hconn' : s'.connections[c']? = some conn') (ha : conn'.answering[t']? = some a)
    (hasked : Stdio.asked o.serde a.request.method a.request.params = .ok q) :
    (q = .get name ∨ q = .stop name → ∀ frame ∈ Sequence.said some (.task t') conn'.written,
      ∃ (j : Nat) (l : Live E) (st : ScanState) (json : Json), s'.daemon.scans[j]? = some l ∧
        l.sitting.scan.id = name ∧ Daemon.StateOf l st ∧ Writer.sorted st.write = some json ∧
        frame = .result a.request.id json) ∧
    ∀ fromSeq, q = .watch name fromSeq → Sequence.said some (.task t') conn'.written = [] ∨
      ∃ (j : Nat) (l : Live E), s'.daemon.scans[j]? = some l ∧ l.sitting.scan.id = name ∧
        Follows o a.request.id l fromSeq (Sequence.said some (.task t') conn'.written) := by
  rw [← wrote_eq hconn] at htold
  have hnames := names_of_starting (reach_starting hs ((task_eq hconn).trans hb) hstart) htold
  have hname := inner_of_names hnames hjson
  rw [← wrote_eq hconn']
  have htask := (task_eq hconn').trans ha
  constructor
  · intro hq frame hframe
    exact stateOf_of_reach hs hname hnew h htask hasked hq hframe
  · rintro fromSeq rfl
    exact follows_of_reach hs hname hnew h htask hasked

/-- It is no refusal. -/
def answers : Stdio.Frame → Bool
  | .result _ _ => true
  | _ => false

theorem startTask_told : ∃ json, Writer.sorted (StartResponse.write ⟨"A"⟩) = some json ∧
    .result startTask.request.id json ∈ Sequence.said some (.task 0) starter.written := by
  have hfacts : 0 < (Sequence.said some (.task 0) starter.written).length ∧
      (∀ frame ∈ Sequence.said some (.task 0) starter.written, answers frame) ∧
      started.daemon.scans.map (fun l => l.sitting.scan.id) = ["A"] := by decide +kernel
  obtain ⟨hpos, hresult, hids⟩ := hfacts
  obtain ⟨frame, hframe⟩ := List.length_pos_iff_exists_mem.mp hpos
  obtain ⟨request, hrequest⟩ := startTask_asked
  have hwrote := hframe
  rw [← wrote_eq starter_eq] at hwrote
  have hstarting := reach_starting reach_started ((task_eq starter_eq).trans startTask_eq) hrequest
  rcases names_of_starting hstarting hwrote with ⟨refused, rfl⟩ | ⟨name, json, hjson, rfl, hname⟩
  · cases hresult _ hframe
  · obtain ⟨j, hj⟩ := Option.isSome_iff_exists.mp hname
    obtain ⟨l, hl, hid⟩ := Daemon.reach_filed (daemon_reach reach_started) name j hj
    have hmem : l.sitting.scan.id ∈ started.daemon.scans.map fun l => l.sitting.scan.id :=
      List.mem_map_of_mem (List.mem_of_getElem? hl)
    rw [hids, List.mem_singleton, hid] at hmem
    subst hmem
    exact ⟨json, hjson, hframe⟩

theorem found_answered :
    (∀ frame ∈ Sequence.said some (.task 1) asker.written,
      ∃ (j : Nat) (l : Live Plain.engine) (st : ScanState) (json : Json), answered.daemon.scans[j]? = some l ∧
        l.sitting.scan.id = "A" ∧ Daemon.StateOf l st ∧ Writer.sorted st.write = some json ∧
        frame = .result getTask.request.id json) ∧
    (Sequence.said some (.task 0) watcher.written = [] ∨
      ∃ (j : Nat) (l : Live Plain.engine), answered.daemon.scans[j]? = some l ∧ l.sitting.scan.id = "A" ∧
        Follows plainOutside watchTask.request.id l 0 (Sequence.said some (.task 0) watcher.written)) := by
  obtain ⟨request, hrequest⟩ := startTask_asked
  obtain ⟨json, hjson, htold⟩ := startTask_told
  refine ⟨?_, ?_⟩
  · exact (found_ever_after reach_started starter_eq startTask_eq hrequest hjson htold getTask_new
      reach_answered asker_eq getTask_eq getTask_asked).1 (.inl rfl)
  · exact (found_ever_after reach_started starter_eq startTask_eq hrequest hjson htold watchTask_new
      reach_answered watcher_eq watchTask_eq watchTask_asked).2 0 rfl

end Server

end ZondDaemon
