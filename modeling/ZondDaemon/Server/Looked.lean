import ZondDaemon.Base.Through
import ZondDaemon.Server.Tasks

/-!
# What a method is answered by

A method other than those that start a scan or follow one looks at the registry a piece at a time, and
everything else goes on in between. What its client is written is what the method comes to from looks each
taken in a state the daemon was in by then, after the request came in (`looked`).
-/

namespace ZondDaemon

open Proto

variable {E : Engine}

namespace Daemon

/-- The daemon goes on. -/
def Later (rules : Rules E) (d d' : Daemon E) : Prop := (machine rules).Reach Machine.Always d d'

/-- A look is answered, and does what it does. -/
def Gives (rules : Rules E) (d : Daemon E) (q : Look) (answer : q.Answer E) (d' : Daemon E) : Prop :=
  ∃ effect : Effect E, d.looks rules effect q = some answer ∧
    Server.perhaps (step rules) d (deeds effect q) = some d'

variable {rules : Rules E} {d d' : Daemon E}

theorem Later.refl (d : Daemon E) : Later rules d d := Machine.Reach.refl

theorem Later.trans {d'' : Daemon E} (h : Later rules d d') (h' : Later rules d' d'') : Later rules d d'' :=
  Machine.Reach.trans h h'

theorem Later.perhaps {a : Option (Act E)} (h : Server.perhaps (step rules) d a = some d') :
    Later rules d d' := by
  rcases Server.perhaps_eq_some.mp h with ⟨-, rfl⟩ | ⟨act, -, hstep⟩
  · exact .refl d'
  · exact Machine.Reach.refl.tail trivial hstep

theorem Gives.later {q : Look} {answer : q.Answer E} (h : Gives rules d q answer d') : Later rules d d' := by
  obtain ⟨effect, -, hdeeds⟩ := h
  exact .perhaps hdeeds

/-- The method, begun at some moment after `d`, has come to `p`, and the daemon to `d'`. -/
def Comes {α : Type} (rules : Rules E) (d : Daemon E) (program p : Looks E α) (d' : Daemon E) : Prop :=
  ∃ begun, Later rules d begun ∧ Program.Through (Later rules) (Gives rules) program begun p d'

theorem Comes.later {α : Type} {program p : Looks E α} {d'' : Daemon E} (h : Comes rules d program p d')
    (hd : Later rules d' d'') : Comes rules d program p d'' := by
  obtain ⟨begun, hbegun, hthrough⟩ := h
  exact ⟨begun, hbegun, hthrough.rests hd⟩

end Daemon

namespace Server

open Daemon (Later Gives Comes)

variable {o : Outside E} {rules : Rules E} {s s' : Server E} {d d' e : Daemon E} {who : Nat × Nat}
  {link : Link E}
  {a a' : Stdio.Answering E} {frames more : List Stdio.Frame} {q : Asked E} {program : Looks E Answer}

/-- The frame an outcome is written as. -/
def Framed (id : Json) : Except Error Answer → Stdio.Frame → Prop
  | .ok answer, frame => ∃ json, Writer.sorted answer.write = some json ∧ frame = .result id json
  | .error refused, frame => frame = .error id refused

/-- The one frame a method has been answered with, or is about to be: what it came to. -/
def Outcome (rules : Rules E) (e : Daemon E) (program : Looks E Answer) (d : Daemon E) (id : Json)
    (frame : Stdio.Frame) : Prop :=
  ∃ out, Comes rules e program (.ofExcept out) d ∧ Framed id out frame

/-- Where the task of a method stands that came in after `e`. -/
inductive Looking (rules : Rules E) (e : Daemon E) (q : Asked E) (program : Looks E Answer) (d : Daemon E)
    (a : Stdio.Answering E) : Link E → List Stdio.Frame → Prop
  | spawned : Later rules e d → a.pc = .spawned → Looking rules e q program d a .none []
  | calling : Later rules e d → a.pc = .calling q → Looking rules e q program d a .none []
  | looking {p : Looks E Answer} : a.pc = .calling q → Comes rules e program p d →
      Looking rules e q program d a (.look p) []
  | framing {frame : Stdio.Frame} {turn : Stdio.Turn} : a.pc = .framing ⟨frame, turn⟩ .returned →
      Outcome rules e program d a.request.id frame → Looking rules e q program d a .none []
  | returned {frame : Stdio.Frame} : a.pc = .returned → Outcome rules e program d a.request.id frame →
      Looking rules e q program d a .none [frame]
  | aborted {told : List Stdio.Frame} : a.pc = .aborted →
      (told = [] ∨ ∃ frame, told = [frame] ∧ Outcome rules e program d a.request.id frame) →
      Looking rules e q program d a .none told

theorem Outcome.later {id : Json} {frame : Stdio.Frame} (h : Outcome rules e program d id frame)
    (hd : Later rules d d') : Outcome rules e program d' id frame := by
  obtain ⟨out, hcomes, hframed⟩ := h
  exact ⟨out, hcomes.later hd, hframed⟩

theorem Looking.later (h : Looking rules e q program d a link frames) (hd : Later rules d d') :
    Looking rules e q program d' a link frames := by
  cases h with
  | spawned he hpc => exact .spawned (he.trans hd) hpc
  | calling he hpc => exact .calling (he.trans hd) hpc
  | looking hpc hcomes => exact .looking hpc (hcomes.later hd)
  | framing hpc hout => exact .framing hpc (hout.later hd)
  | returned hpc hout => exact .returned hpc (hout.later hd)
  | aborted hpc htold =>
    rcases htold with rfl | ⟨frame, rfl, hout⟩
    · exact .aborted hpc (.inl rfl)
    · exact .aborted hpc (.inr ⟨frame, rfl, hout.later hd⟩)

theorem request_puts (a : Stdio.Answering E) (w : Option Stdio.Writing) : (a.puts w).request = a.request := by
  obtain ⟨pc, hpc⟩ := Stdio.Answering.exists_puts_eq a w
  rw [hpc]
  rfl

theorem request_of_views {t : Nat} {act : Option Stdio.Act} (h : Stdio.Views o.serde t a act a' more) :
    a'.request = a.request := by
  cases h with
  | rests | aborts => rfl
  | proceeds ha =>
    obtain ⟨pc, rfl, -⟩ := Stdio.Answering.open_of_proceed ha
    rfl
  | replies ha =>
    obtain ⟨pc, rfl, -⟩ := Stdio.Answering.open_of_reply ha
    rfl
  | writes | flushes => exact request_puts _ _

theorem Looking.aborts (h : Looking rules e q program d a link frames) (hlook : ∀ p, link ≠ .look p) :
    Looking rules e q program d (a.goes .aborted) link frames := by
  cases h with
  | spawned | calling | framing => exact .aborted rfl (.inl rfl)
  | looking => exact absurd rfl (hlook _)
  | returned _ hout => exact .aborted rfl (.inr ⟨_, rfl, hout⟩)
  | aborted _ htold => exact .aborted rfl htold

theorem Looking.single (h : Looking rules e q program d a link frames) : a.Single := by
  cases h with
  | spawned _ hpc | calling _ hpc | looking hpc | framing hpc | returned hpc | aborted hpc =>
    exact ⟨by simp [hpc], by simp [hpc], by simp [hpc]⟩

theorem Looking.proceeds (h : Looking rules e q program d a link frames)
    (hasked : Stdio.asked o.serde a.request.method a.request.params = .ok q)
    (ha : a.proceed o.serde = some a') : Looking rules e q program d a' link frames := by
  obtain ⟨request, pc⟩ := a
  cases h with
  | spawned he hpc =>
    obtain rfl : pc = _ := hpc
    simp only [Stdio.Answering.proceed, hasked] at ha
    cases ha
    exact .calling he rfl
  | calling _ hpc | looking hpc | framing hpc | returned hpc | aborted hpc =>
    obtain rfl : pc = _ := hpc
    cases ha

theorem Looking.puts {frame : Stdio.Frame} {turn turn' : Stdio.Turn}
    (h : Looking rules e q program d a link frames) (ha : a.writing = some ⟨frame, turn⟩) :
    Looking rules e q program d (a.puts (some ⟨frame, turn'⟩)) link frames := by
  obtain ⟨request, pc⟩ := a
  cases h with
  | framing hpc hout =>
    obtain rfl : pc = _ := hpc
    cases ha
    exact .framing rfl hout
  | spawned _ hpc | calling _ hpc | looking hpc | returned hpc | aborted hpc =>
    obtain rfl : pc = _ := hpc
    cases ha

theorem Looking.flushes {frame : Stdio.Frame} {turn : Stdio.Turn}
    (h : Looking rules e q program d a link frames) (ha : a.writing = some ⟨frame, turn⟩) :
    Looking rules e q program d (a.puts none) link (frames ++ [frame]) ∧ link = .none := by
  obtain ⟨request, pc⟩ := a
  cases h with
  | framing hpc hout =>
    obtain rfl : pc = _ := hpc
    cases ha
    exact ⟨.returned rfl hout, rfl⟩
  | spawned _ hpc | calling _ hpc | looking hpc | returned hpc | aborted hpc =>
    obtain rfl : pc = _ := hpc
    cases ha

theorem Looking.answers {answer : Except Error Answer} {json : Except Error Json}
    (h : Looking rules e q program d a link frames) (hwatch : ∀ id fromSeq, q ≠ .watch id fromSeq)
    (hback : back d link = some answer) (hframed : framed answer = some json)
    (ha : a.reply (.answer json) = some a') : Looking rules e q program d a' .none frames := by
  obtain ⟨request, pc⟩ := a
  cases h with
  | spawned | calling | framing | returned | aborted => cases hback
  | @looking p hpc hcomes =>
    obtain rfl : pc = _ := hpc
    have hout : p = .ofExcept answer := by
      cases p with
      | ret value =>
        cases hback
        rfl
      | fail error =>
        cases hback
        rfl
      | ask => cases hback
    subst hout
    have hreply : ∃ frame, a' = ⟨request, .framing ⟨frame, .waiting⟩ .returned⟩ ∧
      Framed request.id answer frame := by
      cases answer with
      | ok answer =>
        obtain ⟨value, hvalue, rfl⟩ := Option.map_eq_some_iff.mp hframed
        cases q with
        | watch id fromSeq => exact absurd rfl (hwatch id fromSeq)
        | _ =>
          cases ha
          exact ⟨_, rfl, value, hvalue, rfl⟩
      | error refused =>
        cases hframed
        cases q with
        | watch id fromSeq => exact absurd rfl (hwatch id fromSeq)
        | _ =>
          cases ha
          exact ⟨_, rfl, rfl⟩
    obtain ⟨frame, rfl, hframe⟩ := hreply
    exact .framing rfl ⟨answer, hcomes, hframe⟩

theorem Looking.turn {act : Task E} {x : Deal E} (h : Looking rules e q program d a link frames)
    (hasked : Stdio.asked o.serde a.request.method a.request.params = .ok q)
    (hprogram : Stdio.handler rules o.corpus q = some program) (hdeal : Deals o rules d who link a act x)
    (hd : perhaps (Daemon.step rules) d x.act = some d') (hviews : Stdio.Views o.serde who.2 a x.said a' more) :
    Looking rules e q program d' a' x.link (frames ++ more) := by
  have hwatch : ∀ id fromSeq, q ≠ .watch id fromSeq := by
    rintro id fromSeq rfl
    cases hprogram
  have hcalling : ∀ q', a.pc = .calling q' → q' = q := by
    intro q' hpc
    cases h with
    | calling _ hpc' | looking hpc' =>
      cases hpc.symm.trans hpc'
      rfl
    | spawned _ hpc' | framing hpc' | returned hpc' | aborted hpc' => cases hpc.symm.trans hpc'
  cases hdeal with
  | proceeds =>
    cases hd
    cases hviews with
    | proceeds ha =>
      rw [List.append_nil]
      exact h.proceeds hasked ha
  | follows hpc => exact absurd hpc (h.single.telling _ _)
  | writes hne =>
    cases hd
    cases hviews with
    | writes _ ha =>
      rw [List.append_nil]
      exact h.puts ha
    | flushes => exact absurd rfl hne
  | flushes =>
    cases hviews with
    | flushes ha => exact (h.flushes ha).1.later (.perhaps hd)
    | writes hne => exact absurd rfl hne
  | aborts hact =>
    cases hviews
    rw [List.append_nil]
    refine (h.aborts ?_).later (.perhaps hd)
    rcases hact with ⟨i, rfl, -⟩ | ⟨-, hlook, -⟩
    · exact fun _ heq => by cases heq
    · exact hlook
  | calls hpc =>
    obtain rfl := hcalling _ hpc
    cases hprogram
  | misses hpc | finds hpc | opens hpc => exact absurd (hcalling _ hpc).symm (hwatch _ _)
  | begins hpc hlink hbegins =>
    obtain rfl := hcalling _ hpc
    cases hprogram.symm.trans hbegins
    cases hd
    cases hviews
    rw [List.append_nil]
    subst hlink
    cases h with
    | calling he hpc => exact .looking hpc ⟨d, he, .start⟩
    | spawned _ hpc' | framing hpc' | returned hpc' | aborted hpc' => cases hpc.symm.trans hpc'
  | @looks effect look k answer hlink hanswer =>
    cases hviews
    rw [List.append_nil]
    subst hlink
    cases h with
    | looking hpc hcomes =>
      obtain ⟨begun, hbegun, hthrough⟩ := hcomes
      exact .looking hpc ⟨begun, hbegun, hthrough.asks ⟨effect, hanswer, hd⟩⟩
  | answers hback hframed =>
    cases hd
    cases hviews with
    | replies ha =>
      rw [List.append_nil]
      exact h.answers hwatch hback hframed ha
  | watches hpc => exact absurd hpc h.single.not_watches

/-! ## Over whole runs -/

section runs
variable {P : Server E → Act E → Prop} {store : Except EngineError (List (Entry E.toEngineTypes))}

theorem reach_looking (hs : (machine o rules).Reach Machine.Always (fresh store) s) (hnew : s.task who = none)
    (h : (machine o rules).Reach P s s') (ha : s'.task who = some a)
    (hasked : Stdio.asked o.serde a.request.method a.request.params = .ok q)
    (hprogram : Stdio.handler rules o.corpus q = some program) :
    Looking rules s.daemon q program s'.daemon a (s'.links who) (s'.wrote who) := by
  have hlooking := each_of_reach
    (I := fun d other link a frames => other = who →
      Stdio.asked o.serde a.request.method a.request.params = .ok q →
      Looking rules s.daemon q program d a link frames) hs ?_ ?_ ?_ ?_ ?_ h ha
  · exact hlooking rfl hasked
  · rintro _ b hb rfl
    cases hnew.symm.trans hb
  · intro d other request hd _ _
    exact .spawned hd rfl
  · intro d d' other link b frames act _ hstep _ hkept hother hq
    exact (hkept hother hq).later (Machine.Reach.refl.tail trivial hstep)
  · intro d d' other link b b' frames more act x _ hdeal hd hviews hkept hother hq
    rw [request_of_views hviews] at hq
    exact (hkept hother hq).turn hq hprogram hdeal hd hviews
  · intro d d' other link b frames writing _ hw hd hkept hother hq
    have hlooking := hkept hother hq
    refine (hlooking.aborts ?_).later (.perhaps hd)
    rintro p rfl
    cases hlooking with
    | looking hpc =>
      obtain ⟨request, pc⟩ := b
      obtain rfl : pc = _ := hpc
      cases hw

/-- What the client of such a method has been written: what the method comes to, once, or nothing yet. -/
theorem frames_of_looking (h : Looking rules e q program d a link frames) :
    frames = [] ∨ ∃ frame, frames = [frame] ∧ Outcome rules e program d a.request.id frame := by
  cases h with
  | spawned | calling | looking | framing => exact .inl rfl
  | returned _ hout => exact .inr ⟨_, rfl, hout⟩
  | aborted _ htold => exact htold

/-- **What a client is written for a request that looks at the registry is what the method comes to**, from
looks taken one after the other, each in a state the daemon was in by then and none from before the request
came in: that, once, or nothing yet. -/
theorem looked {c t : Nat} {conn : Stdio.Connection E}
    (hs : (machine o rules).Reach Machine.Always (fresh store) s)
    (hnew : s.task (c, t) = none) (h : (machine o rules).Reach P s s') (hconn : s'.connections[c]? = some conn)
    (ha : conn.answering[t]? = some a)
    (hasked : Stdio.asked o.serde a.request.method a.request.params = .ok q)
    (hprogram : Stdio.handler rules o.corpus q = some program) :
    Sequence.said some (.task t) conn.written = [] ∨
      ∃ frame, Sequence.said some (.task t) conn.written = [frame] ∧
        Outcome rules s.daemon program s'.daemon a.request.id frame := by
  rw [← wrote_eq hconn]
  exact frames_of_looking (reach_looking hs hnew h ((task_eq hconn).trans ha) hasked hprogram)

theorem looked_answered : (Sequence.said some (.task 1) asker.written).length = 1 ∧
    (Sequence.said some (.task 1) asker.written = [] ∨
      ∃ frame, Sequence.said some (.task 1) asker.written = [frame] ∧
        Outcome Daemon.recording started.daemon (.state <$> Stdio.get "A") answered.daemon getTask.request.id
          frame) := by
  refine ⟨asker_seen.2.2.1, ?_⟩
  exact looked reach_started getTask_new reach_answered asker_eq getTask_eq getTask_asked rfl

end runs

end Server

end ZondDaemon
