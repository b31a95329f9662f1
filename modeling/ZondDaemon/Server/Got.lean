import ZondDaemon.Server.Looked

/-!
# What a client is told of where a scan is

`get` and `stop` read the parts of a live scan's state one after the other (`Pieces`), and the scan goes on in
between. The parts hold together all the same (`StateOf`): an answer that says the scan is over has the number of
its last entry, and a cause, which is what the handle said at one moment and may say differently later.
-/

namespace ZondDaemon

open Proto

variable {E : Engine}

namespace Live

variable {P : Live E → Act E → Prop} {l m : Live E}

theorem closed_stays (hl : l.log.closed = l.sitting.follower.shut) (hclosed : l.log.closed = true)
    (h : (machine E).Reach P l m) : m.log.closed = true ∧ m.log.entries = l.log.entries := by
  have hinv : m.log.closed = m.sitting.follower.shut ∧ m.log.closed = true ∧ m.log.entries = l.log.entries := by
    refine h.invariant (I := fun m => m.log.closed = m.sitting.follower.shut ∧ m.log.closed = true ∧
      m.log.entries = l.log.entries) ⟨hl, hclosed, rfl⟩ ?_
    rintro t u a - ⟨hshut, hc, hentries⟩ - hstep
    rcases step_sitting hstep with heq | ⟨act, -, hs⟩
    · rw [log, heq]
      exact ⟨hshut, hc, hentries⟩
    · obtain ⟨hentries', hc'⟩ := Sitting.step_of_closed hs hshut hc
      exact ⟨Sitting.step_closed hs hshut, hc', hentries'.trans hentries⟩
  exact hinv.2

end Live

namespace Daemon

variable {rules : Rules E} {d d' e u : Daemon E} {j : Nat} {id : String}

/-- A scan that is over stays as it is; one that is not has grown at most. -/
theorem scans_later {store : Except EngineError (List (Entry E.toEngineTypes))} {l : Live E}
    (hd : Later rules (fresh store) d) (h : Later rules d d') (hl : d.scans[j]? = some l) :
    ∃ l', d'.scans[j]? = some l' ∧ l'.sitting.scan.id = l.sitting.scan.id ∧
      l.log.entries <+: l'.log.entries ∧
      (l.log.closed = true → l'.log.closed = true ∧ l'.log.entries = l.log.entries) := by
  obtain ⟨l', hl', hreach⟩ := later h hl
  obtain ⟨scanId, progress, redaction, hbegun⟩ := scan_reach_always hd hl
  refine ⟨l', hl', Live.reach_id hreach, Live.reach_grows hreach, fun hclosed => ?_⟩
  exact Live.closed_stays (Live.reach_closed hbegun) hclosed hreach

/-! ## The state of a live scan -/

/-- What a state answered says of a live scan holds of the scan as it is by now: how far the log had come, and
where it says the scan is over, that it is, the number of its last entry and a cause. -/
structure StateOf (l : Live E) (st : ScanState) : Prop where
  scanId : st.scanId = l.sitting.scan.id
  reached : st.seq ≤ l.log.watermark
  ended : st.running = false → l.log.closed = true ∧ st.seq = l.log.watermark ∧ st.cause.isSome
  going : st.running = true → st.cause = none
  measured : st.progress.isSome

theorem StateOf.later {store : Except EngineError (List (Entry E.toEngineTypes))} {l : Live E} {st : ScanState}
    (hd : Later rules (fresh store) d) (h : Later rules d d') (hl : d.scans[j]? = some l) (hst : StateOf l st) :
    ∃ l', d'.scans[j]? = some l' ∧ l'.sitting.scan.id = l.sitting.scan.id ∧ StateOf l' st := by
  obtain ⟨l', hl', hid, hgrows, hclosed⟩ := scans_later hd h hl
  refine ⟨l', hl', hid, by rw [hid, hst.scanId], ?_, fun hover => ?_, hst.going, hst.measured⟩
  · exact Nat.le_trans hst.reached hgrows.length_le
  · obtain ⟨hc, hseq, hcause⟩ := hst.ended hover
    obtain ⟨hc', hentries⟩ := hclosed hc
    exact ⟨hc', by rw [hseq, Log.watermark, Log.watermark, hentries], hcause⟩

/-- The state was read of the scan piece by piece between `t` and `d`: its name, whether its log is closed, the
cause only where that is so, the progress and the number, each from the scan as it was then. -/
inductive Pieces (rules : Rules E) (t d : Daemon E) (j : Nat) : ScanState → Prop
  | read {d₁ d₂ d₃ d₄ d₅ : Daemon E} {l₁ l₂ l₃ l₄ l₅ : Live E} :
      Later rules t d₁ → Later rules d₁ d₂ → Later rules d₂ d₃ → Later rules d₃ d₄ → Later rules d₄ d₅ →
      Later rules d₅ d →
      d₁.scans[j]? = some l₁ → d₂.scans[j]? = some l₂ → d₃.scans[j]? = some l₃ → d₄.scans[j]? = some l₄ →
      d₅.scans[j]? = some l₅ →
      Pieces rules t d j
        { scanId := l₁.sitting.scan.id
          running := !l₂.log.closed
          cause := if l₂.log.closed then some (number (Convert.stopCause l₃.sitting.scan.handle.stopped))
            else none
          progress := some l₄.sitting.scan.progress
          seq := l₅.log.watermark }

theorem Pieces.later {t : Daemon E} {st : ScanState} (h : Pieces rules t d j st) (hd : Later rules d d') :
    Pieces rules t d' j st := by
  cases h with
  | read h₁ h₂ h₃ h₄ h₅ h₆ hl₁ hl₂ hl₃ hl₄ hl₅ => exact .read h₁ h₂ h₃ h₄ h₅ (h₆.trans hd) hl₁ hl₂ hl₃ hl₄ hl₅

theorem Pieces.since {t : Daemon E} {st : ScanState} (h : Pieces rules d u j st) (ht : Later rules t d) :
    Pieces rules t u j st := by
  cases h with
  | read h₁ h₂ h₃ h₄ h₅ h₆ hl₁ hl₂ hl₃ hl₄ hl₅ => exact .read (ht.trans h₁) h₂ h₃ h₄ h₅ h₆ hl₁ hl₂ hl₃ hl₄ hl₅

theorem Gives.same {q : Look} {answer : q.Answer E} (h : Gives rules d q answer d')
    (hdeeds : ∀ effect : Effect E, deeds effect q = none) :
    d' = d ∧ ∃ effect, d.looks rules effect q = some answer := by
  obtain ⟨effect, hanswer, hd⟩ := h
  rw [hdeeds effect] at hd
  exact ⟨(Option.some.inj hd).symm, effect, hanswer⟩

theorem looks_of_map {α : Type} {f : Live E → α} {value : α} (h : (d.scans[j]?).map f = some value) :
    ∃ l, d.scans[j]? = some l ∧ value = f l := by
  obtain ⟨l, hl, rfl⟩ := Option.map_eq_some_iff.mp h
  exact ⟨l, hl, rfl⟩

section state
variable {store : Except EngineError (List (Entry E.toEngineTypes))} {l : Live E}

theorem look_of_through {α : Type} {q : Look} {k : q.Answer E → Looks E α} {out : Except Error α}
    (hdeeds : ∀ effect : Effect E, deeds effect q = none)
    (h : Program.Through (Later rules) (Gives rules) (.ask q k) d (.ofExcept out) u) :
    ∃ t effect answer, Later rules d t ∧ t.looks rules effect q = some answer ∧
      Program.Through (Later rules) (Gives rules) (k answer) t (.ofExcept out) u := by
  rcases h.ask_cases Later.refl Later.trans with ⟨heq, -⟩ | ⟨answer, t, t', hs, hgives, hrest⟩
  · exact absurd heq Program.ofExcept_ne_ask
  · obtain ⟨rfl, effect, hanswer⟩ := hgives.same hdeeds
    exact ⟨_, effect, answer, hs, hanswer, hrest⟩

theorem out_of_through {α : Type} {value : α} {out : Except Error α}
    (h : Program.Through (Later rules) (Gives rules) (.ret value) d (.ofExcept out) u) :
    out = .ok value ∧ Later rules d u := by
  obtain ⟨heq, hlater⟩ := h.of_ret Later.refl Later.trans
  cases out with
  | ok value' =>
    cases heq
    exact ⟨rfl, hlater⟩
  | error error => cases heq

theorem cause_of_through {closed : Bool} {k : Option Int → Looks E ScanState} {out : Except Error ScanState}
    (hl : d.scans[j]? = some l)
    (h : Program.Through (Later rules) (Gives rules)
      (if closed = true then .ask (.stopped j) fun stopped => k (some (number (Convert.stopCause stopped)))
        else k none) d (.ofExcept out) u) :
    ∃ t m, Later rules d t ∧ t.scans[j]? = some m ∧ Program.Through (Later rules) (Gives rules)
      (k (if closed then some (number (Convert.stopCause m.sitting.scan.handle.stopped)) else none)) t
      (.ofExcept out) u := by
  cases closed with
  | false => exact ⟨d, l, .refl d, hl, h⟩
  | true =>
    obtain ⟨t, _, _, ht, hstopped, hrest⟩ := look_of_through (q := .stopped j) (fun _ => rfl) h
    obtain ⟨m, hm, rfl⟩ := looks_of_map hstopped
    exact ⟨t, m, ht, hm, hrest⟩

theorem pieces_of_through {out : Except Error ScanState}
    (h : Program.Through (Later rules) (Gives rules) (Found.live j).state d (.ofExcept out) u) :
    ∃ st, out = .ok st ∧ Pieces rules d u j st := by
  obtain ⟨d₁, _, scanId, h₁, hname, h⟩ := look_of_through (q := .name j) (fun _ => rfl) h
  obtain ⟨d₂, _, closed, h₂, hclosed, h⟩ := look_of_through (q := .closed j) (fun _ => rfl) h
  obtain ⟨l₁, hl₁, rfl⟩ := looks_of_map hname
  obtain ⟨l₂, hl₂, rfl⟩ := looks_of_map hclosed
  obtain ⟨d₃, l₃, h₃, hl₃, h⟩ := cause_of_through (k := fun cause =>
    .ask (.progress j) fun progress => .ask (.watermark j) fun seq =>
      .ret ⟨l₁.sitting.scan.id, !l₂.log.closed, cause, some progress, seq⟩) hl₂ h
  obtain ⟨d₄, _, progress, h₄, hprogress, h⟩ := look_of_through (q := .progress j) (fun _ => rfl) h
  obtain ⟨d₅, _, seq, h₅, hseq, h⟩ := look_of_through (q := .watermark j) (fun _ => rfl) h
  obtain ⟨l₄, hl₄, rfl⟩ := looks_of_map hprogress
  obtain ⟨l₅, hl₅, rfl⟩ := looks_of_map hseq
  obtain ⟨rfl, h₆⟩ := out_of_through h
  exact ⟨_, rfl, .read h₁ h₂ h₃ h₄ h₅ h₆ hl₁ hl₂ hl₃ hl₄ hl₅⟩

/-- **The parts of a state hold together**, though the scan goes on while they are read. -/
theorem Pieces.stateOf {st : ScanState} (hfresh : Later rules (fresh store) d) (hl : d.scans[j]? = some l)
    (h : Pieces rules d u j st) :
    ∃ m, u.scans[j]? = some m ∧ m.sitting.scan.id = l.sitting.scan.id ∧ StateOf m st := by
  cases h with
  | @read d₁ d₂ d₃ d₄ d₅ l₁ l₂ l₃ l₄ l₅ h₁ h₂ h₃ h₄ h₅ h₆ hl₁ hl₂ _ _ hl₅ =>
    obtain ⟨l₁', hl₁', hid₁, -⟩ := scans_later hfresh h₁ hl
    cases hl₁.symm.trans hl₁'
    have hfresh₂ := (hfresh.trans h₁).trans h₂
    obtain ⟨l₂', hl₂', hid₂, -⟩ := scans_later (hfresh.trans h₁) h₂ hl₁
    cases hl₂.symm.trans hl₂'
    obtain ⟨l₅', hl₅', hid₅, -, hover₅⟩ := scans_later hfresh₂ ((h₃.trans h₄).trans h₅) hl₂
    cases hl₅.symm.trans hl₅'
    have hfresh₅ := hfresh₂.trans ((h₃.trans h₄).trans h₅)
    have hst : StateOf l₅ ⟨l₁.sitting.scan.id, !l₂.log.closed, if l₂.log.closed then
        some (number (Convert.stopCause l₃.sitting.scan.handle.stopped)) else none,
        some l₄.sitting.scan.progress, l₅.log.watermark⟩ := by
      refine ⟨by rw [hid₅, hid₂], Nat.le_refl _, fun hended => ?_, fun hgoing => ?_, rfl⟩
      · have hc : l₂.log.closed = true := by simpa using hended
        exact ⟨(hover₅ hc).1, rfl, by rw [hc]; rfl⟩
      · have hc : l₂.log.closed = false := by simpa using hgoing
        rw [hc]
        rfl
    obtain ⟨m, hm, hid, hstm⟩ := hst.later hfresh₅ h₆ hl₅
    exact ⟨m, hm, by rw [hid, hid₅, hid₂, hid₁], hstm⟩

/-- What a state answered by `d` to a request that came in at `e` is of: a live scan the name was looked up to,
read piece by piece since and true of the scan still; or a record, as the directory held it when the name was
looked up to that. -/
inductive Describes (rules : Rules E) (e d : Daemon E) (id : String) (st : ScanState) : Prop
  | live {t : Daemon E} {j : Nat} {l : Live E} : Later rules e t → t.get rules id = .ok (.live j) →
      Pieces rules t d j st → d.scans[j]? = some l → l.sitting.scan.id = id → StateOf l st →
      Describes rules e d id st
  | recorded {t : Daemon E} {record : Recorded E} : Later rules e t →
      t.get rules id = .ok (.recorded record) → Later rules t d → st = record.state → Describes rules e d id st

theorem Describes.later {st : ScanState} (hfresh : Later rules (fresh store) d) (hd : Later rules d d')
    (h : Describes rules e d id st) : Describes rules e d' id st := by
  cases h with
  | live ht hget hpieces hl hid hst =>
    obtain ⟨l', hl', hid', hst'⟩ := hst.later hfresh hd hl
    exact .live ht hget (hpieces.later hd) hl' (hid'.trans hid) hst'
  | recorded ht hget hu hst => exact .recorded ht hget (hu.trans hd) hst

theorem Describes.since {st : ScanState} {e' : Daemon E} (he : Later rules e' e)
    (h : Describes rules e d id st) : Describes rules e' d id st := by
  cases h with
  | live ht hget hpieces hl hid hst => exact .live (he.trans ht) hget hpieces hl hid hst
  | recorded ht hget hu hst => exact .recorded (he.trans ht) hget hu hst

theorem scan_of_get (hfresh : Later rules (fresh store) d) (h : d.get rules id = .ok (.live j)) :
    ∃ l, d.scans[j]? = some l ∧ l.sitting.scan.id = id := by
  unfold get at h
  split at h
  · rename_i i hi
    cases h
    exact reach_filed hfresh id _ hi
  · split_ifs at h
    cases hread : Recorded.read d.store id <;> simp [hread, Except.map] at h

theorem found_of_through {α : Type} {k : Found E → Looks E α} {out : Except Error α}
    (h : Program.Through (Later rules) (Gives rules) (Stdio.named id >>= k) d (.ofExcept out) u) :
    ∃ t, Later rules d t ∧
      ((∃ refused, t.get rules id = .error refused ∧ out = .error refused ∧ Later rules t u) ∨
        ∃ scan, t.get rules id = .ok scan ∧
          Program.Through (Later rules) (Gives rules) (k scan) t (.ofExcept out) u) := by
  obtain ⟨t, effect, answer, ht, hanswer, h⟩ := look_of_through (q := .reading (.get id)) (fun _ => rfl) h
  refine ⟨t, ht, ?_⟩
  obtain rfl : t.get rules id = answer := Option.some.inj hanswer
  cases hget : t.get rules id with
  | error refused =>
    rw [hget] at h
    obtain ⟨heq, hu⟩ := Program.Through.of_fail Later.refl Later.trans h
    cases out with
    | ok value => cases heq
    | error error =>
      cases heq
      exact .inl ⟨refused, rfl, rfl, hu⟩
  | ok scan =>
    rw [hget] at h
    exact .inr ⟨scan, rfl, h⟩

theorem describes_of_state {scan : Found E} {t : Daemon E} {out : Except Error ScanState}
    (hfresh : Later rules (fresh store) d) (hget : d.get rules id = .ok scan) (ht : Later rules d t)
    (h : Program.Through (Later rules) (Gives rules) scan.state t (.ofExcept out) u) :
    ∃ st, out = .ok st ∧ Describes rules d u id st := by
  cases scan with
  | live j =>
    obtain ⟨l, hl, hid⟩ := scan_of_get hfresh hget
    obtain ⟨st, rfl, hpieces⟩ := pieces_of_through h
    obtain ⟨m, hm, hidm, hst⟩ := (hpieces.since ht).stateOf hfresh hl
    exact ⟨st, rfl, .live (.refl d) hget (hpieces.since ht) hm (hidm.trans hid) hst⟩
  | recorded record =>
    obtain ⟨rfl, hu⟩ := out_of_through h
    exact ⟨_, rfl, .recorded (.refl d) hget (ht.trans hu) rfl⟩

/-- What a method that answers with a state comes to: the registry's refusal, or the state of what it has under
the name. -/
def Stated (rules : Rules E) (id : String) (d : Daemon E) (out : Except Error ScanState) (u : Daemon E) :
    Prop :=
  (∃ t refused, Later rules d t ∧ t.get rules id = .error refused ∧ out = .error refused ∧ Later rules t u) ∨
    ∃ st, out = .ok st ∧ Describes rules d u id st

theorem stated_of_get {out : Except Error ScanState} (hfresh : Later rules (fresh store) d)
    (h : Program.Through (Later rules) (Gives rules) (Stdio.get id) d (.ofExcept out) u) :
    Stated rules id d out u := by
  obtain ⟨t, ht, ⟨refused, hget, rfl, hu⟩ | ⟨scan, hget, h⟩⟩ := found_of_through h
  · exact .inl ⟨t, refused, ht, hget, rfl, hu⟩
  · obtain ⟨st, rfl, hst⟩ := describes_of_state (hfresh.trans ht) hget (.refl t) h
    exact .inr ⟨st, rfl, hst.since ht⟩

theorem stated_of_stop {out : Except Error ScanState} (hfresh : Later rules (fresh store) d)
    (h : Program.Through (Later rules) (Gives rules) (Stdio.stop id) d (.ofExcept out) u) :
    Stated rules id d out u := by
  obtain ⟨t, ht, ⟨refused, hget, rfl, hu⟩ | ⟨scan, hget, h⟩⟩ := found_of_through h
  · exact .inl ⟨t, refused, ht, hget, rfl, hu⟩
  · have hstate : ∃ st, out = .ok st ∧ Describes rules t u id st := by
      cases scan with
      | live j =>
        rcases Program.Through.ask_cases Later.refl Later.trans h with
          ⟨heq, -⟩ | ⟨_, t', t'', hs, hgives, hrest⟩
        · exact absurd heq Program.ofExcept_ne_ask
        · exact describes_of_state (hfresh.trans ht) hget (hs.trans hgives.later) hrest
      | recorded record => exact describes_of_state (hfresh.trans ht) hget (.refl t) h
    obtain ⟨st, rfl, hst⟩ := hstate
    exact .inr ⟨st, rfl, hst.since ht⟩

end state

end Daemon

namespace Server

open Daemon (Later Gives Comes Describes Stated)

variable {o : Outside E} {rules : Rules E} {s s' : Server E} {d e : Daemon E} {a : Stdio.Answering E}
  {id : String}
  {store : Except EngineError (List (Entry E.toEngineTypes))}

theorem stated_of_outcome {program : Looks E ScanState} {rid : Json} {frame : Stdio.Frame}
    (hfresh : Later rules (.fresh store) e)
    (hstated : ∀ {begun u : Daemon E} {out}, Later rules (.fresh store) begun →
      Program.Through (Later rules) (Gives rules) program begun (.ofExcept out) u → Stated rules id begun out u)
    (h : Outcome rules e (.state <$> program) d rid frame) :
    (∃ t refused, Later rules e t ∧ t.get rules id = .error refused ∧ Later rules t d ∧
        frame = .error rid refused) ∨
      ∃ st json, Writer.sorted st.write = some json ∧ frame = .result rid json ∧ Describes rules e d id st := by
  obtain ⟨out, ⟨begun, hbegun, hthrough⟩, hframed⟩ := h
  have hfresh' := hfresh.trans hbegun
  rcases Program.Through.bind_cases Later.refl Later.trans hthrough with
    ⟨st, t, hst, hrest⟩ | ⟨refused, rfl, hfail⟩
  · obtain ⟨rfl, ht⟩ := Daemon.out_of_through hrest
    obtain ⟨json, hjson, rfl⟩ := hframed
    rcases @hstated _ _ (.ok st) hfresh' hst with ⟨_, _, _, _, heq, _⟩ | ⟨st', heq, hdescribes⟩
    · cases heq
    · cases heq
      have hfresh'' := hfresh'.trans (hst.state Later.refl Later.trans Daemon.Gives.later)
      exact .inr ⟨st, json, hjson, rfl, (hdescribes.later hfresh'' ht).since hbegun⟩
  · rcases @hstated _ _ (.error refused) hfresh' hfail with ⟨t, _, ht, hget, heq, hu⟩ | ⟨st', heq, -⟩
    · cases heq
      exact .inl ⟨t, refused, hbegun.trans ht, hget, hu, hframed⟩
    · cases heq

theorem stated_of_reach {P : Server E → Act E → Prop} {who : Nat × Nat} {q : Asked E}
    (hs : (machine o rules).Reach Machine.Always (fresh store) s) (hnew : s.task who = none)
    (h : (machine o rules).Reach P s s') (ha : s'.task who = some a)
    (hasked : Stdio.asked o.serde a.request.method a.request.params = .ok q) (hq : q = .get id ∨ q = .stop id)
    {frame : Stdio.Frame} (hframe : frame ∈ s'.wrote who) :
    (∃ e refused, Later rules s.daemon e ∧ e.get rules id = .error refused ∧ Later rules e s'.daemon ∧
        frame = .error a.request.id refused) ∨
      ∃ st json, Writer.sorted st.write = some json ∧ frame = .result a.request.id json ∧
        Describes rules s.daemon s'.daemon id st := by
  have hfresh := daemon_reach hs
  rcases hq with rfl | rfl
  · rcases frames_of_looking (reach_looking hs hnew h ha hasked rfl) with hnil | ⟨_, hsaid, hout⟩
    · simp [hnil] at hframe
    · obtain rfl : frame = _ := by simpa [hsaid] using hframe
      exact stated_of_outcome hfresh Daemon.stated_of_get hout
  · rcases frames_of_looking (reach_looking hs hnew h ha hasked rfl) with hnil | ⟨_, hsaid, hout⟩
    · simp [hnil] at hframe
    · obtain rfl : frame = _ := by simpa [hsaid] using hframe
      exact stated_of_outcome hfresh Daemon.stated_of_stop hout

/-- **What `get` and `stop` answer holds together, though the scan goes on while they read it**: a client is
written a refusal the registry gave while it waited; or a live scan's state, read piece by piece while it waited
and still true of the scan, which keeps its last number for good once it says the scan is over; or the state of a
record as the directory held it while it waited. -/
theorem stated {P : Server E → Act E → Prop} {c t : Nat} {conn : Stdio.Connection E} {q : Asked E}
    (hs : (machine o rules).Reach Machine.Always (fresh store) s) (hnew : s.task (c, t) = none)
    (h : (machine o rules).Reach P s s') (hconn : s'.connections[c]? = some conn)
    (ha : conn.answering[t]? = some a)
    (hasked : Stdio.asked o.serde a.request.method a.request.params = .ok q) (hq : q = .get id ∨ q = .stop id)
    {frame : Stdio.Frame} (hframe : frame ∈ Sequence.said some (.task t) conn.written) :
    (∃ e refused, Later rules s.daemon e ∧ e.get rules id = .error refused ∧ Later rules e s'.daemon ∧
        frame = .error a.request.id refused) ∨
      ∃ st json, Writer.sorted st.write = some json ∧ frame = .result a.request.id json ∧
        Describes rules s.daemon s'.daemon id st := by
  rw [← wrote_eq hconn] at hframe
  exact stated_of_reach hs hnew h ((task_eq hconn).trans ha) hasked hq hframe

theorem stated_answered : ∃ frame ∈ Sequence.said some (.task 1) asker.written,
    (∃ e refused, Later Daemon.recording started.daemon e ∧ e.get Daemon.recording "A" = .error refused ∧
        Later Daemon.recording e answered.daemon ∧ frame = .error getTask.request.id refused) ∨
      ∃ st json, Writer.sorted st.write = some json ∧ frame = .result getTask.request.id json ∧
        Describes Daemon.recording started.daemon answered.daemon "A" st := by
  obtain ⟨frame, hframe⟩ := List.length_pos_iff_exists_mem.mp
    (show 0 < (Sequence.said some (.task 1) asker.written).length by rw [asker_seen.2.2.1]; exact Nat.one_pos)
  refine ⟨frame, hframe, ?_⟩
  exact stated reach_started getTask_new reach_answered asker_eq getTask_eq getTask_asked (.inl rfl) hframe

end Server

end ZondDaemon
