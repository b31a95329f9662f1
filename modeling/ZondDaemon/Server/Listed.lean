import ZondDaemon.Server.Got

/-!
# What a client is told there is

`list` answers out of the journal directory as it stood at one moment while the request waited: the newest of
the records in it, newest first, as many as were asked for (`listed`).
-/

namespace ZondDaemon

open Proto

variable {E : Engine}

/-- `chosen` are the `n` newest of the records, the newest first. -/
structure Newest (entries chosen : List (Entry E.toEngineTypes)) (n : Nat) : Prop where
  length : chosen.length = min n entries.length
  ordered : chosen.Pairwise fun one other => other.createdAt ≤ one.createdAt
  /-- Each record is chosen or left, as often as it is there, and none that is left is newer. -/
  rest : ∃ left, (chosen ++ left).Perm entries ∧ ∀ one ∈ chosen, ∀ other ∈ left, other.createdAt ≤ one.createdAt

theorem newest_take (entries : List (Entry E.toEngineTypes)) (n : Nat) :
    Newest entries ((entries.mergeSort fun one other => other.createdAt ≤ one.createdAt).take n) n := by
  have hsorted := @List.pairwise_mergeSort (Entry E.toEngineTypes)
    (fun one other => decide (other.createdAt ≤ one.createdAt))
    (fun a b c hab hbc => decide_eq_true (Nat.le_trans (of_decide_eq_true hbc) (of_decide_eq_true hab)))
    (fun a b => by simpa using Nat.le_total b.createdAt a.createdAt) entries
  have hperm := List.mergeSort_perm entries fun one other => decide (other.createdAt ≤ one.createdAt)
  have hsplit := List.take_append_drop n
    (entries.mergeSort fun one other => decide (other.createdAt ≤ one.createdAt))
  rw [← hsplit] at hsorted
  obtain ⟨hchosen, -, hacross⟩ := List.pairwise_append.mp hsorted
  refine ⟨?_, hchosen.imp fun h => of_decide_eq_true h, _, hsplit ▸ hperm, fun one hone other hother => ?_⟩
  · rw [List.length_take, hperm.length_eq]
  · exact of_decide_eq_true (hacross one hone other hother)

theorem listing_typed (entry : Entry E.toEngineTypes) : (listing entry).Typed := by
  have hfits : ∀ count, ∀ n ∈ u64 count, n ≤ u64Max := by
    intro count n hn
    unfold u64 at hn
    split_ifs at hn with hlt
    · cases hn
      exact Nat.le_sub_one_of_lt hlt
    · cases hn
  refine ⟨hfits _, fun n hn => ?_⟩
  obtain ⟨count, -, hcount⟩ := Option.bind_eq_some_iff.mp hn
  exact hfits count n hcount

namespace Daemon

variable {rules : Rules E} {d u : Daemon E} {limit : Option Nat}

theorem list_of_through {out : Except Error ListResponse}
    (h : Program.Through (Later rules) (Gives rules) (Stdio.list limit) d (.ofExcept out) u) :
    ∃ t, Later rules d t ∧ Later rules t u ∧ out = (t.list rules limit).map ListResponse.mk := by
  obtain ⟨t, effect, answer, ht, hanswer, hrest⟩ := look_of_through (q := .list limit) (fun _ => rfl) h
  obtain rfl : t.list rules limit = answer := Option.some.inj hanswer
  refine ⟨t, ht, ?_⟩
  cases hlist : t.list rules limit with
  | ok scans =>
    rw [hlist] at hrest
    obtain ⟨rfl, hu⟩ := out_of_through hrest
    exact ⟨hu, rfl⟩
  | error refused =>
    rw [hlist] at hrest
    obtain ⟨heq, hu⟩ := Program.Through.of_fail Later.refl Later.trans hrest
    cases out with
    | ok value => cases heq
    | error error =>
      cases heq
      exact ⟨hu, rfl⟩

/-- What a listing is of: the newest of what the directory held at a moment after `e`. -/
def Lists (rules : Rules E) (e d : Daemon E) (limit : Option Nat) (response : ListResponse) : Prop :=
  (rules.root = false ∧ response.scans = []) ∨
    ∃ t entries chosen, Later rules e t ∧ Later rules t d ∧ t.store = .ok entries ∧
      Newest entries chosen (limitOf limit) ∧ response.scans = chosen.map listing

theorem lists_of_list {e t : Daemon E} {scans : List ScanListing} (he : Later rules e t) (ht : Later rules t d)
    (h : t.list rules limit = .ok scans) : Lists rules e d limit ⟨scans⟩ := by
  unfold list at h
  split at h
  · split at h
    · cases h
    · rename_i entries hstore
      cases h
      exact .inr ⟨t, entries, _, he, ht, hstore, newest_take entries _, rfl⟩
  · rename_i hroot
    cases h
    exact .inl ⟨by simpa using hroot, rfl⟩

theorem lists_typed {e : Daemon E} {response : ListResponse} (h : Lists rules e d limit response) :
    ∀ entry ∈ response.scans, entry.Typed := by
  intro entry hentry
  rcases h with ⟨-, hnil⟩ | ⟨t, entries, chosen, -, -, -, -, hscans⟩
  · simp [hnil] at hentry
  · rw [hscans] at hentry
    obtain ⟨recorded, -, rfl⟩ := List.mem_map.mp hentry
    exact listing_typed recorded

end Daemon

namespace Server

open Daemon (Later Lists)

variable {o : Outside E} {rules : Rules E} {s s' : Server E} {a : Stdio.Answering E}
  {store : Except EngineError (List (Entry E.toEngineTypes))}

/-- **A client that asks for a listing reads the newest records of the journal directory, newest first**, as the
directory stood at one moment while the request waited, as many as the request's limit or a hundred, none twice
and none left out for an older one; or why the directory could not be read. -/
theorem listed {P : Server E → Act E → Prop} {c t : Nat} {conn : Stdio.Connection E} {limit : Option Nat}
    (hs : (machine o rules).Reach Machine.Always (fresh store) s) (hnew : s.task (c, t) = none)
    (h : (machine o rules).Reach P s s') (hconn : s'.connections[c]? = some conn)
    (ha : conn.answering[t]? = some a)
    (hasked : Stdio.asked o.serde a.request.method a.request.params = .ok (.list (E := E) limit))
    {frame : Stdio.Frame} (hframe : frame ∈ Sequence.said some (.task t) conn.written) :
    (∃ t refused, Later rules s.daemon t ∧ Later rules t s'.daemon ∧ t.store = .error refused ∧
        frame = .error a.request.id (.engine refused)) ∨
      ∃ json response, frame = .result a.request.id json ∧ ListResponse.reader.read json = some response ∧
        Lists rules s.daemon s'.daemon limit response := by
  rw [← wrote_eq hconn] at hframe
  rcases frames_of_looking (reach_looking hs hnew h ((task_eq hconn).trans ha) hasked rfl) with
    hnil | ⟨_, hsaid, hout⟩
  · simp [hnil] at hframe
  · obtain rfl : frame = _ := by simpa [hsaid] using hframe
    obtain ⟨out, ⟨begun, hbegun, hthrough⟩, hframed⟩ := hout
    rcases Program.Through.bind_cases Later.refl Later.trans hthrough with
      ⟨response, u, hlist, hrest⟩ | ⟨refused, rfl, hlist⟩
    · obtain ⟨rfl, hu⟩ := Daemon.out_of_through hrest
      obtain ⟨e, hbe, heu, hok⟩ := @Daemon.list_of_through _ _ _ _ _ (.ok response) hlist
      obtain ⟨json, hjson, rfl⟩ := hframed
      cases hscans : e.list rules limit with
      | error refused =>
        rw [hscans] at hok
        cases hok
      | ok scans =>
        rw [hscans] at hok
        cases hok
        have hlists := Daemon.lists_of_list (hbegun.trans hbe) (heu.trans hu) hscans
        exact .inr ⟨json, _, rfl, ListResponse.returns (Daemon.lists_typed hlists) json hjson, hlists⟩
    · obtain ⟨e, hbe, heu, herror⟩ := @Daemon.list_of_through _ _ _ _ _ (.error refused) hlist
      cases hframed
      left
      unfold Daemon.list at herror
      split at herror
      · split at herror
        · rename_i error hstore
          cases herror
          exact ⟨e, error, hbegun.trans hbe, heu, hstore, rfl⟩
        · cases herror
      · cases herror

theorem listed_answered : ∃ frame ∈ Sequence.said some (.task 2) asker.written,
    (∃ t refused, Later Daemon.recording started.daemon t ∧ Later Daemon.recording t answered.daemon ∧
        t.store = .error refused ∧ frame = .error listTask.request.id (.engine refused)) ∨
      ∃ json response, frame = .result listTask.request.id json ∧
        ListResponse.reader.read json = some response ∧
        Lists Daemon.recording started.daemon answered.daemon (some 1) response := by
  obtain ⟨frame, hframe⟩ := List.length_pos_iff_exists_mem.mp
    (show 0 < (Sequence.said some (.task 2) asker.written).length by rw [asker_seen.2.2.2]; exact Nat.one_pos)
  refine ⟨frame, hframe, ?_⟩
  exact listed reach_started listTask_new reach_answered asker_eq listTask_eq listTask_asked hframe

end Server

end ZondDaemon
