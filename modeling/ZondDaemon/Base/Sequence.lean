import Mathlib

/-!
# Numbered sequences

A sequence whose entries carry their own place, counted from one: reading it from a cursor (`filter`) is
dropping a prefix, and a number names one entry. `slice a b l` is the stretch numbered `a + 1, …, b`; a
reader that has been given `slice a c l` and is handed the entries after `c` holds a longer slice, and a
slice that lies inside a sequence does not change when the sequence grows.

The second half is the last value said for a key in a sequence of keyed and unkeyed entries (`latest`), a
sequence with what is no change left out (`changes`), and what a count becomes where one element is
replaced.
-/

namespace Sequence

variable {ε κ ν : Type*}

/-! ## Numbering -/

/-- The entry in place `i`, counted from zero, is numbered `i + 1`. -/
def Numbered (num : ε → Nat) (l : List ε) : Prop :=
  ∀ i e, l[i]? = some e → num e = i + 1

variable {num : ε → Nat} {l m : List ε} {e e' : ε}

theorem numbered_nil : Numbered num ([] : List ε) := by
  intro i e h
  simp at h

theorem Numbered.concat (h : Numbered num l) (he : num e = l.length + 1) :
    Numbered num (l ++ [e]) := by
  intro i e' hi
  rcases Nat.lt_trichotomy i l.length with hlt | heq | hgt
  · rw [List.getElem?_append_left hlt] at hi
    exact h i e' hi
  · subst heq
    simp only [List.getElem?_concat_length, Option.some.injEq] at hi
    rw [← hi, he]
  · rw [List.getElem?_eq_none (by simp; omega)] at hi
    cases hi

theorem Numbered.of_initial (h : Numbered num m) (hl : l <+: m) : Numbered num l := by
  obtain ⟨rest, rfl⟩ := hl
  intro i e hi
  exact h i e (List.getElem?_append_left (List.getElem?_eq_some_iff.mp hi).1 ▸ hi)

theorem Numbered.bounds (h : Numbered num l) (he : e ∈ l) : 1 ≤ num e ∧ num e ≤ l.length := by
  obtain ⟨i, hi, rfl⟩ := List.mem_iff_getElem.mp he
  have := h i l[i] (List.getElem?_eq_getElem hi)
  omega

theorem Numbered.inj (h : Numbered num l) (he : e ∈ l) (he' : e' ∈ l) (hn : num e = num e') :
    e = e' := by
  obtain ⟨i, hi⟩ := List.mem_iff_getElem?.mp he
  obtain ⟨j, hj⟩ := List.mem_iff_getElem?.mp he'
  have hij : i = j := by
    have := h i e hi
    have := h j e' hj
    omega
  subst hij
  rw [hi] at hj
  exact Option.some.inj hj

theorem Numbered.pairwise (h : Numbered num l) : l.Pairwise fun e e' => num e < num e' := by
  rw [List.pairwise_iff_getElem]
  intro i j hi hj hij
  have := h i _ (List.getElem?_eq_getElem hi)
  have := h j _ (List.getElem?_eq_getElem hj)
  omega

theorem Numbered.mem_drop (h : Numbered num l) {c : Nat} : e ∈ l.drop c ↔ e ∈ l ∧ c < num e := by
  constructor
  · intro he
    obtain ⟨i, hi⟩ := List.mem_iff_getElem?.mp he
    rw [List.getElem?_drop] at hi
    have := h _ e hi
    exact ⟨List.mem_of_mem_drop he, by omega⟩
  · rintro ⟨he, hc⟩
    obtain ⟨i, hi⟩ := List.mem_iff_getElem?.mp he
    have := h i e hi
    refine List.mem_iff_getElem?.mpr ⟨i - c, ?_⟩
    rw [List.getElem?_drop, show c + (i - c) = i by omega, hi]

theorem Numbered.filter_after (h : Numbered num l) (c : Nat) :
    l.filter (fun e => decide (c < num e)) = l.drop c := by
  induction l using List.reverseRecOn with
  | nil => simp
  | append_singleton l e ih =>
    have hl : Numbered num l := h.of_initial (List.prefix_append l [e])
    have he : num e = l.length + 1 := h l.length e (by simp)
    rw [List.filter_append, ih hl, List.drop_append]
    by_cases hc : c ≤ l.length
    · simp [he, Nat.sub_eq_zero_of_le hc, Nat.lt_succ_of_le hc]
    · have hpassed : [e].drop (c - l.length) = [] := List.drop_eq_nil_of_le (by simp; omega)
      rw [hpassed]
      simp [he, show ¬ c < l.length + 1 by omega]

/-! ## Slices -/

/-- The stretch of entries numbered from `a + 1` up to `b`. -/
def slice (a b : Nat) (l : List ε) : List ε := (l.take b).drop a

theorem slice_of_le {a b : Nat} (h : b ≤ a) : slice a b l = [] := by
  rw [slice, List.drop_eq_nil_iff, List.length_take]
  omega

@[simp] theorem slice_self (a : Nat) : slice a a l = [] := slice_of_le (Nat.le_refl a)

theorem slice_append {a b : Nat} (h : b ≤ l.length) : slice a b (l ++ m) = slice a b l := by
  rw [slice, slice, List.take_append_of_le_length h]

theorem slice_of_initial {a b : Nat} (hl : l <+: m) (h : b ≤ l.length ∨ b ≤ a) :
    slice a b m = slice a b l := by
  rcases h with h | h
  · obtain ⟨rest, rfl⟩ := hl
    exact slice_append h
  · rw [slice_of_le h, slice_of_le h]

theorem slice_length {a : Nat} : slice a l.length l = l.drop a := by
  rw [slice, List.take_length]

theorem slice_trans {a b c : Nat} (hab : a ≤ b) (hbc : b ≤ c) :
    slice a b l ++ slice b c l = slice a c l := by
  apply List.ext_getElem?
  intro i
  simp only [slice, List.getElem?_append, List.length_drop, List.length_take, List.getElem?_drop,
    List.getElem?_take]
  split_ifs <;> grind

theorem Numbered.mem_slice (h : Numbered num l) {a b : Nat} :
    e ∈ slice a b l ↔ e ∈ l ∧ a < num e ∧ num e ≤ b := by
  rw [slice, (h.of_initial (List.take_prefix b l)).mem_drop]
  constructor
  · rintro ⟨he, ha⟩
    have := ((h.of_initial (List.take_prefix b l)).bounds he).2
    rw [List.length_take] at this
    exact ⟨List.mem_of_mem_take he, ha, by omega⟩
  · rintro ⟨he, ha, hb⟩
    obtain ⟨i, hi⟩ := List.mem_iff_getElem?.mp he
    have := h i e hi
    refine ⟨List.mem_iff_getElem?.mpr ⟨i, ?_⟩, ha⟩
    rw [List.getElem?_take, if_pos (by omega), hi]

theorem Numbered.mem_of_initial (h : Numbered num m) (hl : l <+: m) (he : e ∈ m)
    (hle : num e ≤ l.length) : e ∈ l := by
  obtain ⟨i, hi⟩ := List.mem_iff_getElem?.mp he
  have := h i e hi
  obtain ⟨rest, rfl⟩ := hl
  rw [List.getElem?_append_left (by omega)] at hi
  exact List.mem_of_getElem? hi

theorem Numbered.slice_eq_drop (h : Numbered num l) {a b : Nat}
    (hall : ∀ e ∈ l, a < num e → num e ≤ b) : slice a b l = l.drop a := by
  by_cases hlen : l.length ≤ a
  · rw [List.drop_eq_nil_of_le hlen, slice, List.drop_eq_nil_iff, List.length_take]
    omega
  · have hlast : l[l.length - 1]? = some l[l.length - 1] := List.getElem?_eq_getElem (by omega)
    have hnum := h _ _ hlast
    have hb := hall _ (List.mem_of_getElem? hlast) (by omega)
    rw [slice, List.take_of_length_le (by omega)]

theorem Numbered.slice_cons (h : Numbered num l) {a b : Nat} {rest : List ε}
    (hs : slice a b l = e :: rest) : e ∈ l ∧ num e = a + 1 ∧ rest = slice (a + 1) b l := by
  have hget : (slice a b l)[0]? = some e := by rw [hs]; rfl
  have htail : (slice a b l).tail = rest := by rw [hs]; rfl
  refine ⟨?_, ?_, ?_⟩
  · exact (h.mem_slice.mp (by rw [hs]; exact List.mem_cons_self)).1
  · rw [slice, List.getElem?_drop, List.getElem?_take] at hget
    split_ifs at hget
    exact h _ e hget
  · rw [← htail, slice, slice, List.tail_drop]

/-! ## The last value said for a key -/

variable [DecidableEq κ] (key : ε → Option (κ × ν)) (a : κ)

/-- Everything said for `a`, in order. -/
def said (l : List ε) : List ν :=
  l.filterMap fun e => (key e).bind fun p => if p.1 = a then some p.2 else none

/-- The last thing said for `a`. -/
def latest (l : List ε) : Option ν := (said key a l).getLast?

variable {key a} {v : ν}

theorem said_append : said key a (l ++ m) = said key a l ++ said key a m := by
  simp [said]

theorem mem_said : v ∈ said key a l ↔ ∃ e ∈ l, key e = some (a, v) := by
  simp only [said, List.mem_filterMap, Option.bind_eq_some_iff]
  constructor
  · rintro ⟨e, he, ⟨b, w⟩, hk, hb⟩
    split at hb
    · rename_i hba
      simp only at hba
      simp only [Option.some.injEq] at hb
      exact ⟨e, he, by rw [hk, hba, hb]⟩
    · cases hb
  · rintro ⟨e, he, hk⟩
    exact ⟨e, he, (a, v), hk, by simp⟩

theorem latest_append : latest key a (l ++ m) = (latest key a m).or (latest key a l) := by
  rw [latest, said_append, List.getLast?_append, latest, latest]

theorem latest_mem (h : latest key a l = some v) : ∃ e ∈ l, key e = some (a, v) :=
  mem_said.mp (List.mem_of_getLast? h)

theorem latest_eq_none : latest key a l = none ↔ ∀ e ∈ l, ∀ v, key e ≠ some (a, v) := by
  rw [latest, List.getLast?_eq_none_iff, List.eq_nil_iff_forall_not_mem]
  constructor
  · intro h e he v hk
    exact h v (mem_said.mpr ⟨e, he, hk⟩)
  · intro h v hv
    obtain ⟨e, he, hk⟩ := mem_said.mp hv
    exact h e he v hk

theorem latest_isSome {l : List ε} (he : e ∈ l) (hk : key e = some (a, v)) :
    ∃ w, latest key a l = some w := by
  cases hl : latest key a l with
  | some w => exact ⟨w, rfl⟩
  | none => exact absurd hk (latest_eq_none.mp hl e he v)

theorem latest_append_of_none (h : latest key a m = none) :
    latest key a (l ++ m) = latest key a l := by
  rw [latest_append, h, Option.none_or]

theorem latest_append_of_some (h : latest key a m = some v) :
    latest key a (l ++ m) = some v := by
  rw [latest_append, h, Option.some_or]

theorem said_append_of_none (h : key e = none) : said key a (l ++ [e]) = said key a l := by
  rw [said_append, said, said, List.filterMap_cons_none (by rw [h]; rfl), List.filterMap_nil,
    List.append_nil]

theorem said_append_self (h : key e = some (a, v)) : said key a (l ++ [e]) = said key a l ++ [v] := by
  rw [said_append, said, said, List.filterMap_cons_some (b := v) (by rw [h]; simp), List.filterMap_nil]

theorem said_append_of_ne {b : κ} (h : key e = some (b, v)) (hb : b ≠ a) :
    said key a (l ++ [e]) = said key a l := by
  rw [said_append, said, said, List.filterMap_cons_none (by rw [h]; simp [hb]), List.filterMap_nil,
    List.append_nil]

theorem said_filterMap {β : Type*} (f : β → Option ε) (m : List β) :
    said key a (m.filterMap f) = said (fun b => (f b).bind key) a m := by
  rw [said, said, List.filterMap_filterMap]
  congr 1
  funext b
  rw [Option.bind_assoc]

theorem filter_eq_said {β : Type*} {f : ν → β} {p : β → Bool} {m : List (κ × ν)}
    (h : ∀ e ∈ m, p (f e.2) = true ↔ e.1 = a) :
    (m.map fun e => f e.2).filter p = (said some a m).map f := by
  induction m with
  | nil => rfl
  | cons e rest ih =>
    have hrest := ih fun other hother => h other (List.mem_cons_of_mem _ hother)
    have he := h e List.mem_cons_self
    rw [List.map_cons, said, List.filterMap_cons, ← said]
    by_cases ha : e.1 = a
    · rw [List.filter_cons_of_pos (he.mpr ha), hrest]
      simp [ha]
    · rw [List.filter_cons_of_neg fun hp => ha (he.mp hp), hrest]
      simp [ha]

/-! ## Places in a sequence without repetitions -/

section places
variable [DecidableEq ν] {vs ws : List ν} {w : ν}

theorem idxOf_of_initial (hp : vs <+: ws) (hv : v ∈ vs) : ws.idxOf v = vs.idxOf v := by
  obtain ⟨rest, rfl⟩ := hp
  exact List.idxOf_append_of_mem hv

theorem idxOf_le_last (hn : vs.Nodup) (hl : vs.getLast? = some w) (hv : v ∈ vs) :
    vs.idxOf v ≤ vs.idxOf w := by
  obtain ⟨front, rfl⟩ := List.getLast?_eq_some_iff.mp hl
  have hw : w ∉ front := fun hmem => (List.nodup_append.mp hn).2.2 w hmem w List.mem_cons_self rfl
  rw [List.idxOf_append_of_notMem hw]
  have := List.idxOf_lt_length_of_mem hv
  simp only [List.length_append, List.length_cons, List.length_nil, List.idxOf_cons_self] at this ⊢
  omega

theorem eq_last (hn : vs.Nodup) (hl : vs.getLast? = some w) (hv : v ∈ vs)
    (hle : vs.idxOf w ≤ vs.idxOf v) : v = w := by
  have hw : w ∈ vs := List.mem_of_getLast? hl
  exact (List.idxOf_inj hv).mp (Nat.le_antisymm (idxOf_le_last hn hl hv) hle)

end places

/-! ## Changes -/

section changes
variable {β : Type*} [DecidableEq β] {f : ν → β} {last : Option β} {vs ws : List ν}

/-- The values whose mark is not that of the value before, the mark before the first being `last`. -/
def changes (f : ν → β) : Option β → List ν → List ν
  | _, [] => []
  | last, v :: rest => (if last = some (f v) then [] else [v]) ++ changes f (some (f v)) rest

theorem changes_append : changes f last (vs ++ ws) =
    changes f last vs ++ changes f ((vs.getLast?.map f).or last) ws := by
  induction vs generalizing last with
  | nil => simp [changes]
  | cons v rest ih =>
    rw [List.cons_append, changes, changes, ih, List.append_assoc]
    congr 2
    cases hrest : rest.getLast? with
    | none => simp [List.getLast?_eq_none_iff.mp hrest]
    | some w => simp [List.getLast?_cons, hrest]

theorem changes_concat {v : ν} : changes f none (vs ++ [v]) =
    changes f none vs ++ if vs.getLast?.map f = some (f v) then [] else [v] := by
  simp [changes_append, changes]

theorem mem_of_mem_changes {v : ν} (h : v ∈ changes f last vs) : v ∈ vs := by
  induction vs generalizing last with
  | nil => cases h
  | cons w rest ih =>
    rw [changes, List.mem_append] at h
    rcases h with h | h
    · split_ifs at h
      · cases h
      · rw [List.mem_singleton.mp h]
        exact List.mem_cons_self
    · exact List.mem_cons_of_mem w (ih h)

theorem getLast?_changes : ((changes f last vs).getLast?.map f).or last = (vs.getLast?.map f).or last := by
  induction vs using List.reverseRecOn generalizing last with
  | nil => rfl
  | append_singleton vs v ih =>
    rw [changes_append, List.getLast?_append]
    simp only [changes, List.append_nil, List.getLast?_concat]
    split_ifs with hsame
    · simp only [List.getLast?_nil, Option.none_or, ih, hsame]
      simp
    · simp

end changes

/-! ## Counting -/

theorem countP_set_add {p : ε → Bool} {l : List ε} {i : Nat} {one : ε} (other : ε)
    (h : l[i]? = some one) :
    (l.set i other).countP p + (if p one then 1 else 0) = l.countP p + if p other then 1 else 0 := by
  obtain ⟨hi, rfl⟩ := List.getElem?_eq_some_iff.mp h
  rw [List.countP_set hi]
  have hle : (if p l[i] then 1 else 0) ≤ l.countP p := by
    split_ifs with hp
    · exact List.countP_pos_iff.mpr ⟨l[i], List.getElem_mem hi, hp⟩
    · exact Nat.zero_le _
  omega

theorem sum_set_add {f : ε → Nat} {l : List ε} {i : Nat} {one : ε} (other : ε) (h : l[i]? = some one) :
    ((l.set i other).map f).sum + f one = (l.map f).sum + f other := by
  induction l generalizing i with
  | nil => cases h
  | cons x l ih =>
    cases i with
    | zero =>
      cases h
      simp only [List.set_cons_zero, List.map_cons, List.sum_cons]
      omega
    | succ i =>
      have htail := ih h
      simp only [List.set_cons_succ, List.map_cons, List.sum_cons]
      omega

theorem countP_split (p q : ε → Bool) (l : List ε) :
    l.countP p = l.countP (fun x => p x && q x) + l.countP fun x => p x && !q x := by
  rw [List.countP_eq_countP_filter_add l p q, List.countP_filter, List.countP_filter]

end Sequence
