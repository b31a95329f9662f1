import Mathlib

/-!
# Keyed collections

A list of items no two of which share a key. `put` replaces the item of the same key or adds one, `raise`
changes the order only, and looking a key up after either is what one expects.
-/

/-- Items no two of which share a key. -/
structure Keyed {α κ : Type*} (key : α → κ) where
  items : List α
  nodup : (items.map key).Nodup

namespace Keyed

variable {α κ : Type*} [DecidableEq κ] {key : α → κ}

def empty : Keyed key := ⟨[], List.nodup_nil⟩

def get (store : Keyed key) (k : κ) : Option α := store.items.find? fun x => key x = k

theorem get_eq_some {store : Keyed key} {k : κ} {x : α} :
    store.get k = some x ↔ x ∈ store.items ∧ key x = k := by
  constructor
  · intro h
    exact ⟨List.mem_of_find?_eq_some h, by simpa using List.find?_some h⟩
  · rintro ⟨hx, rfl⟩
    cases hg : store.get (key x) with
    | none => simpa using List.find?_eq_none.mp hg x hx
    | some y =>
      have hy : y ∈ store.items := List.mem_of_find?_eq_some hg
      have hsame : key y = key x := by simpa using List.find?_some hg
      rw [List.inj_on_of_nodup_map store.nodup hy hx hsame]

theorem get_congr {store other : Keyed key} (h : ∀ x, x ∈ store.items ↔ x ∈ other.items) (k : κ) :
    store.get k = other.get k := by
  apply Option.ext
  intro x
  rw [get_eq_some, get_eq_some, h]

/-- The item of the same key replaced, or the item added. -/
def put (store : Keyed key) (x : α) : Keyed key where
  items := if key x ∈ store.items.map key then
      store.items.map fun y => if key y = key x then x else y
    else store.items ++ [x]
  nodup := by
    split_ifs with h
    · rw [List.map_map]
      convert store.nodup using 1
      apply List.map_congr_left
      intro y _
      simp only [Function.comp_apply]
      split_ifs with hy
      · exact hy.symm
      · rfl
    · rw [List.map_append, List.nodup_append]
      refine ⟨store.nodup, by simp, ?_⟩
      rintro a ha b hb rfl
      simp only [List.map_cons, List.map_nil, List.mem_singleton] at hb
      exact h (hb ▸ ha)

theorem mem_put {store : Keyed key} {x y : α} :
    y ∈ (store.put x).items ↔ y = x ∨ (y ∈ store.items ∧ key y ≠ key x) := by
  simp only [put]
  split_ifs with h
  · simp only [List.mem_map]
    constructor
    · rintro ⟨z, hz, rfl⟩
      split_ifs with hzx
      · exact .inl rfl
      · exact .inr ⟨hz, hzx⟩
    · rintro (rfl | ⟨hy, hyx⟩)
      · obtain ⟨z, hz, hzy⟩ := List.mem_map.mp h
        exact ⟨z, hz, if_pos hzy⟩
      · exact ⟨y, hy, if_neg hyx⟩
  · simp only [List.mem_append, List.mem_singleton]
    constructor
    · rintro (hy | rfl)
      · exact .inr ⟨hy, fun hyx => h (hyx ▸ List.mem_map_of_mem hy)⟩
      · exact .inl rfl
    · rintro (rfl | ⟨hy, -⟩)
      · exact .inr rfl
      · exact .inl hy

@[simp] theorem get_put_self (store : Keyed key) (x : α) : (store.put x).get (key x) = some x :=
  get_eq_some.mpr ⟨mem_put.mpr (.inl rfl), rfl⟩

theorem get_put_of_ne (store : Keyed key) {x : α} {k : κ} (h : k ≠ key x) :
    (store.put x).get k = store.get k := by
  apply Option.ext
  intro y
  rw [get_eq_some, get_eq_some, mem_put]
  constructor
  · rintro ⟨rfl | ⟨hy, -⟩, rfl⟩
    · exact absurd rfl h
    · exact ⟨hy, rfl⟩
  · rintro ⟨hy, rfl⟩
    exact ⟨.inr ⟨hy, h⟩, rfl⟩

omit [DecidableEq κ] in
private theorem raise_perm (l : List α) (i : Nat) : (l[i]?.toList ++ l.eraseIdx i).Perm l := by
  by_cases h : i < l.length
  · rw [List.getElem?_eq_getElem h]
    exact List.getElem_cons_eraseIdx_perm h
  · rw [List.getElem?_eq_none (by omega), List.eraseIdx_of_length_le (by omega)]
    simp

/-- Another order: the `i`-th item first. -/
def raise (store : Keyed key) (i : Nat) : Keyed key where
  items := store.items[i]?.toList ++ store.items.eraseIdx i
  nodup := ((raise_perm store.items i).map key).nodup_iff.mpr store.nodup

omit [DecidableEq κ] in
theorem mem_raise {store : Keyed key} {i : Nat} {x : α} : x ∈ (store.raise i).items ↔ x ∈ store.items :=
  (raise_perm store.items i).mem_iff

@[simp] theorem get_raise (store : Keyed key) (i : Nat) (k : κ) : (store.raise i).get k = store.get k :=
  get_congr (fun _ => mem_raise) k

/-! ## Two collections alike -/

section alike
variable {R : α → α → Prop} {store other : Keyed key}

omit [DecidableEq κ] in
theorem map_key_eq (hR : ∀ x y, R x y → key x = key y) {items items' : List α}
    (h : List.Forall₂ R items items') : items.map key = items'.map key := by
  induction h with
  | nil => rfl
  | cons hxy _ ih => rw [List.map_cons, List.map_cons, hR _ _ hxy, ih]

theorem get_rel (hR : ∀ x y, R x y → key x = key y) (h : List.Forall₂ R store.items other.items) (k : κ) :
    Option.Rel R (store.get k) (other.get k) := by
  unfold get
  generalize store.items = items, other.items = items' at h
  induction h with
  | nil => exact .none
  | @cons x y _ _ hxy _ ih =>
    by_cases hk : key x = k
    · rw [List.find?_cons_of_pos (by simpa using hk), List.find?_cons_of_pos (by simpa [← hR _ _ hxy] using hk)]
      exact .some hxy
    · rw [List.find?_cons_of_neg (by simpa using hk), List.find?_cons_of_neg (by simpa [← hR _ _ hxy] using hk)]
      exact ih

theorem put_forall₂ (hR : ∀ x y, R x y → key x = key y) (h : List.Forall₂ R store.items other.items)
    {x y : α} (hxy : R x y) : List.Forall₂ R (store.put x).items (other.put y).items := by
  simp only [put, ← map_key_eq hR h, ← hR _ _ hxy]
  split_ifs
  · rw [List.forall₂_map_left_iff, List.forall₂_map_right_iff]
    refine h.imp fun a b hab => ?_
    rw [← hR _ _ hab]
    split_ifs
    · exact hxy
    · exact hab
  · exact List.rel_append h (.cons hxy .nil)

omit [DecidableEq κ] in
theorem raise_forall₂ (h : List.Forall₂ R store.items other.items) (i : Nat) :
    List.Forall₂ R (store.raise i).items (other.raise i).items := by
  have hfirst : List.Forall₂ R store.items[i]?.toList other.items[i]?.toList := by
    generalize store.items = items, other.items = items' at h
    induction h generalizing i with
    | nil => exact .nil
    | cons hxy _ ih =>
      cases i with
      | zero => exact .cons hxy .nil
      | succ i => exact ih i
  have hrest : List.Forall₂ R (store.items.eraseIdx i) (other.items.eraseIdx i) := by
    clear hfirst
    generalize store.items = items, other.items = items' at h
    induction h generalizing i with
    | nil => exact .nil
    | cons hxy hrest ih =>
      cases i with
      | zero => exact hrest
      | succ i => exact .cons hxy (ih i)
  exact List.rel_append hfirst hrest

end alike

end Keyed
