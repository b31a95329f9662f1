import Mathlib

/-!
# Sets of numbers as spans

A set of numbers kept as spans, both ends in it, none empty and each wholly before the next. Adding a
span and taking another set away keep that shape; what they do is said by membership alone.
-/

namespace Spans

/-- The spans with `s` added, which swallows those it meets. -/
def add (s : Nat × Nat) : List (Nat × Nat) → List (Nat × Nat)
  | [] => [s]
  | t :: rest =>
    if s.2 < t.1 then s :: t :: rest
    else if t.2 < s.1 then t :: add s rest
    else add (min s.1 t.1, max s.2 t.2) rest

/-- What is left of `s` once `r` is taken out of it. -/
def cut (r s : Nat × Nat) : List (Nat × Nat) :=
  (if s.1 < r.1 then [(s.1, min s.2 (r.1 - 1))] else []) ++
    if r.2 < s.2 then [(max s.1 (r.2 + 1), s.2)] else []

end Spans

/-- Spans, none of them empty, each wholly before the next. -/
structure Spans where
  list : List (Nat × Nat)
  inhabited : ∀ s ∈ list, s.1 ≤ s.2
  apart : list.Pairwise fun s t => s.2 < t.1
deriving DecidableEq

namespace Spans

variable {r s : Nat × Nat} {l : List (Nat × Nat)} {x : Nat}

/-! ## Adding a span -/

theorem le_add {b : Nat} (hs : b ≤ s.1) (hl : ∀ t ∈ l, b ≤ t.1) : ∀ t ∈ add s l, b ≤ t.1 := by
  induction l generalizing s with
  | nil => simpa [add] using hs
  | cons t rest ih =>
    have ht : b ≤ t.1 := hl t List.mem_cons_self
    have hrest : ∀ u ∈ rest, b ≤ u.1 := fun u hu => hl u (List.mem_cons_of_mem t hu)
    unfold add
    split_ifs
    · simpa using ⟨hs, ht, fun a c => hrest (a, c)⟩
    · simpa using ⟨ht, fun a c => ih hs hrest (a, c)⟩
    · exact ih (Nat.le_min.mpr ⟨hs, ht⟩) hrest

theorem add_inhabited (hs : s.1 ≤ s.2) (hl : ∀ t ∈ l, t.1 ≤ t.2) : ∀ t ∈ add s l, t.1 ≤ t.2 := by
  induction l generalizing s with
  | nil => simpa [add] using hs
  | cons t rest ih =>
    have ht : t.1 ≤ t.2 := hl t List.mem_cons_self
    have hrest : ∀ u ∈ rest, u.1 ≤ u.2 := fun u hu => hl u (List.mem_cons_of_mem t hu)
    unfold add
    split_ifs
    · simpa using ⟨hs, ht, fun a c => hrest (a, c)⟩
    · simpa using ⟨ht, fun a c => ih hs hrest (a, c)⟩
    · exact ih (by omega) hrest

theorem add_apart (hs : s.1 ≤ s.2) (hl : ∀ t ∈ l, t.1 ≤ t.2)
    (hp : l.Pairwise fun s t => s.2 < t.1) : (add s l).Pairwise fun s t => s.2 < t.1 := by
  induction l generalizing s with
  | nil => exact List.pairwise_singleton _ _
  | cons t rest ih =>
    have ht : t.1 ≤ t.2 := hl t List.mem_cons_self
    have hrest : ∀ u ∈ rest, u.1 ≤ u.2 := fun u hu => hl u (List.mem_cons_of_mem t hu)
    obtain ⟨hbefore, hp'⟩ := List.pairwise_cons.mp hp
    unfold add
    split_ifs with h1 h2
    · refine List.pairwise_cons.mpr ⟨fun u hu => ?_, hp⟩
      rcases List.mem_cons.mp hu with rfl | hu
      · exact h1
      · have := hbefore u hu
        omega
    · exact List.pairwise_cons.mpr ⟨fun u hu => le_add h2 hbefore u hu, ih hs hrest hp'⟩
    · exact ih (by omega) hrest hp'

theorem mem_add (hs : s.1 ≤ s.2) (hl : ∀ t ∈ l, t.1 ≤ t.2) :
    (∃ t ∈ add s l, t.1 ≤ x ∧ x ≤ t.2) ↔ (s.1 ≤ x ∧ x ≤ s.2) ∨ ∃ t ∈ l, t.1 ≤ x ∧ x ≤ t.2 := by
  induction l generalizing s with
  | nil => simp [add]
  | cons t rest ih =>
    have ht : t.1 ≤ t.2 := hl t List.mem_cons_self
    have hrest : ∀ u ∈ rest, u.1 ≤ u.2 := fun u hu => hl u (List.mem_cons_of_mem t hu)
    unfold add
    split_ifs with h1 h2
    · rw [List.exists_mem_cons_iff]
    · rw [List.exists_mem_cons_iff, List.exists_mem_cons_iff, ih hs hrest, or_left_comm]
    · -- the two spans meet, so one span says both
      have hmeet : (min s.1 t.1 ≤ x ∧ x ≤ max s.2 t.2) ↔ (s.1 ≤ x ∧ x ≤ s.2) ∨ (t.1 ≤ x ∧ x ≤ t.2) := by
        omega
      rw [ih (by omega) hrest, List.exists_mem_cons_iff, ← or_assoc, hmeet]

/-! ## Taking one span out of another -/

theorem mem_cut :
    (∃ t ∈ cut r s, t.1 ≤ x ∧ x ≤ t.2) ↔ (s.1 ≤ x ∧ x ≤ s.2) ∧ ¬ (r.1 ≤ x ∧ x ≤ r.2) := by
  unfold cut
  split_ifs <;> simp <;> omega

theorem cut_bounds (hs : s.1 ≤ s.2) {t : Nat × Nat} (ht : t ∈ cut r s) :
    s.1 ≤ t.1 ∧ t.1 ≤ t.2 ∧ t.2 ≤ s.2 := by
  unfold cut at ht
  split_ifs at ht <;> simp at ht
  · rcases ht with rfl | rfl <;> dsimp only <;> omega
  · subst ht
    dsimp only
    omega
  · subst ht
    dsimp only
    omega

theorem cut_apart (hr : r.1 ≤ r.2) : (cut r s).Pairwise fun s t => s.2 < t.1 := by
  unfold cut
  split_ifs <;> simp
  omega

/-! ## The sets -/

instance : Membership Nat Spans := ⟨fun m x => ∃ t ∈ m.list, t.1 ≤ x ∧ x ≤ t.2⟩

theorem mem_def {m : Spans} : x ∈ m ↔ ∃ t ∈ m.list, t.1 ≤ x ∧ x ≤ t.2 := Iff.rfl

instance (m : Spans) (x : Nat) : Decidable (x ∈ m) :=
  inferInstanceAs (Decidable (∃ t ∈ m.list, t.1 ≤ x ∧ x ≤ t.2))

def empty : Spans := ⟨[], by simp, .nil⟩

theorem not_mem_empty : x ∉ empty := by
  simp [mem_def, empty]

theorem list_eq_nil {m : Spans} : m.list = [] ↔ ∀ x, x ∉ m := by
  constructor
  · intro h x hx
    simp [mem_def, h] at hx
  · intro h
    rw [List.eq_nil_iff_forall_not_mem]
    intro t ht
    exact h t.1 ⟨t, ht, Nat.le_refl _, m.inhabited t ht⟩

/-- The set with the numbers from `lo` to `hi` in it too. -/
def insert (m : Spans) (lo hi : Nat) : Spans :=
  if h : lo ≤ hi then
    ⟨add (lo, hi) m.list, add_inhabited h m.inhabited, add_apart h m.inhabited m.apart⟩
  else m

theorem mem_insert {m : Spans} {lo hi : Nat} : x ∈ m.insert lo hi ↔ (lo ≤ x ∧ x ≤ hi) ∨ x ∈ m := by
  unfold insert
  split_ifs with h
  · exact mem_add h m.inhabited
  · constructor
    · exact .inr
    · rintro (hx | hx)
      · omega
      · exact hx

/-- The set without the numbers of one span. -/
def without (m : Spans) (r : Nat × Nat) (hr : r.1 ≤ r.2) : Spans where
  list := m.list.flatMap (cut r)
  inhabited := by
    intro t ht
    obtain ⟨s, hs, ht⟩ := List.mem_flatMap.mp ht
    exact (cut_bounds (m.inhabited s hs) ht).2.1
  apart := by
    rw [List.pairwise_flatMap]
    refine ⟨fun s _ => cut_apart hr, ?_⟩
    refine m.apart.imp_of_mem fun {s t} hs ht hst u hu v hv => ?_
    have := cut_bounds (m.inhabited s hs) hu
    have := cut_bounds (m.inhabited t ht) hv
    omega

theorem mem_without {m : Spans} {hr : r.1 ≤ r.2} :
    x ∈ m.without r hr ↔ x ∈ m ∧ ¬ (r.1 ≤ x ∧ x ≤ r.2) := by
  constructor
  · rintro ⟨t, ht, hx⟩
    obtain ⟨s, hs, ht⟩ := List.mem_flatMap.mp ht
    obtain ⟨hin, hout⟩ := mem_cut.mp ⟨t, ht, hx⟩
    exact ⟨⟨s, hs, hin⟩, hout⟩
  · rintro ⟨⟨s, hs, hin⟩, hout⟩
    obtain ⟨t, ht, hx⟩ := mem_cut.mpr ⟨hin, hout⟩
    exact ⟨t, List.mem_flatMap.mpr ⟨s, hs, ht⟩, hx⟩

/-- The set without each of the spans of a list. -/
def withoutAll (m : Spans) : (l : List (Nat × Nat)) → (∀ s ∈ l, s.1 ≤ s.2) → Spans
  | [], _ => m
  | r :: rest, h => (m.without r (h r List.mem_cons_self)).withoutAll rest fun s hs =>
    h s (List.mem_cons_of_mem r hs)

theorem mem_withoutAll {h : ∀ s ∈ l, s.1 ≤ s.2} {m : Spans} :
    x ∈ m.withoutAll l h ↔ x ∈ m ∧ ¬ ∃ t ∈ l, t.1 ≤ x ∧ x ≤ t.2 := by
  induction l generalizing m with
  | nil => simp [withoutAll]
  | cons r rest ih =>
    rw [withoutAll, ih, mem_without, List.exists_mem_cons_iff, not_or, and_assoc]

/-- The set without the numbers of another. -/
def subtract (m n : Spans) : Spans := m.withoutAll n.list n.inhabited

theorem mem_subtract {m n : Spans} : x ∈ m.subtract n ↔ x ∈ m ∧ x ∉ n := mem_withoutAll

/-- How many numbers there are in the set. -/
def count (m : Spans) : Nat := (m.list.map fun t => t.2 + 1 - t.1).sum

/-- The numbers in the set, one by one. -/
def members (m : Spans) : List Nat := m.list.flatMap fun t => List.range' t.1 (t.2 + 1 - t.1)

theorem mem_members {m : Spans} : x ∈ m.members ↔ x ∈ m := by
  simp only [members, List.mem_flatMap, List.mem_range'_1, mem_def]
  refine exists_congr fun t => and_congr_right fun ht => ?_
  have := m.inhabited t ht
  omega

theorem nodup_members {m : Spans} : m.members.Nodup := by
  rw [members, List.nodup_flatMap]
  refine ⟨fun t _ => List.nodup_range', m.apart.imp_of_mem fun {s t} hs _ hst => ?_⟩
  intro x hx hx'
  rw [List.mem_range'_1] at hx hx'
  have := m.inhabited s hs
  omega

theorem length_members {m : Spans} : m.members.length = m.count := by
  simp [members, count, List.length_flatMap]

end Spans
