import Mathlib

/-!
# A stream cut into lines

What a reader makes of a stream whose lines end in `sep`: the lines that are whole, and what stands after the
last of them. A stream only grows, so a line once whole stays, and the next one is what stood there already
followed by what comes up to the separator.
-/

namespace Lines

variable {α : Type*} [DecidableEq α] {sep : α} {xs ys line : List α}

/-- The lines that are whole, and what stands after them. -/
structure Cut (α : Type*) where
  whole : List (List α)
  rest : List α
deriving DecidableEq

/-- One more of the stream. -/
def next (sep : α) (c : Cut α) (x : α) : Cut α :=
  if x = sep then ⟨c.whole ++ [c.rest], []⟩ else ⟨c.whole, c.rest ++ [x]⟩

def cut (sep : α) (xs : List α) : Cut α := xs.foldl (next sep) ⟨[], []⟩

theorem foldl_next_of_not_mem (h : sep ∉ xs) (c : Cut α) :
    xs.foldl (next sep) c = ⟨c.whole, c.rest ++ xs⟩ := by
  induction xs generalizing c with
  | nil => simp
  | cons x xs ih =>
    rw [List.mem_cons, not_or] at h
    rw [List.foldl_cons, ih h.2, next, if_neg (Ne.symm h.1)]
    simp

theorem cut_append (h : sep ∉ ys) :
    cut sep (xs ++ ys) = ⟨(cut sep xs).whole, (cut sep xs).rest ++ ys⟩ := by
  rw [cut, List.foldl_append, foldl_next_of_not_mem h]
  rfl

theorem cut_append_line (h : sep ∉ line) :
    cut sep (xs ++ (line ++ [sep])) = ⟨(cut sep xs).whole ++ [(cut sep xs).rest ++ line], []⟩ := by
  rw [← List.append_assoc, cut, List.foldl_append]
  show next sep (cut sep (xs ++ line)) sep = _
  rw [cut_append h, next, if_pos rfl]

theorem whole_prefix_foldl (c : Cut α) : c.whole <+: (xs.foldl (next sep) c).whole := by
  induction xs generalizing c with
  | nil => exact List.prefix_refl _
  | cons x xs ih =>
    refine List.IsPrefix.trans ?_ (ih (next sep c x))
    rw [next]
    split_ifs
    · exact List.prefix_append _ _
    · exact List.prefix_refl _

theorem whole_prefix (sep : α) (xs ys : List α) : (cut sep xs).whole <+: (cut sep (xs ++ ys)).whole := by
  rw [cut, cut, List.foldl_append]
  exact whole_prefix_foldl _

theorem cut_flatMap {β : Type*} {render : β → List α} (h : ∀ b, sep ∉ render b) (bs : List β) :
    cut sep (bs.flatMap fun b => render b ++ [sep]) = ⟨bs.map render, []⟩ := by
  induction bs using List.reverseRecOn with
  | nil => rfl
  | append_singleton bs b ih => rw [List.flatMap_append, List.flatMap_singleton, cut_append_line (h b), ih,
      List.map_append, List.nil_append, List.map_singleton]

end Lines
