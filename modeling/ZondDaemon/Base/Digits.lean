import Mathlib

/-!
# Digits of a fixed width

A natural number below `b ^ n` written with `n` digits in base `b`, most significant first. Written in one
width, numbers compare as their digits do from the front (`digits_lt_digits`), also where each digit is
shown as something else that grows with it (`map_digits_lt_map_digits`).
-/

namespace Digits

/-- The `n` lowest digits of `v` in base `b`, most significant first. -/
def digits (b : Nat) : Nat → Nat → List Nat
  | 0, _ => []
  | n + 1, v => digits b n (v / b) ++ [v % b]

variable {b n v w : Nat}

@[simp] theorem length_digits : (digits b n v).length = n := by
  induction n generalizing v with
  | zero => rfl
  | succ n ih => simp [digits, ih]

theorem digits_below (hb : 0 < b) {d : Nat} (hd : d ∈ digits b n v) : d < b := by
  induction n generalizing v with
  | zero => simp [digits] at hd
  | succ n ih =>
    simp only [digits, List.mem_append, List.mem_singleton] at hd
    rcases hd with hd | rfl
    · exact ih hd
    · exact Nat.mod_lt v hb

section lex
variable {α β : Type*} [LT α] [LT β]

theorem append_lt_append {l m : List α} (h : l < m) (hlen : l.length = m.length) (x y : List α) :
    l ++ x < m ++ y := by
  induction h with
  | nil => simp at hlen
  | rel h => exact .rel h
  | cons _ ih =>
    simp only [List.length_cons, Nat.add_right_cancel_iff] at hlen
    exact .cons (ih hlen)

theorem map_lt_map {f : α → β} {P : α → Prop} (hf : ∀ x y, P x → P y → x < y → f x < f y) {l m : List α}
    (hl : ∀ x ∈ l, P x) (hm : ∀ y ∈ m, P y) (h : l < m) : l.map f < m.map f := by
  induction h with
  | nil => exact .nil
  | rel h => exact .rel (hf _ _ (hl _ List.mem_cons_self) (hm _ List.mem_cons_self) h)
  | cons _ ih =>
    exact .cons (ih (fun x hx => hl x (List.mem_cons_of_mem _ hx)) fun y hy =>
      hm y (List.mem_cons_of_mem _ hy))

end lex

theorem digits_lt_digits (hw : w < b ^ n) (h : v < w) : digits b n v < digits b n w := by
  induction n generalizing v w with
  | zero =>
    simp only [Nat.pow_zero] at hw
    omega
  | succ n ih =>
    have hb : 0 < b := Nat.pos_of_ne_zero fun h0 => by simp [h0] at hw
    have hquot : w / b < b ^ n := Nat.div_lt_of_lt_mul (by rwa [Nat.pow_succ, Nat.mul_comm] at hw)
    have hle : v / b ≤ w / b := Nat.div_le_div_right (Nat.le_of_lt h)
    simp only [digits]
    rcases Nat.lt_or_eq_of_le hle with hlt | heq
    · exact append_lt_append (ih hquot hlt) (by simp) _ _
    · -- The digits in front agree, so the last ones differ.
      have hlast : v % b < w % b := by
        have hv := Nat.div_add_mod v b
        have hw' := Nat.div_add_mod w b
        rw [heq] at hv
        omega
      rw [heq]
      exact List.append_left_lt (.rel hlast)

theorem map_digits_lt_map_digits {β : Type*} [LT β] {f : Nat → β}
    (hf : ∀ d e, d < b → e < b → d < e → f d < f e) (hw : w < b ^ n) (h : v < w) :
    (digits b n v).map f < (digits b n w).map f := by
  have hb : 0 < b := Nat.pos_of_ne_zero fun h0 => by
    subst h0
    rcases n with _ | n
    · simp only [Nat.pow_zero] at hw
      omega
    · simp at hw
  exact map_lt_map (P := (· < b)) hf (fun _ => digits_below hb) (fun _ => digits_below hb)
    (digits_lt_digits hw h)

end Digits
