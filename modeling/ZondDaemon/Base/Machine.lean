import Mathlib

/-!
# Step machines

A machine takes one action at a time, and an action that cannot be taken gives `none`. `Reach P s t`
says that some run leads from `s` to `t` whose every action met `P` in the state it was taken in; with
`Always` for `P` it is plain reachability. An invariant is proved once per action (`Reach.invariant`),
and a concrete run is evaluated (`runIf`) and turned into a `Reach` by `Reach.of_runIf`. `Mirrors` is for
two runs taken side by side, and `noting` keeps a history of a run beside it.
-/

/-- What an action makes of a state, `none` where the action cannot be taken. -/
structure Machine (σ α : Type*) where
  step : σ → α → Option σ

namespace Machine

variable {σ α : Type*} {M : Machine σ α} {P Q : σ → α → Prop} {s t u : σ}

/-- The states a run from `s` ends in, each action of which meets `P` where it is taken. -/
inductive Reach (M : Machine σ α) (P : σ → α → Prop) (s : σ) : σ → Prop
  | refl : Reach M P s s
  | tail {t u : σ} {a : α} : Reach M P s t → P t a → M.step t a = some u → Reach M P s u

/-- The condition every action meets. -/
def Always : σ → α → Prop := fun _ _ => True

theorem Reach.trans (h : M.Reach P s t) (h' : M.Reach P t u) : M.Reach P s u := by
  induction h' with
  | refl => exact h
  | tail _ hP hstep ih => exact .tail ih hP hstep

theorem Reach.mono (hPQ : ∀ t a, P t a → Q t a) (h : M.Reach P s t) : M.Reach Q s t := by
  induction h with
  | refl => exact .refl
  | tail _ hP hstep ih => exact .tail ih (hPQ _ _ hP) hstep

theorem Reach.weaken (h : M.Reach P s t) (hPQ : ∀ t a, M.Reach P s t → P t a → Q t a) :
    M.Reach Q s t := by
  induction h with
  | refl => exact .refl
  | tail ht hP hstep ih => exact .tail ih (hPQ _ _ ht hP) hstep

theorem Reach.always (h : M.Reach P s t) : M.Reach Always s t :=
  h.mono fun _ _ _ => trivial

/-- The invariant rule. The step may use that its state is reached, so an invariant already proved can
be used in the proof of the next. -/
theorem Reach.invariant {I : σ → Prop} (init : I s)
    (step : ∀ {t u a}, M.Reach P s t → I t → P t a → M.step t a = some u → I u)
    (h : M.Reach P s t) : I t := by
  induction h with
  | refl => exact init
  | tail ht hP hstep ih => exact step ht ih hP hstep

/-- A goal is within reach wherever a state short of it leads to one with less still to do. -/
theorem Reach.descend {I G : σ → Prop} (μ : σ → Nat)
    (step : ∀ t, I t → ¬ G t → ∃ u, M.Reach P t u ∧ I u ∧ μ u < μ t) (h : I s) :
    ∃ t, M.Reach P s t ∧ I t ∧ G t := by
  induction hn : μ s using Nat.strongRecOn generalizing s with
  | ind n ih =>
    by_cases hG : G s
    · exact ⟨s, .refl, h, hG⟩
    · obtain ⟨u, hu, hI, hlt⟩ := step s h hG
      obtain ⟨t, ht, hIt, hGt⟩ := ih (μ u) (hn ▸ hlt) hI rfl
      exact ⟨t, hu.trans ht, hIt, hGt⟩

/-- Takes the actions in turn, as long as each is allowed by `ok` and can be taken. -/
def runIf (M : Machine σ α) (ok : σ → α → Bool) : σ → List α → Option σ
  | s, [] => some s
  | s, a :: rest => if ok s a then (M.step s a).bind (M.runIf ok · rest) else none

/-- Takes the actions in turn. -/
def run (M : Machine σ α) : σ → List α → Option σ := M.runIf fun _ _ => true

theorem Reach.of_runIf {ok : σ → α → Bool} (hok : ∀ t a, ok t a = true → P t a) :
    ∀ {s : σ} {actions : List α}, M.runIf ok s actions = some t → M.Reach P s t
  | s, [], h => by
    simp only [runIf, Option.some.injEq] at h
    exact h ▸ .refl
  | s, a :: rest, h => by
    simp only [runIf] at h
    split at h
    · rename_i ha
      obtain ⟨u, hu, hrest⟩ := Option.bind_eq_some_iff.mp h
      exact (Reach.tail .refl (hok s a ha) hu).trans (Reach.of_runIf hok hrest)
    · cases h

theorem Reach.of_run {actions : List α} (h : M.run s actions = some t) : M.Reach Always s t :=
  Reach.of_runIf (fun _ _ _ => trivial) h

/-! ## Two runs side by side -/

section mirrors
variable {S : σ → σ → Prop} {R : α → α → Prop} {s' : σ}

/-- From states `S` relates, whatever the one can do the other can do by any action `R` relates, and `S`
relates the states they come to. -/
def Mirrors (M : Machine σ α) (S : σ → σ → Prop) (R : α → α → Prop) : Prop :=
  ∀ s s' a a' t, S s s' → R a a' → M.step s a = some t → ∃ t', M.step s' a' = some t' ∧ S t t'

theorem Mirrors.run (h : M.Mirrors S R) {actions actions' : List α} (hR : List.Forall₂ R actions actions')
    (hS : S s s') (hrun : M.run s actions = some t) : ∃ t', M.run s' actions' = some t' ∧ S t t' := by
  induction hR generalizing s s' with
  | nil =>
    simp only [Machine.run, runIf, Option.some.injEq] at hrun
    exact ⟨s', rfl, hrun ▸ hS⟩
  | cons ha _ ih =>
    simp only [Machine.run, runIf, if_true] at hrun
    obtain ⟨u, hu, hrest⟩ := Option.bind_eq_some_iff.mp hrun
    obtain ⟨u', hu', hSu⟩ := h _ _ _ _ _ hS ha hu
    obtain ⟨t', ht', hSt⟩ := ih hSu hrest
    exact ⟨t', Option.bind_eq_some_iff.mpr ⟨u', hu', ht'⟩, hSt⟩

end mirrors

/-! ## A run and its history -/

section noting
variable {η : Type*} {note : σ → α → η → η} {x y : σ × η} {a : α}

/-- The machine with a history beside its state, which no step depends on. -/
def noting (M : Machine σ α) (note : σ → α → η → η) : Machine (σ × η) α where
  step x a := (M.step x.1 a).map fun t => (t, note x.1 a x.2)

theorem noting_step : (M.noting note).step x a = some y ↔ M.step x.1 a = some y.1 ∧ y.2 = note x.1 a x.2 := by
  obtain ⟨t, n⟩ := y
  simp only [noting, Option.map_eq_some_iff, Prod.mk.injEq]
  constructor
  · rintro ⟨u, hu, rfl, rfl⟩
    exact ⟨hu, rfl⟩
  · rintro ⟨ht, rfl⟩
    exact ⟨t, ht, rfl, rfl⟩

theorem Reach.forget {R : σ × η → α → Prop} (hR : ∀ x a, R x a → P x.1 a)
    (h : (M.noting note).Reach R x y) : M.Reach P x.1 y.1 := by
  induction h with
  | refl => exact .refl
  | tail _ ha hstep ih => exact .tail ih (hR _ _ ha) (noting_step.mp hstep).1

theorem Reach.noted (h : M.Reach P s t) (n : η) :
    ∃ n', (M.noting note).Reach (fun x a => P x.1 a) (s, n) (t, n') := by
  induction h with
  | refl => exact ⟨n, .refl⟩
  | @tail t u a _ ha hstep ih =>
    obtain ⟨n', h⟩ := ih
    exact ⟨note t a n', .tail h ha (noting_step.mpr ⟨hstep, rfl⟩)⟩

end noting

end Machine
