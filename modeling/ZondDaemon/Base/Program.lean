import ZondDaemon.Base.Machine

/-!
# Programs that ask

A program asks the world one question at a time and goes on with whatever is answered, to a value or to an
error. `Reaches p t p'` says that the answers of the trace `t` bring `p` to `p'`; `Holds pre post` is the
assertion that every question is asked only after a trace `pre` allows it after, and that every end comes
after a trace `post` allows it after (`Holds.asked`, `Holds.ended`). A program is put together with `bind`
and so is what is known of it (`Only.bind_holds`). `During` runs a program against a machine that goes on
between its questions, and `Related` is for two programs taken side by side.
-/

universe u

/-- A program over the questions `Q`, a question `q` being answered by an `A q`. -/
inductive Program (Q : Type u) (A : Q → Type) (ε α : Type u) : Type u
  | ret (value : α)
  | fail (error : ε)
  | ask (q : Q) (k : A q → Program Q A ε α)

namespace Program

variable {Q : Type u} {A : Q → Type} {ε α β : Type u}

/-- Goes on with the value, where there is one. -/
def bind : Program Q A ε α → (α → Program Q A ε β) → Program Q A ε β
  | ret value, f => f value
  | fail error, _ => fail error
  | ask q k, f => ask q fun answer => (k answer).bind f

instance : Monad (Program Q A ε) where
  pure := ret
  bind := bind

/-- What is known already, with an error for `?` to return. -/
def ofExcept : Except ε α → Program Q A ε α
  | .ok value => ret value
  | .error error => fail error

@[simp] theorem pure_eq (value : α) : (pure value : Program Q A ε α) = ret value := rfl
@[simp] theorem ret_bind (value : α) (f : α → Program Q A ε β) : (ret value >>= f) = f value := rfl
@[simp] theorem fail_bind (error : ε) (f : α → Program Q A ε β) : (fail error >>= f) = fail error := rfl

@[simp] theorem ask_bind (q : Q) (k : A q → Program Q A ε α) (f : α → Program Q A ε β) :
    (ask q k >>= f) = ask q fun answer => k answer >>= f := rfl

@[simp] theorem ofExcept_ok (value : α) : (ofExcept (.ok value) : Program Q A ε α) = ret value := rfl
@[simp] theorem ofExcept_error (error : ε) : (ofExcept (.error error) : Program Q A ε α) = fail error := rfl

instance : LawfulMonad (Program Q A ε) := by
  refine LawfulMonad.mk' _ (fun p => ?_) (fun _ _ => rfl) (fun p f g => ?_)
  · induction p with
    | ret value => rfl
    | fail error => rfl
    | ask q k ih => exact congrArg (ask q) (funext ih)
  · induction p with
    | ret value => rfl
    | fail error => rfl
    | ask q k ih => exact congrArg (ask q) (funext ih)

/-- What the program comes to where the world answers `answers`. -/
def eval (answers : (q : Q) → A q) : Program Q A ε α → Except ε α
  | ret value => .ok value
  | fail error => .error error
  | ask q k => (k (answers q)).eval answers

theorem eval_bind (answers : (q : Q) → A q) (p : Program Q A ε α) (f : α → Program Q A ε β) :
    (p >>= f).eval answers = p.eval answers >>= fun value => (f value).eval answers := by
  induction p with
  | ret value => rfl
  | fail error => rfl
  | ask q k ih => exact ih (answers q)

/-- The program with its questions put another way, each answer read as that of the question. -/
def lift {Q' : Type u} {A' : Q' → Type} (f : Q → Q') (back : (q : Q) → A' (f q) → A q) :
    Program Q A ε α → Program Q' A' ε α
  | ret value => ret value
  | fail error => fail error
  | ask q k => ask (f q) fun answer => (k (back q answer)).lift f back

/-! ## Traces -/

/-- A question and its answer. -/
abbrev Step (A : Q → Type) := (q : Q) × A q

/-- The answers of the trace bring the one program to the other. -/
inductive Reaches (p : Program Q A ε α) : List (Step A) → Program Q A ε α → Prop
  | refl : Reaches p [] p
  | answer {t : List (Step A)} {q : Q} {k : A q → Program Q A ε α} (answer : A q) :
      Reaches p t (ask q k) → Reaches p (t ++ [⟨q, answer⟩]) (k answer)

/-- The program asks `q` once the trace is answered. -/
def Asks (p : Program Q A ε α) (t : List (Step A)) (q : Q) : Prop := ∃ k, p.Reaches t (ask q k)

/-- The program comes to its end once the trace is answered. -/
def Ends (p : Program Q A ε α) (t : List (Step A)) : Except ε α → Prop
  | .ok value => p.Reaches t (ret value)
  | .error error => p.Reaches t (fail error)

/-- What the program asks and is told where the world answers `answers`. -/
def transcript (answers : (q : Q) → A q) : Program Q A ε α → List (Step A)
  | ret _ => []
  | fail _ => []
  | ask q k => ⟨q, answers q⟩ :: (k (answers q)).transcript answers

section traces
variable {p p' p'' : Program Q A ε α} {t t' : List (Step A)}

theorem Reaches.trans (h : p.Reaches t p') (h' : p'.Reaches t' p'') : p.Reaches (t ++ t') p'' := by
  induction h' with
  | refl => rwa [List.append_nil]
  | answer answer _ ih =>
    rw [← List.append_assoc]
    exact ih.answer answer

theorem Reaches.ends {out : Except ε α} (h : p.Reaches t p') (he : p'.Ends t' out) :
    p.Ends (t ++ t') out := by
  cases out with
  | ok value => exact h.trans he
  | error error => exact h.trans he

theorem Reaches.asks {q : Q} {answer : A q} {before after : List (Step A)} (h : p.Reaches t p')
    (ht : t = before ++ ⟨q, answer⟩ :: after) : p.Asks before q := by
  induction h generalizing after with
  | refl => simp at ht
  | answer answer' hr ih =>
    rcases List.eq_nil_or_concat after with rfl | ⟨after', last, rfl⟩
    · obtain ⟨rfl, hlast⟩ := List.append_inj' ht rfl
      cases hlast
      exact ⟨_, hr⟩
    · rw [List.concat_eq_append, ← List.cons_append, ← List.append_assoc] at ht
      exact ih (List.append_inj' ht rfl).1

theorem Ends.asks {q : Q} {answer : A q} {before after : List (Step A)} {out : Except ε α}
    (h : p.Ends (before ++ ⟨q, answer⟩ :: after) out) : p.Asks before q := by
  cases out with
  | ok value => exact Reaches.asks h rfl
  | error error => exact Reaches.asks h rfl

theorem Reaches.ask_cases {q : Q} {k : A q → Program Q A ε α} (h : (ask q k).Reaches t p') :
    (t = [] ∧ p' = ask q k) ∨ ∃ answer rest, t = ⟨q, answer⟩ :: rest ∧ (k answer).Reaches rest p' := by
  induction h with
  | refl => exact .inl ⟨rfl, rfl⟩
  | answer answer _ ih =>
    rcases ih with ⟨rfl, heq⟩ | ⟨first, rest, rfl, hr⟩
    · cases heq
      exact .inr ⟨answer, [], rfl, .refl⟩
    · exact .inr ⟨first, rest ++ [⟨_, answer⟩], rfl, hr.answer answer⟩

theorem Ends.ask_cases {q : Q} {k : A q → Program Q A ε α} {out : Except ε α} (h : (ask q k).Ends t out) :
    ∃ answer rest, t = ⟨q, answer⟩ :: rest ∧ (k answer).Ends rest out := by
  cases out with
  | ok value =>
    rcases Reaches.ask_cases h with ⟨_, heq⟩ | h
    · cases heq
    · exact h
  | error error =>
    rcases Reaches.ask_cases h with ⟨_, heq⟩ | h
    · cases heq
    · exact h

theorem Reaches.of_fail {error : ε} (h : (fail error : Program Q A ε α).Reaches t p') :
    t = [] ∧ p' = fail error := by
  induction h with
  | refl => exact ⟨rfl, rfl⟩
  | answer _ _ ih => cases ih.2

theorem Ends.of_fail {error : ε} {out : Except ε α} (h : (fail error : Program Q A ε α).Ends t out) :
    t = [] ∧ out = .error error := by
  cases out with
  | ok value => cases (Reaches.of_fail h).2
  | error error' =>
    obtain ⟨rfl, heq⟩ := Reaches.of_fail h
    cases heq
    exact ⟨rfl, rfl⟩

theorem forall_concat {R : Step A → Prop} {step : Step A} (h : ∀ other ∈ t, R other) (hstep : R step) :
    ∀ other ∈ t ++ [step], R other := by
  intro other hother
  rcases List.mem_append.mp hother with hother | hother
  · exact h other hother
  · rw [List.mem_singleton.mp hother]
    exact hstep

theorem ends_transcript (answers : (q : Q) → A q) (p : Program Q A ε α) :
    p.Ends (p.transcript answers) (p.eval answers) := by
  induction p with
  | ret value => exact .refl
  | fail error => exact .refl
  | ask q k ih => exact (Reaches.refl.answer (answers q)).ends (ih (answers q))

end traces

/-! ## Assertions -/

/-- After the trace `t`, every question is asked where `pre` allows it and every end is one of `post`. -/
def Holds (pre : List (Step A) → Q → Prop) (post : List (Step A) → Except ε α → Prop) :
    List (Step A) → Program Q A ε α → Prop
  | t, ret value => post t (.ok value)
  | t, fail error => post t (.error error)
  | t, ask q k => pre t q ∧ ∀ answer, Holds pre post (t ++ [⟨q, answer⟩]) (k answer)

variable {pre : List (Step A) → Q → Prop} {post : List (Step A) → Except ε α → Prop} {p p' : Program Q A ε α}
  {t t' : List (Step A)}

theorem Holds.reaches (h : Holds pre post t p) (hr : p.Reaches t' p') :
    Holds pre post (t ++ t') p' := by
  induction hr with
  | refl => rwa [List.append_nil]
  | answer answer _ ih =>
    rw [← List.append_assoc]
    exact ih.2 answer

theorem Holds.asked {q : Q} (h : Holds pre post [] p) (ha : p.Asks t q) : pre t q := by
  obtain ⟨k, hr⟩ := ha
  exact (h.reaches hr).1

theorem Holds.ended {out : Except ε α} (h : Holds pre post [] p) (he : p.Ends t out) : post t out := by
  cases out with
  | ok value => exact h.reaches he
  | error error => exact h.reaches he

/-- Every end of the program is one of `P`, whatever it is answered. -/
def Ensures (P : Except ε α → Prop) : Program Q A ε α → Prop
  | ret value => P (.ok value)
  | fail error => P (.error error)
  | ask _ k => ∀ answer, (k answer).Ensures P

theorem Ensures.of_bind {P : Except ε β → Prop} {f : α → Program Q A ε β}
    (herror : ∀ error, P (.error error)) (hf : ∀ value, (f value).Ensures P) :
    ∀ {p : Program Q A ε α}, (p >>= f).Ensures P
  | ret value => hf value
  | fail error => herror error
  | ask _ _ => fun _ => of_bind herror hf

theorem Ensures.bind_of_fails {P : Except ε β → Prop} {f : α → Program Q A ε β}
    (herror : ∀ error, P (.error error)) :
    ∀ {p : Program Q A ε α}, p.Ensures (fun out => ∃ error, out = .error error) → (p >>= f).Ensures P
  | ret _, h => by
    obtain ⟨_, heq⟩ := h
    cases heq
  | fail error, _ => herror error
  | ask _ _, h => fun answer => (h answer).bind_of_fails herror

/-- Whatever it is answered, the program asks only what `P` is true of. -/
def Only (P : Q → Prop) : Program Q A ε α → Prop
  | ret _ => True
  | fail _ => True
  | ask q k => P q ∧ ∀ answer, (k answer).Only P

theorem Only.bind {P : Q → Prop} {f : α → Program Q A ε β} (hf : ∀ value, (f value).Only P) :
    ∀ {p : Program Q A ε α}, p.Only P → (p >>= f).Only P
  | ret value, _ => hf value
  | fail _, _ => trivial
  | ask _ _, h => ⟨h.1, fun answer => (h.2 answer).bind hf⟩

theorem Only.bind_holds {P : Q → Prop} {I : List (Step A) → Prop} {f : α → Program Q A ε β}
    {post : List (Step A) → Except ε β → Prop} (asks : ∀ t q, I t → P q → pre t q)
    (keeps : ∀ t q (answer : A q), I t → P q → I (t ++ [⟨q, answer⟩]))
    (herror : ∀ t error, I t → post t (.error error)) (hf : ∀ t value, I t → Holds pre post t (f value)) :
    ∀ {p : Program Q A ε α} {t : List (Step A)}, p.Only P → I t → Holds pre post t (p >>= f)
  | ret value, t, _, hI => hf t value hI
  | fail error, t, _, hI => herror t error hI
  | ask q _, t, h, hI => ⟨asks t q hI h.1, fun answer =>
      (h.2 answer).bind_holds asks keeps herror hf (keeps t q answer hI h.1)⟩

/-! ## Two programs side by side -/

/-- Asking the same questions, and told answers `R` relates, the programs fail alike or come to values `V`
relates. -/
inductive Related (R : (q : Q) → A q → A q → Prop) (V : α → β → Prop) :
    Program Q A ε α → Program Q A ε β → Prop
  | ret {value : α} {value' : β} : V value value' → Related R V (ret value) (ret value')
  | fail (error : ε) : Related R V (fail error) (fail error)
  | ask {q : Q} {k : A q → Program Q A ε α} {k' : A q → Program Q A ε β} :
      (∀ answer answer', R q answer answer' → Related R V (k answer) (k' answer')) →
      Related R V (ask q k) (ask q k')

section related
variable {R : (q : Q) → A q → A q → Prop} {γ δ : Type u} {V : α → β → Prop} {W : γ → δ → Prop}

theorem Related.bind {p : Program Q A ε α} {p' : Program Q A ε β} {f : α → Program Q A ε γ}
    {f' : β → Program Q A ε δ} (h : Related R V p p')
    (hf : ∀ value value', V value value' → Related R W (f value) (f' value')) :
    Related R W (p >>= f) (p' >>= f') := by
  induction h with
  | ret hV => exact hf _ _ hV
  | fail error => exact .fail error
  | ask _ ih => exact .ask ih

/-- What the program comes to where its `n`-th question is answered by `answers n`. -/
def along (answers : Nat → (q : Q) → A q) : Nat → Program Q A ε α → Except ε α
  | _, ret value => .ok value
  | _, fail error => .error error
  | n, ask q k => (k (answers n q)).along answers (n + 1)

theorem along_const (answers : (q : Q) → A q) (p : Program Q A ε α) (n : Nat) :
    p.along (fun _ => answers) n = p.eval answers := by
  induction p generalizing n with
  | ret value => rfl
  | fail error => rfl
  | ask q k ih => exact ih _ (n + 1)

theorem Related.along_eq {answers answers' : Nat → (q : Q) → A q} {p p' : Program Q A ε α}
    (h : Related R Eq p p') (hR : ∀ n q, R q (answers n q) (answers' n q)) (n : Nat) :
    p.along answers n = p'.along answers' n := by
  induction h generalizing n with
  | ret hV => exact congrArg Except.ok hV
  | fail error => rfl
  | ask _ ih => exact ih _ _ (hR n _) (n + 1)

end related

/-! ## A program while a machine goes on -/

variable {σ α' : Type*} {M : Machine σ α'} {P : σ → α' → Prop} {answers : σ → (q : Q) → A q}

/-- The program begins where the machine is at `s` and ends where it is at `u`, each question being
answered out of the state the machine is in by then. -/
inductive During (M : Machine σ α') (P : σ → α' → Prop) (answers : σ → (q : Q) → A q) :
    Program Q A ε α → σ → List (Step A) → Except ε α → σ → Prop
  | ret {value : α} {s : σ} : During M P answers (ret value) s [] (.ok value) s
  | fail {error : ε} {s : σ} : During M P answers (fail error) s [] (.error error) s
  | ask {q : Q} {k : A q → Program Q A ε α} {s s' u : σ} {t : List (Step A)} {out : Except ε α} :
      M.Reach P s s' → During M P answers (k (answers s' q)) s' t out u →
      During M P answers (ask q k) s (⟨q, answers s' q⟩ :: t) out u

theorem During.answered {s u : σ} {out : Except ε α} (h : During M P answers p s t out u)
    {q : Q} {answer : A q} (hmem : ⟨q, answer⟩ ∈ t) :
    ∃ s', M.Reach P s s' ∧ answer = answers s' q := by
  induction h with
  | ret => cases hmem
  | fail => cases hmem
  | ask hs _ ih =>
    rcases List.mem_cons.mp hmem with heq | hmem
    · cases heq
      exact ⟨_, hs, rfl⟩
    · obtain ⟨s'', hs'', heq⟩ := ih hmem
      exact ⟨s'', hs.trans hs'', heq⟩

theorem During.rests (s : σ) (p : Program Q A ε α) :
    During M P answers p s (p.transcript (answers s)) (p.eval (answers s)) s := by
  induction p with
  | ret value => exact .ret
  | fail error => exact .fail
  | ask q k ih => exact .ask .refl (ih (answers s q))

end Program
