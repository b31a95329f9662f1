import ZondDaemon.Base.Program

/-!
# Programs answered out of a state that goes on

A program that asks its questions one after the other, while the state they are answered from goes on in
between and an answer may change it: `Through` is how far the program has come, and where the state is by then.
`Assuming` says what a program comes to where its answers are of a kind.
-/

namespace Program

universe u v

variable {Q : Type u} {A : Q → Type} {ε α β : Type u}

/-- Every end of the program is one of `P`, where every answer is one `R` has. -/
def Assuming (R : (q : Q) → A q → Prop) (P : Except ε α → Prop) : Program Q A ε α → Prop
  | ret value => P (.ok value)
  | fail error => P (.error error)
  | ask q k => ∀ answer, R q answer → (k answer).Assuming R P

section assuming
variable {R : (q : Q) → A q → Prop} {p : Program Q A ε α}

theorem Assuming.mono {P P' : Except ε α → Prop} (h : p.Assuming R P) (hP : ∀ out, P out → P' out) :
    p.Assuming R P' := by
  induction p with
  | ret value => exact hP _ h
  | fail error => exact hP _ h
  | ask q k ih => exact fun answer hanswer => ih answer (h answer hanswer)

theorem Assuming.bind {P : Except ε α → Prop} {P' : Except ε β → Prop} {f : α → Program Q A ε β}
    (h : p.Assuming R P) (hok : ∀ value, P (.ok value) → (f value).Assuming R P')
    (herror : ∀ error, P (.error error) → P' (.error error)) : (p >>= f).Assuming R P' := by
  induction p with
  | ret value => exact hok value h
  | fail error => exact herror error h
  | ask q k ih => exact fun answer hanswer => ih answer (h answer hanswer)

theorem Assuming.map {P : Except ε β → Prop} {f : α → β} (h : p.Assuming R fun out => P (out.map f)) :
    Assuming R P (f <$> p) :=
  h.bind (fun _ hvalue => hvalue) fun _ herror => herror

theorem Ensures.assuming {P : Except ε α → Prop} (h : p.Ensures P) : p.Assuming R P := by
  induction p with
  | ret value => exact h
  | fail error => exact h
  | ask q k ih => exact fun answer _ => ih answer (h answer)

theorem Only.bind_of {P : Q → Prop} {V : α → Prop} {f : α → Program Q A ε β}
    (hf : ∀ value, V value → (f value).Only P)
    (hp : p.Only P) (hV : p.Ensures fun out => ∀ value, out = .ok value → V value) : (p >>= f).Only P := by
  induction p with
  | ret value => exact hf value (hV value rfl)
  | fail error => trivial
  | ask q k ih => exact ⟨hp.1, fun answer => ih answer (hp.2 answer) (hV answer)⟩

end assuming

/-! ## While the state goes on -/

variable {σ : Type v} {R : σ → σ → Prop} {gives : σ → (q : Q) → A q → σ → Prop}
  {p p' p'' : Program Q A ε α} {s t u : σ}

/-- The program `p`, begun where the state was `s`, has come to `p'`, and the state to `u`: in between the state
goes on by `R`, and a question is answered, the state going with it, by `gives`. -/
inductive Through (R : σ → σ → Prop) (gives : σ → (q : Q) → A q → σ → Prop) (p : Program Q A ε α) (s : σ) :
    Program Q A ε α → σ → Prop
  | start : Through R gives p s p s
  | rests {p' : Program Q A ε α} {u v : σ} : Through R gives p s p' u → R u v → Through R gives p s p' v
  | asks {q : Q} {k : A q → Program Q A ε α} {answer : A q} {u v : σ} :
      Through R gives p s (ask q k) u → gives u q answer v → Through R gives p s (k answer) v

theorem Through.trans (h : Through R gives p s p' t) (h' : Through R gives p' t p'' u) :
    Through R gives p s p'' u := by
  induction h' with
  | start => exact h
  | rests _ hR ih => exact ih.rests hR
  | asks _ hgives ih => exact ih.asks hgives

theorem Through.state (hrefl : ∀ s, R s s) (htrans : ∀ {s t u}, R s t → R t u → R s u)
    (hgives : ∀ {s q} {answer : A q} {t}, gives s q answer t → R s t) (h : Through R gives p s p' u) :
    R s u := by
  induction h with
  | start => exact hrefl s
  | rests _ hR ih => exact htrans ih hR
  | asks _ hg ih => exact htrans ih (hgives hg)

theorem Through.ask_cases {q : Q} {k : A q → Program Q A ε α} (hrefl : ∀ s, R s s)
    (htrans : ∀ {s t u}, R s t → R t u → R s u) (h : Through R gives (ask q k) s p' u) :
    (p' = ask q k ∧ R s u) ∨
      ∃ answer t t', R s t ∧ gives t q answer t' ∧ Through R gives (k answer) t' p' u := by
  induction h with
  | start => exact .inl ⟨rfl, hrefl s⟩
  | rests _ hR ih =>
    rcases ih with ⟨heq, hs⟩ | ⟨answer, t, t', hs, hg, hrest⟩
    · exact .inl ⟨heq, htrans hs hR⟩
    · exact .inr ⟨answer, t, t', hs, hg, hrest.rests hR⟩
  | asks _ hgives ih =>
    rcases ih with ⟨heq, hs⟩ | ⟨answer, t, t', hs, hg, hrest⟩
    · cases heq
      exact .inr ⟨_, _, _, hs, hgives, .start⟩
    · exact .inr ⟨answer, t, t', hs, hg, hrest.asks hgives⟩

theorem Through.of_ret {value : α} (hrefl : ∀ s, R s s) (htrans : ∀ {s t u}, R s t → R t u → R s u)
    (h : Through R gives (ret value) s p' u) : p' = ret value ∧ R s u := by
  induction h with
  | start => exact ⟨rfl, hrefl s⟩
  | rests _ hR ih => exact ⟨ih.1, htrans ih.2 hR⟩
  | asks _ _ ih => cases ih.1

theorem Through.of_fail {error : ε} (hrefl : ∀ s, R s s) (htrans : ∀ {s t u}, R s t → R t u → R s u)
    (h : Through R gives (fail error) s p' u) : p' = fail error ∧ R s u := by
  induction h with
  | start => exact ⟨rfl, hrefl s⟩
  | rests _ hR ih => exact ⟨ih.1, htrans ih.2 hR⟩
  | asks _ _ ih => cases ih.1

theorem ofExcept_ne_ask {out : Except ε α} {q : Q} {k : A q → Program Q A ε α} : ofExcept out ≠ ask q k := by
  cases out with
  | ok value => exact fun heq => by cases heq
  | error error => exact fun heq => by cases heq

theorem Through.bind_cases {f : α → Program Q A ε β} {out : Except ε β} (hrefl : ∀ s, R s s)
    (htrans : ∀ {s t u}, R s t → R t u → R s u) (h : Through R gives (p >>= f) s (ofExcept out) u) :
    (∃ value t, Through R gives p s (ret value) t ∧ Through R gives (f value) t (ofExcept out) u) ∨
      ∃ error, out = .error error ∧ Through R gives p s (fail error) u := by
  induction p generalizing s with
  | ret value => exact .inl ⟨value, s, .start, h⟩
  | fail error =>
    obtain ⟨heq, hs⟩ := h.of_fail hrefl htrans
    cases out with
    | ok value => cases heq
    | error error' =>
      cases heq
      exact .inr ⟨error, rfl, .rests .start hs⟩
  | ask q k ih =>
    rcases h.ask_cases hrefl htrans with ⟨heq, -⟩ | ⟨answer, t, t', hs, hgives, hrest⟩
    · exact absurd heq ofExcept_ne_ask
    · have hfirst : Through R gives (ask q k) s (k answer) t' := .asks (.rests .start hs) hgives
      rcases ih answer hrest with ⟨value, t'', hvalue, hrest⟩ | ⟨error, heq, herror⟩
      · exact .inl ⟨value, t'', hfirst.trans hvalue, hrest⟩
      · exact .inr ⟨error, heq, hfirst.trans herror⟩

end Program
