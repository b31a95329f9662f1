import ZondDaemon.Start.Scope

/-!
# Exactly what was allowed, less what was denied

What a policy lets through, said of the words an operator wrote it in (`Permitted`): the policy that is
read off them permits a request where each address of it is in some expression of the allow list, unless
there is none, and in no expression of the deny list, and otherwise refuses it with the addresses that are
not, each counted once (`permits_exactly`).
-/

namespace ZondDaemon.Scope

variable {E : Engine} {Canonical : E.IpSet → Prop}

/-- What else the engine promises of the sets in canonical form: their length is the number of their
addresses. -/
def Counts (E : Engine) (Canonical : E.IpSet → Prop) : Prop :=
  ∀ s, Canonical s → ∃ addresses : List Address,
    addresses.Nodup ∧ (∀ a, a ∈ addresses ↔ E.holds s a) ∧ E.len s = addresses.length

/-- Whether the policy bounds anything at all. -/
def isBounded (scope : Scope E) : Bool := scope.allowed.isSome || !E.isEmpty scope.denied

/-- The expression stands for the address, among others. -/
def Covers (E : Engine) (expression : String) (a : Address) : Prop :=
  ∃ s, E.parseIpSet expression = .ok s ∧ E.holds s a

/-- What the two lists say of an address. -/
def Permitted (E : Engine) (allow deny : List String) (a : Address) : Prop :=
  (allow = [] ∨ ∃ expression ∈ allow, Covers E expression a) ∧ ∀ expression ∈ deny, ¬ Covers E expression a

/-! ## Reading the lists -/

theorem add_eq_ok {side : String} {whole s : E.IpSet} {expression : String}
    (h : add side whole expression = .ok s) :
    ∃ one, E.parseIpSet expression = .ok one ∧ s = E.extendRanges whole one := by
  rw [add] at h
  split at h
  · rename_i one hone
    exact ⟨one, hone, (Except.ok.inj h).symm⟩
  · cases h

theorem set_eq_ok_iff (side : String) (whole : E.IpSet) {written : List String} :
    (∃ s, written.foldlM (add side) whole = .ok s) ↔
      ∀ expression ∈ written, ∃ one, E.parseIpSet expression = .ok one := by
  induction written generalizing whole with
  | nil => simp [pure, Except.pure]
  | cons expression rest ih =>
    rw [List.foldlM_cons, List.forall_mem_cons]
    cases hone : E.parseIpSet expression with
    | error refused => simp [add, hone, bind, Except.bind]
    | ok one =>
      have hadd : add side whole expression = .ok (E.extendRanges whole one) := by rw [add, hone]
      simp only [hadd, bind, Except.bind, ih, Except.ok.injEq, exists_eq', true_and]

theorem holds_foldlM_add (laws : IpSetLaws E Canonical) {side : String} {written : List String}
    {whole s : E.IpSet} (h : written.foldlM (add side) whole = .ok s) (a : Address) :
    E.holds s a ↔ E.holds whole a ∨ ∃ expression ∈ written, Covers E expression a := by
  induction written generalizing whole with
  | nil =>
    cases h
    simp
  | cons expression rest ih =>
    rw [List.foldlM_cons] at h
    cases hadd : add side whole expression with
    | error refused =>
      rw [hadd] at h
      cases h
    | ok next =>
      rw [hadd] at h
      obtain ⟨one, hone, rfl⟩ := add_eq_ok hadd
      have hcovers : Covers E expression a ↔ E.holds one a := by simp [Covers, hone]
      rw [ih h, holds_extendRanges laws, List.exists_mem_cons_iff, hcovers, or_assoc]

/-- A policy that was read allows exactly what the two lists say. -/
theorem allows_iff (laws : IpSetLaws E Canonical) {allow deny : List String} {scope : Scope E}
    (h : read allow deny = .ok scope) (a : Address) : scope.Allows a ↔ Permitted E allow deny a := by
  obtain ⟨hallowed, hdenied⟩ := read_eq_ok h
  have hholds {side : String} {written : List String} {s : E.IpSet} (hset : set written side = .ok s) :
      E.holds s a ↔ ∃ expression ∈ written, Covers E expression a := by
    rw [holds_foldlM_add laws hset a, or_iff_right (laws.not_holds_newSet a)]
  rw [Allows, Permitted, hholds hdenied]
  refine and_congr ?_ (by simp)
  rcases hallowed with ⟨rfl, hnone⟩ | ⟨hne, s, hset, hsome⟩
  · simp [hnone]
  · simp [hsome, hholds hset, hne]

theorem read_ok_iff {allow deny : List String} :
    (∃ scope : Scope E, read allow deny = .ok scope) ↔
      ∀ expression ∈ allow ++ deny, ∃ s, E.parseIpSet expression = .ok s := by
  rw [List.forall_mem_append, ← set_eq_ok_iff "allowed" E.newSet,
    ← set_eq_ok_iff "denied" E.newSet]
  constructor
  · rintro ⟨scope, h⟩
    obtain ⟨hallowed, hdenied⟩ := read_eq_ok h
    refine ⟨?_, _, hdenied⟩
    rcases hallowed with ⟨rfl, -⟩ | ⟨-, s, hset, -⟩
    · exact ⟨_, rfl⟩
    · exact ⟨s, hset⟩
  · rintro ⟨⟨allows, hallows⟩, denies, hdenies⟩
    have hset : (set allow "allowed" : Except Error E.IpSet) = .ok allows := hallows
    have hset' : (set deny "denied" : Except Error E.IpSet) = .ok denies := hdenies
    refine ⟨⟨if allow.isEmpty then none else some allows, denies⟩, ?_⟩
    rw [read, hset, hset']
    split_ifs <;> rfl

/-! ## Canonical sets only -/

section arithmetic
variable (subtract : E.IpSet → E.IpSet → E.IpSet) (len : E.IpSet → Nat) (isEmpty : E.IpSet → Bool)

/-- The engine with other arithmetic on its sets. -/
abbrev reckoning (E : Engine) (subtract : E.IpSet → E.IpSet → E.IpSet) (len : E.IpSet → Nat)
    (isEmpty : E.IpSet → Bool) : Engine :=
  { E with subtract, len, isEmpty }

/-- What comes of the two lists and a request: whether anything is bounded, and the answer. -/
def decided (E : Engine) (allow deny : List String) (asked : E.IpSet) :
    Except Error (Bool × Except Error Unit) :=
  (read (E := E) allow deny).map fun scope => (scope.isBounded, scope.permits asked)

theorem set_reckoning (written : List String) (side : String) :
    set (E := reckoning E subtract len isEmpty) written side = set (E := E) written side := by
  have hadd : add (E := reckoning E subtract len isEmpty) side = add (E := E) side := by
    funext whole expression
    simp only [add]
    cases E.parseIpSet expression <;> rfl
  exact congrArg (fun f => written.foldlM f E.newSet) hadd

theorem read_reckoning (allow deny : List String) :
    read (E := reckoning E subtract len isEmpty) allow deny =
      (read (E := E) allow deny).map fun scope => ⟨scope.allowed, scope.denied⟩ := by
  simp only [read, set_reckoning]
  cases (set deny "denied" : Except Error E.IpSet) <;> split_ifs <;>
    cases (set allow "allowed" : Except Error E.IpSet) <;> rfl

/-- The arithmetic is asked about canonical sets alone: another that differs on other sets decides the same. -/
theorem decided_reckoning (laws : IpSetLaws E Canonical) {subtract : E.IpSet → E.IpSet → E.IpSet}
    {len : E.IpSet → Nat} {isEmpty : E.IpSet → Bool}
    (hsubtract : ∀ s t, Canonical s → Canonical t → subtract s t = E.subtract s t)
    (hlen : ∀ s, Canonical s → len s = E.len s) (hempty : ∀ s, Canonical s → isEmpty s = E.isEmpty s)
    (allow deny : List String) {asked : E.IpSet} (hasked : Canonical asked) :
    decided (reckoning E subtract len isEmpty) allow deny asked = decided E allow deny asked := by
  rw [decided, decided, read_reckoning]
  cases h : (read allow deny : Except Error (Scope E)) with
  | error refused => rfl
  | ok scope =>
    obtain ⟨hallowed, hdenied⟩ := read_canonical laws h
    have hpermitted : Canonical (E.subtract asked scope.denied) := laws.subtract_canonical hasked hdenied
    have houtside : outside (E := reckoning E subtract len isEmpty) ⟨scope.allowed, scope.denied⟩ asked =
        scope.outside asked := by
      simp only [outside]
      rw [hsubtract asked scope.denied hasked hdenied, hsubtract asked _ hasked hpermitted]
      cases hsome : scope.allowed with
      | none => rfl
      | some allowed =>
        simp only [hsubtract asked allowed hasked (hallowed allowed hsome)]
        rfl
    have hrefused : Canonical (scope.outside asked) := laws.canonicalize_canonical _
    have hrefusal : refusal (E := reckoning E subtract len isEmpty) (scope.outside asked) =
        refusal (E := E) (scope.outside asked) := by
      simp only [refusal]
      rw [hlen _ hrefused]
      rfl
    have hpermits : permits (E := reckoning E subtract len isEmpty) ⟨scope.allowed, scope.denied⟩ asked =
        scope.permits asked := by
      simp only [permits, houtside]
      rw [hempty _ hrefused, hrefusal]
    have hbounded : isBounded (E := reckoning E subtract len isEmpty) ⟨scope.allowed, scope.denied⟩ =
        scope.isBounded := by
      simp only [isBounded]
      rw [hempty _ hdenied]
    simp only [Except.map, hpermits, hbounded]

end arithmetic

/-! ## The policy -/

/-- **A policy permits what is in its allow list and not in its deny list, and refuses the rest counted
once.** -/
theorem permits_exactly (laws : IpSetLaws E Canonical) (hcounts : Counts E Canonical)
    (allow deny : List String) :
    ((∃ scope : Scope E, read allow deny = .ok scope) ↔
        ∀ expression ∈ allow ++ deny, ∃ s, E.parseIpSet expression = .ok s) ∧
      (∀ scope : Scope E, read allow deny = .ok scope → ∀ asked, Canonical asked →
        (scope.permits asked = .ok () ↔ ∀ a, E.holds asked a → Permitted E allow deny a) ∧
        (scope.permits asked = .ok () ∨ scope.permits asked = .error (refusal (scope.outside asked))) ∧
        ∃ refused : List Address, refused.Nodup ∧
          (∀ a, a ∈ refused ↔ E.holds asked a ∧ ¬ Permitted E allow deny a) ∧
          (∀ a, a ∈ refused ↔ E.holds (scope.outside asked) a) ∧
          E.len (scope.outside asked) = refused.length) ∧
      ∀ (subtract : E.IpSet → E.IpSet → E.IpSet) (len : E.IpSet → Nat) (isEmpty : E.IpSet → Bool),
        (∀ s t, Canonical s → Canonical t → subtract s t = E.subtract s t) →
        (∀ s, Canonical s → len s = E.len s) → (∀ s, Canonical s → isEmpty s = E.isEmpty s) →
        ∀ asked, Canonical asked →
          decided (reckoning E subtract len isEmpty) allow deny asked = decided E allow deny asked := by
  refine ⟨read_ok_iff, ?_, fun subtract len isEmpty hsubtract hlen hempty asked hasked =>
    decided_reckoning laws hsubtract hlen hempty allow deny hasked⟩
  intro scope h asked hasked
  have hscope := read_canonical laws h
  refine ⟨?_, ?_, ?_⟩
  · simp only [permits_ok_iff laws hscope hasked, allows_iff laws h]
  · rw [permits]
    split_ifs
    · exact .inl rfl
    · exact .inr rfl
  · obtain ⟨refused, hnodup, hmem, hlength⟩ := hcounts (scope.outside asked) (laws.canonicalize_canonical _)
    refine ⟨refused, hnodup, ?_, hmem, hlength⟩
    intro a
    rw [hmem, holds_outside laws hscope hasked, allows_iff laws h]

theorem plain_counts : Counts Plain.engine fun _ => True := by
  intro s _
  refine ⟨s.v4.members.map .v4 ++ s.v6.members.map .v6, ?_, ?_, ?_⟩
  · rw [List.nodup_append']
    refine ⟨Spans.nodup_members.map fun _ _ h => Address.v4.inj h,
      Spans.nodup_members.map fun _ _ h => Address.v6.inj h, ?_⟩
    simp [List.disjoint_left]
  · rintro (number | number)
    · simp [Plain.holds_v4, Spans.mem_members]
    · simp [Plain.holds_v6, Spans.mem_members]
  · simp [Plain.IpSet.len, Spans.length_members]

/-- Of 7 to 11, with 7 and 9 allowed and 9 and 11 denied, four are refused: 11 once, though both lists
refuse it. -/
theorem permits_exactly_overlap :
    ∃ refused : List Address, refused.Nodup ∧ refused.length = 4 ∧ ∀ a, a ∈ refused ↔
      Plain.engine.holds ⟨Spans.empty.insert 7 11, .empty⟩ a ∧
        ¬ Permitted Plain.engine ["7", "9"] ["9", "11"] a := by
  have hall := permits_exactly Plain.lawful plain_counts ["7", "9"] ["9", "11"]
  have hread : read (E := Plain.engine) ["7", "9"] ["9", "11"] = .ok ⟨some ⟨(Spans.empty.insert 7 7).insert 9 9,
      .empty⟩, ⟨(Spans.empty.insert 9 9).insert 11 11, .empty⟩⟩ := rfl
  obtain ⟨-, -, refused, hnodup, hmem, -, hlength⟩ :=
    hall.2.1 _ hread ⟨Spans.empty.insert 7 11, .empty⟩ trivial
  exact ⟨refused, hnodup, hlength.symm.trans (by decide), hmem⟩

end ZondDaemon.Scope
