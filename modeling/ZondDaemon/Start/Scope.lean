import ZondDaemon.Plain
import ZondDaemon.Proto

/-!
# What this daemon may be pointed at

`Scope` of `scope.rs`: an allow list, where there is one, and a deny list, both sets of addresses of the
engine's. What the engine promises of its sets is `IpSetLaws`, said of the canonical ones where the
arithmetic needs them to be; `outside` is what a request reaches past the policy (`holds_outside`), and a
request is permitted exactly where that is nothing (`permits_ok_iff`).
-/

namespace ZondDaemon

/-- An address of either family, as its number. -/
inductive Address
  | v4 (number : Nat)
  | v6 (number : Nat)
deriving DecidableEq

namespace Address

/-- A number's `count` digits in the base, the most significant first. -/
def digits (base : Nat) : Nat → Nat → List Nat
  | 0, _ => []
  | count + 1, number => digits base count (number / base) ++ [number % base]

/-- An IPv4 address, dotted. -/
def showV4 (number : Nat) : String := ".".intercalate ((digits 256 4 number).map toString)

def hex (segment : Nat) : String := String.ofList (Nat.toDigits 16 segment)

/-- Where the first of the longest runs of zeros begins and how long it is. -/
def longestZeros (segments : List Nat) : Nat × Nat :=
  let scanned := segments.zipIdx.foldl (fun ((current, longest) : (Nat × Nat) × (Nat × Nat)) (segment, i) =>
    if segment = 0 then
      let current := if current.2 = 0 then (i, 1) else (current.1, current.2 + 1)
      (current, if longest.2 < current.2 then current else longest)
    else ((0, 0), longest)) ((0, 0), (0, 0))
  scanned.2

/-- An IPv6 address, its longest run of zeros left out where that is two or more. -/
def showV6 (number : Nat) : String :=
  if number / 2 ^ 32 = 0xffff then s!"::ffff:{showV4 (number % 2 ^ 32)}"
  else
    let segments := digits 65536 8 number
    let join := fun (part : List Nat) => ":".intercalate (part.map hex)
    let (start, length) := longestZeros segments
    if 1 < length then s!"{join (segments.take start)}::{join (segments.drop (start + length))}"
    else join segments

/-- The address as a refusal writes it, an IPv6 one in brackets. -/
def bracket : Address → String
  | .v4 number => showV4 number
  | .v6 number => s!"[{showV6 number}]"

end Address

/-- One range, written as a person would write it. -/
def span (first last : Address) : String :=
  if first = last then first.bracket else s!"{first.bracket}-{last.bracket}"

namespace Engine

variable (E : Engine)

/-- The set has the address in one of its ranges. -/
def holds (s : E.IpSet) : Address → Prop
  | .v4 number => ∃ range ∈ E.v4 s, range.startAddr ≤ number ∧ number ≤ range.endAddr
  | .v6 number => ∃ range ∈ E.v6 s, range.startAddr ≤ number ∧ number ≤ range.endAddr

/-- The ranges of the one set pushed into the other. -/
def pushRanges (s t : E.IpSet) : E.IpSet :=
  (E.v6 t).foldl E.pushV6Range ((E.v4 t).foldl E.pushV4Range s)

/-- Adding one set of ranges to another without walking a single address. -/
def extendRanges (s t : E.IpSet) : E.IpSet := E.canonicalize (E.pushRanges s t)

/-- Every address a port scan will reach: the union of its units' addresses. -/
def reachedBy (map : E.TargetMap) : E.IpSet :=
  E.canonicalize ((E.units map).foldl E.pushRanges E.newSet)

end Engine

/-- What the engine promises of its address sets, the canonical ones being those it hands out and those
`canonicalize` makes. -/
structure IpSetLaws (E : Engine) (Canonical : E.IpSet → Prop) : Prop where
  newSet_canonical : Canonical E.newSet
  canonicalize_canonical : ∀ s, Canonical (E.canonicalize s)
  subtract_canonical : ∀ {s t}, Canonical s → Canonical t → Canonical (E.subtract s t)
  intoIps_canonical : ∀ targets, Canonical (E.intoIps targets)
  planAddresses_canonical : ∀ {plan s}, E.planAddresses plan = some s → Canonical s
  not_holds_newSet : ∀ a, ¬ E.holds E.newSet a
  holds_pushV4Range : ∀ s range a, E.holds (E.pushV4Range s range) a ↔
    E.holds s a ∨ ∃ number, a = .v4 number ∧ range.startAddr ≤ number ∧ number ≤ range.endAddr
  holds_pushV6Range : ∀ s range a, E.holds (E.pushV6Range s range) a ↔
    E.holds s a ∨ ∃ number, a = .v6 number ∧ range.startAddr ≤ number ∧ number ≤ range.endAddr
  holds_canonicalize : ∀ s a, E.holds (E.canonicalize s) a ↔ E.holds s a
  holds_subtract : ∀ {s t}, Canonical s → Canonical t →
    ∀ a, E.holds (E.subtract s t) a ↔ E.holds s a ∧ ¬ E.holds t a
  isEmpty_iff : ∀ {s}, Canonical s → (E.isEmpty s = true ↔ ∀ a, ¬ E.holds s a)

/-- Where this daemon may send probes. -/
structure Scope (E : Engine) where
  /-- Where a scan may reach; `none` is anywhere. -/
  allowed : Option E.IpSet
  /-- Where it may not, whatever `allowed` says. -/
  denied : E.IpSet

namespace Scope

variable {E : Engine}

/-- A daemon that may be pointed anywhere. -/
def anywhere : Scope E := ⟨none, E.newSet⟩

/-- One expression more on one side of a policy. -/
def add (side : String) (whole : E.IpSet) (expression : String) : Except Error E.IpSet :=
  match E.parseIpSet expression with
  | .ok one => .ok (E.extendRanges whole one)
  | .error refused => .error ⟨"scope.malformed",
      s!"{expression} is not an address range for the {side} list: {refused}"⟩

/-- Reads one side of a policy. -/
def set (written : List String) (side : String) : Except Error E.IpSet :=
  written.foldlM (add side) E.newSet

/-- Reads a policy off the words an operator wrote it in. -/
def read (allowed denied : List String) : Except Error (Scope E) := do
  let allowed ← if allowed.isEmpty then .ok none else some <$> set allowed "allowed"
  let denied ← set denied "denied"
  return ⟨allowed, denied⟩

/-- The addresses of `asked` this policy does not permit. -/
def outside (scope : Scope E) (asked : E.IpSet) : E.IpSet :=
  let beyond := match scope.allowed with
    | some allowed => E.subtract asked allowed
    | none => E.newSet
  let permitted := E.subtract asked scope.denied
  -- inside the deny list: what is asked for minus everything not denied
  let denied := E.subtract asked permitted
  E.extendRanges beyond denied

/-- The ranges in turn, three at the outside. -/
def writeRanges : Nat → List String → String
  | _, [] => ""
  | written, range :: rest =>
    if written = 3 then " and more"
    else (if 0 < written then ", " else "") ++ range ++ writeRanges (written + 1) rest

/-- `Ranges`: a set written out as the ranges it holds. -/
def ranges (s : E.IpSet) : String :=
  writeRanges 0 (((E.v4 s).map fun range => span (.v4 range.startAddr) (.v4 range.endAddr)) ++
    (E.v6 s).map fun range => span (.v6 range.startAddr) (.v6 range.endAddr))

/-- The refusal of a request that reaches these addresses past the policy. -/
def refusal (refused : E.IpSet) : Error :=
  ⟨"scope.refused", s!"this daemon may not scan {ranges refused}; {E.len refused} addresses of the " ++
    "request are outside what it is allowed"⟩

/-- Refuses `asked` unless every address in it is permitted. -/
def permits (scope : Scope E) (asked : E.IpSet) : Except Error Unit :=
  let refused := scope.outside asked
  if E.isEmpty refused then .ok () else .error (refusal refused)

theorem read_eq_ok {allowed denied : List String} {scope : Scope E} (h : read allowed denied = .ok scope) :
    (allowed = [] ∧ scope.allowed = none ∨
      allowed ≠ [] ∧ ∃ s, set allowed "allowed" = .ok s ∧ scope.allowed = some s) ∧
    set denied "denied" = .ok scope.denied := by
  rw [read] at h
  cases hdenied : (set denied "denied" : Except Error E.IpSet) with
  | error refused =>
    rw [hdenied] at h
    split_ifs at h
    · cases h
    · cases hallowed : (set allowed "allowed" : Except Error E.IpSet) <;> rw [hallowed] at h <;> cases h
  | ok denies =>
    rw [hdenied] at h
    split_ifs at h with hempty
    · cases h
      exact ⟨.inl ⟨List.isEmpty_iff.mp hempty, rfl⟩, rfl⟩
    · cases hallowed : (set allowed "allowed" : Except Error E.IpSet) with
      | error refused =>
        rw [hallowed] at h
        cases h
      | ok allows =>
        rw [hallowed] at h
        cases h
        exact ⟨.inr ⟨fun hnil => hempty (List.isEmpty_iff.mpr hnil), allows, rfl, rfl⟩, rfl⟩

/-! ## Unions of ranges -/

section laws
variable {Canonical : E.IpSet → Prop} (laws : IpSetLaws E Canonical)
include laws

theorem holds_foldl_pushV4Range (ranges : List IpRange) (s : E.IpSet) (a : Address) :
    E.holds (ranges.foldl E.pushV4Range s) a ↔ E.holds s a ∨
      ∃ number, a = .v4 number ∧ ∃ range ∈ ranges, range.startAddr ≤ number ∧ number ≤ range.endAddr := by
  induction ranges generalizing s with
  | nil => simp
  | cons range rest ih =>
    rw [List.foldl_cons, ih, laws.holds_pushV4Range, or_assoc]
    apply or_congr_right
    simp only [List.mem_cons, exists_eq_or_imp, and_or_left, exists_or]

theorem holds_foldl_pushV6Range (ranges : List IpRange) (s : E.IpSet) (a : Address) :
    E.holds (ranges.foldl E.pushV6Range s) a ↔ E.holds s a ∨
      ∃ number, a = .v6 number ∧ ∃ range ∈ ranges, range.startAddr ≤ number ∧ number ≤ range.endAddr := by
  induction ranges generalizing s with
  | nil => simp
  | cons range rest ih =>
    rw [List.foldl_cons, ih, laws.holds_pushV6Range, or_assoc]
    apply or_congr_right
    simp only [List.mem_cons, exists_eq_or_imp, and_or_left, exists_or]

theorem holds_pushRanges (s t : E.IpSet) (a : Address) :
    E.holds (E.pushRanges s t) a ↔ E.holds s a ∨ E.holds t a := by
  rw [Engine.pushRanges, holds_foldl_pushV6Range laws, holds_foldl_pushV4Range laws, or_assoc]
  apply or_congr_right
  cases a <;> simp [Engine.holds]

theorem holds_extendRanges (s t : E.IpSet) (a : Address) :
    E.holds (E.extendRanges s t) a ↔ E.holds s a ∨ E.holds t a := by
  rw [Engine.extendRanges, laws.holds_canonicalize, holds_pushRanges laws]

theorem holds_foldl_pushRanges (sets : List E.IpSet) (s : E.IpSet) (a : Address) :
    E.holds (sets.foldl E.pushRanges s) a ↔ E.holds s a ∨ ∃ t ∈ sets, E.holds t a := by
  induction sets generalizing s with
  | nil => simp
  | cons t rest ih => rw [List.foldl_cons, ih, holds_pushRanges laws, or_assoc, List.exists_mem_cons_iff]

theorem holds_reachedBy (map : E.TargetMap) (a : Address) :
    E.holds (E.reachedBy map) a ↔ ∃ ips ∈ E.units map, E.holds ips a := by
  rw [Engine.reachedBy, laws.holds_canonicalize, holds_foldl_pushRanges laws,
    or_iff_right (laws.not_holds_newSet a)]

/-! ## The policy -/

theorem foldlM_add_canonical {side : String} {written : List String} {whole s : E.IpSet}
    (hwhole : Canonical whole) (h : written.foldlM (add side) whole = .ok s) : Canonical s := by
  induction written generalizing whole with
  | nil =>
    cases h
    exact hwhole
  | cons expression rest ih =>
    rw [List.foldlM_cons, add] at h
    cases hone : E.parseIpSet expression with
    | error refused =>
      rw [hone] at h
      cases h
    | ok one =>
      rw [hone] at h
      exact ih (laws.canonicalize_canonical _) h

theorem read_canonical {allowed denied : List String} {scope : Scope E}
    (h : read allowed denied = .ok scope) :
    (∀ s ∈ scope.allowed, Canonical s) ∧ Canonical scope.denied := by
  obtain ⟨hallowed, hdenied⟩ := read_eq_ok h
  refine ⟨?_, foldlM_add_canonical laws laws.newSet_canonical hdenied⟩
  rcases hallowed with ⟨-, hnone⟩ | ⟨-, s, hset, hsome⟩
  · simp [hnone]
  · rw [hsome]
    rintro s' ⟨⟩
    exact foldlM_add_canonical laws laws.newSet_canonical hset

end laws

/-- The policy lets a scan reach the address. -/
def Allows (scope : Scope E) (a : Address) : Prop :=
  (∀ allowed ∈ scope.allowed, E.holds allowed a) ∧ ¬ E.holds scope.denied a

section laws
variable {Canonical : E.IpSet → Prop} (laws : IpSetLaws E Canonical) {scope : Scope E} {asked : E.IpSet}
  (hscope : (∀ s ∈ scope.allowed, Canonical s) ∧ Canonical scope.denied) (hasked : Canonical asked)
include laws hscope hasked

theorem holds_outside (a : Address) :
    E.holds (scope.outside asked) a ↔ E.holds asked a ∧ ¬ scope.Allows a := by
  have hdenied : E.holds (E.subtract asked (E.subtract asked scope.denied)) a ↔
      E.holds asked a ∧ E.holds scope.denied a := by
    rw [laws.holds_subtract hasked (laws.subtract_canonical hasked hscope.2),
      laws.holds_subtract hasked hscope.2]
    tauto
  rw [outside, holds_extendRanges laws, hdenied, Allows]
  cases hallowed : scope.allowed with
  | none =>
    simp only [laws.not_holds_newSet a, false_or, Option.mem_def, reduceCtorEq, false_imp_iff, implies_true,
      true_and, not_not]
  | some allowed =>
    have hcanonical : Canonical allowed := hscope.1 allowed hallowed
    simp only [laws.holds_subtract hasked hcanonical, Option.mem_def, Option.some.injEq, forall_eq']
    tauto

/-- **A request is permitted exactly where the policy allows every address in it.** -/
theorem permits_ok_iff : scope.permits asked = .ok () ↔ ∀ a, E.holds asked a → scope.Allows a := by
  have hempty := laws.isEmpty_iff (s := scope.outside asked) (laws.canonicalize_canonical _)
  simp only [holds_outside laws hscope hasked, not_and, not_not] at hempty
  rw [← hempty, permits]
  split <;> simp_all

end laws

end Scope

/-! ## The plain engine's sets -/

namespace Plain

theorem holds_v4 {s : IpSet} {number : Nat} : engine.holds s (.v4 number) ↔ number ∈ s.v4 := by
  simp [Engine.holds, ranges, Spans.mem_def]

theorem holds_v6 {s : IpSet} {number : Nat} : engine.holds s (.v6 number) ↔ number ∈ s.v6 := by
  simp [Engine.holds, ranges, Spans.mem_def]

/-- The plain engine's sets are always canonical, and do what the engine promises of them. -/
theorem lawful : IpSetLaws engine fun _ => True where
  newSet_canonical := trivial
  canonicalize_canonical _ := trivial
  subtract_canonical _ _ := trivial
  intoIps_canonical _ := trivial
  planAddresses_canonical _ := trivial
  not_holds_newSet a := by
    cases a with
    | v4 number => exact fun h => Spans.not_mem_empty (holds_v4.mp h)
    | v6 number => exact fun h => Spans.not_mem_empty (holds_v6.mp h)
  holds_pushV4Range s range a := by
    cases a with
    | v4 number =>
      rw [holds_v4, holds_v4, or_comm]
      simpa using Spans.mem_insert
    | v6 number => simp [holds_v6]
  holds_pushV6Range s range a := by
    cases a with
    | v4 number => simp [holds_v4]
    | v6 number =>
      rw [holds_v6, holds_v6, or_comm]
      simpa using Spans.mem_insert
  holds_canonicalize _ _ := Iff.rfl
  holds_subtract _ _ a := by
    cases a with
    | v4 number =>
      rw [holds_v4, holds_v4, holds_v4]
      exact Spans.mem_subtract
    | v6 number =>
      rw [holds_v6, holds_v6, holds_v6]
      exact Spans.mem_subtract
  isEmpty_iff {s} _ := by
    rw [Bool.and_eq_true, List.isEmpty_iff, List.isEmpty_iff, Spans.list_eq_nil, Spans.list_eq_nil]
    constructor
    · rintro ⟨h4, h6⟩ (number | number) h
      · exact h4 number (holds_v4.mp h)
      · exact h6 number (holds_v6.mp h)
    · exact fun h => ⟨fun number hn => h (.v4 number) (holds_v4.mpr hn),
        fun number hn => h (.v6 number) (holds_v6.mpr hn)⟩

end Plain

end ZondDaemon
