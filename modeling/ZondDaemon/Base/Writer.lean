import ZondDaemon.Base.Reader

/-!
# Writing values as JSON

A writer gives the JSON of a value, or nothing where the value cannot be written. `Returns` is the round
trip: what is written is read as what it was written of. Of an object it is put together a member at a time
(`Restores`), each member by the field of its name setting what the member was written of.
-/

namespace Writer

open Reader (declared put readMembers message)

variable {X M : Type}

/-! ## Values -/

def text (text : String) : Option Json := some (.string text)

def flag (value : Bool) : Option Json := some (.bool value)

def whole (n : Nat) : Option Json := some (.number (.posInt n))

/-- A value by its name, where it has one. -/
def named (names : X → Option String) (x : X) : Option Json := (names x).map .string

/-- A value, or null for none. -/
def optional (write : X → Option Json) : Option X → Option Json
  | none => some .null
  | some x => write x

def list (write : X → Option Json) (values : List X) : Option Json := (values.mapM write).map .array

/-- The members of an object, each of which has to be written for any to be. -/
def members : List (String × Option Json) → Option (List (String × Json))
  | [] => some []
  | (name, written) :: rest => written.bind fun value => (members rest).map ((name, value) :: ·)

def object (written : List (String × Option Json)) : Option Json := (members written).map .object

/-! ## What can be written -/

variable {write : X → Option Json} {written : List (String × Option Json)} {name : String} {value : Json}

theorem isSome_optional {x : Option X} : (optional write x).isSome ↔ ∀ y ∈ x, (write y).isSome := by
  cases x <;> simp [optional]

theorem isSome_list {values : List X} : (list write values).isSome ↔ ∀ x ∈ values, (write x).isSome := by
  rw [list, Option.isSome_map]
  induction values with
  | nil => simp
  | cons x values ih =>
    rw [List.forall_mem_cons, ← ih, List.mapM_cons]
    cases write x <;> cases values.mapM write <;> simp

theorem isSome_members : (members written).isSome ↔ ∀ member ∈ written, member.2.isSome := by
  induction written with
  | nil => simp [members]
  | cons member rest ih =>
    obtain ⟨name, value⟩ := member
    rw [List.forall_mem_cons, ← ih, members]
    cases value <;> cases members rest <;> simp

theorem isSome_object : (object written).isSome ↔ ∀ member ∈ written, member.2.isSome := by
  rw [object, Option.isSome_map, isSome_members]

/-! ## The members of an object -/

theorem mem_members {held : List (String × Json)} (h : members written = some held) :
    (name, value) ∈ held ↔ (name, some value) ∈ written := by
  induction written generalizing held with
  | nil =>
    cases h
    simp
  | cons member rest ih =>
    obtain ⟨other, one⟩ := member
    obtain ⟨first, rfl, hrest⟩ := Option.bind_eq_some_iff.mp h
    obtain ⟨others, hothers, rfl⟩ := Option.map_eq_some_iff.mp hrest
    rw [List.mem_cons, List.mem_cons, ih hothers, Prod.mk.injEq, Prod.mk.injEq, Option.some.injEq]

theorem map_members {held : List (String × Json)} (h : members written = some held) :
    held.map Prod.fst = written.map Prod.fst := by
  induction written generalizing held with
  | nil =>
    cases h
    rfl
  | cons member rest ih =>
    obtain ⟨first, hfirst, hrest⟩ := Option.bind_eq_some_iff.mp h
    obtain ⟨others, hothers, rfl⟩ := Option.map_eq_some_iff.mp hrest
    rw [List.map_cons, List.map_cons, ih hothers]

/-! ## Round trips -/

/-- What is written, where it is, is read as the value it was written of. -/
def Returns (r : Reader X) (written : Option Json) (x : X) : Prop :=
  ∀ value, written = some value → r.read value = some x

/-- No value is written as null. -/
def Solid (write : X → Option Json) : Prop := ∀ x, write x ≠ some .null

theorem solid_text : Solid text := by
  rintro x ⟨⟩

theorem solid_flag : Solid flag := by
  rintro x ⟨⟩

theorem solid_whole : Solid whole := by
  rintro x ⟨⟩

theorem solid_named (names : X → Option String) : Solid (named names) := by
  intro x h
  obtain ⟨name, -, heq⟩ := Option.map_eq_some_iff.mp h
  cases heq

theorem solid_object (members : X → List (String × Option Json)) : Solid fun x => object (members x) := by
  intro x h
  obtain ⟨held, -, heq⟩ := Option.map_eq_some_iff.mp h
  cases heq

theorem returns_text (x : String) : Returns .text (text x) x := by
  rintro _ ⟨⟩
  rfl

theorem returns_flag (x : Bool) : Returns .flag (flag x) x := by
  rintro _ ⟨⟩
  rfl

theorem returns_whole {most n : Nat} (h : n ≤ most) : Returns (.whole most) (whole n) n := by
  rintro _ ⟨⟩
  exact if_pos h

theorem returns_named {names : X → Option String} {read : String → Option X} {x : X}
    (h : ∀ name, names x = some name → read name = some x) : Returns (.named read) (named names x) x := by
  intro value hvalue
  obtain ⟨name, hname, rfl⟩ := Option.map_eq_some_iff.mp hvalue
  exact h name hname

theorem returns_optional {r : Reader X} (hsolid : Solid write) {x : Option X}
    (h : ∀ y ∈ x, Returns r (write y) y) : Returns r.optional (optional write x) x := by
  intro value hvalue
  cases x with
  | none =>
    cases hvalue
    rfl
  | some y =>
    have hread : r.read value = some y := h y rfl value hvalue
    cases value with
    | null => exact absurd hvalue (hsolid y)
    | _ => exact congrArg (Option.map some) hread

theorem mapM_returns {r : Reader X} {values : List X} (h : ∀ x ∈ values, Returns r (write x) x)
    {items : List Json} (hitems : values.mapM write = some items) : items.mapM r.read = some values := by
  induction values generalizing items with
  | nil =>
    cases hitems
    rfl
  | cons x values ih =>
    rw [List.mapM_cons] at hitems
    obtain ⟨first, hfirst, hrest⟩ := Option.bind_eq_some_iff.mp hitems
    obtain ⟨rest, hothers, heq⟩ := Option.bind_eq_some_iff.mp hrest
    cases heq
    have hread : rest.mapM r.read = some values := ih (fun y hy => h y (List.mem_cons_of_mem _ hy)) hothers
    rw [List.mapM_cons, h x List.mem_cons_self first hfirst, hread]
    rfl

theorem returns_list {r : Reader X} {values : List X} (h : ∀ x ∈ values, Returns r (write x) x) :
    Returns (.list r) (list write values) values := by
  intro value hvalue
  obtain ⟨items, hitems, rfl⟩ := Option.map_eq_some_iff.mp hvalue
  exact mapM_returns h hitems

/-! ## Messages -/

/-- Each member is declared and read as what its field is set to, from the one message to the other. -/
inductive Restores (fields : List (Reader.Field M)) : List (String × Option Json) → M → M → Prop
  | nil {held : M} : Restores fields [] held held
  | cons {name : String} {written : Option Json} {rest : List (String × Option Json)} {held held' : M}
      {field : Reader.Field M} {x : field.X} :
      declared fields name = some field → Returns field.reader written x →
        Restores fields rest (field.set x held) held' → Restores fields ((name, written) :: rest) held held'

theorem Restores.read {fields : List (Reader.Field M)} {held held' : M} (h : Restores fields written held held')
    {members : List (String × Json)} (hmembers : Writer.members written = some members) :
    readMembers fields members held = some held' := by
  induction h generalizing members with
  | nil =>
    cases hmembers
    rfl
  | cons hfield hreturns _ ih =>
    obtain ⟨value, rfl, hrest⟩ := Option.bind_eq_some_iff.mp hmembers
    obtain ⟨others, hothers, rfl⟩ := Option.map_eq_some_iff.mp hrest
    rw [Reader.readMembers_declared hfield, put, hreturns value rfl, Option.map_some, Option.bind_some]
    exact ih hothers

/-- **An object whose members restore the message is read as the message.** -/
theorem returns_object {fields : List (Reader.Field M)} {initial m : M}
    (h : Restores fields written initial m) :
    Returns (message fields initial) (object written) m := by
  intro value hvalue
  obtain ⟨members, hmembers, rfl⟩ := Option.map_eq_some_iff.mp hvalue
  exact h.read hmembers

/-! ## What an object holds -/

/-- The value is an object with one member to a name, and its member of this name is of this kind. -/
def Holds (name : String) (P : Json → Prop) (value : Json) : Prop :=
  ∃ members, value = .object members ∧ (members.map Prod.fst).Nodup ∧ ∃ held, (name, held) ∈ members ∧ P held

theorem holds_object {one : Option Json} {P : Json → Prop} (hnodup : (written.map Prod.fst).Nodup)
    (hmem : (name, one) ∈ written) (h : ∀ value, one = some value → P value)
    (hvalue : object written = some value) : Holds name P value := by
  obtain ⟨held, hheld, rfl⟩ := Option.map_eq_some_iff.mp hvalue
  have hone : one.isSome := isSome_object.mp (Option.isSome_of_eq_some hvalue) _ hmem
  obtain ⟨first, rfl⟩ := Option.isSome_iff_exists.mp hone
  exact ⟨held, rfl, (map_members hheld).symm ▸ hnodup, first, (mem_members hheld).mpr hmem, h first rfl⟩

/-! ## One of several -/

/-- One arm of a value that is one of several: its name, how it is read, and the value it makes. -/
structure Arm (B : Type) where
  name : String
  {X : Type}
  reader : Reader X
  make : X → B

/-- The arm the first member with the name of one stands for, where its value is read. -/
def readArm {B : Type} (arms : List (Arm B)) (members : List (String × Json)) : Option B :=
  (members.find? fun member => arms.any fun arm => arm.name = member.1).bind fun member =>
    (arms.find? fun arm => arm.name = member.1).bind fun arm => (arm.reader.read member.2).map arm.make

theorem readArm_self {B : Type} {arms : List (Arm B)} {r : Reader X} {make : X → B} {x : X}
    (harm : arms.find? (fun arm => arm.name = name) = some ⟨name, r, make⟩) (hread : r.read value = some x) :
    readArm arms [(name, value)] = some (make x) := by
  have hany : arms.any (fun arm => arm.name = name) = true :=
    List.any_eq_true.mpr ⟨_, List.mem_of_find?_eq_some harm, by simp⟩
  rw [readArm, List.find?_cons_of_pos (by simpa using hany), Option.bind_some]
  dsimp only
  rw [harm, Option.bind_some, hread, Option.map_some]

end Writer
