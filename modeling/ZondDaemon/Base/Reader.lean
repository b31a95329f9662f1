import ZondDaemon.Base.Json

/-!
# Reading values out of JSON

A `Reader` says which JSON values it takes and what it reads of one. A message is read by its fields: of an
object each member by the field of its name, the members no field has the name of being passed over, and of
an array each item by the field in its place. What is not there keeps the value it has in `initial`.
-/

/-- How values of a type are read: which JSON values hold one, and which one. -/
structure Reader (X : Type) where
  takes : Json → Prop
  read : Json → Option X
  isSome_read : ∀ value, (read value).isSome ↔ takes value

namespace Reader

variable {X M : Type}

theorem read_eq_none (r : Reader X) {value : Json} : r.read value = none ↔ ¬ r.takes value := by
  rw [← r.isSome_read, Option.not_isSome_iff_eq_none]

/-! ## Values -/

def text : Reader String where
  takes value := ∃ text, value = .string text
  read
    | .string text => some text
    | _ => none
  isSome_read value := by cases value <;> simp

def flag : Reader Bool where
  takes value := ∃ flag, value = .bool flag
  read
    | .bool flag => some flag
    | _ => none
  isSome_read value := by cases value <;> simp

/-- A whole number that is at most `most`. -/
def whole (most : Nat) : Reader Nat where
  takes value := ∃ n ≤ most, value = .number (.posInt n)
  read
    | .number (.posInt n) => if n ≤ most then some n else none
    | _ => none
  isSome_read value := by
    split
    · simp
    · rename_i hnot
      simp only [Option.isSome_none, Bool.false_eq_true, false_iff]
      rintro ⟨n, -, rfl⟩
      exact hnot n rfl

/-- Any number, as `double` takes it. -/
def number (double : Number → X) : Reader X where
  takes value := ∃ n, value = .number n
  read
    | .number n => some (double n)
    | _ => none
  isSome_read value := by cases value <;> simp

/-- A value by its name. -/
def named (names : String → Option X) : Reader X where
  takes value := ∃ name, value = .string name ∧ (names name).isSome
  read
    | .string name => names name
    | _ => none
  isSome_read value := by cases value <;> simp

/-- A value, or null for none. -/
def optional (r : Reader X) : Reader (Option X) where
  takes value := value = .null ∨ r.takes value
  read
    | .null => some none
    | value => (r.read value).map some
  isSome_read value := by
    split
    · simp
    · rename_i hnot
      rw [Option.isSome_map, r.isSome_read, or_iff_right hnot]

theorem isSome_mapM_read (r : Reader X) (items : List Json) :
    (items.mapM r.read).isSome ↔ ∀ item ∈ items, r.takes item := by
  induction items with
  | nil => simp
  | cons item rest ih =>
    rw [List.forall_mem_cons, ← ih, ← r.isSome_read, List.mapM_cons]
    cases r.read item <;> cases rest.mapM r.read <;> simp

def list (r : Reader X) : Reader (List X) where
  takes value := ∃ items, value = .array items ∧ ∀ item ∈ items, r.takes item
  read
    | .array items => items.mapM r.read
    | _ => none
  isSome_read value := by cases value <;> simp [isSome_mapM_read]

/-! ## Messages -/

/-- A field of a message: its name, how its value is read, and where it goes. -/
structure Field (M : Type) where
  name : String
  {X : Type}
  reader : Reader X
  set : X → M → M

/-- The field of this name. -/
def declared (fields : List (Field M)) (name : String) : Option (Field M) :=
  fields.find? fun field => field.name = name

/-- What the field holds after this value is read. -/
def put (field : Field M) (value : Json) (held : M) : Option M :=
  (field.reader.read value).map fun read => field.set read held

def readMembers (fields : List (Field M)) : List (String × Json) → M → Option M
  | [], held => some held
  | (name, value) :: rest, held =>
    match declared fields name with
    | some field => (put field value held).bind (readMembers fields rest)
    | none => readMembers fields rest held

def readItems : List (Field M) → List Json → M → Option M
  | _, [], held => some held
  | [], _ :: _, _ => none
  | field :: fields, value :: rest, held => (put field value held).bind (readItems fields rest)

theorem readMembers_declared {fields : List (Field M)} {name : String} {field : Field M}
    (h : declared fields name = some field) (value : Json) (rest : List (String × Json)) (held : M) :
    readMembers fields ((name, value) :: rest) held =
      (put field value held).bind (readMembers fields rest) := by
  rw [readMembers, h]

theorem readMembers_undeclared {fields : List (Field M)} {name : String}
    (h : declared fields name = none) (value : Json) (rest : List (String × Json)) (held : M) :
    readMembers fields ((name, value) :: rest) held = readMembers fields rest held := by
  rw [readMembers, h]

/-- Some member has the name of a field that does not take its value. -/
def Misread (fields : List (Field M)) (members : List (String × Json)) : Prop :=
  ∃ member ∈ members, ∃ field, declared fields member.1 = some field ∧ ¬ field.reader.takes member.2

/-- Some member has the name of no field. -/
def Undeclared (fields : List (Field M)) (members : List (String × Json)) : Prop :=
  ∃ member ∈ members, declared fields member.1 = none

theorem isSome_put (field : Field M) (value : Json) (held : M) :
    (put field value held).isSome ↔ field.reader.takes value := by
  rw [put, Option.isSome_map, field.reader.isSome_read]

theorem misread_cons {fields : List (Field M)} {member : String × Json} {rest : List (String × Json)} :
    Misread fields (member :: rest) ↔
      (∃ field, declared fields member.1 = some field ∧ ¬ field.reader.takes member.2) ∨
        Misread fields rest := by
  simp only [Misread, List.mem_cons, exists_eq_or_imp]

theorem isSome_readMembers (fields : List (Field M)) (members : List (String × Json)) (held : M) :
    (readMembers fields members held).isSome ↔ ¬ Misread fields members := by
  induction members generalizing held with
  | nil => simp [readMembers, Misread]
  | cons member rest ih =>
    obtain ⟨name, value⟩ := member
    rw [misread_cons]
    cases hfield : declared fields name with
    | none => simp [readMembers_undeclared hfield, ih]
    | some field =>
      have hput := isSome_put field value held
      rw [readMembers_declared hfield]
      cases hread : put field value held with
      | none => simp_all
      | some held' => simp_all

theorem isSome_readItems (fields : List (Field M)) (items : List Json) (held : M) :
    (readItems fields items held).isSome ↔
      items.length ≤ fields.length ∧ ∀ pair ∈ fields.zip items, pair.1.reader.takes pair.2 := by
  induction fields generalizing items held with
  | nil => cases items <;> simp [readItems]
  | cons field fields ih =>
    cases items with
    | nil => simp [readItems]
    | cons value rest =>
      have hput := isSome_put field value held
      cases hread : put field value held with
      | none => simp_all [readItems]
      | some held' => simp_all [readItems]

/-- A message of these fields, each holding what `initial` does until it is read. -/
def message (fields : List (Field M)) (initial : M) : Reader M where
  takes value :=
    (∃ members, value = .object members ∧ ¬ Misread fields members) ∨
      ∃ items, value = .array items ∧ items.length ≤ fields.length ∧
        ∀ pair ∈ fields.zip items, pair.1.reader.takes pair.2
  read
    | .object members => readMembers fields members initial
    | .array items => readItems fields items initial
    | _ => none
  isSome_read value := by
    cases value <;> simp [isSome_readMembers, isSome_readItems]

variable {fields : List (Field M)} {initial : M}

/-- **Of the members of an object, only one whose own field does not take it can spoil the reading.** -/
theorem read_object_eq_none {members : List (String × Json)} :
    (message fields initial).read (.object members) = none ↔ Misread fields members := by
  rw [read_eq_none]
  simp [message]

/-- The members no field has the name of could as well not be there. -/
theorem readMembers_filter (fields : List (Field M)) (members : List (String × Json)) (held : M) :
    readMembers fields (members.filter fun member => (declared fields member.1).isSome) held =
      readMembers fields members held := by
  induction members generalizing held with
  | nil => rfl
  | cons member rest ih =>
    obtain ⟨name, value⟩ := member
    cases hfield : declared fields name with
    | none =>
      rw [List.filter_cons_of_neg (by simp [hfield]), readMembers_undeclared hfield, ih]
    | some field =>
      rw [List.filter_cons_of_pos (by simp [hfield]), readMembers_declared hfield,
        readMembers_declared hfield, funext ih]

end Reader
