import Mathlib
import ZondDaemon.Base.Reader

/-!
# Members left out

A member that is read as what its field holds from the start is silent. Of an object that has one member to
a name the silent ones may be left out, and a value may give way to another that is read alike (`Thins`):
what is read of the object stays the same (`read_thins`). For this the fields of the message are to be
settable in any order (`Commuting`).
-/

namespace Reader

variable {M : Type}

/-- The two fields are set one before the other or the other way round. -/
def Field.Commutes (f g : Field M) : Prop := ∀ x y held, f.set x (g.set y held) = g.set y (f.set x held)

/-- The fields of a message may be set in any order. -/
def Commuting (fields : List (Field M)) : Prop := fields.Pairwise Field.Commutes

/-- An object of this one member is read as one of none: it says what would hold without it. -/
def Silent (r : Reader M) (member : String × Json) : Prop :=
  r.read (.object [member]) = r.read (.object [])

/-- The second list of members is the first with some of those that may go left out and values made less
of. -/
inductive Thins (may : String × Json → Prop) (less : String → Json → Json → Prop) :
    List (String × Json) → List (String × Json) → Prop
  | nil : Thins may less [] []
  | keeps {name : String} {value value' : Json} {rest rest' : List (String × Json)} :
      value = value' ∨ less name value value' → Thins may less rest rest' →
        Thins may less ((name, value) :: rest) ((name, value') :: rest')
  | drops {member : String × Json} {rest rest' : List (String × Json)} : may member →
      Thins may less rest rest' → Thins may less (member :: rest) rest'

/-- A value made less of is read as it was. -/
def Alike (fields : List (Field M)) (less : String → Json → Json → Prop) : Prop :=
  ∀ name value value', less name value value' → ∀ field, declared fields name = some field →
    field.reader.read value = field.reader.read value'

/-- What the field holds is what it held from the start. -/
def Field.Unset (field : Field M) (initial held : M) : Prop :=
  ∀ x, field.set x initial = initial → field.set x held = held

variable {fields : List (Field M)} {initial held : M} {may : String × Json → Prop}
  {less : String → Json → Json → Prop} {members members' : List (String × Json)}

theorem declared_mem {name : String} {field : Field M} (h : declared fields name = some field) :
    field ∈ fields ∧ field.name = name :=
  ⟨List.mem_of_find?_eq_some h, by simpa using List.find?_some h⟩

theorem silent_iff {name : String} {value : Json} : Silent (message fields initial) (name, value) ↔
    ∀ field, declared fields name = some field → put field value initial = some initial := by
  show readMembers fields [(name, value)] initial = some initial ↔ _
  cases hfield : declared fields name with
  | none =>
    rw [readMembers_undeclared hfield]
    simp [readMembers]
  | some field =>
    have hput : readMembers fields [(name, value)] initial = put field value initial := by
      rw [readMembers_declared hfield]
      cases put field value initial <;> rfl
    simp [hput]

theorem Commuting.commutes (h : Commuting fields) {f g : Field M} (hf : f ∈ fields) (hg : g ∈ fields)
    (hne : f.name ≠ g.name) : f.Commutes g := by
  have : Std.Symm (Field.Commutes : Field M → Field M → Prop) := ⟨fun a b hab x y held => (hab y x held).symm⟩
  exact List.Pairwise.forall h hf hg fun heq => hne (congrArg Field.name heq)

theorem Field.Unset.set {f g : Field M} (h : f.Unset initial held) (hcommutes : f.Commutes g) (y : g.X) :
    f.Unset initial (g.set y held) := by
  intro x hx
  rw [hcommutes, h x hx]

theorem unset_put {name : String} {value : Json} {field : Field M} {read : M} (hfields : Commuting fields)
    (hheld : ∀ member ∈ (name, value) :: members, ∀ field, declared fields member.1 = some field →
      field.Unset initial held)
    (hnodup : (((name, value) :: members).map Prod.fst).Nodup) (hfield : declared fields name = some field)
    (hread : put field value held = some read) :
    ∀ member ∈ members, ∀ field, declared fields member.1 = some field → field.Unset initial read := by
  intro member hmember other hother
  obtain ⟨x, -, rfl⟩ := Option.map_eq_some_iff.mp hread
  obtain ⟨hmem, hname⟩ := declared_mem hfield
  obtain ⟨hmem', hname'⟩ := declared_mem hother
  have hne : other.name ≠ field.name := by
    rw [hname, hname']
    rintro heq
    rw [List.map_cons, List.nodup_cons] at hnodup
    exact hnodup.1 (List.mem_map.mpr ⟨member, hmember, heq⟩)
  exact (hheld member (List.mem_cons_of_mem _ hmember) other hother).set
    (hfields.commutes hmem' hmem hne) x

theorem readMembers_thins (hfields : Commuting fields)
    (hmay : ∀ member, may member → Silent (message fields initial) member) (hless : Alike fields less)
    (h : Thins may less members members') (hnodup : (members.map Prod.fst).Nodup)
    (hheld : ∀ member ∈ members, ∀ field, declared fields member.1 = some field → field.Unset initial held) :
    readMembers fields members held = readMembers fields members' held := by
  induction h generalizing held with
  | nil => rfl
  | @keeps name value value' rest rest' hvalue _ ih =>
    have hrest : (rest.map Prod.fst).Nodup := (List.nodup_cons.mp (List.map_cons ▸ hnodup)).2
    cases hfield : declared fields name with
    | none =>
      rw [readMembers_undeclared hfield, readMembers_undeclared hfield]
      exact ih hrest fun member hmember => hheld member (List.mem_cons_of_mem _ hmember)
    | some field =>
      have hsame : put field value held = put field value' held := by
        rcases hvalue with rfl | hvalue
        · rfl
        · rw [put, put, hless name value value' hvalue field hfield]
      rw [readMembers_declared hfield, readMembers_declared hfield, ← hsame]
      cases hread : put field value held with
      | none => rfl
      | some read => exact ih hrest (unset_put hfields hheld hnodup hfield hread)
  | @drops member rest rest' hdrop _ ih =>
    obtain ⟨name, value⟩ := member
    have hleft : ∀ member ∈ rest, ∀ field, declared fields member.1 = some field →
        field.Unset initial held := fun member hmember => hheld member (List.mem_cons_of_mem _ hmember)
    cases hfield : declared fields name with
    | none =>
      rw [readMembers_undeclared hfield]
      exact ih (List.nodup_cons.mp (List.map_cons ▸ hnodup)).2 hleft
    | some field =>
      obtain ⟨x, hread, hset⟩ := Option.map_eq_some_iff.mp (silent_iff.mp (hmay _ hdrop) field hfield)
      -- no member before this one has set the field, there being one member to a name
      have hstays : put field value held = some held := by
        rw [put, hread, Option.map_some, hheld _ List.mem_cons_self field hfield x hset]
      rw [readMembers_declared hfield, hstays, Option.bind_some]
      exact ih (List.nodup_cons.mp (List.map_cons ▸ hnodup)).2 hleft

/-- **What is read of an object is what is read of it without its silent members.** -/
theorem read_thins (hfields : Commuting fields)
    (hmay : ∀ member, may member → Silent (message fields initial) member) (hless : Alike fields less)
    (h : Thins may less members members') (hnodup : (members.map Prod.fst).Nodup) :
    (message fields initial).read (.object members) = (message fields initial).read (.object members') :=
  readMembers_thins hfields hmay hless h hnodup fun _ _ _ _ _ hx => hx

end Reader
