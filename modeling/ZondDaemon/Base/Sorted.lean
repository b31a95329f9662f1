import Mathlib
import ZondDaemon.Base.Absent
import ZondDaemon.Base.Writer

/-!
# Objects in the order of their names

`sorted` is a value as a tree of maps holds it: the members of every object in the order of their names. What
a message is read as does not depend on that order, as long as the object has one member to a name and the
fields may be set in any order (`readMembers_perm`), so what is written is read back in it too
(`returns_sorted`).
-/

namespace Json

mutual

def sorted : Json → Json
  | .null => .null
  | .bool value => .bool value
  | .number value => .number value
  | .string text => .string text
  | .array items => .array (sortedItems items)
  | .object members => .obj (sortedMembers members)

def sortedItems : List Json → List Json
  | [] => []
  | item :: rest => sorted item :: sortedItems rest

def sortedMembers : List (String × Json) → List (String × Json)
  | [] => []
  | (name, value) :: rest => (name, sorted value) :: sortedMembers rest

end

theorem sortedItems_eq (items : List Json) : sortedItems items = items.map sorted := by
  induction items with
  | nil => rfl
  | cons item rest ih => rw [sortedItems, ih, List.map_cons]

theorem sortedMembers_eq (members : List (String × Json)) :
    sortedMembers members = members.map fun member => (member.1, member.2.sorted) := by
  induction members with
  | nil => rfl
  | cons member rest ih => rw [sortedMembers, ih, List.map_cons]

/-! ## One member to a name -/

variable {name : String} {value : Json} {members held : List (String × Json)}

theorem insert_perm (h : name ∉ members.map Prod.fst) :
    (insert name value members).Perm ((name, value) :: members) := by
  induction members with
  | nil => rfl
  | cons member rest ih =>
    obtain ⟨other, one⟩ := member
    rw [List.map_cons, List.mem_cons, not_or] at h
    rw [insert, if_neg h.1]
    split_ifs
    · rfl
    · exact ((ih h.2).cons _).trans (List.Perm.swap _ _ _)

theorem foldl_insert_perm (h : ((members ++ held).map Prod.fst).Nodup) :
    (members.foldl (fun held member => insert member.1 member.2 held) held).Perm (members ++ held) := by
  induction members generalizing held with
  | nil => rfl
  | cons member rest ih =>
    have hhead : (rest ++ member :: held).Perm (member :: rest ++ held) := List.perm_middle
    have hnames : ((rest ++ member :: held).map Prod.fst).Nodup := ((hhead.map _).nodup_iff).mpr h
    have hnew : member.1 ∉ held.map Prod.fst := by
      rw [List.map_append, List.map_cons] at hnames
      exact (List.nodup_cons.mp (List.nodup_append.mp hnames).2.1).1
    have hinsert : (insert member.1 member.2 held).Perm (member :: held) := insert_perm hnew
    have hrest := hinsert.append_left rest
    rw [List.foldl_cons]
    exact (ih (((hrest.map _).nodup_iff).mpr hnames)).trans (hrest.trans hhead)

theorem obj_perm (h : (members.map Prod.fst).Nodup) :
    ∃ held, obj members = .object held ∧ held.Perm members := by
  have hperm : (members.foldl (fun held member => insert member.1 member.2 held) []).Perm (members ++ []) :=
    foldl_insert_perm ((List.append_nil members).symm ▸ h)
  rw [List.append_nil] at hperm
  exact ⟨_, rfl, hperm⟩

theorem sorted_object (h : (members.map Prod.fst).Nodup) :
    ∃ held, (Json.object members).sorted = .object held ∧
      held.Perm (members.map fun member => (member.1, member.2.sorted)) := by
  rw [sorted, sortedMembers_eq]
  apply obj_perm
  rw [List.map_map]
  exact h

/-! ## What is under a name -/

/-- The member of an object under a name. -/
def member (name : String) : Json → Option Json
  | .object members => (members.find? fun one => one.1 = name).map Prod.snd
  | _ => none

theorem member_eq_some (h : (members.map Prod.fst).Nodup) :
    (Json.object members).member name = some value ↔ (name, value) ∈ members := by
  rw [member, Option.map_eq_some_iff]
  constructor
  · rintro ⟨⟨other, one⟩, hfind, rfl⟩
    obtain rfl : other = name := by simpa using List.find?_some hfind
    exact List.mem_of_find?_eq_some hfind
  · intro hmem
    induction members with
    | nil => cases hmem
    | cons first rest ih =>
      rw [List.map_cons, List.nodup_cons] at h
      rcases List.mem_cons.mp hmem with rfl | hmem
      · exact ⟨_, List.find?_cons_of_pos (by simp), rfl⟩
      · have hne : first.1 ≠ name := by
          rintro rfl
          exact h.1 (List.mem_map.mpr ⟨_, hmem, rfl⟩)
        obtain ⟨one, hone, heq⟩ := ih h.2 hmem
        exact ⟨one, by rw [List.find?_cons_of_neg (by simpa using hne), hone], heq⟩

theorem member_perm (h : (members.map Prod.fst).Nodup) (hperm : held.Perm members) :
    (Json.object held).member name = (Json.object members).member name := by
  ext value
  rw [member_eq_some h, member_eq_some ((hperm.map _).nodup_iff.mpr h), hperm.mem_iff]

theorem member_obj (h : (members.map Prod.fst).Nodup) :
    (obj members).member name = (Json.object members).member name := by
  obtain ⟨held, hheld, hperm⟩ := obj_perm h
  rw [hheld, member_perm h hperm]

theorem member_pair {first second : String} {one other : Json} (hne : first ≠ second) :
    (obj [(first, one), (second, other)]).member name =
      if first = name then some one else if second = name then some other else none := by
  rw [member_obj (by simpa using hne), member]
  split_ifs with hfirst hsecond
  · rw [List.find?_cons_of_pos (by simpa using hfirst)]
    rfl
  · rw [List.find?_cons_of_neg (by simpa using hfirst), List.find?_cons_of_pos (by simpa using hsecond)]
    rfl
  · rw [List.find?_cons_of_neg (by simpa using hfirst), List.find?_cons_of_neg (by simpa using hsecond)]
    rfl

theorem member_sorted (h : (members.map Prod.fst).Nodup) :
    (Json.object members).sorted.member name = ((Json.object members).member name).map sorted := by
  obtain ⟨held, hheld, hperm⟩ := sorted_object h
  rw [hheld, member_perm (by rwa [List.map_map]) hperm, member, member, List.find?_map, Option.map_map,
    Option.map_map]
  rfl

end Json

namespace Reader

variable {X M : Type} {fields : List (Field M)} {members members' : List (String × Json)} {held initial : M}

theorem readMembers_swap (hfields : Commuting fields) {one other : String × Json} (hne : one.1 ≠ other.1) :
    readMembers fields (one :: other :: members) held = readMembers fields (other :: one :: members) held := by
  obtain ⟨name, value⟩ := one
  obtain ⟨name', value'⟩ := other
  cases hfield : declared fields name with
  | none =>
    cases hfield' : declared fields name' with
    | none => simp only [readMembers_undeclared hfield, readMembers_undeclared hfield']
    | some field' =>
      rw [readMembers_undeclared hfield, readMembers_declared hfield', readMembers_declared hfield']
      congr 1
      funext read
      rw [readMembers_undeclared hfield]
  | some field =>
    cases hfield' : declared fields name' with
    | none =>
      rw [readMembers_undeclared hfield', readMembers_declared hfield, readMembers_declared hfield]
      congr 1
      funext read
      rw [readMembers_undeclared hfield']
    | some field' =>
      obtain ⟨hmem, hname⟩ := declared_mem hfield
      obtain ⟨hmem', hname'⟩ := declared_mem hfield'
      have hcommutes : field.Commutes field' := hfields.commutes hmem hmem' (by rw [hname, hname']; exact hne)
      rw [readMembers_declared hfield, readMembers_declared hfield', put, put]
      cases hread : field.reader.read value with
      | none =>
        cases hread' : field'.reader.read value' with
        | none => rfl
        | some x' => simp [readMembers_declared hfield, put, hread]
      | some x =>
        cases hread' : field'.reader.read value' with
        | none => simp [readMembers_declared hfield', put, hread']
        | some x' =>
          simp only [Option.map_some, Option.bind_some, readMembers_declared hfield,
            readMembers_declared hfield',
            put, hread, hread']
          rw [hcommutes]

theorem readMembers_perm (hfields : Commuting fields) (h : members.Perm members')
    (hnodup : (members.map Prod.fst).Nodup) :
    readMembers fields members held = readMembers fields members' held := by
  induction h generalizing held with
  | nil => rfl
  | cons member _ ih =>
    obtain ⟨name, value⟩ := member
    have hrest := (List.nodup_cons.mp (List.map_cons ▸ hnodup)).2
    cases hfield : declared fields name with
    | none =>
      rw [readMembers_undeclared hfield, readMembers_undeclared hfield]
      exact ih hrest
    | some field =>
      rw [readMembers_declared hfield, readMembers_declared hfield]
      congr 1
      funext read
      exact ih hrest
  | swap one other rest =>
    refine readMembers_swap hfields ?_
    simp only [List.map_cons, List.nodup_cons, List.mem_cons, not_or] at hnodup
    exact hnodup.1.1
  | trans hfirst _ ih ih' => exact (ih hnodup).trans (ih' ((hfirst.map _).nodup_iff.mp hnodup))

end Reader

namespace Writer

open Reader (Commuting message)

variable {X M : Type} {write : X → Option Json} {fields : List (Reader.Field M)} {initial m : M}

/-- What is written, in the order of the names. -/
def sorted (written : Option Json) : Option Json := written.map Json.sorted

@[simp] theorem sorted_text (x : String) : sorted (text x) = text x := rfl

@[simp] theorem sorted_flag (x : Bool) : sorted (flag x) = flag x := rfl

@[simp] theorem sorted_whole (n : Nat) : sorted (whole n) = whole n := rfl

@[simp] theorem sorted_named (names : X → Option String) (x : X) :
    sorted (named names x) = named names x := by
  unfold sorted named
  rw [Option.map_map]
  rfl

theorem sorted_optional (x : Option X) :
    sorted (optional write x) = optional (fun y => sorted (write y)) x := by
  cases x <;> rfl

theorem sorted_list (values : List X) :
    sorted (list write values) = list (fun x => sorted (write x)) values := by
  have hitems : (values.mapM write).map (List.map Json.sorted) = values.mapM fun x => sorted (write x) := by
    induction values with
    | nil => rfl
    | cons x rest ih =>
      rw [List.mapM_cons, List.mapM_cons, ← ih, sorted]
      cases write x <;> cases rest.mapM write <;> rfl
  rw [list, list, ← hitems, sorted, Option.map_map, Option.map_map]
  congr 1
  funext items
  exact congrArg Json.array (Json.sortedItems_eq items)

/-- Each member, in the order of the names inside it. -/
def sortedIn (written : List (String × Option Json)) : List (String × Option Json) :=
  written.map fun member => (member.1, sorted member.2)

theorem members_sortedIn {written : List (String × Option Json)} {held : List (String × Json)}
    (h : members written = some held) :
    members (sortedIn written) = some (held.map fun member => (member.1, member.2.sorted)) := by
  induction written generalizing held with
  | nil =>
    cases h
    rfl
  | cons member rest ih =>
    obtain ⟨name, one⟩ := member
    obtain ⟨first, rfl, hrest⟩ := Option.bind_eq_some_iff.mp h
    obtain ⟨others, hothers, rfl⟩ := Option.map_eq_some_iff.mp hrest
    show (some first.sorted).bind _ = _
    rw [Option.bind_some, ← sortedIn, ih hothers]
    rfl

/-- **An object whose members restore the message is read as the message in the order of the names too.** -/
theorem returns_sorted {written : List (String × Option Json)} (hfields : Commuting fields)
    (hnodup : (written.map Prod.fst).Nodup) (h : Restores fields (sortedIn written) initial m) :
    Returns (message fields initial) (sorted (object written)) m := by
  intro value hvalue
  obtain ⟨plain, hplain, rfl⟩ := Option.map_eq_some_iff.mp hvalue
  obtain ⟨held, hheld, rfl⟩ := Option.map_eq_some_iff.mp hplain
  have hnames : (held.map Prod.fst).Nodup := (map_members hheld).symm ▸ hnodup
  obtain ⟨inOrder, hsorted, hperm⟩ := Json.sorted_object hnames
  have hinOrder : (inOrder.map Prod.fst).Nodup := by
    rw [(hperm.map _).nodup_iff, List.map_map]
    exact hnames
  rw [hsorted]
  show Reader.readMembers fields inOrder initial = some m
  rw [Reader.readMembers_perm hfields hperm hinOrder]
  exact h.read (members_sortedIn hheld)

end Writer
