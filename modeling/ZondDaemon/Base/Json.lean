import Mathlib

/-!
# JSON values and how they are written

`Json` is a value, and `render` its compact form: no blanks, members in the order they stand in, a string's
quotes, backslashes and control characters escaped. So what is written holds no line break, neither as
characters (`printable_render`) nor as bytes (`newline_not_mem_bytes`), and one value to a line is a stream
that splits. `Json.obj` makes an object of named members, one to a name, in the order of the names.
-/

/-- A number with a point or an exponent, by how it is written. -/
structure Decimal where
  text : List Char
  numeric : ∀ c ∈ text, c.isDigit = true ∨ c ∈ ['+', '-', '.', 'e', 'E']
deriving DecidableEq

/-- A whole number that is not negative, one that is, by how far below zero it is, or another. -/
inductive Number
  | posInt (n : Nat)
  | negInt (n : Nat)
  | float (written : Decimal)
deriving DecidableEq

inductive Json
  | null
  | bool (value : Bool)
  | number (value : Number)
  | string (text : String)
  | array (items : List Json)
  | object (members : List (String × Json))

namespace Json

/-! ## Making objects -/

/-- A member put where its name belongs, in the place of one of the same name. -/
def insert (name : String) (value : Json) : List (String × Json) → List (String × Json)
  | [] => [(name, value)]
  | (other, held) :: rest =>
    if name = other then (name, value) :: rest
    else if name < other then (name, value) :: (other, held) :: rest
    else (other, held) :: insert name value rest

/-- An object of these members, the last of a name counting. -/
def obj (members : List (String × Json)) : Json :=
  .object (members.foldl (fun held member => insert member.1 member.2 held) [])

/-! ## Writing -/

/-- A character of a string, as it is written. -/
def escape (c : Char) : List Char :=
  if c.toNat = 0x22 then ['\\', c]
  else if c.toNat = 0x5c then ['\\', c]
  else if c.toNat = 0x08 then ['\\', 'b']
  else if c.toNat = 0x0c then ['\\', 'f']
  else if c.toNat = 0x0a then ['\\', 'n']
  else if c.toNat = 0x0d then ['\\', 'r']
  else if c.toNat = 0x09 then ['\\', 't']
  else if c.toNat < 0x20 then
    ['\\', 'u', '0', '0', Nat.digitChar (c.toNat / 16), Nat.digitChar (c.toNat % 16)]
  else [c]

/-- The quotation mark. -/
def quote : Char := Char.ofNat 0x22

def renderString (text : String) : List Char := quote :: text.toList.flatMap escape ++ [quote]

def renderNumber : Number → List Char
  | .posInt n => Nat.toDigits 10 n
  | .negInt n => '-' :: Nat.toDigits 10 n
  | .float written => written.text

mutual

def render : Json → List Char
  | .null => ['n', 'u', 'l', 'l']
  | .bool true => ['t', 'r', 'u', 'e']
  | .bool false => ['f', 'a', 'l', 's', 'e']
  | .number value => renderNumber value
  | .string text => renderString text
  | .array [] => ['[', ']']
  | .array (item :: rest) => '[' :: render item ++ renderItems rest
  | .object [] => ['\x7b', '\x7d']
  | .object (member :: rest) => '\x7b' :: renderMember member ++ renderMembers rest

def renderItems : List Json → List Char
  | [] => [']']
  | item :: rest => ',' :: render item ++ renderItems rest

def renderMember : String × Json → List Char
  | (name, value) => renderString name ++ ':' :: render value

def renderMembers : List (String × Json) → List Char
  | [] => ['\x7d']
  | member :: rest => ',' :: renderMember member ++ renderMembers rest

end

/-- The value as the bytes of its text. -/
def bytes (value : Json) : List UInt8 := (render value).flatMap String.utf8EncodeChar

/-! ## No line breaks -/

/-- Characters from the blank on. -/
def Printable (cs : List Char) : Prop := ∀ c ∈ cs, 0x20 ≤ c.toNat

theorem Printable.append {cs ds : List Char} (hcs : Printable cs) (hds : Printable ds) :
    Printable (cs ++ ds) := by
  intro c hc
  rcases List.mem_append.mp hc with hc | hc
  · exact hcs c hc
  · exact hds c hc

theorem Printable.cons {c : Char} {cs : List Char} (hc : 0x20 ≤ c.toNat) (hcs : Printable cs) :
    Printable (c :: cs) := by
  intro d hd
  rcases List.mem_cons.mp hd with rfl | hd
  · exact hc
  · exact hcs d hd

theorem printable_digitChar : ∀ n < 16, 0x20 ≤ (Nat.digitChar n).toNat := by decide

theorem printable_escape (c : Char) : Printable (escape c) := by
  unfold escape
  split_ifs with h₁ h₂
  · intro d hd
    simp only [List.mem_cons, List.not_mem_nil, or_false] at hd
    rcases hd with rfl | rfl
    · decide
    · omega
  · intro d hd
    simp only [List.mem_cons, List.not_mem_nil, or_false] at hd
    rcases hd with rfl | rfl
    · decide
    · omega
  · simp [Printable]
  · simp [Printable]
  · simp [Printable]
  · simp [Printable]
  · simp [Printable]
  · intro d hd
    simp only [List.mem_cons, List.not_mem_nil, or_false] at hd
    rcases hd with rfl | rfl | rfl | rfl | rfl | rfl
    · decide
    · decide
    · decide
    · decide
    · exact printable_digitChar _ (by omega)
    · exact printable_digitChar _ (Nat.mod_lt _ (by decide))
  · intro d hd
    rw [List.mem_singleton.mp hd]
    omega

theorem printable_renderString (text : String) : Printable (renderString text) := by
  apply Printable.append
  · apply Printable.cons
    · decide
    · intro c hc
      obtain ⟨d, -, hc⟩ := List.mem_flatMap.mp hc
      exact printable_escape d c hc
  · simp [Printable, quote]

theorem isDigit_printable {c : Char} (h : c.isDigit = true) : 0x20 ≤ c.toNat := by
  simp only [Char.isDigit, Bool.and_eq_true, decide_eq_true_eq] at h
  have hle : 48 ≤ c.val.toNat := h.1
  exact Nat.le_trans (by decide) hle

theorem printable_renderNumber (value : Number) : Printable (renderNumber value) := by
  have hdigits : ∀ n, Printable (Nat.toDigits 10 n) := by
    intro n c hc
    exact isDigit_printable (Nat.isDigit_of_mem_toDigits (by decide) (by decide) hc)
  cases value with
  | posInt n => exact hdigits n
  | negInt n => exact .cons (by decide) (hdigits n)
  | float written =>
    intro c hc
    rcases written.numeric c hc with hdigit | hsign
    · exact isDigit_printable hdigit
    · simp only [List.mem_cons, List.not_mem_nil, or_false] at hsign
      rcases hsign with rfl | rfl | rfl | rfl | rfl <;> decide

mutual

theorem printable_render : ∀ value, Printable (render value)
  | .null => by simp [Printable, render]
  | .bool true => by simp [Printable, render]
  | .bool false => by simp [Printable, render]
  | .number value => printable_renderNumber value
  | .string text => printable_renderString text
  | .array [] => by simp [Printable, render]
  | .array (item :: rest) => .append (.cons (by decide) (printable_render item)) (printable_renderItems rest)
  | .object [] => by simp [Printable, render]
  | .object (member :: rest) =>
    .append (.cons (by decide) (printable_renderMember member)) (printable_renderMembers rest)

theorem printable_renderItems : ∀ items, Printable (renderItems items)
  | [] => by simp [Printable, renderItems]
  | item :: rest => .append (.cons (by decide) (printable_render item)) (printable_renderItems rest)

theorem printable_renderMember : ∀ member, Printable (renderMember member)
  | (name, value) => .append (printable_renderString name) (.cons (by decide) (printable_render value))

theorem printable_renderMembers : ∀ members, Printable (renderMembers members)
  | [] => by simp [Printable, renderMembers]
  | member :: rest =>
    .append (.cons (by decide) (printable_renderMember member)) (printable_renderMembers rest)

end

/-- The byte of a line break. -/
def newline : UInt8 := 0x0a

theorem toNat_of_newline_mem {c : Char} (h : newline ∈ String.utf8EncodeChar c) : c.toNat = 0x0a := by
  have hlt : c.val.toNat < 0x110000 := by
    rcases c.valid with hlow | hhigh
    · have hlow' : c.val.toNat < 0xd800 := hlow
      omega
    · exact hhigh.2
  unfold newline String.utf8EncodeChar at h
  dsimp only at h
  show c.val.toNat = 0x0a
  split_ifs at h <;> simp only [List.mem_cons, List.not_mem_nil, or_false, ← UInt8.toNat_inj,
    UInt8.toNat_ofNat', UInt8.toNat_ofNat] at h <;> omega

/-- **A value is written on one line.** -/
theorem newline_not_mem_bytes (value : Json) : newline ∉ value.bytes := by
  intro h
  obtain ⟨c, hc, hmem⟩ := List.mem_flatMap.mp h
  have hprintable := printable_render value c hc
  rw [toNat_of_newline_mem hmem] at hprintable
  omega

end Json
