import ZondDaemon.Base.Lines
import ZondDaemon.Stdio.Asked

/-!
# Lines in and frames out

What `speak` of `stdio.rs` makes of a line of its input (`hear`): nothing it can go on after, a blank, no
request, or a request; and what it writes, a frame to a line. A line may hold any bytes, and one that is not
UTF-8 is an error of the reader's own rather than a line.
-/

namespace ZondDaemon

open Json (newline)

variable {E : Engine}

namespace Stdio

/-! ## Lines in -/

/-- One request from a client. -/
structure Request where
  id : Json := .null
  method : String
  params : Json := .null

namespace Request

/-- The values the object has under a name. -/
def under (name : String) (members : List (String × Json)) : List Json :=
  (members.filter fun member => member.1 == name).map fun member => member.2

/-- A field that may be left out and may not be said twice. -/
def defaulted (values : List Json) : Option Json :=
  match values with
  | [] => some .null
  | [value] => some value
  | _ => none

/-- A value as a `Request`: an object, whatever else it holds, or its fields in their order. -/
def ofJson : Json → Option Request
  | .object members =>
    match defaulted (under "id" members), under "method" members, defaulted (under "params" members) with
    | some id, [.string method], some params => some ⟨id, method, params⟩
    | _, _, _ => none
  | .array [id, .string method] => some ⟨id, method, .null⟩
  | .array [id, .string method, params] => some ⟨id, method, params⟩
  | _ => none

end Request

/-- `char::is_whitespace`. -/
def isWhitespace (c : Char) : Bool :=
  (0x09 ≤ c.toNat && c.toNat ≤ 0x0d) || (0x2000 ≤ c.toNat && c.toNat ≤ 0x200a) ||
    [0x20, 0x85, 0xa0, 0x1680, 0x2028, 0x2029, 0x202f, 0x205f, 0x3000].contains c.toNat

/-- `line.trim().is_empty()`. -/
def blank (line : String) : Bool := line.toList.all isWhitespace

/-- The text the bytes of a line are, where they are one. -/
def decode (line : List UInt8) : Option String := String.fromUTF8? ⟨line.toArray⟩

/-- A line without the carriage return it may end in. -/
def chomp (line : List UInt8) : List UInt8 :=
  if line.getLast? = some 0x0d then line.dropLast else line

/-- `input.lines()`: what stands after the last line break is a line too, if anything does. -/
def inputLines (input : List UInt8) : List (List UInt8) :=
  let c := Lines.cut newline input
  c.whole.map chomp ++ if c.rest = [] then [] else [c.rest]

/-- What a line is to `speak`. -/
inductive Heard
  /-- It is not UTF-8. -/
  | garbled
  | blank
  | malformed (detail : String)
  | request (request : Request)

/-- A line as it is read. -/
def hear (serde : Serde E.F64) (line : List UInt8) : Heard :=
  match decode line with
  | none => .garbled
  | some line =>
    if blank line then .blank
    else match (serde.text line).bind Request.ofJson with
      | none => .malformed (serde.refusal line)
      | some request => .request request

/-- The line is UTF-8. -/
def Readable (line : List UInt8) : Prop := (decode line).isSome

theorem garbled_iff {serde : Serde E.F64} {line : List UInt8} :
    hear serde line = .garbled ↔ ¬ Readable line := by
  unfold hear Readable
  cases decode line with
  | none => simp
  | some text =>
    simp only [Option.isSome_some, not_true, iff_false]
    split_ifs
    · simp
    · split <;> simp

/-! ## Frames out -/

/-- What is written of an answer at a time. -/
inductive Frame
  | result (id answer : Json)
  | event (id told : Json)
  | error (id : Json) (refused : Error)
  /-- There will be no more events. -/
  | ended (id : Json)

namespace Frame

def id : Frame → Json
  | .result id _ => id
  | .event id _ => id
  | .error id _ => id
  | .ended id => id

/-- Nothing comes after it. -/
def terminal : Frame → Bool
  | .event _ _ => false
  | _ => true

def toJson : Frame → Json
  | .result id answer => .obj [("id", id), ("result", answer)]
  | .event id told => .obj [("id", id), ("event", told)]
  | .error id refused => .obj [("id", id),
      ("error", .obj [("code", .string refused.code), ("message", .string refused.message)])]
  | .ended id => .obj [("id", id), ("end", .bool true)]

/-- The frame as `frame` writes it, whole, on a line of its own. -/
def line (frame : Frame) : List UInt8 := frame.toJson.bytes ++ [newline]

theorem cut_lines (frames : List Frame) :
    Lines.cut newline (frames.flatMap line) = ⟨frames.map fun frame => frame.toJson.bytes, []⟩ := by
  apply Lines.cut_flatMap
  intro frame
  exact Json.newline_not_mem_bytes frame.toJson

end Frame

end Stdio

end ZondDaemon
