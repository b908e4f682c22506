import Synthesis.Json.Reader

/-!
Reading records from JSON objects. A member belongs to a field when the names agree up to the
case of letters; the last such member counts, and null leaves a field as it was.
-/
namespace Synthesis.Json

/-- Letters that differ in case only have one folded form, the long s and the Kelvin sign
included. -/
def foldChar (c : Char) : Char :=
  if c.toNat = 0x17F then 's' else if c.toNat = 0x212A then 'k' else Text.lowerAscii c

def sameName (a b : String) : Bool := a.toList.map foldChar == b.toList.map foldChar

/-- The last member with that name which is not null. -/
def field? (members : List (String × Json)) (name : String) : Option Json :=
  (members.filter fun (k, v) => sameName k name && !isNull v).getLast?.map (·.2)
where
  isNull : Json → Bool
    | .null => true
    | _ => false

/-- A field of some type: the given value when the member is absent, an error when it has
another type. -/
def readField {α : Type} (members : List (String × Json)) (name : String) (absent : α)
    (read : Json → Option α) : Option α :=
  match field? members name with
  | none => some absent
  | some j => read j

def string? : Json → Option String
  | .string literal => literalText? literal
  | _ => none

def bool? : Json → Option Bool
  | .bool b => some b
  | _ => none

/-- An integer literal in the signed sixty-four bit range. -/
def int? : Json → Option Int
  | .number literal =>
    match Decimal.int? literal with
    | .ok i => some i
    | .error _ => none
  | _ => none

/-- A number in the range of doubles. -/
def float? : Json → Option Float
  | .number literal =>
    let x := floatOf literal
    if x.isInf then none else some x
  | _ => none

def array? : Json → Option (List Json)
  | .array items => some items
  | _ => none

def object? : Json → Option (List (String × Json))
  | .object ms => some ms
  | _ => none

/-- Reads a value over an older one, which null leaves as it is. -/
def over? {α : Type} (read : Json → Option α) (old : α) : Json → Option α
  | .null => some old
  | j => read j

/-- Reads an array over an older list: every item over the older one at its place, if there is
one, and otherwise over a fresh one. Null is no list at all. -/
def listOver? {α : Type} (item : α → Json → Option α) (fresh : α) (old : Option (List α)) :
    Json → Option (Option (List α))
  | .null => some none
  | .array items =>
    some <$> items.zipIdx.mapM fun (j, i) => item (((old.getD [])[i]?).getD fresh) j
  | _ => none

/-- A field of a record: its name, and how its value is read over the record. -/
abbrev Reads (α : Type) := List (String × (α → Json → Option α))

/-- Reads an object over a record, one member after the other. Members without a field are
ignored, and null leaves the record as it is. -/
def recordOver? {α : Type} (fields : Reads α) (old : α) : Json → Option α
  | .null => some old
  | .object members =>
    members.foldlM (fun a (name, j) =>
      match fields.find? fun (field, _) => sameName field name with
      | some (_, read) => read a j
      | none => some a) old
  | _ => none

end Synthesis.Json
