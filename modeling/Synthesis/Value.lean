import Synthesis.Calendar
import Synthesis.Json.Fields
import Synthesis.Table

/-!
Dynamic values: the inputs and outputs of examples, the arguments and expectations of tests and
the entries of a context's library. They come from JSON or from a document; only a document
yields integers and timestamps, in JSON every number is a double.
-/
namespace Synthesis

inductive Value where
  | null
  | bool (b : Bool)
  | int (i : Int)
  | float (x : Float)
  | text (s : String)
  | time (t : Timestamp)
  | list (items : List Value)
  | map (entries : List (Value × Value))
  deriving Inhabited

namespace Value

/-- Plain text prints a double positionally from `10 ^ -4` up to, and not including, `10 ^ 6`. -/
def floatLayout : Decimal.Layout :=
  ⟨-4, 6, 2, "NaN", "+Inf", "-Inf"⟩

def floatText (x : Float) : String := floatLayout.render x

def isNull : Value → Bool
  | .null => true
  | _ => false

/-- Entries of a map in the order of their printed keys. -/
def byText (entries : List (String × String)) : List (String × String) :=
  entries.mergeSort fun a b => Text.le a.1 b.1

mutual

/-- The value as plain text: lists in brackets, maps sorted by key. -/
def plain : Value → String
  | .null => "<nil>"
  | .bool b => if b then "true" else "false"
  | .int i => Decimal.intText i
  | .float x => floatText x
  | .text s => s
  | .time t => t.describe
  | .list items => "[" ++ Text.join " " (plainItems items) ++ "]"
  | .map entries =>
    "map[" ++ Text.join " " ((byText (plainEntries entries)).map fun (k, v) => k ++ ":" ++ v) ++ "]"

def plainItems : List Value → List String
  | [] => []
  | v :: vs => plain v :: plainItems vs

def plainEntries : List (Value × Value) → List (String × String)
  | [] => []
  | (k, v) :: rest => (plain k, plain v) :: plainEntries rest

end

/-- Entries by text key, later ones overriding earlier ones. -/
def lastByName (entries : List (String × Value)) : List (Value × Value) :=
  (Table.ofList entries).entries.map fun (k, v) => (.text k, v)

mutual

def ofJson : Json → Value
  | .null => .null
  | .bool b => .bool b
  | .number literal => .float (Json.floatOf literal)
  | .string literal => .text ((Json.literalText? literal).getD "")
  | .array items => .list (ofItems items)
  | .object members => .map (lastByName (ofMembers members))

def ofItems : List Json → List Value
  | [] => []
  | j :: js => ofJson j :: ofItems js

def ofMembers : List (String × Json) → List (String × Value)
  | [] => []
  | (k, j) :: rest => (k, ofJson j) :: ofMembers rest

end

end Value

end Synthesis
