import Synthesis.Text.AsciiCase
import Synthesis.Text.Cut
import Synthesis.Decimal.Binary

/-!
Type signatures: a parenthesised list of parameters and a result type, with an arrow between
them or after the word "func". Brackets nest, so a comma inside them belongs to one type; a
parameter without a name gets one made of its position.
-/
namespace Synthesis

structure Param where
  name : String
  type : String
  deriving Repr, DecidableEq

structure Signature where
  params : List Param
  returns : String
  deriving Repr, DecidableEq

namespace Signature

open Synthesis.Text

def isOpening (c : Char) : Bool := c == '(' || c == '[' || c == '<' || c == '{'

def isClosing (c : Char) : Bool := c == ')' || c == ']' || c == '>' || c == '}'

/-- Splits a text that starts with a parenthesis at its matching one: what is inside, and what
follows. `depth` counts the open parentheses. -/
def matching? : Nat → List Char → Option (List Char × List Char)
  | _, [] => none
  | depth, c :: cs =>
    if c = ')' then
      match depth with
      | 0 => none
      | 1 => some ([], cs)
      | d + 2 => (matching? (d + 1) cs).map fun (a, b) => (c :: a, b)
    else if c = '(' then
      (matching? (depth + 1) cs).map fun (a, b) => (if depth = 0 then a else c :: a, b)
    else (matching? depth cs).map fun (a, b) => (c :: a, b)

/-- How many brackets are open behind a character. -/
def nested (depth : Int) (c : Char) : Int :=
  if isOpening c then depth + 1 else if isClosing c then depth - 1 else depth

/-- The pieces between the commas outside all brackets. -/
def splitTop : Int → List Char → List (List Char)
  | _, [] => [[]]
  | depth, c :: cs =>
    if c = ',' ∧ depth = 0 then [] :: splitTop depth cs
    else
      match splitTop (nested depth c) cs with
      | [] => [[c]]
      | w :: ws => (c :: w) :: ws

def trimmed (cs : List Char) : String := String.ofList (strip isBlank cs)

def hasTypeBracket (cs : List Char) : Bool := cs.any fun c => c == '[' || c == '(' || c == '<'

/-- A name and a type around a colon, or around a blank unless what is in front of it already
belongs to a type; else a type alone. -/
def param (part : List Char) (index : Nat) : Param :=
  let unnamed : Param := ⟨"arg" ++ Decimal.natText index, String.ofList part⟩
  match cutAt ':' part with
  | some (n, t) => ⟨trimmed n, trimmed t⟩
  | none =>
    match cutAt ' ' part with
    | some (n, t) => if hasTypeBracket n then unnamed else ⟨trimmed n, trimmed t⟩
    | none => unnamed

def paramsOf (inside : List Char) : List Param :=
  (splitTop 0 inside).zipIdx.filterMap fun (piece, i) =>
    let part := strip isBlank piece
    if part.isEmpty then none else some (param part i)

def parse? (raw : String) : Option Signature :=
  let cs := strip isBlank (dropLead "func".toList (strip isBlank raw.toList))
  if cs.head? = some '(' then
    match matching? 0 cs with
    | none => none
    | some (inside, rest) =>
      let returns := trimmed (dropLead "->".toList (strip isBlank rest))
      some ⟨paramsOf inside, returns⟩
  else none

def hasGenericBracket (type : String) : Bool := type.toList.any fun c => c == '[' || c == '<'

/-- Some type of the signature is generic. -/
def isGeneric (sig : Signature) : Bool :=
  hasGenericBracket sig.returns || sig.params.any fun p => hasGenericBracket p.type

end Signature

end Synthesis
