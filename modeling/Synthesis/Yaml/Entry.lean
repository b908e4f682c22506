import Synthesis.Text.Quoted
import Synthesis.Yaml.Node

/-!
Entering a document into typed records. A node of the wrong kind is noted and passed over, so
that one reading finds all of them; only a text that is no document, a scalar that does not fit
its tag, and the like end the reading at once. Null leaves a field as it is, but empties a list.
-/
namespace Synthesis.Yaml

/-- Why a document cannot be used. -/
inductive Fault where
  | malformed
  | mismatches (notes : List String)
  | refused (message : String)
  deriving Repr, DecidableEq

def Fault.message : Fault → String
  | .malformed => "yaml: malformed document"
  | .mismatches notes => "yaml: unmarshal errors:\n  " ++ Text.join "\n  " notes
  | .refused message => message

/-- What has been noted so far, the last note first, how many nodes have been visited, in all and
through an alias, and the aliases that are being read. -/
structure Notes where
  mismatches : List String := []
  visited : Nat := 0
  aliased : Nat := 0
  reading : List Nat := []
  anchored : Anchored := []
  /-- A bound on the depth of the document. -/
  depth : Nat := 0

abbrev Entering := StateT Notes (Except Fault)

namespace Entering

/-- The share of the visits that may come from aliases, which shrinks as the number of visits
grows from the lower bound to the upper one. -/
def aliasShare (visits : Nat) : Float :=
  if visits ≤ 400000 then 0.99
  else if 4000000 ≤ visits then 0.10
  else 0.99 - 0.89 * ((visits - 400000).toFloat / 3600000.0)

/-- Counts a visit. A long document that consists of aliases almost only is refused. -/
def visit : Entering Unit := do
  let s ← get
  let s := { s with visited := s.visited + 1,
                    aliased := s.aliased + (if s.reading.isEmpty then 0 else 1) }
  if 100 < s.aliased ∧ 1000 < s.visited
      ∧ aliasShare s.visited < s.aliased.toFloat / s.visited.toFloat then throw .malformed
  set s

/-- Reads a node, or the one an alias stands for. An alias cannot be read inside of itself. -/
def through {α : Type} (n : Node) (act : Node → Entering α) : Entering α := do
  visit
  match n with
  | .link _ place target _ =>
    let s ← get
    if s.reading.contains place then throw .malformed
    match s.anchored.lookup target with
    | none => throw .malformed
    | some m =>
      set { s with reading := place :: s.reading }
      visit
      let a ← act m
      modify fun t => { t with reading := s.reading }
      return a
  | n => act n

/-- Reads apart: visits and aliases outside do not count. -/
def apart {α : Type} (act : Entering α) : Entering α := do
  let s ← get
  set { s with visited := 0, aliased := 0, reading := [] }
  let a ← act
  modify fun t => { s with mismatches := t.mismatches }
  return a

def note (text : String) : Entering Unit :=
  modify fun s => { s with mismatches := text :: s.mismatches }

/-- Longer texts are cut in notes. -/
def shown (text : String) : String :=
  if 10 < (Text.utf8 text).length then Text.takeBytes 7 text ++ "..." else text

def lineNote (line : Nat) (text : String) : Entering Unit :=
  note ("line " ++ Decimal.natText line ++ ": " ++ text)

/-- Notes a node that is no value of the named type. -/
def mismatch {α : Type} (n : Node) (type : String) : Entering (Option α) := do
  let text := if n.tag = Tag.sequence ∨ n.tag = Tag.mapping then n.keyText.2
    else " \x60" ++ shown n.keyText.2 ++ "\x60"
  lineNote n.line ("cannot unmarshal " ++ n.tag ++ text ++ " into " ++ type)
  return none

/-- Notes the keys that a mapping has twice. -/
def repetitions : List (Node × Node) → Entering Bool
  | [] => return false
  | (k, _) :: rest => do
    let again := rest.filter fun (l, _) => l.keyText == k.keyText
    for (l, _) in again do
      lineNote l.line ("mapping key " ++ Text.quote k.keyText.2 ++ " already defined at line "
        ++ Decimal.natText k.line)
    let more ← repetitions rest
    return more || !again.isEmpty

def scalarValue (tag text : String) : Entering Value :=
  match scalar? tag text with
  | some v => return v
  | none => throw .malformed

/-- Notes a collection where a scalar of the named type is expected. -/
def collection {α : Type} (n : Node) (type : String) : Entering (Option α) := do
  match n with
  | .mapping _ entries _ => if ← repetitions entries then return none else mismatch n type
  | _ => mismatch n type

/-- Reads a scalar; `read` gets the value of one that is not null. -/
def scalarOf {α : Type} (type : String) (read : (tag text : String) → Value → Option α)
    (n : Node) : Entering (Option α) :=
  through n fun
    | .scalar tag text line => do
      match ← scalarValue tag text with
      | .null => return none
      | v =>
        match read tag text v with
        | some a => return some a
        | none => mismatch (.scalar tag text line) type
    | n => collection n type

/-- Any scalar is a text, as it is written. -/
def text : Node → Entering (Option String) :=
  scalarOf "string" fun tag text v =>
    match v with
    | .text s => if tag = Tag.binary then some s else some text
    | _ => some text

/-- The whole part of a double that is not too large; one that is too small gives the least
integer. -/
def intOfFloat? (x : Float) : Option Int :=
  if x ≤ 9223372036854775808.0 then
    some (if -9223372036854775808.0 ≤ x ∧ x < 9223372036854775808.0 then x.toInt64.toInt
      else -9223372036854775808)
  else none

def int : Node → Entering (Option Int) :=
  scalarOf "int" fun _ _ v =>
    match v with
    | .int i => if Decimal.fitsInt64 i then some i else none
    | .float x => intOfFloat? x
    | _ => none

def real : Node → Entering (Option Float) :=
  scalarOf "float64" fun _ _ v =>
    match v with
    | .int i => some (Float.ofInt i)
    | .float x => some x
    | _ => none

def yesWords : List String := ["y", "Y", "yes", "Yes", "YES", "on", "On", "ON"]

def noWords : List String := ["n", "N", "no", "No", "NO", "off", "Off", "OFF"]

def bool : Node → Entering (Option Bool) :=
  scalarOf "bool" fun _ _ v =>
    match v with
    | .bool b => some b
    | .text s =>
      if yesWords.contains s then some true else if noWords.contains s then some false else none
    | _ => none

def keptItems {α : Type} (item : Node → Entering (Option α)) : List Node → Entering (List α)
  | [] => return []
  | n :: ns => do
    let a ← item n
    let rest ← keptItems item ns
    return a.toList ++ rest

/-- A list; items that give nothing are left out, and null is no list at all. -/
def list {α : Type} (type : String) (item : Node → Entering (Option α)) (n : Node) :
    Entering (Option (Option (List α))) :=
  through n fun
    | .sequence _ items _ => return some (some (← keptItems item items))
    | .scalar tag text line => do
      match ← scalarValue tag text with
      | .null => return some none
      | _ => mismatch (.scalar tag text line) type
    | n => collection n type

def texts : Node → Entering (Option (Option (List String))) := list "[]string" text

/-- Two keys of a map are the same. -/
def sameKey : Value → Value → Bool
  | .null, .null => true
  | .bool a, .bool b => a == b
  | .int a, .int b => a == b
  | .float a, .float b => a == b
  | .text a, .text b => a == b
  | .time a, .time b => a == b
  | _, _ => false

def isCollection : Value → Bool
  | .list _ | .map _ => true
  | _ => false

/-- Sets the value of a key. -/
def put (k v : Value) : List (Value × Value) → List (Value × Value)
  | [] => [(k, v)]
  | (l, w) :: rest => if sameKey k l then (l, v) :: rest else (l, w) :: put k v rest

def hasTextKeys (entries : List (Node × Node)) : Entering Bool := do
  let s ← get
  return entries.all fun (k, _) =>
    k.tagAmong s.anchored == Tag.text || k.tagAmong s.anchored == Tag.merge

/-- The value of the last merge key. -/
def merged? (entries : List (Node × Node)) : Option Node :=
  (entries.filter (·.1.isMerge)).getLast?.map (·.2)

/-- Enters the mapping, or the list of mappings, that is to be merged. -/
def mergeInto {σ : Type} (enter : Node → σ → Entering σ) (n : Node) (s : σ) : Entering σ :=
  match n with
  | .sequence _ items _ => items.foldlM (fun s n => enter n s) s
  | n => enter n s

/-- Only a mapping can be merged. -/
def mergeable (n : Node) : Entering Unit := do
  let s ← get
  match n with
  | .mapping .. => return
  | .link _ _ target _ =>
    match s.anchored.lookup target with
    | some (.scalar ..) | some (.sequence ..) => throw .malformed
    | _ => return
  | _ => throw .malformed

/-- The entries of a map so far, and the keys that merged entries must not replace. -/
structure MapState where
  entries : List (Value × Value) := []
  kept : Option (List Value) := none

namespace MapState

def keeps (m : MapState) (k : Value) : Bool := (m.kept.getD []).any (sameKey k)

def insert (m : MapState) (k v : Value) : MapState := { m with entries := put k v m.entries }

def keep (m : MapState) (k : Value) : MapState :=
  { m with kept := m.kept.map (k :: ·) }

end MapState

/-- Enters the entries of a mapping but for merged ones. -/
def ownEntries (read : Node → Entering (Option Value)) (textKeys : Bool) :
    List (Node × Node) → MapState → Entering MapState
  | [], m => return m
  | (k, v) :: rest, m => do
    if k.isMerge then return ← ownEntries read textKeys rest m
    let key ← if textKeys then Option.map Value.text <$> text k else read k
    match key with
    | none => ownEntries read textKeys rest m
    | some key =>
      if m.keeps key then ownEntries read textKeys rest m
      else
        if isCollection key then throw .malformed
        let m := m.keep key
        match ← read v with
        | some w => ownEntries read textKeys rest (m.insert key w)
        | none => ownEntries read textKeys rest m

mutual

/-- A node as a value of any kind, not nested deeper than the given number. -/
def valueWithin : Nat → Node → Entering (Option Value)
  | 0, _ => throw .malformed
  | depth + 1, n => through n fun
    | .scalar tag text _ => some <$> scalarValue tag text
    | .sequence _ items _ => return some (.list (← keptItems (valueWithin depth) items))
    | .mapping _ entries _ => do
      if ← repetitions entries then return none
      let textKeys ← hasTextKeys entries
      let m ← ownEntries (valueWithin depth) textKeys entries {}
      match merged? entries with
      | none => return some (.map m.entries)
      | some n =>
        let kept ← keptItems (valueWithin depth) (entries.map (·.1))
        let m ← mergeInto (mergedWithin depth textKeys) n { m with kept := some kept }
        return some (.map m.entries)
    | .link .. => throw .malformed

/-- Merges a mapping into the entries of a map. -/
def mergedWithin : Nat → Bool → Node → MapState → Entering MapState
  | 0, _, _, _ => throw .malformed
  | depth + 1, textKeys, n, m => do
    mergeable n
    through n fun
      | .mapping _ entries _ => do
        if ← repetitions entries then return m
        let m ← ownEntries (valueWithin depth) textKeys entries m
        match merged? entries with
        | none => return m
        | some n => mergeInto (mergedWithin depth textKeys) n m
      | _ => throw .malformed

end

/-- A node as a value of any kind. -/
def value (n : Node) : Entering (Option Value) := do
  let s ← get
  valueWithin s.depth n

end Entering

/-- A record of a type: how each of its fields is entered. -/
structure Shape (σ : Type) where
  /-- The name of the type in notes. -/
  type : String
  fields : List (String × (Node → σ → Entering σ))

/-- A record in part, the keys that merged entries must not replace, and the fields that were
set by the mapping being entered. -/
structure RecordState (σ : Type) where
  record : σ
  kept : Option (List String) := none
  done : List String := []

namespace Shape

variable {σ : Type}

/-- A field that is set unless the node gives nothing. -/
def field {α : Type} (read : Node → Entering (Option α)) (set : α → σ → σ) :
    Node → σ → Entering σ := fun n s => do
  match ← read n with
  | some a => return set a s
  | none => return s

/-- Enters the value of a key. -/
def entry (shape : Shape σ) (k v : Node) (r : RecordState σ) : Entering (RecordState σ) := do
  match ← Entering.text k with
  | none => return r
  | some name =>
    if (r.kept.getD []).contains name then return r
    let r := { r with kept := r.kept.map (name :: ·) }
    match shape.fields.lookup name with
    | none => return r
    | some enter =>
      if r.done.contains name then
        Entering.lineNote k.line ("field " ++ name ++ " already set in type " ++ shape.type)
        return r
      return { r with record := ← enter v r.record, done := name :: r.done }

def ownEntries (shape : Shape σ) :
    List (Node × Node) → RecordState σ → Entering (RecordState σ)
  | [], r => return r
  | (k, v) :: rest, r => do
    let r ← if k.isMerge then pure r else shape.entry k v r
    shape.ownEntries rest r

/-- The names that entries of a merged mapping must not replace. -/
def keptNames (entries : List (Node × Node)) : Entering (List String) := do
  let keys ← Entering.keptItems Entering.value (entries.map (·.1))
  return keys.filterMap fun
    | .text s => some s
    | _ => none

/-- Merges a mapping into a record. -/
def mergedWithin (shape : Shape σ) : Nat → Node → RecordState σ → Entering (RecordState σ)
  | 0, _, _ => throw .malformed
  | depth + 1, n, r => do
    Entering.mergeable n
    Entering.through n fun
      | .mapping _ entries _ => do
        if ← Entering.repetitions entries then return r
        let r ← shape.ownEntries entries { r with done := [] }
        match Entering.merged? entries with
        | none => return r
        | some n => Entering.mergeInto (shape.mergedWithin depth) n r
      | _ => throw .malformed

/-- Enters a mapping into a record; nothing when the node is none. -/
def enter (shape : Shape σ) (n : Node) (s : σ) : Entering (Option σ) :=
  Entering.through n fun
    | .scalar tag text line => do
      match ← Entering.scalarValue tag text with
      | .null => return none
      | _ => Entering.mismatch (.scalar tag text line) shape.type
    | .mapping _ entries _ => do
      if ← Entering.repetitions entries then return none
      let r ← shape.ownEntries entries { record := s }
      match Entering.merged? entries with
      | none => return some r.record
      | some n =>
        let r := { r with kept := some (← keptNames entries) }
        let r ← Entering.mergeInto (shape.mergedWithin (← get).depth) n r
        return some r.record
    | n => Entering.mismatch n shape.type

/-- A field that is a record in its turn. -/
def inner {τ : Type} (shape : Shape τ) (get : σ → τ) (set : τ → σ → σ) :
    Node → σ → Entering σ := fun n s => do
  match ← shape.enter n (get s) with
  | some t => return set t s
  | none => return s

/-- A record out of a list. -/
def item (shape : Shape σ) (fresh : σ) (n : Node) : Entering (Option σ) := shape.enter n fresh

/-- Enters a text into a record. The notes are given with the record as far as it could be
entered. -/
def load (shape : Shape σ) (text : String) (s : σ) : Except Fault (σ × List String) :=
  match Document.parse? text with
  | none => .error .malformed
  | some none => .ok (s, [])
  | some (some d) => do
    let (t, notes) ← (shape.enter d.root s).run
      { visited := 1, anchored := d.anchored, depth := d.depth }
    return (t.getD s, notes.mismatches.reverse)

/-- Enters a text into a record, all nodes of which must fit. -/
def read (shape : Shape σ) (text : String) (s : σ) : Except Fault σ := do
  match ← shape.load text s with
  | (t, []) => return t
  | (_, notes) => throw (.mismatches notes)

end Shape

end Synthesis.Yaml
