import Synthesis.Yaml.Scalar
import Synthesis.Yaml.Token

/-!
Documents as trees. Every node has its tag, which is found from the text of an untagged plain
scalar, and the line it starts at, counted from one. An alias refers to the node it stands for by
the number of its anchor, as it may stand inside of that node.
-/
namespace Synthesis.Yaml

inductive Node where
  | scalar (tag text : String) (line : Nat)
  | sequence (tag : String) (items : List Node) (line : Nat)
  | mapping (tag : String) (entries : List (Node × Node)) (line : Nat)
  /-- The place of the alias among the tokens tells it from others of its name. -/
  | link (name : String) (place target line : Nat)
  deriving Inhabited

/-- The nodes with an anchor, by the numbers of their anchors. -/
abbrev Anchored := List (Nat × Node)

namespace Node

def line : Node → Nat
  | scalar _ _ line | sequence _ _ line | mapping _ _ line | link _ _ _ line => line

def tag : Node → String
  | scalar tag _ _ | sequence tag _ _ | mapping tag _ _ => tag
  | link .. => ""

/-- The tag of the node, or of the one an alias stands for. -/
def tagAmong (anchored : Anchored) : Node → String
  | link _ _ target _ => ((anchored.lookup target).map tag).getD ""
  | n => n.tag

/-- What two keys of a mapping must not have in common. -/
def keyText : Node → Nat × String
  | scalar _ text _ => (0, text)
  | sequence .. => (1, "")
  | mapping .. => (2, "")
  | link name _ _ _ => (3, name)

def isMerge : Node → Bool
  | scalar tag text _ => text == mergeKey && tag == Tag.merge
  | _ => false

/-- An untagged scalar: quoted ones are texts. -/
def ofScalar (text : String) (plain : Bool) (line : Nat) : Node :=
  .scalar (if plain then (meaning "" text).1 else Tag.text) text line

def empty (line : Nat) : Node := .scalar Tag.null "" line

end Node

/-- The anchor and the tag in front of a node; an absent tag is empty. -/
structure Properties where
  anchor : Option String := none
  tag : Option (String × String) := none
  line : Nat

/-- What is still to be read, the numbers of the anchors so far with the last first, the nodes
with an anchor that have been read, and the meaning of tag handles. -/
structure Reading where
  tokens : List Token
  anchors : List (String × Nat) := []
  anchored : Anchored := []
  handles : List (String × String) := []

namespace Reading

def kind (r : Reading) : Token.Kind :=
  match r.tokens with
  | t :: _ => t.kind
  | [] => .fault []

def line (r : Reading) : Nat :=
  match r.tokens with
  | t :: _ => t.line + 1
  | [] => 1

def skip (r : Reading) : Reading := { r with tokens := r.tokens.tail }

def properties (r : Reading) : Properties × Reading :=
  let line := r.line
  match r.tokens with
  | ⟨.anchor a, _⟩ :: ⟨.tag h t, _⟩ :: rest =>
    (⟨some a, some (h, t), line⟩, { r with tokens := rest })
  | ⟨.tag h t, _⟩ :: ⟨.anchor a, _⟩ :: rest =>
    (⟨some a, some (h, t), line⟩, { r with tokens := rest })
  | ⟨.anchor a, _⟩ :: rest => (⟨some a, none, line⟩, { r with tokens := rest })
  | ⟨.tag h t, _⟩ :: rest => (⟨none, some (h, t), line⟩, { r with tokens := rest })
  | _ => (⟨none, none, line⟩, r)

def standardLead : String := "tag:yaml.org,2002:"

def shortTag (tag : String) : String :=
  if Text.startsWith tag standardLead then
    "!!" ++ String.ofList (tag.toList.drop standardLead.length)
  else tag

/-- The tag that a handle and the text behind it mean; the lone exclamation mark asks for
nothing. -/
def fullTag? (r : Reading) : Option (String × String) → Option (Option String)
  | none => some none
  | some (handle, text) =>
    if handle = "" then some (if text = "!" then none else some (shortTag text))
    else (r.handles.lookup handle).map fun lead => some (shortTag (lead ++ text))

/-- Notes that a node with that anchor is being read. -/
def declare (r : Reading) : Option String → Reading
  | none => r
  | some a => { r with anchors := (a, r.anchors.length) :: r.anchors }

/-- Enters the node at the anchor that was declared when there were `older` anchors. -/
def define (r : Reading) (anchor : Option String) (older : Nat) (n : Node) : Reading :=
  if anchor.isSome then { r with anchored := (older, n) :: r.anchored } else r

/-- The token cannot start an entry of a block sequence. -/
def endsItem : Token.Kind → Bool
  | .item | .blockEnd => true
  | _ => false

def endsLooseItem : Token.Kind → Bool
  | .item | .key | .value | .blockEnd => true
  | _ => false

def endsEntry : Token.Kind → Bool
  | .key | .value | .blockEnd => true
  | _ => false

/-- A node without content, which only an anchor or a tag makes. -/
def emptyContent (line : Nat) (tag : Option String) (marked : Bool) (r : Reading) :
    Option (Node × Reading) :=
  if marked then some (.scalar (tag.getD Tag.null) "" line, r) else none

mutual

/-- A node. Without brackets around, `block`, it may be a collection by indentation, and `loose`
allows a sequence that is not indented further than the key in front of it. -/
def node? : Nat → Bool → Bool → Reading → Option (Node × Reading)
  | 0, _, _, _ => none
  | fuel + 1, block, loose, r =>
    match r.kind with
    | .link name =>
      (r.anchors.lookup name).map fun target =>
        (.link name r.tokens.length target r.line, r.skip)
    | _ => do
      let (given, r) := r.properties
      let tag ← r.fullTag? given.tag
      let older := r.anchors.length
      let r := r.declare given.anchor
      let (n, r) ← content? fuel block loose given.line tag
        (given.anchor.isSome || given.tag.isSome) r
      return (n, r.define given.anchor older n)

def content? : Nat → Bool → Bool → Nat → Option String → Bool → Reading → Option (Node × Reading)
  | 0, _, _, _, _, _, _ => none
  | fuel + 1, block, loose, line, tag, marked, r =>
    match r.kind with
    | .scalar text plain =>
      some (match tag with
        | some tag => .scalar tag text line
        | none => Node.ofScalar text plain line, r.skip)
    | .openSequence => do
      let (items, r) ← bracketItems? fuel true r.skip
      return (.sequence (tag.getD Tag.sequence) items line, r)
    | .openMapping => do
      let (entries, r) ← bracketEntries? fuel true r.skip
      return (.mapping (tag.getD Tag.mapping) entries line, r)
    | .blockSequence =>
      if block then do
        let (items, r) ← blockItems? fuel r.skip
        return (.sequence (tag.getD Tag.sequence) items line, r)
      else emptyContent line tag marked r
    | .blockMapping =>
      if block then do
        let (entries, r) ← blockEntries? fuel r.skip
        return (.mapping (tag.getD Tag.mapping) entries line, r)
      else emptyContent line tag marked r
    | .item =>
      if loose then do
        let (items, r) ← looseItems? fuel r
        return (.sequence (tag.getD Tag.sequence) items line, r)
      else emptyContent line tag marked r
    | _ => emptyContent line tag marked r

def blockItems? : Nat → Reading → Option (List Node × Reading)
  | 0, _ => none
  | fuel + 1, r =>
    match r.kind with
    | .item => do
      let line := r.line
      let r := r.skip
      let (n, r) ← if endsItem r.kind then some (Node.empty line, r) else node? fuel true false r
      let (ns, r) ← blockItems? fuel r
      return (n :: ns, r)
    | .blockEnd => some ([], r.skip)
    | _ => none

def looseItems? : Nat → Reading → Option (List Node × Reading)
  | 0, _ => none
  | fuel + 1, r =>
    match r.kind with
    | .item => do
      let line := r.line
      let r := r.skip
      let (n, r) ← if endsLooseItem r.kind then some (Node.empty line, r)
        else node? fuel true false r
      let (ns, r) ← looseItems? fuel r
      return (n :: ns, r)
    | _ => some ([], r)

def blockEntries? : Nat → Reading → Option (List (Node × Node) × Reading)
  | 0, _ => none
  | fuel + 1, r =>
    match r.kind with
    | .key => do
      let line := r.line
      let r := r.skip
      let (k, r) ← if endsEntry r.kind then some (Node.empty line, r) else node? fuel true true r
      let line := r.line
      let (v, r) ← match r.kind with
        | .value =>
          if endsEntry r.skip.kind then some (Node.empty line, r.skip)
          else node? fuel true true r.skip
        | _ => some (Node.empty line, r)
      let (rest, r) ← blockEntries? fuel r
      return ((k, v) :: rest, r)
    | .blockEnd => some ([], r.skip)
    | _ => none

/-- The entries of a sequence in brackets; one with a colon is a mapping of a single entry. -/
def bracketItems? : Nat → Bool → Reading → Option (List Node × Reading)
  | 0, _, _ => none
  | fuel + 1, first, r =>
    if r.kind = .closeSequence then some ([], r.skip)
    else do
      let r ← if first then some r else if r.kind = .comma then some r.skip else none
      match r.kind with
      | .closeSequence => return ([], r.skip)
      | .key =>
        let line := r.line
        let (entry, r) ← pair? fuel r.skip
        let (ns, r) ← bracketItems? fuel false r
        return (.mapping Tag.mapping [entry] line :: ns, r)
      | _ =>
        let (n, r) ← node? fuel false false r
        let (ns, r) ← bracketItems? fuel false r
        return (n :: ns, r)

/-- A single entry in a sequence. An empty key takes the token behind it with it. -/
def pair? : Nat → Reading → Option ((Node × Node) × Reading)
  | 0, _ => none
  | fuel + 1, r => do
    let line := r.line
    let (k, r) ← match r.kind with
      | .value | .comma | .closeSequence => some (Node.empty line, r.skip)
      | _ => node? fuel false false r
    let line := r.line
    match r.kind with
    | .value =>
      match r.skip.kind with
      | .comma | .closeSequence => return ((k, Node.empty line), r.skip)
      | _ =>
        let (v, r) ← node? fuel false false r.skip
        return ((k, v), r)
    | _ => return ((k, Node.empty line), r)

def bracketEntries? : Nat → Bool → Reading → Option (List (Node × Node) × Reading)
  | 0, _, _ => none
  | fuel + 1, first, r =>
    if r.kind = .closeMapping then some ([], r.skip)
    else do
      let r ← if first then some r else if r.kind = .comma then some r.skip else none
      match r.kind with
      | .closeMapping => return ([], r.skip)
      | .key =>
        let line := r.line
        let r := r.skip
        let (k, r) ← match r.kind with
          | .value | .comma | .closeMapping => some (Node.empty line, r)
          | _ => node? fuel false false r
        let line := r.line
        let (v, r) ← match r.kind with
          | .value =>
            match r.skip.kind with
            | .comma | .closeMapping => some (Node.empty line, r.skip)
            | _ => node? fuel false false r.skip
          | _ => some (Node.empty line, r)
        let (rest, r) ← bracketEntries? fuel false r
        return ((k, v) :: rest, r)
      | _ =>
        let (k, r) ← node? fuel false false r
        let (rest, r) ← bracketEntries? fuel false r
        return ((k, Node.empty k.line) :: rest, r)

end

/-- Reads the lines in front of a document that start with a percent sign. -/
def directives? : List Token → Bool → List (String × String) →
    Option (List (String × String) × Bool × List Token)
  | ⟨.version, _⟩ :: rest, versioned, handles =>
    if versioned then none else directives? rest true handles
  | ⟨.tagLead h lead, _⟩ :: rest, versioned, handles =>
    if (handles.lookup h).isSome then none
    else directives? rest versioned (handles ++ [(h, lead)])
  | tokens, versioned, handles => some (handles, versioned || !handles.isEmpty, tokens)

def standardHandles : List (String × String) := [("!", "!"), ("!!", standardLead)]

/-- The tokens right behind a document have been read as well, and more of them as long as the
first one could start a key; they must not hold a fault. `number` tokens stand in front of
them. -/
def endsClean (r : Reading) (number : Nat) : Bool :=
  r.tokens.zipIdx.all fun (t, i) =>
    match t.kind with
    | .fault pending => 3 ≤ i && !pending.contains number
    | _ => true

end Reading

/-- A document: its outermost node and the nodes with an anchor. -/
structure Document where
  root : Node
  anchored : Anchored
  /-- No way from the root through nodes and aliases, each alias at most once, is longer. -/
  depth : Nat

/-- The first document of a text: nothing when there is none. The outer option is empty for a text
that cannot be read. -/
def Document.parse? (text : String) : Option (Option Document) := do
  let all := Token.all text
  let (handles, marked, tokens) ← Reading.directives? all false []
  let r : Reading := { tokens, handles := handles ++ Reading.standardHandles }
  let fuel := 3 * tokens.length + 3
  let finish (n : Node) (r : Reading) : Option (Option Document) :=
    if r.endsClean (all.length - r.tokens.length) then
      some (some ⟨n, r.anchored, (all.length + 1) * (all.length + 1)⟩)
    else none
  match r.kind with
  | .streamEnd => if marked then none else return none
  | .documentStart =>
    let r := r.skip
    let (n, r) ← match r.kind with
      | .version | .tagLead .. | .documentStart | .documentEnd | .streamEnd =>
        some (Node.empty r.line, r)
      | _ => Reading.node? fuel true false r
    finish n r
  | _ =>
    if marked then none
    let (n, r) ← Reading.node? fuel true false r
    finish n r

end Synthesis.Yaml
