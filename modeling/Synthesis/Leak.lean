import Synthesis.Pattern.Program
import Synthesis.Pattern.Reader
import Synthesis.Leaf.Candidate
import Synthesis.Text.Quoted

/-!
The leak policy: patterns of texts that must not appear in synthesized code, grouped into
classifications of different priority. A content is classified by the first pattern that matches
it; it is scanned line by line, and a finding says which line holds what.
-/
namespace Synthesis

/-- How surely a match of a pattern is a leak. -/
inductive Confidence where
  | unrated
  | low
  | medium
  | high
  deriving Repr, DecidableEq

namespace Confidence

def rank : Confidence → Nat
  | .unrated => 0
  | .low => 1
  | .medium => 2
  | .high => 3

def name : Confidence → String
  | .unrated => ""
  | .low => "low"
  | .medium => "medium"
  | .high => "high"

def ofName? : String → Option Confidence
  | "low" => some .low
  | "medium" => some .medium
  | "high" => some .high
  | _ => none

end Confidence

/-- A pattern as it is written. -/
structure LeakRule where
  id : String := ""
  description : String := ""
  regex : String := ""
  confidence : Confidence := .unrated

/-- A classification as it is written, over written or compiled patterns. -/
structure Classification (α : Type) where
  name : String := ""
  description : String := ""
  priority : Int := 0
  patterns : List α := []

structure LeakPattern where
  rule : LeakRule
  program : Program

structure LeakPolicy where
  /-- The highest priority first. -/
  classifications : List (Classification LeakPattern) := []

structure Finding where
  /-- Counted from one. -/
  line : Nat
  matched : String
  classification : String
  rule : LeakRule

namespace LeakPolicy

/-- The rule whose pattern cannot be read. -/
inductive Error where
  | badPattern (id : String)
  deriving Repr, DecidableEq

def Error.message : Error → String
  | .badPattern id => "compile pattern " ++ id ++ ": error parsing regexp: malformed pattern"

def compileRule (r : LeakRule) : Except Error LeakPattern :=
  match Pattern.ofText? r.regex with
  | some pattern => .ok ⟨r, .ofPattern pattern⟩
  | none => .error (.badPattern r.id)

def compileClassification (c : Classification LeakRule) :
    Except Error (Classification LeakPattern) := do
  return ⟨c.name, c.description, c.priority, ← c.patterns.mapM compileRule⟩

/-- Compiles every pattern and orders the classifications by priority. -/
def compile (cs : List (Classification LeakRule)) : Except Error LeakPolicy := do
  let compiled ← cs.mapM compileClassification
  return ⟨compiled.mergeSort fun a b => b.priority ≤ a.priority⟩

/-- Every pattern with the name of its classification, in order. -/
def patterns (p : LeakPolicy) : List (String × LeakPattern) :=
  p.classifications.flatMap fun c => c.patterns.map fun q => (c.name, q)

/-- The class of a content that no pattern matches. -/
def publicClass : String := "public"

/-- The classification of the first pattern that matches the content. -/
def classify (p : LeakPolicy) (content : String) : String :=
  match p.patterns.find? fun (_, q) => q.program.isIn content with
  | some (name, _) => name
  | none => publicClass

/-- What a pattern finds in a line; an empty match is no finding. -/
def finding? (number : Nat) (line : String) (named : String × LeakPattern) : Option Finding :=
  match named.2.program.find? line with
  | none => none
  | some m => if m = "" then none else some ⟨number, Text.trim m, named.1, named.2.rule⟩

def scanLine (p : LeakPolicy) (number : Nat) (line : String) : List Finding :=
  p.patterns.filterMap (finding? number line)

/-- The findings of every line. -/
def scan (p : LeakPolicy) (content : String) : List Finding :=
  (Text.lines content).zipIdx.flatMap fun (line, i) => p.scanLine (i + 1) line

def Finding.issue (f : Finding) : String :=
  "line " ++ Decimal.natText f.line ++ ": " ++ f.rule.description ++ " (" ++ f.classification
    ++ ") must not appear in the solution"

/-- The least confidence that counts, by its name: no name means the highest, and an unknown
name means that every finding counts. -/
def threshold (name : String) : Confidence :=
  if name = "" then .high else (Confidence.ofName? name).getD .unrated

def report (p : LeakPolicy) (least : Confidence) (code : String) : Report :=
  let found := (p.scan code).filter fun f => least.rank ≤ f.rule.confidence.rank
  ⟨found.isEmpty, found.map Finding.issue⟩

def validator {σ : Type} (p : LeakPolicy) (least : Confidence) : Validator σ := fun _ a =>
  Request.answer (p.report least a.code)

def builtinRules : List (Classification LeakRule) := [
  { name := "secret"
    description := "Credentials and key material"
    priority := 100
    patterns := [
      ⟨"AWS_ACCESS_KEY_ID", "AWS access key id",
        "\\b(AKIA|ASIA)[0-9A-Z]\x7b16\x7d\\b", .high⟩,
      ⟨"PRIVATE_KEY_BLOCK", "PEM private key header",
        "-----BEGIN (RSA |EC |OPENSSH |DSA )?PRIVATE KEY-----", .high⟩,
      ⟨"OPENAI_API_KEY", "OpenAI style API key",
        "\\bsk-[A-Za-z0-9_-]\x7b20,\x7d\\b", .high⟩,
      ⟨"GITHUB_TOKEN", "GitHub personal access token",
        "\\bgh[pousr]_[A-Za-z0-9]\x7b36,\x7d\\b", .high⟩,
      ⟨"HARDCODED_PASSWORD", "Password assigned to a string literal",
        "(?i)\\b(password|passwd|pwd|secret)\\s*[:=]\\s*[\"'][^\"']\x7b6,\x7d[\"']", .medium⟩] },
  { name := "pii"
    description := "Personal data"
    priority := 50
    patterns := [
      ⟨"US_SSN", "US social security number", "\\b\\d\x7b3\x7d-\\d\x7b2\x7d-\\d\x7b4\x7d\\b",
        .medium⟩,
      ⟨"EMAIL_ADDRESS", "Email address",
        "\\b[A-Za-z0-9._%+-]+@[A-Za-z0-9.-]+\\.[A-Za-z]\x7b2,\x7d\\b", .low⟩] }]

/-- The policy that is used unless another one is given. -/
def builtin : LeakPolicy :=
  match compile builtinRules with
  | .ok p => p
  | .error _ => {}

end LeakPolicy

end Synthesis
