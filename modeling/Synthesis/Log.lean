import Synthesis.Json.Writer
import Synthesis.Settings.Source

/-!
The log: its levels, and records as lines of text or as JSON objects. A line has the level, the
message and then the attributes; an attribute of a group has the name of the group in front of
its key, and in JSON stands in an object of its own. The time of a record is not part of a line
here.
-/
namespace Synthesis

inductive LogLevel where
  | debug
  | info
  | warn
  | error
  deriving Repr, DecidableEq, Inhabited

namespace LogLevel

def name : LogLevel → String
  | .debug => "DEBUG"
  | .info => "INFO"
  | .warn => "WARN"
  | .error => "ERROR"

def rank : LogLevel → Nat
  | .debug => 0
  | .info => 1
  | .warn => 2
  | .error => 3

def ofRank? : Int → Option LogLevel
  | 0 => some .debug
  | 1 => some .info
  | 2 => some .warn
  | 3 => some .error
  | _ => none

/-- The name of a level by its rank. -/
def nameOfRank (n : Int) : String := ((ofRank? n).map name).getD "UNKNOWN"

/-- An unknown level, as it was written. -/
structure Unknown where
  text : String

def Unknown.message (u : Unknown) : String := "unknown log level " ++ Text.quote u.text

/-- A level by its name in any case; no name means information. -/
def parse (text : String) : Except Unknown LogLevel :=
  match Text.lower (Text.trim text) with
  | "debug" => .ok .debug
  | "" | "info" => .ok .info
  | "warn" | "warning" => .ok .warn
  | "error" => .ok .error
  | _ => .error ⟨text⟩

end LogLevel

abbrev Attribute := String × String

structure LogRecord where
  level : LogLevel
  message : String
  attributes : List Attribute := []

/-- What is added to every record: attributes, and groups around those that are added later. -/
inductive LogScope where
  | plain
  | attributes (inner : List Attribute) (outer : LogScope)
  | group (name : String) (outer : LogScope)

namespace LogScope

/-- The groups around what is added to a scope, the outermost first. -/
def groups : LogScope → List String
  | .plain => []
  | .attributes _ outer => outer.groups
  | .group name outer => outer.groups ++ [name]

/-- The attributes of a scope in order, each with its groups. -/
def all : LogScope → List (List String × Attribute)
  | .plain => []
  | .attributes inner outer => outer.all ++ inner.map fun a => (outer.groups, a)
  | .group _ outer => outer.all

def withAttributes (scope : LogScope) (inner : List Attribute) : LogScope :=
  if inner.isEmpty then scope else .attributes inner scope

/-- A group without a name is none. -/
def withGroup (scope : LogScope) (name : String) : LogScope :=
  if name = "" then scope else .group name scope

end LogScope

/-- A text that is not written as it is: empty, or with blanks, equals signs, quotes or
characters that do not print. -/
def needsQuotes (s : String) : Bool :=
  s.isEmpty || s.toList.any fun c =>
    if c.toNat < 0x80 then c.toNat < 0x20 || c == ' ' || c == '=' || c == '"'
    else c.toNat == 0xFFFD || Text.isBlank c || !Text.isPrintable c

def logWord (s : String) : String := if needsQuotes s then Text.quote s else s

/-- A key behind its groups; each of the two parts can be the reason for quotes. -/
def logKey (groups : List String) (key : String) : String :=
  let before := String.join (groups.map (· ++ "."))
  if before.isEmpty then logWord key
  else if needsQuotes before || needsQuotes key then Text.quote (before ++ key)
  else before ++ key

namespace LogRecord

/-- Every attribute of a record in a scope, with its groups. -/
def grouped (r : LogRecord) (scope : LogScope) : List (List String × Attribute) :=
  scope.all ++ r.attributes.map fun a => (scope.groups, a)

def textLine (r : LogRecord) (scope : LogScope) : String :=
  Text.join " " (["level=" ++ r.level.name, "msg=" ++ logWord r.message]
    ++ (r.grouped scope).map fun (groups, key, value) =>
      logKey groups key ++ "=" ++ logWord value)

end LogRecord

/-- Puts a member into an object, inside of the objects that its groups name. Of members of one
name the last counts. -/
def nest : List String → Attribute → List (String × Json) → List (String × Json)
  | [], (key, value), members => (members.filter (·.1 ≠ key)) ++ [(key, .text value)]
  | g :: groups, a, members =>
    let inner := match members.lookup g with
      | some (.object inner) => inner
      | _ => []
    members.filter (·.1 ≠ g) ++ [(g, .object (nest groups a inner))]

inductive LogLine where
  | text (line : String)
  | json (members : List (String × Json))

namespace LogRecord

def members (r : LogRecord) (scope : LogScope) : List (String × Json) :=
  (r.grouped scope).foldl (fun members (groups, a) => nest groups a members)
    [("level", .text r.level.name), ("msg", .text r.message)]

def line (r : LogRecord) (json : Bool) (scope : LogScope) : LogLine :=
  if json then .json (r.members scope) else .text (r.textLine scope)

end LogRecord

/-- How a program logs: the least level, the folder of its log file, which may be empty, its name
and the form of the lines on the console. -/
structure Logging where
  level : LogLevel := .info
  dir : String := ""
  service : String := ""
  json : Bool := false
  quiet : Bool := false

/-- The log file: none, one that is written, or one that could not be opened. -/
inductive LogFile where
  | none
  | written
  | refused (dir message : String)

namespace Logging

def ofSettings (s : LogSettings) (service : String) : Except LogLevel.Unknown Logging := do
  return { level := ← LogLevel.parse s.level, dir := s.dir, service, json := s.json }

/-- Every record has the name of the program, if there is one. -/
def scope (l : Logging) : LogScope :=
  if l.service = "" then .plain else .attributes [("service", l.service)] .plain

/-- The name of the log file in front of the date. -/
def fileName (l : Logging) : String := if l.service = "" then "synth" else l.service

/-- What is logged on top of the records when the log file cannot be opened. -/
def warnings (l : Logging) : LogFile → List (LogScope × LogRecord)
  | .refused dir message =>
    [(l.scope, ⟨.warn, "file logging disabled", [("dir", dir), ("error", message)]⟩)]
  | _ => []

def lines (l : Logging) (json : Bool) (records : List (LogScope × LogRecord)) : List LogLine :=
  (records.filter fun (_, r) => l.level.rank ≤ r.level.rank).map fun (scope, r) =>
    r.line json scope

def console (l : Logging) (file : LogFile) (records : List (LogScope × LogRecord)) :
    List LogLine :=
  if l.quiet then [] else l.lines l.json (l.warnings file ++ records)

/-- The lines of the log file, which are JSON always. -/
def fileLines (l : Logging) (file : LogFile) (records : List (LogScope × LogRecord)) :
    Option (List LogLine) :=
  match file with
  | .written => some (l.lines true records)
  | _ => none

end Logging

end Synthesis
