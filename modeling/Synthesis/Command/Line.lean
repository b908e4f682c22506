import Synthesis.Text.AsciiCase
import Synthesis.Text.Quoted
import Synthesis.Text.Cut
import Synthesis.Text.Utf8

/-!
The command line: a verb, the path of a specification, and flags, which may stand anywhere. A
flag that is not a switch takes a value, behind an equals sign or as the next argument; two
dashes alone end the flags.
-/
namespace Synthesis.Command

def programName : String := "synthplan"

inductive Verb where
  | rank
  | plan
  | run
  deriving Repr, DecidableEq

namespace Verb

def name : Verb → String
  | .rank => "rank"
  | .plan => "plan"
  | .run => "run"

def all : List Verb := [.rank, .plan, .run]

def ofName? (name : String) : Option Verb := all.find? (·.name == name)

end Verb

/-- The shells that know how to complete command lines. -/
inductive Shell where
  | bash
  | fish
  | powershell
  | zsh
  deriving Repr, DecidableEq

namespace Shell

def name : Shell → String
  | .bash => "bash"
  | .fish => "fish"
  | .powershell => "powershell"
  | .zsh => "zsh"

def all : List Shell := [.bash, .fish, .powershell, .zsh]

def ofName? (name : String) : Option Shell := all.find? (·.name == name)

end Shell

/-- What a command line can be about, the program itself included. -/
inductive Topic where
  | program
  | verb (v : Verb)
  | help
  | completion
  | shell (s : Shell)
  deriving Repr, DecidableEq

namespace Topic

def name : Topic → String
  | .program => programName
  | .verb v => v.name
  | .help => "help"
  | .completion => "completion"
  | .shell s => s.name

/-- The words that lead to the topic, the program included. -/
def path : Topic → String
  | .program => programName
  | .shell s => programName ++ " completion " ++ s.name
  | t => programName ++ " " ++ t.name

/-- What a word leads to inside of a topic. -/
def next? (t : Topic) (word : String) : Option Topic :=
  match t with
  | .program =>
    (Verb.ofName? word).map .verb
      <|> (if word = "help" then some .help
          else if word = "completion" then some .completion else none)
  | .completion => (Shell.ofName? word).map .shell
  | _ => none

end Topic

structure Options where
  config : String := ""
  logLevel : String := ""
  traceExporter : String := ""
  metricExporter : String := ""
  model : String := ""
  json : Bool := false
  openai : Bool := false
  parallel : Bool := false
  stats : Bool := false
  noDescriptions : Bool := false
  help : Bool := false

/-- What a flag sets: a text, or a switch. -/
inductive FlagKind where
  | text (set : String → Options → Options)
  | switch (set : Bool → Options → Options)

structure Flag where
  name : String
  usage : String
  kind : FlagKind
  short : Option Char := none

def Flag.isSwitch (f : Flag) : Bool :=
  match f.kind with
  | .switch _ => true
  | .text _ => false

/-- The flags of every command, by name. -/
def globalFlags : List Flag := [
  ⟨"config", "engine config file (YAML or JSON)", .text fun v o => { o with config := v }, none⟩,
  ⟨"json", "output as JSON", .switch fun v o => { o with json := v }, none⟩,
  ⟨"log-level", "override the configured log level (debug, info, warn, error)",
    .text fun v o => { o with logLevel := v }, none⟩,
  ⟨"metric-exporter", "override the metric exporter (none, stdout, prometheus)",
    .text fun v o => { o with metricExporter := v }, none⟩,
  ⟨"trace-exporter", "override the trace exporter (none, stdout, otlp)",
    .text fun v o => { o with traceExporter := v }, none⟩]

def Verb.flags : Verb → List Flag
  | .run => [
    ⟨"model", "override the configured generator model",
      .text fun v o => { o with model := v }, none⟩,
    ⟨"openai", "generate leaves with an OpenAI-compatible model (needs OPENAI_API_KEY)",
      .switch fun v o => { o with openai := v }, none⟩,
    ⟨"parallel", "solve independent subproblems concurrently",
      .switch fun v o => { o with parallel := v }, none⟩,
    ⟨"stats", "print cache and learner statistics after the run",
      .switch fun v o => { o with stats := v }, none⟩]
  | _ => []

def Topic.ownFlags : Topic → List Flag
  | .verb v => v.flags
  | .shell _ => [⟨"no-descriptions", "disable completion descriptions",
      .switch fun v o => { o with noDescriptions := v }, none⟩]
  | _ => []

def Topic.helpFlag (t : Topic) : Flag :=
  ⟨"help", "help for " ++ t.name, .switch fun v o => { o with help := v }, some 'h'⟩

inductive UsageError where
  | unknownCommand (name : String) (inside : Topic) (similar : List String)
  | unknownFlag (name : String)
  /-- Letters outside ASCII all look alike in messages. -/
  | unknownLetter (c : Char) (letters : String)
  | badSyntax (argument : String)
  | noValue (argument : String)
  | badSwitch (value flag : String)
  | argumentCount (n : Nat)
  deriving Repr, DecidableEq

def UsageError.message : UsageError → String
  | .unknownCommand name inside similar =>
    "unknown command " ++ Text.quote name ++ " for " ++ Text.quote inside.path
      ++ (if similar.isEmpty then ""
        else "\n\nDid you mean this?\n" ++ String.join (similar.map fun s => "\t" ++ s ++ "\n"))
  | .unknownFlag name => "unknown flag: --" ++ name
  | .unknownLetter c letters =>
    "unknown shorthand flag: " ++ Text.quoteLetter (if c.toNat < 0x80 then c else Char.ofNat 0xC3)
      ++ " in -" ++ letters
  | .badSyntax argument => "bad flag syntax: " ++ argument
  | .noValue argument => "flag needs an argument: " ++ argument
  | .badSwitch value flag =>
    "invalid argument " ++ Text.quote value ++ " for " ++ Text.quote flag
      ++ " flag: strconv.ParseBool: parsing " ++ Text.quote value ++ ": invalid syntax"
  | .argumentCount n =>
    "accepts 1 arg(s), received " ++ toString n

/-- The argument is a flag whose value is the next argument. A flag that is not known counts as
one. -/
def takesNext (flags : List Flag) (argument : String) : Bool :=
  let cs := argument.toList
  if cs.contains '=' then false
  else match cs with
    | '-' :: '-' :: name =>
      !(flags.any fun f => f.name == String.ofList name && f.isSwitch)
    | ['-', c] => c.toNat < 0x80 && !(flags.any fun f => f.short == some c && f.isSwitch)
    | _ => false

/-- The arguments that are neither flags nor their values. -/
def words (flags : List Flag) : List String → List String
  | [] => []
  | a :: rest =>
    if a = "--" then []
    else if takesNext flags a then
      match rest with
      | _ :: b :: more => words flags (b :: more)
      | _ => []
    else if a ≠ "" ∧ !Text.startsWith a "-" then a :: words flags rest
    else words flags rest

/-- The arguments without the first one that is the word and no value of a flag. -/
def without (flags : List Flag) (word : String) : List String → List String
  | [] => []
  | a :: rest =>
    if a = "--" then a :: rest
    else if takesNext flags a then
      match rest with
      | b :: more => a :: b :: without flags word more
      | [] => [a]
    else if a = word then rest
    else a :: without flags word rest

/-- The least number of members to insert, drop or change between two lists. -/
def editDistance {α : Type} [DecidableEq α] (a b : List α) : Nat :=
  let row (previous : List Nat) (c : α) : List Nat :=
    let first := previous.headD 0 + 1
    let step (acc : List Nat × Nat × List Nat) (d : α) : List Nat × Nat × List Nat :=
      let (built, last, above) := acc
      let here := min (min (last + 1) (above.tail.headD 0 + 1))
        (above.headD 0 + if c = d then 0 else 1)
      (here :: built, here, above.tail)
    first :: (b.foldl step ([], first, previous)).1.reverse
  ((a.foldl row (List.range (b.length + 1))).getLast?).getD 0

/-- The commands that an unknown word is close to, in bytes, or the start of. -/
def similarTo (word : String) : List String :=
  let low := Text.utf8 (Text.lower word)
  (["rank", "plan", "run", "completion"]).filter fun name =>
    editDistance low (Text.utf8 name) ≤ 2 || low.isPrefixOf (Text.utf8 name)

/-- Follows the words from a topic to the topics inside of it, at most so often, and gives the
arguments left. -/
def follow : Nat → Topic → List String → Topic × List String
  | 0, t, args => (t, args)
  | steps + 1, t, args =>
    match words globalFlags args with
    | [] => (t, args)
    | word :: _ =>
      match t.next? word with
      | some inner => follow steps inner (without globalFlags word args)
      | none => (t, args)

/-- What the arguments are about, and the arguments left. -/
def topic (args : List String) : Except UsageError (Topic × List String) :=
  match follow 2 .program args with
  | (.program, args) =>
    match words globalFlags args with
    | [] => .ok (.program, args)
    | word :: _ => .error (.unknownCommand word .program (similarTo word))
  | found => .ok found

def truth? (value : String) : Option Bool :=
  if ["1", "t", "T", "TRUE", "true", "True"].contains value then some true
  else if ["0", "f", "F", "FALSE", "false", "False"].contains value then some false
  else none

/-- Sets a flag to a value. -/
def Flag.enter (f : Flag) (value : String) (o : Options) : Except UsageError Options :=
  match f.kind with
  | .text set => .ok (set value o)
  | .switch set =>
    match truth? value with
    | some b => .ok (set b o)
    | none =>
      let shown := match f.short with
        | some c => "-" ++ String.ofList [c] ++ ", --" ++ f.name
        | none => "--" ++ f.name
      .error (.badSwitch value shown)

/-- A group of single letters behind a dash; all of them are switches. What starts with a word
for test runs is passed over. -/
def enterLetters (flags : List Flag) : List Char → Options → Except UsageError Options
  | [], o => .ok o
  | c :: rest, o =>
    if "test.".toList.isPrefixOf (c :: rest) then .ok o
    else match flags.find? fun f => f.short == some c with
    | none => .error (.unknownLetter c (String.ofList (c :: rest)))
    | some f =>
      match rest with
      | '=' :: d :: value => f.enter (String.ofList (d :: value)) o
      | rest => do
        let o ← f.enter "true" o
        enterLetters flags rest o

/-- What an argument is: a word, the mark that ends the flags, a flag with its value, or one
whose value is the next argument. -/
inductive Argument where
  | word
  | flagsEnd
  | complete (act : Options → Except UsageError Options)
  | pending (flag : Flag)

def Argument.longFlag (flags : List Flag) (argument : String) (body : List Char) :
    Except UsageError Argument :=
  if body.head? = some '-' ∨ body.head? = some '=' then .error (.badSyntax argument)
  else
    let (name, given) := match Text.cutAt '=' body with
      | some (name, value) => (String.ofList name, some (String.ofList value))
      | none => (String.ofList body, none)
    match flags.find? (·.name == name) with
    | none => .error (.unknownFlag name)
    | some f =>
      match given with
      | some value => .ok (.complete (f.enter value))
      | none => .ok (if f.isSwitch then .complete (f.enter "true") else .pending f)

def Argument.parse (flags : List Flag) (argument : String) : Except UsageError Argument :=
  match argument.toList with
  | ['-', '-'] => .ok .flagsEnd
  | '-' :: '-' :: body => longFlag flags argument body
  | '-' :: c :: letters => .ok (.complete (enterLetters flags (c :: letters)))
  | _ => .ok .word

/-- Reads the flags; the words in between are kept in order. -/
def enterArguments (flags : List Flag) :
    List String → Options → Except UsageError (Options × List String)
  | [], o => .ok (o, [])
  | a :: rest, o =>
    match Argument.parse flags a with
    | .error e => .error e
    | .ok .word => (enterArguments flags rest o).map fun (o, ws) => (o, a :: ws)
    | .ok .flagsEnd => .ok (o, rest)
    | .ok (.complete act) =>
      match act o with
      | .error e => .error e
      | .ok o => enterArguments flags rest o
    | .ok (.pending f) =>
      match rest with
      | [] => .error (.noValue a)
      | value :: more =>
        match f.enter value o with
        | .error e => .error e
        | .ok o => enterArguments flags more o

/-- What a command line asks for. -/
inductive Request where
  | help (about : Topic)
  | unknownHelp (words : List String)
  | completions (shell : Shell)
  | work (verb : Verb) (options : Options) (path : String)

/-- Reads a command line. -/
def Request.parse (args : List String) : Except UsageError Request := do
  let (t, args) ← topic args
  let (options, words) ← enterArguments (globalFlags ++ t.ownFlags ++ [t.helpFlag]) args {}
  if options.help then return .help t
  match t with
  | .program | .completion => return .help t
  | .help =>
    match topic words with
    | .ok (about, _) => return .help about
    | .error _ => return .unknownHelp words
  | .shell s =>
    match words with
    | [] => return .completions s
    | word :: _ => throw (.unknownCommand word t [])
  | .verb v =>
    match words with
    | [path] => return .work v options path
    | _ => throw (.argumentCount words.length)

end Synthesis.Command
