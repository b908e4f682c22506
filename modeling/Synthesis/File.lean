import Synthesis.Text.Cut
import Synthesis.Text.Utf8

/-!
Files as far as commands read them: what stands at a path, and why a text cannot be read there or
a folder cannot be made.
-/
namespace Synthesis

inductive FileState where
  | missing
  | folder
  /-- A part of the path is a file, and no folder. -/
  | beneathFile
  | tooLong
  /-- The path has a character that ends it early. -/
  | badName
  | denied
  | text (content : String)

namespace FileState

/-- Why nothing can be opened. -/
def obstacle? : FileState → Option String
  | .missing => some "no such file or directory"
  | .beneathFile => some "not a directory"
  | .tooLong => some "file name too long"
  | .badName => some "invalid argument"
  | .denied => some "permission denied"
  | .folder | .text _ => none

/-- The content of a file, or what its reader is told. -/
def read (path : String) (state : FileState) : Except String String :=
  match state with
  | .text content => .ok content
  | .folder => .error ("read " ++ path ++ ": is a directory")
  | state => .error ("open " ++ path ++ ": " ++ state.obstacle?.getD "")

end FileState

/-- What stands at paths. -/
abbrev Files := String → FileState

namespace Files

/-- The folder that a path stands in, if the path names one. -/
def parent? (path : String) : Option String :=
  let before := (path.toList.reverse.dropWhile (· == '/')).dropWhile (· != '/')
  match before with
  | _ :: c :: cs => some (String.ofList (c :: cs).reverse)
  | _ => none

/-- A path and the folders that lead to it, at most so many. -/
def stagesWithin : Nat → String → List String
  | 0, _ => []
  | n + 1, path => path :: ((parent? path).map (stagesWithin n)).getD []

def stages (path : String) : List String := stagesWithin path.length path

/-- Why a folder cannot be made where its own folder stands; a file of that name with a slash
behind it counts as a file beneath another. -/
def makeError? (path : String) : FileState → Option String
  | .folder | .missing => none
  | .text _ => some ("mkdir " ++ path ++ ": not a directory")
  | .beneathFile => some ("mkdir " ++ path ++ ": file exists")
  | state => state.obstacle?.map fun cause => "mkdir " ++ path ++ ": " ++ cause

/-- Why a folder cannot be made, together with the folders that lead to it. -/
def folderError? (files : Files) (path : String) : Option String :=
  match files path with
  | .folder => none
  | .text content => makeError? path (.text content)
  | _ => (stages path).reverse.findSome? fun p => makeError? p (files p)

/-- A path without the steps that stay where they are. -/
def plainPath (path : String) : List String :=
  ((Text.splitAt '/' path.toList).map String.ofList).filter fun p => p ≠ "" ∧ p ≠ "."

/-- A place that a path leads to: inside of the folder at hand, above it, or anywhere else. -/
inductive Location where
  | inside (names : List String)
  | above
  | elsewhere

namespace Location

/-- One step along a path. -/
def step (l : Location) (name : String) : Location :=
  if name = "" ∨ name = "." then l
  else if name = ".." then
    match l with
    | .inside [] => .above
    | .inside names => .inside names.dropLast
    | l => l
  else
    match l with
    | .inside names => .inside (names ++ [name])
    | _ => .elsewhere

/-- What stands at a place when the folder at hand holds the named texts. -/
def state (texts : List (String × String)) : Location → FileState
  | .above => .folder
  | .elsewhere => .missing
  | .inside names =>
    match texts.find? fun (name, _) => plainPath name == names with
    | some (_, content) => .text content
    | none =>
      if names.isEmpty || texts.any fun (name, _) => names.isPrefixOf (plainPath name) then .folder
      else .missing

end Location

def maxName : Nat := 255

def maxPath : Nat := 4095

/-- Walks along a path; every step starts in a folder. -/
def walk (texts : List (String × String)) : Location → List String → FileState
  | l, [] => l.state texts
  | l, name :: names =>
    match l.state texts with
    | .folder =>
      if maxName < (Text.utf8 name).length then .tooLong else walk texts (l.step name) names
    | .text _ => .beneathFile
    | state => state

/-- One folder that holds the named texts, which may stand in folders inside. -/
def ofTexts (texts : List (String × String)) : Files := fun path =>
  if path = "" then .missing
  else if path.toList.contains '\x00' then .badName
  else if maxPath < (Text.utf8 path).length then .tooLong
  else
    let start := if Text.startsWith path "/" then .above else .inside []
    walk texts start ((Text.splitAt '/' path.toList).map String.ofList)

end Files

end Synthesis
