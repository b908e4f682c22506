import Synthesis.Command.Line
import Synthesis.Text.Order

/-!
The help texts of the program and of its commands.
-/
namespace Synthesis.Command

def Topic.summary : Topic → String
  | .program => "Plan and run recursive program synthesis"
  | .verb .rank => "Show how the router scores every applicable strategy"
  | .verb .plan => "Print the decomposition plan without generating code"
  | .verb .run => "Synthesize a solution for the specification"
  | .help => "Help about any command"
  | .completion => "Generate the autocompletion script for the specified shell"
  | .shell s => "Generate the autocompletion script for " ++ s.name

/-- How the completions of a shell are put to use. -/
def Shell.description : Shell → String
  | .bash => Text.join "\n" [
      "Generate the autocompletion script for the bash shell.",
      "",
      "This script depends on the \x27bash-completion\x27 package.",
      "If it is not installed already, you can install it via your OS\x27s package manager.",
      "",
      "To load completions in your current shell session:",
      "",
      "\tsource <(synthplan completion bash)",
      "",
      "To load completions for every new session, execute once:",
      "",
      "#### Linux:",
      "",
      "\tsynthplan completion bash > /etc/bash_completion.d/synthplan",
      "",
      "#### macOS:",
      "",
      "\tsynthplan completion bash > $(brew --prefix)/etc/bash_completion.d/synthplan",
      "",
      "You will need to start a new shell for this setup to take effect."]
  | .fish => Text.join "\n" [
      "Generate the autocompletion script for the fish shell.",
      "",
      "To load completions in your current shell session:",
      "",
      "\tsynthplan completion fish | source",
      "",
      "To load completions for every new session, execute once:",
      "",
      "\tsynthplan completion fish > ~/.config/fish/completions/synthplan.fish",
      "",
      "You will need to start a new shell for this setup to take effect."]
  | .powershell => Text.join "\n" [
      "Generate the autocompletion script for powershell.",
      "",
      "To load completions in your current shell session:",
      "",
      "\tsynthplan completion powershell | Out-String | Invoke-Expression",
      "",
      "To load completions for every new session, add the output of the above command",
      "to your powershell profile."]
  | .zsh => Text.join "\n" [
      "Generate the autocompletion script for the zsh shell.",
      "",
      "If shell completion is not already enabled in your environment you will need",
      "to enable it.  You can execute the following once:",
      "",
      "\techo \"autoload -U compinit; compinit\" >> ~/.zshrc",
      "",
      "To load completions in your current shell session:",
      "",
      "\tsource <(synthplan completion zsh)",
      "",
      "To load completions for every new session, execute once:",
      "",
      "#### Linux:",
      "",
      "\tsynthplan completion zsh > \"$\x7bfpath[1]\x7d/_synthplan\"",
      "",
      "#### macOS:",
      "",
      "\tsynthplan completion zsh > $(brew --prefix)/share/zsh/site-functions/_synthplan",
      "",
      "You will need to start a new shell for this setup to take effect."]

def Topic.description : Topic → String
  | .program => Text.join "\n" [
      "synthplan loads a specification document, shows how the router",
      "ranks decomposition strategies, prints the decomposition plan, and runs",
      "the full synthesis engine."]
  | .verb .plan => Text.join "\n" [
      "plan routes and decomposes the specification recursively, up to the",
      "configured max depth, and prints each level with its dependency waves.",
      "Nothing is generated and no outcome is recorded."]
  | .verb .run => Text.join "\n" [
      "run executes the full engine: cache lookup, routing, recursive",
      "decomposition, leaf generation and composition.",
      "",
      "# Exit Codes",
      "",
      "  - 0: A solution was synthesized",
      "  - 1: Synthesis completed without a solution",
      "  - 2: Error"]
  | .help => Text.join "\n" [
      "Help provides help for any command in the application.",
      "Simply type synthplan help [path to command] for full details."]
  | .completion => Text.join "\n" [
      "Generate the autocompletion script for synthplan for the specified shell.",
      "See each sub-command\x27s help for details on how to use the generated script."]
  | .shell s => s.description
  | t => t.summary

/-- How the command is called. -/
def Topic.useLine : Topic → String
  | .program => programName ++ " [command]"
  | .verb v => programName ++ " " ++ v.name ++ " <spec-file> [flags]"
  | .help => programName ++ " help [command] [flags]"
  | .completion => programName ++ " completion [command]"
  | .shell .bash => Topic.path (.shell .bash)
  | .shell s => Topic.path (.shell s) ++ " [flags]"

/-- The commands inside a command, with their summaries. -/
def Topic.commands : Topic → List (String × String)
  | .program => [Topic.completion, .help, .verb .plan, .verb .rank, .verb .run].map fun t =>
      (t.name, t.summary)
  | .completion => Shell.all.map fun s => (s.name, Topic.summary (.shell s))
  | _ => []

def spaces (n : Nat) : String := String.ofList (List.replicate n ' ')

def padTo (width : Nat) (s : String) : String := s ++ spaces (width - s.length)

def Flag.lead (f : Flag) : String :=
  (match f.short with
    | some c => "  -" ++ String.ofList [c] ++ ", --"
    | none => "      --")
    ++ f.name ++ (if f.isSwitch then "" else " string")

/-- The flags by name, their usages in one column. -/
def flagLines (flags : List Flag) : String :=
  let sorted := flags.mergeSort fun a b => Text.le a.name b.name
  let width := sorted.foldl (fun w f => max w f.lead.length) 0
  Text.join "\n" (sorted.map fun f => padTo (width + 3) f.lead ++ f.usage)

/-- How a command is used; `own` are its flags. -/
def Topic.usageWith (t : Topic) (own : List Flag) : String :=
  let commands := t.commands
  "Usage:\n  " ++ t.useLine
    ++ (if commands.isEmpty then "" else "\n\nAvailable Commands:"
      ++ String.join (commands.map fun (name, summary) =>
        "\n  " ++ padTo 11 name ++ " " ++ summary))
    ++ "\n\nFlags:\n"
    ++ flagLines (own ++ (if t = .program then globalFlags else []))
    ++ (if t = .program then "" else "\n\nGlobal Flags:\n" ++ flagLines globalFlags)
    ++ (if commands.isEmpty then "" else
      "\n\nUse \"" ++ t.path ++ " [command] --help\" for more information about a command.")
    ++ "\n"

def Topic.usage (t : Topic) : String := t.usageWith (t.helpFlag :: t.ownFlags)

def Topic.helpText (t : Topic) : String := t.description ++ "\n\n" ++ t.usage

/-- The answer to a question for help about an unknown command. -/
def unknownTopicText (words : List String) : String :=
  "Unknown help topic [" ++ Text.join " " (words.map Text.quoteRaw) ++ "]\n"
    ++ Topic.program.usageWith []

end Synthesis.Command
