import GraphCheckpoint.Tool.Arguments

/-!
Contract: the help of the store tool.

Owns: the lines that explain the tool, each of its commands, and the help itself.

Does not own: how help is asked for.
-/

namespace GraphCheckpoint.Tool

namespace Command

def all : List Command := [.inspect, .compact, .checkReferences]

def name : Command → String
  | .inspect => "inspect"
  | .compact => "compact"
  | .checkReferences => "check-refs"

/-- What a command does, in one line. -/
def summary : Command → String
  | .inspect => "Prints what a rebind would load from the store"
  | .compact => "Folds the journal into a fresh snapshot"
  | .checkReferences => "Lists references that point at objects missing from the store"

end Command

def helpSummary : String := "Print this message or the help of the given subcommand(s)"

/-- A name with its explanation, which begins in the given column. -/
def explained (column : Nat) (name text : String) : String :=
  "  " ++ name ++ String.ofList (List.replicate (column - name.length) ' ') ++ text

/-- The options that all commands have. -/
def optionLines : List String :=
  [explained 23 "    --format <FORMAT>"
      "Encoding of the store. Ignored when --config names a serializer [default: json]",
    explained 23 "    --config <CONFIG>"
      "Rebind configuration (JSON) supplying the serializer settings",
    explained 23 "-h, --help" "Print help"]

/-- The help about a topic. -/
def helpLines : HelpTopic → List String
  | .tool =>
      ["Offline tooling for memento stores written by the file persister", "",
        "Usage: memento-tool [OPTIONS] <COMMAND>", "", "Commands:"] ++
        Command.all.map (fun command => explained 12 command.name command.summary) ++
        [explained 12 "help" helpSummary, "", "Options:"] ++ optionLines
  | .command command =>
      [command.summary, "", "Usage: memento-tool " ++ command.name ++ " [OPTIONS] --dir <DIR>", "",
        "Options:", explained 23 "    --dir <DIR>" ""] ++ optionLines
  | .help =>
      [helpSummary, "", "Usage: memento-tool help [COMMAND]...", "", "Arguments:",
        explained 14 "[COMMAND]..." "Print help for the subcommand(s)"]

end GraphCheckpoint.Tool
