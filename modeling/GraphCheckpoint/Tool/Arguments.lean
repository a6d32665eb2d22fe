import GraphCheckpoint.Table

/-!
Contract: the command line of the store tool.

Owns:
- the commands and options, and how they are written;
- the settings that may stand before or after the command, of which the later place counts;
- the ways to ask for help.

Does not own: what the commands do, or the texts of the help.

An option's value follows it or is joined to it by an equals sign. A value that follows may not look
like an option. No option may be given twice in one place. A value that is joined to its option is
checked at once, one that follows it only when the next option of the place comes or all else has
been read. Help that is asked for is given whatever is wrong with what has not been read or checked
by then.
-/

namespace GraphCheckpoint.Tool

/-- What is to be done with a store. -/
inductive Command where
  /-- Shows what the store holds. -/
  | inspect
  /-- Folds the journal into a new snapshot. -/
  | compact
  /-- Lists the references that lead to nothing. -/
  | checkReferences
deriving DecidableEq, Repr

/-- A command line that has been understood. -/
structure Arguments where
  command : Command
  directory : String
  format : String
  config : Option String
deriving DecidableEq, Repr

namespace Command

def ofName? : String → Option Command
  | "inspect" => some .inspect
  | "compact" => some .compact
  | "check-refs" => some .checkReferences
  | _ => none

end Command

/-- What help is about. -/
inductive HelpTopic where
  | tool
  | command (command : Command)
  | help
deriving DecidableEq, Repr

/-- What a command line asks for. -/
inductive Request where
  | perform (arguments : Arguments)
  | explain (topic : HelpTopic)
deriving DecidableEq, Repr

/-- The options of one place of the command line, by name. -/
abbrev Options := Table String

/-- Why no further options are read. -/
inductive OptionStop where
  | misuse
  | help
deriving DecidableEq, Repr

/-- An argument that is read as an option, not as a value. -/
def looksLikeOption (argument : String) : Bool :=
  argument.startsWith "-" && argument ≠ "-"

/-- Asks for help. Further letters after the short form are not looked at. -/
def asksForHelp (argument : String) : Bool :=
  argument = "--help" || argument.startsWith "-h"

/-- Adds an option, once; a path must not be empty. -/
def addOption (name value : String) (options : Options) : Except OptionStop Options :=
  if options.contains name then .error .misuse
  else if name ≠ "--format" && value = "" then .error .misuse
  else .ok (options.insert name value)

/-- The options of one place as far as they have been read. -/
structure OptionState where
  checked : Options
  /-- The last option, with its value, where this has not been checked yet. -/
  unchecked : Option (String × String)
deriving DecidableEq, Repr

namespace OptionState

def empty : OptionState := ⟨[], none⟩

/-- Checks the last option too. -/
def check (state : OptionState) : Except OptionStop Options :=
  match state.unchecked with
  | some (name, value) => addOption name value state.checked
  | none => .ok state.checked

/-- Reads options up to the first argument that is none. -/
def read (allowed : List String) :
    OptionState → List String → Except OptionStop (OptionState × List String)
  | state, [] => .ok (state, [])
  | state, argument :: rest =>
      if !looksLikeOption argument then .ok (state, argument :: rest)
      else if argument = "--" then if rest.isEmpty then .ok (state, []) else .error .misuse
      else do
        let checked ← state.check
        if asksForHelp argument then .error .help
        else
          match argument.splitOn "=" with
          | name :: first :: others =>
              if !allowed.contains name then .error .misuse
              else
                let value := "=".intercalate (first :: others)
                read allowed ⟨← addOption name value checked, none⟩ rest
          | _ =>
              match rest with
              | value :: rest =>
                  if looksLikeOption value || !allowed.contains argument then .error .misuse
                  else read allowed ⟨checked, some (argument, value)⟩ rest
              | [] => .error .misuse

end OptionState

/-- The options that may stand in either place. -/
def globalOptions : List String := ["--format", "--config"]

/-- Reads options in a place where help is about a topic, and goes on with what follows them. -/
def withOptions (topic : HelpTopic) (allowed arguments : List String)
    (next : OptionState → List String → Option Request) : Option Request :=
  match OptionState.read allowed .empty arguments with
  | .ok (state, rest) => next state rest
  | .error .help => some (.explain topic)
  | .error .misuse => none

/-- What help is asked for by names of commands. -/
def helpTopic? : List String → Option HelpTopic
  | [] => some .tool
  | ["help"] => some .help
  | [name] => (Command.ofName? name).map .command
  | _ => none

/-- What is to be done, by the options before the command and after it; `none` is a usage error. -/
def performing? (command : Command) (before after : OptionState) : Option Request := do
  let after ← after.check.toOption
  let before ← before.check.toOption
  let directory ← after.get? "--dir"
  let setting := fun name => (after.get? name).or (before.get? name)
  return .perform ⟨command, directory, (setting "--format").getD "json", setting "--config"⟩

/-- Reads a command line; `none` is a usage error. -/
def Request.parse? (arguments : List String) : Option Request :=
  withOptions .tool globalOptions arguments fun before rest =>
    match rest with
    | [] => none
    | "help" :: names => (helpTopic? names).map .explain
    | name :: rest => do
        let command ← Command.ofName? name
        withOptions (.command command) ("--dir" :: globalOptions) rest fun after rest =>
          if rest.isEmpty then performing? command before after else none

end GraphCheckpoint.Tool
