import CalleeFirst.Command.Arguments

/-! The texts that help and the version are answered with. -/
namespace CalleeFirst.Command

def versionText : String := "depsort 0.1.0\n"

def CommandName.summary : CommandName → String
  | sort => "Reorder members in place"
  | check => "Exit with status 1 if any file would change"
  | explain => "Print the computed groups of a file as JSON"

def CommandName.argumentHelp : CommandName → String
  | sort => "Files or directories to sort"
  | check => "Files or directories to check"
  | explain => "Rust source file"

def Choice.written : Choice → String
  | switch .verbose => "-v, --verbose"
  | switch s => "    " ++ s.text
  | setting s => "    " ++ s.text
  | help => "-h, --help"
  | version => "-V, --version"

def Choice.meaning : Choice → String
  | switch .verbose => "Enable verbose logging"
  | switch .ignoreVisibility => "Ignore visibility when breaking ties"
  | switch .toOutput => "Print the result of a single file instead of writing it"
  | setting .configuration =>
    "Path to a depsort.toml (default: ./depsort.toml, then the user config dir)"
  | setting .collation => "Name collation: natural or ordinal"
  | help => "Print help"
  | version => "Print version"

/-- The options of a scope, as they are listed. -/
def Scope.choices : Scope → List Choice
  | none => [.switch .verbose, .setting .configuration, .help, .version]
  | some command =>
    [.switch .verbose, .setting .configuration]
      ++ (if command = .sort then [.switch .toOutput] else [])
      ++ [.switch .ignoreVisibility, .setting .collation, .help]

/-- Two columns, the second aligned. -/
def columns (rows : List (String × String)) : String :=
  let width := rows.foldl (fun width row => max width row.1.length) 0
  let line : String × String → String := fun (left, right) =>
    "  " ++ left ++ String.ofList (List.replicate (width + 2 - left.length) ' ') ++ right ++ "\n"
  String.join (rows.map line)

def helpText (scope : Scope) : String :=
  let options := "\nOptions:\n" ++ columns (scope.choices.map fun c => (c.written, c.meaning))
  match scope with
  | none =>
    "Order Rust impl members by their call dependencies\n\n"
      ++ "Usage: depsort [OPTIONS] <COMMAND>\n\nCommands:\n"
      ++ columns (CommandName.all.map (fun c => (c.text, c.summary))
        ++ [("help", "Print this message or the help of the given subcommand(s)")])
      ++ options
  | some command =>
    command.summary ++ "\n\nUsage: depsort " ++ command.text ++ " [OPTIONS] " ++ command.arguments
      ++ "\n\nArguments:\n" ++ columns [(command.arguments, command.argumentHelp)] ++ options

end CalleeFirst.Command
