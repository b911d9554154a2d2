import CalleeFirst.Command.Configuration

/-! The command line.

Words are read from left to right. A word with dashes is an option, any other is a value
of the option before it, the name of a command, or an argument of the command. What an
option or an argument holds is checked only when the next known one begins, or at the
end, so that an option that nobody knows is reported first. -/
namespace CalleeFirst.Command

/-! ### What can be said -/

inductive CommandName where
  | sort
  | check
  | explain
  deriving Repr, DecidableEq

namespace CommandName

def all : List CommandName := [sort, check, explain]

def text : CommandName → String
  | sort => "sort"
  | check => "check"
  | explain => "explain"

def ofText? (text : String) : Option CommandName := all.find? (·.text == text)

/-- How the arguments are written in messages. -/
def arguments : CommandName → String
  | sort | check => "<PATHS>..."
  | explain => "<FILE>"

/-- Whether there may be more than one argument. -/
def takesMany : CommandName → Bool
  | sort | check => true
  | explain => false

end CommandName

/-- Options without a value. -/
inductive Switch where
  | verbose
  | ignoreVisibility
  | toOutput
  deriving Repr, DecidableEq

def Switch.text : Switch → String
  | verbose => "--verbose"
  | ignoreVisibility => "--no-visibility"
  | toOutput => "--stdout"

/-- Options with a value. -/
inductive Setting where
  | configuration
  | collation
  deriving Repr, DecidableEq

def Setting.text : Setting → String
  | configuration => "--config <CONFIG>"
  | collation => "--collation <COLLATION>"

inductive Choice where
  | switch (switch : Switch)
  | setting (setting : Setting)
  | help
  | version
  deriving Repr, DecidableEq

/-- What a word says about the whole program, or about one command. -/
abbrev Scope := Option CommandName

def Scope.long? (scope : Scope) (name : String) : Option Choice :=
  match name, scope with
  | "help", _ => some .help
  | "verbose", _ => some (.switch .verbose)
  | "config", _ => some (.setting .configuration)
  | "version", none => some .version
  | "no-visibility", some _ => some (.switch .ignoreVisibility)
  | "collation", some _ => some (.setting .collation)
  | "stdout", some .sort => some (.switch .toOutput)
  | _, _ => none

def Scope.short? (scope : Scope) (letter : Char) : Option Choice :=
  match letter, scope with
  | 'h', _ => some .help
  | 'v', _ => some (.switch .verbose)
  | 'V', none => some .version
  | _, _ => none

/-! ### What can be wrong -/

inductive UsageFault where
  | nothingGiven
  | commandMissing
  | argumentsMissing (command : CommandName)
  | unknownCommand (name : String)
  | unexpected (word : String)
  | unexpectedValue (name value : String)
  | valueMissing (name : String)
  | repeated (name : String)
  | unknownCollation (name : String)
  deriving Repr, DecidableEq

/-- The first line of what is said about a fault; nothing where help is given instead. -/
def UsageFault.message? : UsageFault → Option String
  | nothingGiven => none
  | commandMissing => some "'depsort' requires a subcommand but one was not provided"
  | argumentsMissing _ => some "the following required arguments were not provided:"
  | unknownCommand name => some s!"unrecognized subcommand '{name}'"
  | unexpected word => some s!"unexpected argument '{word}' found"
  | unexpectedValue name value =>
    some s!"unexpected value '{value}' for '{name}' found; no more were expected"
  | valueMissing name => some s!"a value is required for '{name}' but none was supplied"
  | repeated name => some s!"the argument '{name}' cannot be used multiple times"
  | unknownCollation name =>
    some (s!"invalid value '{name}' for '{Setting.collation.text}': "
      ++ Collation.unknownMessage name)

/-- Why reading stops before the end. -/
inductive Stop where
  | fault (fault : UsageFault)
  | help (scope : Scope)
  | version
  deriving Repr, DecidableEq

/-! ### Reading -/

/-- What has been said within one scope. -/
structure Given where
  verbose : Bool := false
  ignoreVisibility : Bool := false
  toOutput : Bool := false
  configuration : Option Files.Path := none
  collation : Option Collation := none
  arguments : List Files.Path := []
  deriving Repr, DecidableEq

/-- What is not checked yet. -/
inductive Pending where
  | nothing
  /-- An option, and its value if it has come. -/
  | setting (setting : Setting) (value : Option String)
  | arguments (texts : List String)
  deriving Repr, DecidableEq

namespace Given

def has (g : Given) : Switch → Bool
  | .verbose => g.verbose
  | .ignoreVisibility => g.ignoreVisibility
  | .toOutput => g.toOutput

def turnOn (g : Given) (switch : Switch) : Except Stop Given :=
  if g.has switch then throw (.fault (.repeated switch.text))
  else return match switch with
    | .verbose => { g with verbose := true }
    | .ignoreVisibility => { g with ignoreVisibility := true }
    | .toOutput => { g with toOutput := true }

def setTo (g : Given) (value : String) : Setting → Except Stop Given
  | .configuration =>
    if g.configuration.isSome then throw (.fault (.repeated Setting.configuration.text))
    else if value = "" then throw (.fault (.valueMissing Setting.configuration.text))
    else return { g with configuration := some ⟨value⟩ }
  | .collation =>
    if g.collation.isSome then throw (.fault (.repeated Setting.collation.text))
    else match Collation.ofName? value with
      | some collation => return { g with collation := some collation }
      | none => throw (.fault (.unknownCollation value))

/-- Checks what is pending and takes it in. -/
def settle (g : Given) (scope : Scope) : Pending → Except Stop Given
  | .nothing => return g
  | .setting setting none => throw (.fault (.valueMissing setting.text))
  | .setting setting (some value) => g.setTo value setting
  | .arguments texts =>
    if texts.contains "" then
      throw (.fault (.valueMissing (scope.elim "" CommandName.arguments)))
    else return { g with arguments := g.arguments ++ texts.map Files.Path.mk }

end Given

structure Progress where
  given : Given := {}
  pending : Pending := .nothing
  /-- Whether two dashes have ended the options. -/
  ended : Bool := false
  deriving Repr, DecidableEq

namespace Progress

/-- Takes in an option without an attached value. -/
def choose (s : Progress) (scope : Scope) (choice : Choice) : Except Stop Progress := do
  let given ← s.given.settle scope s.pending
  match choice with
  | .switch switch => return { s with given := ← given.turnOn switch, pending := .nothing }
  | .setting setting => return { s with given, pending := .setting setting none }
  | .help => throw (.help scope)
  | .version => throw .version

/-- Takes in an option with an attached value. -/
def chooseWith (s : Progress) (scope : Scope) (choice : Choice) (value : String) :
    Except Stop Progress := do
  match choice with
  | .switch switch => throw (.fault (.unexpectedValue switch.text value))
  | .setting setting =>
    let given ← s.given.settle scope s.pending
    return { s with given := ← given.setTo value setting, pending := .nothing }
  | .help => throw (.fault (.unexpectedValue "--help" value))
  | .version => throw (.fault (.unexpectedValue "--version" value))

def long (s : Progress) (scope : Scope) (body : List Char) : Except Stop Progress :=
  let name := String.ofList (body.takeWhile (· != '='))
  match scope.long? name, body.dropWhile (· != '=') with
  | none, _ => throw (.fault (.unexpected s!"--{name}"))
  | some choice, [] => s.choose scope choice
  | some choice, _ :: value => s.chooseWith scope choice (String.ofList value)

def shorts (s : Progress) (scope : Scope) : List Char → Except Stop Progress
  | [] => return s
  | letter :: rest => do
    match scope.short? letter with
    | none => throw (.fault (.unexpected (String.ofList ['-', letter])))
    | some choice => (← s.choose scope choice).shorts scope rest

/-- Takes in an argument of a command. -/
def argument (s : Progress) (command : CommandName) (text : String) : Except Stop Progress := do
  match s.pending with
  | .arguments texts =>
    if command.takesMany then return { s with pending := .arguments (texts ++ [text]) }
    else throw (.fault (.unexpected text))
  | pending =>
    if !command.takesMany && !s.given.arguments.isEmpty then throw (.fault (.unexpected text))
    else return { s with given := ← s.given.settle command pending, pending := .arguments [text] }

/-- An option, if the word is one; otherwise what the word is, is left open. -/
def option? (s : Progress) (scope : Scope) (word : String) : Option (Except Stop Progress) :=
  if s.ended then none
  else match word.toList with
    | ['-', '-'] => some (return { s with ended := true })
    | '-' :: '-' :: body => some (s.long scope body)
    | '-' :: letter :: rest => some (s.shorts scope (letter :: rest))
    | _ =>
      match s.pending with
      | .setting setting none => some (return { s with pending := .setting setting (some word) })
      | _ => none

end Progress

/-- What is said to one command. -/
def readCommand (command : CommandName) : Progress → List String → Except Stop Given
  | s, [] => do
    let given ← s.given.settle command s.pending
    if given.arguments.isEmpty then throw (.fault (.argumentsMissing command)) else return given
  | s, word :: rest => do
    match s.option? command word with
    | some result => readCommand command (← result) rest
    | none => readCommand command (← s.argument command word) rest

/-- The command that help is asked about. -/
def helpOn : Scope → List String → Stop
  | scope, [] => .help scope
  | none, name :: rest =>
    if name = "help" && rest.isEmpty then .help none
    else match CommandName.ofText? name with
      | some command => helpOn command rest
      | none => .fault (.unknownCommand name)
  | some _, name :: _ => .fault (.unknownCommand name)

structure Invocation where
  command : CommandName
  given : Given
  deriving Repr, DecidableEq

/-- What was said before the command and after it: both count, and of two files the
latter. -/
def Given.join (before after : Given) : Given :=
  { after with
    verbose := before.verbose || after.verbose
    configuration := after.configuration <|> before.configuration }

def readProgram : Progress → List String → Except Stop Invocation
  | s, [] => do
    let given ← s.given.settle none s.pending
    if given.verbose || given.configuration.isSome then throw (.fault .commandMissing)
    else throw (.fault .nothingGiven)
  | s, word :: rest => do
    match s.option? none word with
    | some result => readProgram (← result) rest
    | none =>
      match CommandName.ofText? word with
      | some command =>
        if s.ended then throw (.fault (.unexpected word))
        else
          let after ← readCommand command {} rest
          return ⟨command, (← s.given.settle none s.pending).join after⟩
      | none =>
        if word = "help" then
          if s.ended then throw (.fault (.unexpected word)) else throw (helpOn none rest)
        else throw (.fault (.unknownCommand word))

def readArguments (words : List String) : Except Stop Invocation := readProgram {} words

end CalleeFirst.Command
