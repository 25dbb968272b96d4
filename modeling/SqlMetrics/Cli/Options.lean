import SqlMetrics.Files.Path

/-!
# The command line

The program takes one input path and five options. An option is given at most once, its value
either behind an equals sign or as the next argument, which then must not begin with a dash. Two
dashes alone end the options. Arguments are read from left to right, and the first that is wrong or
asks for help decides.
-/

set_option autoImplicit false

namespace SqlMetrics

namespace Cli

/-- What the program is asked to do. -/
structure Options where
  input : Path
  outputDirectory : Path := "sql-complexity-output"
  /-- The name of the output files; that of the input if there is none. -/
  name : Option String := none
  dialect : String := "generic"
  /-- The weights file. -/
  weights : Option Path := none
  /-- All events are shown. -/
  verbose : Bool := false
  deriving DecidableEq, Repr

/-- What a command line asks for. -/
inductive Invocation where
  | run (options : Options)
  | help
  /-- The command line is wrong. -/
  | misuse
  deriving DecidableEq, Repr

inductive Setting where
  | outputDirectory
  | name
  | dialect
  | weights
  deriving DecidableEq, Repr

def settingOf? (name : String) : Option Setting :=
  match name with
  | "output-dir" => some .outputDirectory
  | "name" => some .name
  | "dialect" => some .dialect
  | "weights" => some .weights
  | _ => none

/-- A path must not be empty; other values may be. -/
def accepts (setting : Setting) (value : String) : Bool :=
  match setting with
  | .outputDirectory | .weights => !value.isEmpty
  | .name | .dialect => true

/-- The arguments read so far. -/
structure Given where
  input : Option Path := none
  settings : List (Setting × String) := []
  verbose : Bool := false
  deriving DecidableEq, Repr

namespace Given

def addInput? (given : Given) (value : String) : Option Given :=
  if value.isEmpty || given.input.isSome then none else some { given with input := some value }

def addSetting? (given : Given) (setting : Setting) (value : String) : Option Given :=
  if !accepts setting value || (given.settings.lookup setting).isSome then none
  else some { given with settings := (setting, value) :: given.settings }

def addVerbose? (given : Given) : Option Given :=
  if given.verbose then none else some { given with verbose := true }

def invocation (given : Given) : Invocation :=
  match given.input with
  | none => .misuse
  | some input =>
      .run {
        input
        outputDirectory := (given.settings.lookup .outputDirectory).getD "sql-complexity-output"
        name := given.settings.lookup .name
        dialect := (given.settings.lookup .dialect).getD "generic"
        weights := given.settings.lookup .weights
        verbose := given.verbose }

end Given

/-- A long option as its name and the value behind an equals sign. -/
def splitOption (text : List Char) : String × Option String :=
  let name := text.takeWhile (· != '=')
  let value := text.drop name.length
  (String.ofList name, if value.isEmpty then none else some (String.ofList (value.drop 1)))

/-- An argument by its form. -/
inductive Argument where
  /-- Two dashes. -/
  | separator
  | long (name : String) (value : Option String)
  /-- A dash with letters behind it. -/
  | short (letters : List Char)
  | plain
  deriving DecidableEq, Repr

/-- The form of an argument; a dash alone is a plain one. -/
def argumentOf (text : String) : Argument :=
  match text.toList with
  | ['-', '-'] => .separator
  | '-' :: '-' :: option => let split := splitOption option; .long split.1 split.2
  | '-' :: c :: letters => .short (c :: letters)
  | _ => .plain

/-- What is read from the next arguments. -/
inductive Expecting where
  | argument
  /-- The value of an option. -/
  | value (setting : Setting)
  /-- An input path, since no options follow. -/
  | input
  deriving DecidableEq, Repr

/-- An argument has been read, or the command line is decided. -/
inductive Progress where
  | goOn (given : Given) (expecting : Expecting)
  | decided (invocation : Invocation)

/-- Goes on with the arguments read so far; the command line is wrong if one was refused. -/
def Progress.ofGiven? (expecting : Expecting) : Option Given → Progress
  | none => .decided .misuse
  | some given => .goOn given expecting

def readLong (given : Given) (name : String) (value : Option String) : Progress :=
  match name, value with
  | "help", none => .decided .help
  | "verbose", none => .ofGiven? .argument given.addVerbose?
  | _, _ =>
      match settingOf? name, value with
      | none, _ => .decided .misuse
      | some setting, none => .goOn given (.value setting)
      | some setting, some text => .ofGiven? .argument (given.addSetting? setting text)

def readArgument (given : Given) (expecting : Expecting) (text : String) : Progress :=
  match expecting, argumentOf text with
  | .input, _ => .ofGiven? .input (given.addInput? text)
  | .value setting, .plain => .ofGiven? .argument (given.addSetting? setting text)
  | .value _, _ => .decided .misuse
  | .argument, .separator => .goOn given .input
  | .argument, .short letters => .decided (if letters.head? = some 'h' then .help else .misuse)
  | .argument, .plain => .ofGiven? .argument (given.addInput? text)
  | .argument, .long name value => readLong given name value

def readArguments (given : Given) (expecting : Expecting) : List String → Invocation
  | [] =>
      match expecting with
      | .value _ => .misuse
      | _ => given.invocation
  | text :: rest =>
      match readArgument given expecting text with
      | .decided invocation => invocation
      | .goOn next expected => readArguments next expected rest

def invocationOf (arguments : List String) : Invocation :=
  readArguments {} .argument arguments

end Cli

end SqlMetrics
