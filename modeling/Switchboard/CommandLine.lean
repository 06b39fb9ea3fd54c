/-! Command lines: what a run of the program is asked to do. Values of options are checked when the
option is complete, which is when the next one begins or the line ends. -/

namespace Switchboard

/-- Why a command line is not followed. Asking for help is one reason. -/
inductive UsageError
  | help
  | helpForNothing
  | version
  | invalidSubcommand
  | unknownArgument
  | missingArgument
  | repeatedArgument
  /-- An option has no value, or an empty one where a file must be named. -/
  | emptyValue
  | malformedValue
  | tooManyValues
deriving DecidableEq, Repr

/-- How the program is used. -/
def usage : String :=
  "usage: typemux (generate | plan) --model FILE [--source MODULE=FILE]... [--config FILE] " ++
    "[--out DIRECTORY]"

def UsageError.message : UsageError → String
  | .help | .helpForNothing => usage
  | .version => "typemux 0.1.0"
  | .invalidSubcommand => "there is no such command"
  | .unknownArgument => "there is no such option"
  | .missingArgument => "an option that is needed is missing"
  | .repeatedArgument => "an option stands twice"
  | .emptyValue => "an option has no value"
  | .malformedValue => "a source must be given as MODULE=FILE"
  | .tooManyValues => "an option without a value has one"

/-- Whether the reason is that something is to be shown. -/
def UsageError.isShown : UsageError → Bool
  | .help | .version => true
  | _ => false

/-- An option that takes a value. -/
inductive Setting
  | model | source | config | out
deriving DecidableEq, Repr

/-- What a run is to do. -/
inductive Task
  | generate | plan
deriving DecidableEq, Repr

/-- What has been read of the options of a task. -/
structure Options where
  model : Option String := none
  /-- Modules with the files that they are read from. -/
  sources : List (String × String) := []
  config : Option String := none
  out : Option String := none
deriving DecidableEq, Repr, Inhabited

/-- A run: the task, the model, its sources, its settings if a file of them is named, and where the
output goes. Planning has no output. -/
structure Invocation where
  task : Task
  model : String
  sources : List (String × String)
  config : Option String
  out : String
deriving DecidableEq, Repr

namespace CommandLine

/-- The option of a task with a name. -/
def setting? (task : Task) (name : List Char) : Option Setting :=
  if name = "model".toList then some .model
  else if name = "source".toList then some .source
  else if name = "config".toList then some .config
  else if name = "out".toList ∧ task = .generate then some .out
  else none

/-- What stands before and after the first of some character. -/
def splitAt? (c : Char) : List Char → Option (List Char × List Char)
  | [] => none
  | x :: rest =>
    if x = c then some ([], rest)
    else (splitAt? c rest).map fun (before, after) => (x :: before, after)

/-- A module and the file that it is read from, with an equals sign between them. -/
def sourceOf? (value : String) : Option (String × String) :=
  match splitAt? '=' value.toList with
  | some (module, file) =>
    if module.isEmpty || file.isEmpty then none
    else some (String.ofList module, String.ofList file)
  | none => none

/-- A file in an option that may stand once. -/
def once (before : Option String) (value : String) : Except UsageError (Option String) :=
  if before.isSome then .error .repeatedArgument
  else if value.isEmpty then .error .emptyValue
  else .ok (some value)

/-- Options with one more value. -/
def assign (o : Options) (value : String) : Setting → Except UsageError Options
  | .model => do return { o with model := ← once o.model value }
  | .config => do return { o with config := ← once o.config value }
  | .out => do return { o with out := ← once o.out value }
  | .source =>
    match sourceOf? value with
    | some s => .ok { o with sources := o.sources ++ [s] }
    | none => .error .malformedValue

/-- An option that is not complete yet: its value may still be missing. -/
abbrev Pending := Option (Setting × Option String)

/-- Options with the one that was not complete. -/
def complete (o : Options) : Pending → Except UsageError Options
  | none => .ok o
  | some (_, none) => .error .emptyValue
  | some (s, some value) => assign o value s

/-- What an argument looks like. -/
inductive Shape
  /-- Two dashes, after which there are no more options. -/
  | escape
  | long (name : List Char) (value : Option (List Char))
  | short (first : Char)
  | plain
deriving DecidableEq, Repr

/-- What an argument looks like. A single dash is a value like any other. -/
def shape (argument : String) : Shape :=
  match argument.toList with
  | ['-', '-'] => .escape
  | '-' :: '-' :: rest =>
    match splitAt? '=' rest with
    | some (name, value) => .long name (some value)
    | none => .long rest none
  | '-' :: c :: _ => .short c
  | _ => .plain

def options (task : Task) : Options → Pending → List String → Except UsageError Options
  | o, pending, [] => complete o pending
  | o, pending, argument :: rest =>
    match shape argument with
    | .escape => if rest.isEmpty then complete o pending else .error .unknownArgument
    | .long name value =>
      match setting? task name, value with
      | some s, some value => do
        let o ← complete o pending
        options task (← assign o (String.ofList value) s) none rest
      | some s, none => do
        options task (← complete o pending) (some (s, none)) rest
      | none, value =>
        if name = "help".toList then
          match value with
          | some _ => .error .tooManyValues
          | none => do
            let _ ← complete o pending
            .error .help
        else .error .unknownArgument
    | .short c =>
      if c = 'h' then do
        let _ ← complete o pending
        .error .help
      else .error .unknownArgument
    | .plain =>
      match pending with
      | some (s, none) => options task o (some (s, some argument)) rest
      | _ => .error .unknownArgument

/-- The run of a task with some options. Settings may also be named by the surroundings. -/
def invocation (task : Task) (surroundings : Option String) (o : Options) :
    Except UsageError Invocation := do
  let config ← match o.config, surroundings with
    | some file, _ => .ok (some file)
    | none, some "" => .error .emptyValue
    | none, file => .ok file
  match task, o.model, o.out with
  | .generate, some model, some out => return ⟨task, model, o.sources, config, out⟩
  | .plan, some model, _ => return ⟨task, model, o.sources, config, ""⟩
  | _, _, _ => .error .missingArgument

def task? (name : String) : Option Task :=
  if name = "generate" then some .generate
  else if name = "plan" then some .plan
  else none

/-- Help that is asked for by its own task. -/
def helpFor : List String → UsageError
  | [] => .help
  | [name] => if name = "help" ∨ (task? name).isSome then .help else .invalidSubcommand
  | _ => .invalidSubcommand

/-- A task that stands after two dashes, where it is not looked for. -/
def afterEscape : List String → UsageError
  | [] => .helpForNothing
  | name :: _ =>
    if name = "help" ∨ (task? name).isSome then .unknownArgument else .invalidSubcommand

/-- The run that a command line asks for. -/
def parse (surroundings : Option String) : List String → Except UsageError Invocation
  | [] => .error .helpForNothing
  | first :: rest =>
    match task? first with
    | some task => do invocation task surroundings (← options task {} none rest)
    | none =>
      if first = "help" then .error (helpFor rest)
      else
        match shape first with
        | .escape => .error (afterEscape rest)
        | .long name value =>
          if name = "help".toList then
            .error (if value.isSome then .tooManyValues else .help)
          else if name = "version".toList then
            .error (if value.isSome then .tooManyValues else .version)
          else .error .unknownArgument
        | .short c =>
          .error (if c = 'h' then .help else if c = 'V' then .version else .unknownArgument)
        | .plain => .error .invalidSubcommand

end CommandLine

end Switchboard
