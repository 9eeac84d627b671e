/-!
# Command lines

A command line is read level by level: options of the program, the name of a command, options of the
command.  An option is `--name value`, `--name=value`, a flag without value, or a short letter.

The value of an option counts only when the next option comes, or the end: a mistake in it is noticed
then, unless a worse one comes first.  What looks like an option is never taken for a value, except
by options that allow it.

## Main definitions

* `OptionSpec` : what an option is called and takes.
* `UsageError` : what can be wrong, and its exit code.
* `Level.read` : reads the options of one level, up to the name of a command.
-/

namespace ReviewPanel.CommandLine

/-- Why a command line does not say what to do. -/
inductive UsageError where
  /-- Help was asked for. -/
  | displayHelp
  /-- The version was asked for. -/
  | displayVersion
  /-- There is nothing at all, so help is shown. -/
  | helpOnMissing
  /-- No command is named. -/
  | missingSubcommand
  /-- There is no such command. -/
  | invalidSubcommand
  /-- An option that has to be there is not. -/
  | missingRequired
  /-- There is no such option, or a text too many. -/
  | unknownArgument
  /-- An option without its value. -/
  | invalidValue
  /-- A value of the wrong form. -/
  | valueValidation
  /-- An option that may be given once is given twice. -/
  | argumentConflict
  /-- A flag with a value. -/
  | tooManyValues
deriving DecidableEq, Repr

namespace UsageError

/-- The name of the error. -/
def name : UsageError → String
  | .displayHelp => "DisplayHelp"
  | .displayVersion => "DisplayVersion"
  | .helpOnMissing => "DisplayHelpOnMissingArgumentOrSubcommand"
  | .missingSubcommand => "MissingSubcommand"
  | .invalidSubcommand => "InvalidSubcommand"
  | .missingRequired => "MissingRequiredArgument"
  | .unknownArgument => "UnknownArgument"
  | .invalidValue => "InvalidValue"
  | .valueValidation => "ValueValidation"
  | .argumentConflict => "ArgumentConflict"
  | .tooManyValues => "TooManyValues"

/-- What was asked for is no failure. -/
def exitCode : UsageError → Nat
  | .displayHelp | .displayVersion => 0
  | _ => 2

end UsageError

/-- What an option takes. -/
inductive Arity where
  /-- No value. -/
  | flag
  /-- No value, and nothing else counts. -/
  | request (answer : UsageError)
  /-- A value, once. -/
  | single
  /-- A value, any number of times. -/
  | many
deriving DecidableEq, Repr

/-- An option. -/
structure OptionSpec where
  /-- Its long name, without the dashes. -/
  long : String
  /-- Its letter. -/
  short : Option Char
  arity : Arity
  /-- It has to be there. -/
  isRequired : Bool
  /-- A value may look like an option. -/
  hyphens : Bool
  /-- What is wrong with a value. -/
  problem? : String → Option UsageError

/-- One level of a command line. -/
structure Level where
  options : List OptionSpec
  /-- The commands that may follow. -/
  commands : List String

/-- What has been read of a level. -/
structure Draft where
  /-- Options with their values, in the order in which they came. -/
  given : List (String × String)
  /-- The last option, which does not count yet, with its value once that has come. -/
  pending : Option (OptionSpec × Option String)

namespace Draft

/-- Nothing has been read. -/
def blank : Draft := ⟨[], none⟩

/-- The option has been given. -/
def has (d : Draft) (name : String) : Bool := d.given.any fun g => g.1 == name

/-- The value of an option that may be given once. -/
def value? (d : Draft) (name : String) : Option String :=
  (d.given.find? fun g => g.1 == name).map Prod.snd

/-- The values of an option. -/
def values (d : Draft) (name : String) : List String :=
  (d.given.filter fun g => g.1 == name).map Prod.snd

/-- An option counts, with its value. -/
def add (d : Draft) (o : OptionSpec) (value : String) : Except UsageError Draft :=
  if o.arity ≠ .many ∧ d.has o.long then .error .argumentConflict
  else match o.problem? value with
    | some e => .error e
    | none => .ok { d with given := d.given ++ [(o.long, value)] }

/-- The last option counts. -/
def resolve (d : Draft) : Except UsageError Draft :=
  match d.pending with
  | none => .ok d
  | some (_, none) => .error .invalidValue
  | some (o, some value) => { d with pending := none }.add o value

/-- The option that waits for its value. -/
def awaiting? (d : Draft) : Option OptionSpec :=
  match d.pending with
  | some (o, none) => some o
  | _ => none

/-- An option comes, with a value if one is attached. -/
def option (d : Draft) (o : OptionSpec) (attached : Option String) : Except UsageError Draft :=
  match o.arity, attached with
  | .flag, some _ | .request _, some _ => .error .tooManyValues
  | .flag, none => do (← d.resolve).add o "true"
  | .request answer, none => do
    let _ ← d.resolve
    .error answer
  -- An attached value counts at once.
  | .single, some value | .many, some value => do (← d.resolve).add o value
  | .single, none | .many, none => do
    let d ← d.resolve
    return { d with pending := some (o, none) }

end Draft

/-- A text on a command line. -/
inductive Word where
  /-- Two dashes alone. -/
  | escape
  /-- A long option, with what follows an equals sign. -/
  | long (name : String) (attached : Option String)
  /-- Letters after one dash. -/
  | short (letters : List Char)
  /-- Anything else. -/
  | plain
deriving DecidableEq, Repr

/-- What a text looks like. -/
def Word.ofString (s : String) : Word :=
  match s.toList with
  | ['-', '-'] => .escape
  | '-' :: '-' :: cs =>
    let name := String.ofList (cs.takeWhile (· ≠ '='))
    match cs.dropWhile (· ≠ '=') with
    | _ :: value => .long name (some (String.ofList value))
    | [] => .long name none
  | '-' :: c :: cs => .short (c :: cs)
  | _ => .plain

namespace Level

/-- The option with a long name. -/
def long? (l : Level) (name : String) : Option OptionSpec := l.options.find? fun o => o.long == name

/-- The option with a letter. -/
def short? (l : Level) (c : Char) : Option OptionSpec := l.options.find? fun o => o.short == some c

/-- Options by their letters. -/
def letters (l : Level) (d : Draft) : List Char → Except UsageError Draft
  | [] => .ok d
  | c :: cs =>
    match l.short? c with
    | none => .error .unknownArgument
    | some o => do l.letters (← d.option o none) cs

/-- A text that is neither an option nor a value. -/
def surplus (l : Level) (trailing : Bool) (s : String) : UsageError :=
  if l.commands.isEmpty ∨ (trailing ∧ s ∈ l.commands) then .unknownArgument else .invalidSubcommand

/-- Reads the options of a level.  The result has the name of the command that follows, if there is
one, and the texts after it. -/
def read (l : Level) (trailing : Bool) (d : Draft) :
    List String → Except UsageError (Draft × Option (String × List String))
  | [] => do return (← d.resolve, none)
  | s :: rest =>
    if trailing then .error (l.surplus trailing s)
    else
      match d.awaiting? with
      | some o =>
        -- The value waits with its option until that counts.
        let take := l.read false { d with pending := some (o, some s) } rest
        if o.hyphens then take
        else match Word.ofString s with
          | .plain => take
          | .escape => l.read true d rest
          | .long name attached =>
            match l.long? name with
            | some o => do l.read false (← d.option o attached) rest
            | none => .error .unknownArgument
          | .short cs => do l.read false (← l.letters d cs) rest
      | none =>
        if s ∈ l.commands then do return (← d.resolve, some (s, rest))
        else match Word.ofString s with
          | .plain => .error (l.surplus trailing s)
          | .escape => l.read true d rest
          | .long name attached =>
            match l.long? name with
            | some o => do l.read false (← d.option o attached) rest
            | none => .error .unknownArgument
          | .short cs => do l.read false (← l.letters d cs) rest

/-- Every option that has to be there is there. -/
def checkRequired (l : Level) (d : Draft) : Except UsageError Unit :=
  if l.options.all fun o => !o.isRequired || d.has o.long then .ok () else .error .missingRequired

end Level

end ReviewPanel.CommandLine
