import BitmapText.Path
import BitmapText.Text.Integer
import BitmapText.Text.Quoted

/-!
# Command line

The arguments of the program: options, some of which take the next argument as their value whatever
it looks like, and one text. When an option is repeated, its last value counts.

## Main definitions

* `CommandLine.Options`: what the arguments ask for.
* `CommandLine.ArgumentError`: why arguments are not understood.
* `CommandLine.Options.ofArguments`: read arguments.
* `CommandLine.Command`: what the program is to do.
-/

namespace BitmapText

namespace CommandLine

/-- What the arguments ask for. -/
structure Options where
  config : Option Path := none
  out : Option Path := none
  /-- The width at which the text is cut off. -/
  maxWidth : Option Int := none
  stats : Bool := false
  text : Option String := none
deriving Repr, DecidableEq

/-- Why arguments are not understood. -/
inductive ArgumentError where
  /-- The arguments end after an option that takes a value. -/
  | missingValue (option : String)
  | invalidMaxWidth (value : String) (cause : Text.IntegerError)
  | unknownOption (argument : String)
  | secondText
deriving Repr, DecidableEq

def ArgumentError.message : ArgumentError → String
  | missingValue option => option ++ " needs a value"
  | invalidMaxWidth value cause =>
    "invalid --max-width " ++ Text.quoted value ++ ": " ++ cause.message
  | unknownOption argument => "unknown option " ++ argument
  | secondText => "expected a single TEXT argument"

/-- The options that take a value. -/
inductive ValueOption where
  | config
  | out
  | maxWidth
deriving Repr, DecidableEq

/-- What an argument is, where no value is expected. -/
inductive ArgumentKind where
  | valueOption (option : ValueOption)
  | stats
  | unknown
  | text
deriving Repr, DecidableEq

/-- What an argument is. Everything that does not begin with two dashes is a text. -/
def ArgumentKind.of (argument : String) : ArgumentKind :=
  if argument = "--config" then .valueOption .config
  else if argument = "--out" then .valueOption .out
  else if argument = "--max-width" then .valueOption .maxWidth
  else if argument = "--stats" then .stats
  else if ['-', '-'].isPrefixOf argument.toList then .unknown
  else .text

namespace Options

def set (o : Options) (option : ValueOption) (value : String) : Except ArgumentError Options :=
  match option with
  | .config => .ok { o with config := some ⟨value⟩ }
  | .out => .ok { o with out := some ⟨value⟩ }
  | .maxWidth =>
    match Text.parseInteger value with
    | .ok n => .ok { o with maxWidth := some n }
    | .error cause => .error (.invalidMaxWidth value cause)

/-- Read arguments after those that led to `o`. -/
def read (o : Options) : List String → Except ArgumentError Options
  | [] => .ok o
  | argument :: rest =>
    match ArgumentKind.of argument with
    | .valueOption option =>
      match rest with
      | [] => .error (.missingValue argument)
      | value :: rest =>
        match o.set option value with
        | .error e => .error e
        | .ok o => o.read rest
    | .stats => { o with stats := true }.read rest
    | .unknown => .error (.unknownOption argument)
    | .text =>
      if o.text.isSome then .error .secondText
      else { o with text := some argument }.read rest

def ofArguments (arguments : List String) : Except ArgumentError Options :=
  ({} : Options).read arguments

end Options

/-! ## Commands -/

/-- What the program is to do. -/
inductive Command where
  | printConfig
  | version
  | help
  | draw (options : Options)
deriving Repr, DecidableEq

/-- The command of some arguments. The first three commands are found anywhere among the arguments,
which are not looked at otherwise. -/
def Command.ofArguments (arguments : List String) : Except ArgumentError Command :=
  if arguments.contains "--print-config" then .ok .printConfig
  else if arguments.contains "--version" ∨ arguments.contains "-V" then .ok .version
  else if arguments.contains "--help" ∨ arguments.contains "-h" then .ok .help
  else (Options.ofArguments arguments).map .draw

end CommandLine

end BitmapText
