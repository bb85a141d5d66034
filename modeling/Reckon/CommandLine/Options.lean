import Reckon.Text.Quoted

/-!
# Options and durations

The options of the command line. An option starts with one hyphen or two; its value follows after an
equals sign or as the next argument. The first argument that is no option ends the options.
-/

/-!
## Durations

A duration is written as numbers with units, such as `1h30m` or `-1.5s`. Durations are counted in
nanoseconds and must fit in 64 bits with a sign.
-/

namespace Reckon.CommandLine

/-- The nanoseconds of a unit. -/
def nanoseconds? (unit : String) : Option Nat :=
  match unit with
  | "ns" => some 1
  | "us" | "µs" | "μs" => some 1000
  | "ms" => some 1000000
  | "s" => some 1000000000
  | "m" => some 60000000000
  | "h" => some 3600000000000
  | _ => none

/-- The whole number that digits stand for. -/
def digitsNumber (digits : List Char) : Nat :=
  digits.foldl (fun n c => 10 * n + (c.toNat - '0'.toNat)) 0

/-- The sum of the parts of an unsigned duration. The first argument bounds their number. -/
def durationParts : Nat → List Char → Option Nat
  | _, [] => some 0
  | 0, _ => none
  | bound + 1, chars =>
      let whole := chars.takeWhile Char.isDigit
      let rest := chars.drop whole.length
      let (fraction, rest) : List Char × List Char :=
        match rest with
        | '.' :: after => (after.takeWhile Char.isDigit, after.dropWhile Char.isDigit)
        | _ => ([], rest)
      let unit := rest.takeWhile fun c => c != '.' && !c.isDigit
      if whole.isEmpty && fraction.isEmpty then none
      else
        match nanoseconds? (String.ofList unit), durationParts bound (rest.drop unit.length) with
        | some size, some others =>
            let total := digitsNumber whole * size +
              digitsNumber fraction * size / Nat.pow 10 fraction.length + others
            if total ≤ Nat.pow 2 63 then some total else none
        | _, _ => none

/-- The nanoseconds of a duration. A zero needs no unit. -/
def duration? (text : String) : Option Int :=
  let chars := text.toList
  let (negative, unsigned) : Bool × List Char :=
    match chars with
    | '-' :: rest => (true, rest)
    | '+' :: rest => (false, rest)
    | _ => (false, chars)
  if unsigned == ['0'] then some 0
  else if unsigned.isEmpty then none
  else
    match durationParts unsigned.length unsigned with
    | some total =>
        if negative then some (-(total : Int)) else if total < Nat.pow 2 63 then some total else none
    | none => none

/-! ## Options of the command line -/

/-- The options. -/
structure Options where
  /-- Whether to list the tokens of the program. -/
  emitTokens : Bool := false
  /-- Whether to show the tree of the program. -/
  emitTree : Bool := false
  /-- The form in which the tree is shown. -/
  treeFormat : String := "text"
  /-- The expression to evaluate, if it is not empty. -/
  expression : String := ""
  /-- The longest time to run in nanoseconds, if it is positive. -/
  timeout : Int := 0
  /-- Whether to show the version. -/
  version : Bool := false
  /-- The manifests of the plugins to install. -/
  plugins : List String := []
  /-- What follows the options. -/
  operands : List String := []
deriving Repr

/-- Why arguments are no options. -/
inductive OptionError where
  /-- The usage is asked for. -/
  | help
  /-- An argument has a hyphen too many or no name. -/
  | malformed (argument : String)
  /-- An option does not exist. -/
  | unknown (name : String)
  /-- An option has no value. -/
  | missingValue (name : String)
  /-- A value is no truth value. -/
  | badTruth (name value : String)
  /-- A value is no duration. -/
  | badDuration (name value : String)
deriving DecidableEq, Repr

/-- The text of an error; asking for the usage is none. -/
def OptionError.message? : OptionError → Option String
  | help => none
  | malformed argument => some ("bad flag syntax: " ++ argument)
  | unknown name => some ("flag provided but not defined: -" ++ name)
  | missingValue name => some ("flag needs an argument: -" ++ name)
  | badTruth name value =>
      some ("invalid boolean value " ++ Text.quote value ++ " for -" ++ name ++ ": parse error")
  | badDuration name value =>
      some ("invalid value " ++ Text.quote value ++ " for flag -" ++ name ++ ": parse error")

/-- A truth value as it is written for an option. -/
def truth? (text : String) : Option Bool :=
  match text with
  | "1" | "t" | "T" | "true" | "TRUE" | "True" => some true
  | "0" | "f" | "F" | "false" | "FALSE" | "False" => some false
  | _ => none

/-- The names of the options that are truth values and need no value. -/
def switches : List String :=
  ["emit-tokens", "emit-ast", "version"]

/-- The names of the options that need a value. -/
def settings : List String :=
  ["ast-format", "e", "plugin", "timeout"]

namespace Options

/-- Set a switch. -/
def setSwitch (options : Options) (name : String) (truth : Bool) : Options :=
  match name with
  | "emit-tokens" => { options with emitTokens := truth }
  | "emit-ast" => { options with emitTree := truth }
  | _ => { options with version := truth }

/-- Set an option that needs a value. -/
def setValue (options : Options) (name value : String) : Except OptionError Options :=
  match name with
  | "ast-format" => .ok { options with treeFormat := value }
  | "e" => .ok { options with expression := value }
  | "plugin" => .ok { options with plugins := options.plugins ++ [value] }
  | _ =>
      match duration? value with
      | some timeout => .ok { options with timeout }
      | none => .error (.badDuration name value)

/-- The name of an option and its value, if it has one after an equals sign. A name has at least one
character. -/
def splitValue (chars : List Char) : String × Option String :=
  let name := chars.take 1 ++ (chars.drop 1).takeWhile (· != '=')
  match chars.drop name.length with
  | '=' :: value => (String.ofList name, some (String.ofList value))
  | _ => (String.ofList name, none)

/-- An option without its hyphens, if an argument is one. The mark that ends the options is an
option without a name. -/
def bare? (argument : String) : Option (List Char) :=
  match argument.toList with
  | ['-', '-'] => some []
  | '-' :: '-' :: rest => some rest
  | '-' :: c :: rest => some (c :: rest)
  | _ => none

/-- Read the options from arguments. -/
def parseFrom (options : Options) : List String → Except OptionError Options
  | [] => .ok options
  | argument :: rest =>
      match bare? argument with
      | none => .ok { options with operands := argument :: rest }
      | some [] => .ok { options with operands := rest }
      | some (first :: more) =>
          let (name, value) := splitValue (first :: more)
          if first == '-' || first == '=' then .error (.malformed argument)
          else if switches.contains name then
            match value with
            | none => (options.setSwitch name true).parseFrom rest
            | some text =>
                match truth? text with
                | some truth => (options.setSwitch name truth).parseFrom rest
                | none => .error (.badTruth name text)
          else if settings.contains name then
            match value, rest with
            | some text, rest =>
                match options.setValue name text with
                | .ok options => options.parseFrom rest
                | .error error => .error error
            | none, text :: after =>
                match options.setValue name text with
                | .ok options => options.parseFrom after
                | .error error => .error error
            | none, [] => .error (.missingValue name)
          else if name == "help" || name == "h" then .error .help
          else .error (.unknown name)

/-- Read the options from the arguments of the command line. -/
def parse (arguments : List String) : Except OptionError Options :=
  parseFrom {} arguments

/-- The files that are read: the manifests, and the program if there is no expression. -/
def files (options : Options) : List String :=
  options.plugins ++ if options.expression == "" then options.operands.take 1 else []

end Options

end Reckon.CommandLine
