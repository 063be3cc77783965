/-!
# `Battlemap.Command.OptionSyntax`: options and operands

The arguments of a command are options with a value and operands. An
option is written `--name value`, `--name=value`, `-n value`, `-nvalue`
or `-n=value`; behind a lone `--` everything is an operand. A value of
its own that starts with a hyphen would be taken for an option, so an
option has to say whether it allows one.

Arguments are read from left to right, and the first thing wrong, or the
first request for help or the version, ends the reading. A value is
checked before the next argument is looked at.
-/

set_option autoImplicit false

namespace Battlemap

/-- What an option does with a separate value that starts with a
hyphen. -/
inductive HyphenRule where
  /-- It is taken for an option. -/
  | refuse
  /-- It is taken for a value if it is a negative number. -/
  | negativeNumber
  /-- It is taken for a value. -/
  | allow
deriving DecidableEq, Repr

/-- An option with a value. -/
structure OptionSpec where
  name : String
  letter : Option Char
  hyphens : HyphenRule
  repeatable : Bool
  required : Bool
  /-- Whether a value can be read. -/
  accepts : String → Bool

/-- An operand, known by its place. Every operand is required. -/
structure OperandSpec where
  name : String
  hyphens : Bool
  accepts : String → Bool

/-- The options and operands of a command. -/
structure CommandSpec where
  options : List OptionSpec
  operands : List OperandSpec
  /-- Whether the command answers `--version`. -/
  hasVersion : Bool

/-- Why reading arguments ends early. -/
inductive Stop where
  | help
  | version
  | usage
deriving DecidableEq, Repr

/-- Values by the names of their options and operands, in order. -/
abbrev ArgumentValues := List (String × String)

/-- Whether the characters behind a hyphen make it a negative number:
digits, at most one point that is not the first character, and at most
one exponent mark that is neither first nor last. -/
def isNumeric (text : List Char) : Bool :=
  let (mantissa, rest) := text.span fun c => c != 'e' && c != 'E'
  let points := mantissa.filter (· == '.')
  let mantissaFits := points.length ≤ 1 && mantissa.head? != some '.'
    && mantissa.all fun c => c.isDigit || c == '.'
  match rest with
  | [] => mantissaFits
  | _ :: exponent =>
    mantissaFits && !mantissa.isEmpty && !exponent.isEmpty && exponent.all Char.isDigit

/-- How far the arguments have been read. -/
structure ArgumentState where
  values : ArgumentValues
  /-- The option whose value comes next. -/
  pending : Option OptionSpec
  /-- The number of operands read. -/
  operands : Nat
  /-- Whether everything that comes is an operand. -/
  onlyOperands : Bool

namespace ArgumentState

/-- Before the first argument. -/
def start : ArgumentState := ⟨[], none, 0, false⟩

/-- The values of a name. -/
def valuesOf (s : ArgumentState) (name : String) : List String :=
  (s.values.filter fun (other, _) => other == name).map Prod.snd

/-- Take the value of an option. -/
def takeValue (s : ArgumentState) (option : OptionSpec) (value : String) :
    Except Stop ArgumentState :=
  if !option.accepts value then .error .usage
  else if !option.repeatable && !(s.valuesOf option.name).isEmpty then .error .usage
  else .ok { s with values := s.values ++ [(option.name, value)], pending := none }

/-- Take an option, with its value if that is attached. An option before
it must have had its value. -/
def takeOption (s : ArgumentState) (option : OptionSpec) (attached : Option String) :
    Except Stop ArgumentState :=
  if s.pending.isSome then .error .usage
  else
    match attached with
    | some value => s.takeValue option value
    | none => .ok { s with pending := some option }

/-- Take an argument that is no option: the value of the option before
it, or the next operand. -/
def takeOperand (spec : CommandSpec) (s : ArgumentState) (argument : String) :
    Except Stop ArgumentState :=
  match s.pending, s.onlyOperands with
  | some option, false => s.takeValue option argument
  | some _, true => .error .usage
  | none, _ =>
    match spec.operands[s.operands]? with
    | none => .error .usage
    | some operand =>
      if operand.accepts argument then
        .ok { s with
          values := s.values ++ [(operand.name, argument)]
          operands := s.operands + 1 }
      else .error .usage

/-- Whether the next operand may start with a hyphen. -/
def nextOperandAllows (spec : CommandSpec) (s : ArgumentState) : Bool :=
  (spec.operands[s.operands]?).any OperandSpec.hyphens

/-- The end of reading at a request for help or the version; an option
before it must have had its value. -/
def stopAt (s : ArgumentState) (stop : Stop) : Except Stop ArgumentState :=
  .error (if s.pending.isSome then .usage else stop)

/-- Take an argument that starts with two hyphens. -/
def takeLong (spec : CommandSpec) (s : ArgumentState) (argument : String) (text : List Char) :
    Except Stop ArgumentState :=
  if s.pending.any fun option => option.hyphens == .allow then s.takeOperand spec argument
  else
    let (name, rest) := text.span (· != '=')
    let name := String.ofList name
    let attached := match rest with
      | [] => none
      | _ :: value => some (String.ofList value)
    match spec.options.find? (·.name == name) with
    | some option => s.takeOption option attached
    | none =>
      if name == "help" || (name == "version" && spec.hasVersion) then
        if attached.isSome then .error .usage
        else s.stopAt (if name == "help" then .help else .version)
      else if s.nextOperandAllows spec then s.takeOperand spec argument
      else .error .usage

/-- Whether a letter is an option of the command. -/
def hasLetter (spec : CommandSpec) (letter : Char) : Bool :=
  letter == 'h' || (letter == 'V' && spec.hasVersion)
    || spec.options.any fun option => option.letter == some letter

/-- Whether an argument behind a single hyphen is a value or an operand. -/
def isHyphenValue (spec : CommandSpec) (s : ArgumentState) (text : List Char) : Bool :=
  match s.pending.map OptionSpec.hyphens with
  | some .allow => true
  | some .negativeNumber =>
    isNumeric text || (s.nextOperandAllows spec && text.any fun c => !hasLetter spec c)
  | _ => s.nextOperandAllows spec && text.any fun c => !hasLetter spec c

/-- Take an argument that starts with one hyphen. -/
def takeShort (spec : CommandSpec) (s : ArgumentState) (argument : String) (text : List Char) :
    Except Stop ArgumentState :=
  if s.isHyphenValue spec text then s.takeOperand spec argument
  else
    match text with
    | [] => .error .usage
    | letter :: rest =>
      match spec.options.find? fun option => option.letter == some letter with
      | some option =>
        let attached := match rest with
          | [] => none
          | '=' :: value => some (String.ofList value)
          | value => some (String.ofList value)
        s.takeOption option attached
      | none =>
        if letter == 'h' then s.stopAt .help
        else if letter == 'V' && spec.hasVersion then s.stopAt .version
        else .error .usage

/-- Take one argument. -/
def take (spec : CommandSpec) (s : ArgumentState) (argument : String) :
    Except Stop ArgumentState :=
  if s.onlyOperands then s.takeOperand spec argument
  else
    match argument.toList with
    | ['-', '-'] =>
      if s.pending.any fun option => option.hyphens == .allow then s.takeOperand spec argument
      else .ok { s with onlyOperands := true }
    | '-' :: '-' :: text => s.takeLong spec argument text
    | '-' :: letter :: rest => s.takeShort spec argument (letter :: rest)
    | _ => s.takeOperand spec argument

/-- The values, if nothing is missing. -/
def finish (spec : CommandSpec) (s : ArgumentState) : Except Stop ArgumentValues :=
  if s.pending.isSome || s.operands != spec.operands.length
      || spec.options.any fun option => option.required && (s.valuesOf option.name).isEmpty then
    .error .usage
  else .ok s.values

end ArgumentState

/-- Read the arguments of a command. -/
def CommandSpec.read (spec : CommandSpec) (arguments : List String) :
    Except Stop ArgumentValues := do
  (← arguments.foldlM (ArgumentState.take spec) .start).finish spec

end Battlemap
