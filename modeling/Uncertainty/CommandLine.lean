import Uncertainty.Calculation

/-!
The command line: one expression, and a flag that asks for help. What it does is a function of the
arguments; an argument that could be a flag is one unless it is a negative number or holds a space.
-/
namespace Uncertainty.CommandLine

def usage : String :=
  "usage: scicalc [-h] expression\n"

def help : String :=
  usage ++
  "\nEvaluate an arithmetic expression with propagated uncertainties\n\n" ++
  "positional arguments:\n" ++
  "  expression  Expression to evaluate, e.g. \"(1.0 ± 0.1) * 3\"; quote it as one\n" ++
  "              argument\n\n" ++
  "options:\n" ++
  "  -h, --help  show this help message and exit\n"

inductive UsageError where
  | missing
  | unrecognized (arguments : List String)
  | attached (text : String)
deriving DecidableEq

def UsageError.message : UsageError → String
  | missing => "the following arguments are required: expression"
  | unrecognized arguments => "unrecognized arguments: " ++ " ".intercalate arguments
  | attached text => s!"argument -h/--help: ignored explicit argument {Text.quoted text}"

/-- What an argument is taken for. A help flag may carry a text that it has no use for. -/
inductive Argument where
  | word
  | separator
  | help (attached : Option (List Char))
  | unknown
deriving DecidableEq

def isNumber (digits : List Char) : Bool :=
  !digits.isEmpty && digits.all (Text.digitValue? · |>.isSome)

def isNegativeNumber : List Char → Bool
  | '-' :: rest =>
    let rest := if rest.getLast? = some '\n' then rest.dropLast else rest
    let integral := rest.takeWhile (· ≠ '.')
    match rest.dropWhile (· ≠ '.') with
    | [] => isNumber integral
    | _ :: fraction => (integral.isEmpty || isNumber integral) && isNumber fraction
  | _ => false

/-- The text that a short flag carries, given what is written behind it. The flag may be repeated
there; from where something else stands, the rest is attached. -/
def attachedToShort : List Char → Option (List Char)
  | 'h' :: rest => if rest.isEmpty then none else attachedToShort rest
  | text => some text

def attachedToLong (argument : List Char) : Option (List Char) :=
  (argument.dropWhile (· ≠ '=')).tail?

def helpFlag? : List Char → Option Argument
  | ['-', 'h'] => some (.help none)
  | '-' :: 'h' :: '=' :: text => some (.help (attachedToShort text))
  | '-' :: 'h' :: rest => some (.help (attachedToShort rest))
  | argument =>
    let name := argument.takeWhile (· ≠ '=')
    if "--".toList.isPrefixOf name && name.isPrefixOf "--help".toList then
      some (.help (attachedToLong argument))
    else none

def classify (argument : List Char) : Argument :=
  if argument.head? ≠ some '-' || argument = ['-'] then .word
  else match helpFlag? argument with
    | some flag => flag
    | none => if isNegativeNumber argument || argument.contains ' ' then .word else .unknown

/-- Behind the first `--` there are only words. -/
def classifyAll : List String → List (String × Argument)
  | [] => []
  | argument :: rest =>
    if argument = "--" then (argument, .separator) :: rest.map (·, .word)
    else (argument, classify argument.toList) :: classifyAll rest

inductive Request where
  | help
  | misuse (error : UsageError)
  | calculate (expression : String)
deriving DecidableEq

/-- The first word is the expression, with a separator on either side of it; all that comes after
is too much. A help flag is answered as soon as it is met. -/
def request (expression : Option String) (extra : List String) :
    List (String × Argument) → Request
  | [] =>
    match expression with
    | none => .misuse .missing
    | some text => if extra.isEmpty then .calculate text else .misuse (.unrecognized extra.reverse)
  | (_, .help none) :: _ => .help
  | (_, .help (some attached)) :: _ => .misuse (.attached (String.ofList attached))
  | (argument, .unknown) :: rest => request expression (argument :: extra) rest
  | (argument, .separator) :: rest =>
    request expression (if expression.isSome then argument :: extra else extra) rest
  | (argument, .word) :: rest =>
    if expression.isSome then request expression (argument :: extra) rest
    else match rest with
      | (_, .separator) :: rest => request (some argument) extra rest
      | rest => request (some argument) extra rest

/-- What a run of the program shows. A run that ends while arguments are read never calculates. -/
structure Outcome where
  code : Nat
  whileReading : Bool
  output : String
  errors : String
deriving DecidableEq

def Request.outcome : Request → Outcome
  | .help => ⟨0, true, CommandLine.help, ""⟩
  | .misuse error => ⟨2, true, "", usage ++ "scicalc: error: " ++ error.message ++ "\n"⟩
  | .calculate expression =>
    match Uncertainty.calculate expression with
    | .ok result => ⟨0, false, result ++ "\n", ""⟩
    | .error failure =>
      ⟨1, false, "", "Failed to evaluate " ++ Text.quoted expression ++ " (" ++ failure.category ++
        " error): " ++ failure.message ++ "\nError: could not evaluate the expression\n"⟩

def run (arguments : List String) : Outcome :=
  (request none [] (classifyAll arguments)).outcome

end Uncertainty.CommandLine
