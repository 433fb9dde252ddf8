/-!
# Command line grammar

Arguments are options with one value each, the flags for help and version, and at most one operand.
A value stands after its option or behind an equals sign; after a lone double dash everything is an
operand. A value is looked at when the next argument begins, so a name that does not exist wins
over a bad value before it.
-/

namespace LidarSweep.CommandLine

/-- Why a command line is not carried out. -/
inductive Refusal where
  | help
  | version
  | unknownArgument
  /-- A missing value, or one that is not among the choices -/
  | invalidValue
  /-- A value that cannot be read, with the reader's own words if it has any -/
  | valueValidation (message : Option String)
  /-- An option given twice -/
  | conflict
  /-- A value for a flag -/
  | tooManyValues
  deriving DecidableEq, Repr

/-- The name in diagnostics. -/
def Refusal.ident : Refusal → String
  | help => "DisplayHelp"
  | version => "DisplayVersion"
  | unknownArgument => "UnknownArgument"
  | invalidValue => "InvalidValue"
  | valueValidation _ => "ValueValidation"
  | conflict => "ArgumentConflict"
  | tooManyValues => "TooManyValues"

/-- An option, and how its value goes into the settings. -/
structure Opt (α : Type) where
  name : String
  put : String → α → Except Refusal α

structure Grammar (α : Type) where
  options : List (Opt α)
  operand : String → α → α

/-- An option whose value is not settled yet. -/
structure Pending (α : Type) where
  option : Opt α
  value : Option String

structure Parse (α : Type) where
  settings : α
  given : List String := []
  hasOperand : Bool := false
  pending : Option (Pending α) := none

namespace Parse

variable {α : Type}

def put (p : Parse α) (option : Opt α) (value : String) : Except Refusal (Parse α) :=
  if option.name ∈ p.given then .error .conflict
  else
    (option.put value p.settings).map fun settings =>
      { p with settings, given := option.name :: p.given }

/-- Settles the option under way. -/
def settle (p : Parse α) : Except Refusal (Parse α) :=
  match p.pending with
  | none => .ok p
  | some ⟨_, none⟩ => .error .invalidValue
  | some ⟨option, some value⟩ => { p with pending := none }.put option value

def operand (p : Parse α) (g : Grammar α) (value : String) : Except Refusal (Parse α) :=
  if p.hasOperand then .error .unknownArgument
  else
    p.settle.map fun p => { p with settings := g.operand value p.settings, hasOperand := true }

/-- A long name, with the value attached to it if there is one. -/
def long (p : Parse α) (g : Grammar α) (name : String) (value : Option String) :
    Except Refusal (Parse α) :=
  match g.options.find? fun option => option.name == name with
  | some option =>
    p.settle.bind fun p =>
      match value with
      | some value => p.put option value
      | none => .ok { p with pending := some ⟨option, none⟩ }
  | none =>
    if name ≠ "help" ∧ name ≠ "version" then .error .unknownArgument
    else if value.isSome then .error .tooManyValues
    else p.settle.bind fun _ => .error (if name = "help" then .help else .version)

/-- The first letter after a single dash; both flags end the parse. -/
def short (p : Parse α) (letter : Char) : Except Refusal (Parse α) :=
  if letter = 'h' then p.settle.bind fun _ => .error .help
  else if letter = 'V' then p.settle.bind fun _ => .error .version
  else .error .unknownArgument

/-- Whether an option waits for its value. -/
def awaits (p : Parse α) : Option (Opt α) :=
  match p.pending with
  | some ⟨option, none⟩ => some option
  | _ => none

/-- An argument that is neither name nor flag. -/
def plain (p : Parse α) (g : Grammar α) (value : String) : Except Refusal (Parse α) :=
  match p.awaits with
  | some option => .ok { p with pending := some ⟨option, some value⟩ }
  | none => p.operand g value

/-- A long argument cut at its first equals sign. -/
def cutName (s : List Char) : String × Option String :=
  match s.span (· ≠ '=') with
  | (name, '=' :: value) => (String.ofList name, some (String.ofList value))
  | (name, _) => (String.ofList name, none)

/-- One argument before the double dash. -/
def argument (p : Parse α) (g : Grammar α) (arg : String) : Except Refusal (Parse α) :=
  match arg.toList with
  | '-' :: '-' :: s =>
    let (name, value) := cutName s
    p.long g name value
  | '-' :: letter :: _ => p.short letter
  | _ => p.plain g arg

def arguments (g : Grammar α) (p : Parse α) : List String → Except Refusal (Parse α)
  | [] => p.settle
  | arg :: args =>
    if arg = "--" then (args.foldlM (fun (p : Parse α) arg => p.operand g arg) p).bind settle
    else (p.argument g arg).bind fun p => arguments g p args

end Parse

/-- The settings that a command line asks for, over the defaults. -/
def Grammar.parse {α : Type} (g : Grammar α) (defaults : α) (args : List String) :
    Except Refusal α :=
  (Parse.arguments g { settings := defaults } args).map fun p => p.settings

end LidarSweep.CommandLine
