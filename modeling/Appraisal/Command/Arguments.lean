import Appraisal.Text.Blank

/-!
# Arguments

Arguments are read against a grammar: at each level of subcommands it names the options and says
what else may stand there. Options may stand anywhere behind their subcommand. An option takes the
next argument as its value unless that starts with a hyphen; behind `--` nothing is an option.
-/

namespace Appraisal

structure OptionSpec where
  name : String
  takesValue : Bool
  repeatable : Bool

/-- What may stand at a level besides options. -/
inductive Operands where
  | none
  | one
  | some
  deriving DecidableEq, Repr

structure Grammar where
  options : List OptionSpec
  operands : Operands
  /-- The options that have to be given. -/
  required : List String
  subcommands : List (String × Grammar)

/-- What the arguments have said so far. -/
structure Arguments where
  /-- The subcommands, outermost first. -/
  path : List String
  flags : List String
  values : List (String × String)
  operands : List String
  /-- The options that were given at the current level. -/
  given : List String
  /-- The options that were given at the levels around it, innermost first. -/
  givenBefore : List (List String)

/-- Why reading the arguments has stopped. -/
inductive Stop where
  | misuse
  | help
  | version
  deriving DecidableEq, Repr

namespace Arguments

def empty : Arguments := ⟨[], [], [], [], [], []⟩

/-- The last value of an option; a deeper level comes later. -/
def value? (a : Arguments) (name : String) : Option String :=
  a.values.reverse.lookup name

def valuesOf (a : Arguments) (name : String) : List String :=
  (a.values.filter (·.1 = name)).map (·.2)

def addOption (a : Arguments) (o : OptionSpec) : Except Stop Arguments :=
  if !o.repeatable && a.given.contains o.name then .error .misuse
  else .ok { a with given := o.name :: a.given }

def addFlag (a : Arguments) (o : OptionSpec) : Except Stop Arguments := do
  let a ← a.addOption o
  return { a with flags := o.name :: a.flags }

def addValue (a : Arguments) (o : OptionSpec) (value : String) : Except Stop Arguments := do
  let a ← a.addOption o
  return { a with values := a.values ++ [(o.name, value)] }

def addOperand (g : Grammar) (a : Arguments) (operand : String) : Except Stop Arguments :=
  let a := { a with operands := a.operands ++ [operand] }
  match g.operands with
  | .none => .error .misuse
  | .one => if a.operands.length = 1 then .ok a else .error .misuse
  | .some => .ok a

def enter (a : Arguments) (name : String) : Arguments :=
  { a with path := a.path ++ [name], given := [], givenBefore := a.given :: a.givenBefore }

/-- Whether an option was given anew at every level. -/
def isGivenThroughout (a : Arguments) (name : String) : Bool :=
  (a.given :: a.givenBefore).all (·.contains name)

/-- Whether nothing is missing at the level where the arguments end. -/
def complete (g : Grammar) (a : Arguments) : Except Stop Arguments :=
  let enough := a.operands ≠ [] || g.operands = .none
  let chosen := g.subcommands.isEmpty || a.path.isEmpty
  if enough && chosen && g.required.all a.given.contains then .ok a else .error .misuse

end Arguments

/-- The form of an argument. -/
inductive Argument where
  /-- `--`, behind which nothing is an option. -/
  | escape
  | long (name : String) (value : Option String)
  /-- Letters behind one hyphen. -/
  | short (letters : List Char)
  | word
  deriving DecidableEq, Repr

namespace Argument

def ofText (text : String) : Argument :=
  match text.toList with
  | ['-', '-'] => escape
  | '-' :: '-' :: cs =>
    let name := String.ofList (cs.takeWhile (· ≠ '='))
    match cs.dropWhile (· ≠ '=') with
    | _ :: value => long name (some (String.ofList value))
    | [] => long name none
  | ['-'] => word
  | '-' :: cs => short cs
  | _ => word

end Argument

namespace Grammar

def option? (g : Grammar) (name : String) : Option OptionSpec :=
  g.options.find? (·.name = name)

/-- The letters that stand for options: more output, help and, outside of subcommands, the
version. -/
def readLetters (g : Grammar) : Arguments → List Char → Except Stop Arguments
  | a, [] => .ok a
  | a, 'v' :: cs => readLetters g a cs
  | _, 'h' :: _ => .error .help
  | a, 'V' :: _ => .error (if a.path.isEmpty then .version else .misuse)
  | _, _ :: _ => .error .misuse

/-- An option that stands on its own or has its value behind an equals sign. -/
def readOption (g : Grammar) (a : Arguments) (name : String) (value : Option String) :
    Except Stop Arguments :=
  match g.option? name, value with
  | some o, some value => if o.takesValue then a.addValue o value else .error .misuse
  | some o, none => if o.takesValue then .error .misuse else a.addFlag o
  | none, some _ => .error .misuse
  | none, none =>
    if name = "help" then .error .help
    else if name = "version" ∧ a.path = [] then .error .version
    else .error .misuse

/-- Whether an option waits for the next argument as its value. -/
def awaited? (g : Grammar) (name : String) (value : Option String) : Option OptionSpec :=
  if value.isSome then none else (g.option? name).filter (·.takesValue)

/-- What follows on a call for help, which may name subcommands. -/
def helpOn (g : Grammar) : List String → Stop
  | [] => .help
  | text :: texts =>
    match g.subcommands.lookup text with
    | some sub => helpOn sub texts
    | none => if text = "help" ∧ g.subcommands ≠ [] ∧ texts = [] then .help else .misuse

def readOperands (g : Grammar) (a : Arguments) (operands : List String) :
    Except Stop Arguments := do
  (← operands.foldlM (Arguments.addOperand g) a).complete g

def read (g : Grammar) (a : Arguments) : List String → Except Stop Arguments
  | [] => a.complete g
  | text :: texts =>
    match Argument.ofText text with
    | .escape => g.readOperands a texts
    | .short letters => do read g (← g.readLetters a letters) texts
    | .word =>
      match g.subcommands.lookup text with
      | some sub => read sub (a.enter text) texts
      | none =>
        if text = "help" ∧ g.subcommands ≠ [] then .error (g.helpOn texts)
        else do read g (← a.addOperand g text) texts
    | .long name value =>
      match g.awaited? name value with
      | none => do read g (← g.readOption a name value) texts
      | some o =>
        match texts with
        | [] => .error .misuse
        | next :: texts =>
          if Argument.ofText next = .word then do read g (← a.addValue o next) texts
          else .error .misuse

end Grammar

end Appraisal
