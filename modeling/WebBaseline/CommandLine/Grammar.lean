/-
  WebBaseline.CommandLine.Grammar

  How arguments are read. Switches have a long name and perhaps a letter, and
  some of them take a value; all other arguments are operands, or name a command
  whose own arguments follow.

    * `--name`, `--name value`, `--name=value`: a switch by its name;
    * `-abc`, `-f value`, `-fvalue`, `-f=value`: switches by their letters;
    * `--`: only operands follow.

  A value is settled only when the argument behind it is read, or when there is
  none. An argument that has no place is found before the value in front of it is
  settled, so of two mistakes the earlier one does not always count.
-/

namespace WebBaseline.CommandLine

/-! ## Why arguments lead to no call -/

/-- Why arguments lead to no call of the program. -/
inductive Stop where
  | helpAsked
  | versionAsked
  /-- There are no arguments at all. -/
  | noArguments
  /-- There are switches, but no command. -/
  | noCommand
  | unknownCommand
  /-- A switch or an operand that has no place here. -/
  | unknownArgument
  /-- An operand that has to be given is missing. -/
  | missingOperand
  /-- The value of a switch is missing, empty, or not among those allowed. -/
  | invalidValue
  /-- A value that cannot be read. -/
  | malformedValue
  /-- A switch that takes no value has one. -/
  | needlessValue
  /-- A switch that counts once is given again. -/
  | repeated
  deriving DecidableEq, Repr, Inhabited

namespace Stop

/-- Whether the user asked for it. -/
def isAnswer : Stop → Bool
  | helpAsked | versionAsked => true
  | _ => false

/-- The code with which the program ends. -/
def code (s : Stop) : Nat := if s.isAnswer then 0 else 2

end Stop

/-! ## Grammars -/

/-- What a switch does to a call that is being read. -/
inductive Action (α : Type) where
  | help
  | version
  /-- Takes no value. -/
  | flag (set : α → α)
  /-- Takes a value, once. -/
  | once (set : String → α → Except Stop α)
  /-- Takes a value, as often as it is given. -/
  | each (set : String → α → Except Stop α)

/-- A switch. -/
structure Switch (α : Type) where
  name : String
  letter : Option Char := none
  action : Action α

/-- Whether a switch takes a value. -/
def Switch.takesValue {α : Type} (w : Switch α) : Bool :=
  match w.action with
  | .once _ | .each _ => true
  | _ => false

/-- The operands of a command. -/
inductive Operands (α : Type) where
  | none
  /-- At most one. -/
  | optional (set : String → α → Except Stop α)
  /-- At least one. -/
  | many (set : String → α → Except Stop α)

/-- What arguments may be given. -/
structure Grammar (α : Type) where
  switches : List (Switch α)
  operands : Operands α := .none
  /-- The names after which the arguments of a command follow. -/
  commands : List String := []

namespace Grammar

variable {α : Type}

/-- The switch with a name. -/
def named? (g : Grammar α) (name : String) : Option (Switch α) :=
  g.switches.find? (fun w => w.name == name)

/-- The switch with a letter. -/
def lettered? (g : Grammar α) (letter : Char) : Option (Switch α) :=
  g.switches.find? (fun w => w.letter == some letter)

end Grammar

/-! ## Reading -/

/-- What has been read, but not settled. -/
inductive Unsettled (α : Type) where
  | nothing
  /-- A switch that takes a value, and the value once it is there. -/
  | switch (w : Switch α) (value : Option String)
  | operand (text : String)

/-- How far arguments have been read. -/
structure Reading (α : Type) where
  /-- The call so far. -/
  call : α
  /-- The names of the switches that were given. -/
  given : List String := []
  /-- How many operands were given. -/
  operands : Nat := 0
  unsettled : Unsettled α := .nothing

namespace Reading

variable {α : Type}

/-- Whether the next argument is the value of a switch, if it can be one. -/
def awaitsValue (r : Reading α) : Bool :=
  match r.unsettled with
  | .switch _ none => true
  | _ => false

/-- Takes a switch that may be given once. -/
def mark (r : Reading α) (w : Switch α) : Except Stop (Reading α) :=
  if r.given.contains w.name then .error .repeated else .ok { r with given := w.name :: r.given }

/-- Takes a switch with its value. -/
def take (r : Reading α) (w : Switch α) (value : String) : Except Stop (Reading α) :=
  match w.action with
  | .once set => do
    let r ← r.mark w
    return { r with call := ← set value r.call }
  | .each set => do
    return { r with call := ← set value r.call, given := w.name :: r.given }
  | _ => .error .needlessValue

/-- Takes an operand. -/
def takeOperand (g : Grammar α) (r : Reading α) (text : String) : Except Stop (Reading α) :=
  match g.operands with
  | .none => .error .unknownArgument
  | .optional set | .many set => do
    return { r with call := ← set text r.call }

/-- Settles what is not settled yet. -/
def settle (g : Grammar α) (r : Reading α) : Except Stop (Reading α) :=
  let settled := { r with unsettled := .nothing }
  match r.unsettled with
  | .nothing => .ok settled
  | .switch _ none => .error .invalidValue
  | .switch w (some value) => settled.take w value
  | .operand text => settled.takeOperand g text

/-- Takes a switch that has no value. -/
def takeBare (g : Grammar α) (r : Reading α) (w : Switch α) : Except Stop (Reading α) := do
  let r ← r.settle g
  match w.action with
  | .help => .error .helpAsked
  | .version => .error .versionAsked
  | .flag set => do
    let r ← r.mark w
    return { r with call := set r.call }
  | .once _ | .each _ => return { r with unsettled := .switch w none }

/-- Takes a switch with the value that is attached to it. -/
def takeAttached (g : Grammar α) (r : Reading α) (w : Switch α) (value : String) :
    Except Stop (Reading α) :=
  if w.takesValue then do (← r.settle g).take w value else .error .needlessValue

/-! ## One argument -/

/-- Reads a name with the value attached to it, if there is one. -/
def readName (g : Grammar α) (r : Reading α) (text : List Char) : Except Stop (Reading α) :=
  match g.named? (String.ofList (text.takeWhile (· ≠ '='))), text.dropWhile (· ≠ '=') with
  | none, _ => .error .unknownArgument
  | some w, [] => r.takeBare g w
  | some w, _ :: value => r.takeAttached g w (String.ofList value)

/-- Reads letters. What follows the letter of a switch that takes a value is that
    value. -/
def readLetters (g : Grammar α) (r : Reading α) : List Char → Except Stop (Reading α)
  | [] => .ok r
  | c :: rest =>
    match g.lettered? c with
    | none => .error .unknownArgument
    | some w =>
      if w.takesValue then
        match rest with
        | [] => r.takeBare g w
        | '=' :: value => r.takeAttached g w (String.ofList value)
        | value => r.takeAttached g w (String.ofList value)
      else do readLetters g (← r.takeBare g w) rest

/-- Why an operand has no place; `bare` tells whether it follows `--`. -/
def strayOperand (g : Grammar α) (bare : Bool) (text : String) : Stop :=
  if g.commands.isEmpty || (bare && g.commands.contains text) then .unknownArgument
  else .unknownCommand

/-- Reads an operand. -/
def readOperand (g : Grammar α) (r : Reading α) (bare : Bool) (text : String) :
    Except Stop (Reading α) :=
  let next : Except Stop (Reading α) := do
    let r ← r.settle g
    return { r with unsettled := .operand text, operands := r.operands + 1 }
  match g.operands with
  | .none => .error (strayOperand g bare text)
  | .optional _ => if r.operands = 0 then next else .error .unknownArgument
  | .many _ => next

/-- Reads what is neither a command nor `--`. -/
def readOne (g : Grammar α) (r : Reading α) (text : String) : Except Stop (Reading α) :=
  match text.toList, r.unsettled with
  | '-' :: '-' :: cs, _ => r.readName g cs
  | '-' :: c :: cs, _ => r.readLetters g (c :: cs)
  | _, .switch w none => .ok { r with unsettled := .switch w (some text) }
  | _, _ => r.readOperand g false text

/-- Reads what follows `--`. -/
def readBare (g : Grammar α) : Reading α → List String → Except Stop (Reading α)
  | r, [] => .ok r
  | r, text :: rest => do readBare g (← r.readOperand g true text) rest

end Reading

/-! ## All arguments -/

namespace Grammar

variable {α : Type}

/-- Reads arguments up to a command, if one comes; then also gives its name and
    the arguments behind it. The last value is left unsettled. -/
def read (g : Grammar α) :
    Reading α → List String → Except Stop (Reading α × Option (String × List String))
  | r, [] => .ok (r, none)
  | r, text :: rest =>
    if !r.awaitsValue && g.commands.contains text then .ok (r, some (text, rest))
    else if text = "--" then do return (← r.readBare g rest, none)
    else do g.read (← r.readOne g text) rest

/-- Settles the last value. -/
def finish (g : Grammar α) (r : Reading α) : Except Stop (Reading α) := do
  let r ← r.settle g
  match g.operands with
  | .many _ => if r.operands = 0 then .error .missingOperand else return r
  | _ => return r

end Grammar

end WebBaseline.CommandLine
