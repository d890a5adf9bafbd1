import CilGraph.Text.Numeral

namespace CilGraph
namespace CommandLine

/-!
# Arguments

Arguments are options and operands in any order.  An option has a long name,
written `--name`, and may have a letter, written `-n`.  Letters can be joined
as in `-vn`.  The value of an option is the next argument, or stands behind an
equals sign, or directly behind the letter; as an argument of its own it cannot
look like an option.  Everything behind `--` is an operand.

Reading goes from left to right and ends at the first misuse, or at a request
for help, whichever comes first.
-/

/-- What the value of an option is. -/
inductive ValueForm where
  /-- The option has no value: it is there or not. -/
  | absent
  | text
  /-- A path, which is not empty. -/
  | path
  /-- A 32-bit number in decimal, signed or not. -/
  | number
deriving DecidableEq, Repr

/-- An option that a command understands. -/
structure OptionForm where
  name : String
  letter : Option Char
  value : ValueForm
  /-- Whether the option may be given more than once. -/
  repeats : Bool := false
deriving DecidableEq, Repr

/-- What is wrong with a list of arguments. -/
inductive Misuse where
  | noCommand
  | unknownCommand (name : String)
  | unknownOption (text : String)
  | repeatedOption (name : String)
  | missingValue (name : String)
  | unexpectedValue (name : String)
  | invalidValue (name value : String)
  | missingOption (name : String)
  | missingOperand (name : String)
  | unexpectedOperand (text : String)
  | emptyOperand
deriving DecidableEq, Repr

/-- The sentence that explains a misuse. -/
def Misuse.message : Misuse -> String
  | .noCommand => "a command is required"
  | .unknownCommand name => s!"unrecognized command '{name}'"
  | .unknownOption text => s!"unexpected option '{text}'"
  | .repeatedOption name => s!"option '--{name}' cannot be given twice"
  | .missingValue name => s!"option '--{name}' requires a value"
  | .unexpectedValue name => s!"option '--{name}' takes no value"
  | .invalidValue name value => s!"invalid value '{value}' for '{name}'"
  | .missingOption name => s!"option '--{name}' is required"
  | .missingOperand name => s!"{name} is required"
  | .unexpectedOperand text => s!"unexpected argument '{text}'"
  | .emptyOperand => "a path cannot be empty"

/-- Why reading ends before the last argument. -/
inductive Halt where
  | misuse (fault : Misuse)
  | help
  | version
deriving DecidableEq, Repr

/-! ## Single arguments -/

/-- The form of an argument. -/
inductive Argument where
  /-- The mark behind which all arguments are operands. -/
  | stop
  | long (name : String) (value : Option String)
  | letters (cluster : List Char)
  | operand (text : String)
deriving DecidableEq, Repr

/-- Tell the form of an argument.  A single dash is an operand. -/
def Argument.ofText (text : String) : Argument :=
  match text.toList with
  | ['-', '-'] => .stop
  | '-' :: '-' :: rest =>
    let name := String.ofList (rest.takeWhile (· != '='))
    match rest.dropWhile (· != '=') with
    | [] => .long name none
    | _ :: value => .long name (some (String.ofList value))
  | '-' :: first :: rest => .letters (first :: rest)
  | _ => .operand text

/-- Read a number with an optional sign.  Of the numbers with a minus sign only
zero is one of the words. -/
def readNumber? (text : String) : Option UInt32 :=
  match text.toList with
  | '-' :: '+' :: _ => none
  | '-' :: digits => (Text.readWord 10 digits).toOption.filter (· == 0)
  | digits => (Text.readWord 10 digits).toOption

/-- Whether a text is a value of the given form. -/
def ValueForm.admits : ValueForm -> String -> Bool
  | .absent, _ => true
  | .text, _ => true
  | .path, value => !value.isEmpty
  | .number, value => (readNumber? value).isSome

/-! ## All arguments of a command -/

/-- What has been read: the options with their values and the operands, in
order. -/
structure Matches where
  options : List (String × String) := []
  operands : List String := []
deriving DecidableEq, Repr

namespace Matches

/-- Whether an option was given. -/
def has (found : Matches) (name : String) : Bool :=
  found.options.any (fun option => option.1 == name)

/-- The first value of an option. -/
def value? (found : Matches) (name : String) : Option String :=
  found.options.lookup name

/-- All values of an option. -/
def values (found : Matches) (name : String) : List String :=
  (found.options.filter (fun option => option.1 == name)).map Prod.snd

/-- Take in an option. -/
def add (found : Matches) (form : OptionForm) (value : String) : Except Halt Matches :=
  if form.name = "help" then .error .help
  else if form.name = "version" then .error .version
  else if !form.value.admits value then
    .error (.misuse (.invalidValue form.name value))
  else if found.has form.name && !form.repeats then
    .error (.misuse (.repeatedOption form.name))
  else .ok { found with options := found.options ++ [(form.name, value)] }

/-- Take in an operand, of which a command has one.  It is a path, which is not
empty. -/
def addOperand (found : Matches) (text : String) : Except Halt Matches :=
  if !found.operands.isEmpty then .error (.misuse (.unexpectedOperand text))
  else if text.isEmpty then .error (.misuse .emptyOperand)
  else .ok { found with operands := [text] }

/-- Take in several operands. -/
def addOperands (found : Matches) : List String -> Except Halt Matches
  | [] => .ok found
  | text :: rest => do
    let found ← found.addOperand text
    found.addOperands rest

/-- Take in a cluster of letters.  If the last of them needs a value that does
not follow directly, its option is returned. -/
def addLetters (forms : List OptionForm) :
    Matches -> List Char -> Except Halt (Matches × Option OptionForm)
  | found, [] => .ok (found, none)
  | found, letter :: rest =>
    match forms.find? (fun form => form.letter == some letter) with
    | none => .error (.misuse (.unknownOption ("-" ++ letter.toString)))
    | some form =>
      if form.value = .absent then do
        let found ← found.add form ""
        addLetters forms found rest
      else
        match rest with
        | [] => .ok (found, some form)
        | '=' :: value => do
          let found ← found.add form (String.ofList value)
          .ok (found, none)
        | value => do
          let found ← found.add form (String.ofList value)
          .ok (found, none)

/-- Take in an option by its long name. -/
def addLong (forms : List OptionForm) (found : Matches) (name : String) (value : Option String) :
    Except Halt (Matches × Option OptionForm) :=
  match forms.find? (fun form => form.name == name) with
  | none => .error (.misuse (.unknownOption ("--" ++ name)))
  | some form =>
    match form.value, value with
    | .absent, some _ => .error (.misuse (.unexpectedValue form.name))
    | .absent, none => do
      let found ← found.add form ""
      .ok (found, none)
    | _, some value => do
      let found ← found.add form value
      .ok (found, none)
    | _, none => .ok (found, some form)

/-- Read the arguments of a command.  `pending` is an option whose value is to
come next. -/
def read (forms : List OptionForm) :
    Matches -> Option OptionForm -> List String -> Except Halt Matches
  | found, none, [] => .ok found
  | _, some form, [] => .error (.misuse (.missingValue form.name))
  | found, some form, argument :: rest =>
    match Argument.ofText argument with
    | .operand value => do
      let found ← found.add form value
      read forms found none rest
    | _ => .error (.misuse (.missingValue form.name))
  | found, none, argument :: rest =>
    match Argument.ofText argument with
    | .stop => found.addOperands rest
    | .operand text => do
      let found ← found.addOperand text
      read forms found none rest
    | .long name value => do
      let (found, pending) ← addLong forms found name value
      read forms found pending rest
    | .letters cluster => do
      let (found, pending) ← addLetters forms found cluster
      read forms found pending rest

end Matches
end CommandLine
end CilGraph
