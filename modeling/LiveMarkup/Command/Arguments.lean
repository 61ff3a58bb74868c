import LiveMarkup.Text.Blank
import LiveMarkup.Text.Quoted
import LiveMarkup.Text.Word
/-! Arguments of commands: options by name, and what is left in its order. -/
namespace LiveMarkup.Command

inductive Kind where
  | flag
  | text
  | whole
  | choice (items : List String)
  deriving DecidableEq, Repr

structure OptionSpec where
  name : String
  kind : Kind
  deriving DecidableEq, Repr

inductive UsageError where
  | noSuchOption (name : String)
  | noSuchCommand (name : String)
  | noCommand
  | needsValue (option : String)
  | takesNoValue (option : String)
  | missing (argument : String)
  | extra (arguments : List String)
  | badNumber (text : String)
  | badChoice (text : String) (items : List String)
  deriving DecidableEq, Repr

namespace UsageError

def message : UsageError → String
  | noSuchOption name => "No such option " ++ Text.quoted name ++ "."
  | noSuchCommand name => "No such command " ++ Text.quoted name ++ "."
  | noCommand => "Missing command."
  | needsValue option => "Option " ++ Text.quoted option ++ " requires an argument."
  | takesNoValue option => "Option " ++ Text.quoted option ++ " does not take a value."
  | missing _ => ""
  | extra [a] => "Got unexpected extra argument (" ++ a ++ ")"
  | extra arguments => "Got unexpected extra arguments (" ++ " ".intercalate arguments ++ ")"
  | badNumber text => Text.quoted text ++ " is not a valid integer."
  | badChoice text items =>
    Text.quoted text ++ " is not one of " ++ ", ".intercalate (items.map Text.quoted) ++ "."

def typeName : UsageError → String
  | noSuchOption _ => "NoSuchOption"
  | noSuchCommand _ => "NoSuchCommand"
  | noCommand | extra _ => "UsageError"
  | needsValue _ | takesNoValue _ => "BadOptionUsage"
  | missing _ => "MissingParameter"
  | badNumber _ | badChoice .. => "BadParameter"

end UsageError

structure Given where
  options : List (OptionSpec × String) := []
  rest : List String := []
  deriving DecidableEq, Repr

namespace Given

def addOption (spec : OptionSpec) (value : String) (g : Given) : Given :=
  { g with options := (spec, value) :: g.options }

def addRest (argument : String) (g : Given) : Given := { g with rest := argument :: g.rest }

end Given

def isOption (argument : String) : Bool :=
  match argument.toList with
  | '-' :: _ :: _ => true
  | _ => false

def namedOption (specs : List OptionSpec) (argument : String) :
    Except UsageError (OptionSpec × Option String) :=
  let s := argument.toList
  let name := String.ofList (s.takeWhile (· != '='))
  let value? := if s.contains '=' then some (String.ofList ((s.dropWhile (· != '=')).drop 1)) else none
  match specs.find? (·.name == name) with
  | some spec => .ok (spec, value?)
  | none => .error (.noSuchOption (if ['-', '-'].isPrefixOf s then name else String.ofList (s.take 2)))

def scan (specs : List OptionSpec) (mixed : Bool) : List String → Except UsageError Given
  | [] => .ok {}
  | argument :: rest =>
    if argument == "--" then .ok { rest }
    else if !isOption argument then
      if mixed then (scan specs mixed rest).map (·.addRest argument) else .ok { rest := argument :: rest }
    else
      match namedOption specs argument with
      | .error e => .error e
      | .ok (spec, value?) =>
        if spec.kind = .flag then
          match value? with
          | some _ => .error (.takesNoValue spec.name)
          | none => (scan specs mixed rest).map (·.addOption spec "")
        else
          match value?, rest with
          | some value, rest => (scan specs mixed rest).map (·.addOption spec value)
          | none, value :: rest => (scan specs mixed rest).map (·.addOption spec value)
          | none, [] => .error (.needsValue spec.name)

def digitLimit : Nat := 4300

def plainDigits? : List Char → Option (List Char)
  | [] => none
  | [c] => if Text.isDigit c then some [c] else none
  | c :: '_' :: rest => if Text.isDigit c then (plainDigits? rest).map (c :: ·) else none
  | c :: rest => if Text.isDigit c then (plainDigits? rest).map (c :: ·) else none

def readNumber? (s : List Char) : Option Int :=
  let s := Text.trimEnd (Text.trimStart s)
  let (negative, s) :=
    match s with
    | '-' :: rest => (true, rest)
    | '+' :: rest => (false, rest)
    | s => (false, s)
  match plainDigits? s with
  | none => none
  | some digits =>
    if digitLimit < digits.length then none
    else some (if negative then -(Text.readDigits digits : Int) else Text.readDigits digits)

inductive Setting where
  | on
  | text (s : String)
  | whole (n : Int)
  deriving DecidableEq, Repr

def readSetting (kind : Kind) (value : String) : Except UsageError Setting :=
  match kind with
  | .flag => .ok .on
  | .text => .ok (.text value)
  | .whole =>
    match readNumber? value.toList with
    | some n => .ok (.whole n)
    | none => .error (.badNumber value)
  | .choice items => if items.contains value then .ok (.text value) else .error (.badChoice value items)

abbrev Settings := List (String × Setting)

def readSettings : List (OptionSpec × String) → Except UsageError Settings
  | [] => .ok []
  | (spec, value) :: rest => do
    let value := ((rest.reverse.find? (·.1 == spec)).map (·.2)).getD value
    let setting ← readSetting spec.kind value
    return (spec.name, setting) :: (← readSettings rest)

namespace Settings

def isOn (s : Settings) (name : String) : Bool := s.any (·.1 == name)

def text (s : Settings) (name default : String) : String :=
  match s.lookup name with
  | some (.text value) => value
  | _ => default

def whole (s : Settings) (name : String) (default : Int) : Int :=
  match s.lookup name with
  | some (.whole n) => n
  | _ => default

end Settings

structure ArgumentSpec where
  name : String
  required : Bool
  deriving DecidableEq, Repr

def checkRest (specs : List ArgumentSpec) (rest : List String) : Except UsageError Unit :=
  match (specs.drop rest.length).find? (·.required) with
  | some spec => .error (.missing spec.name)
  | none => if specs.length < rest.length then .error (.extra (rest.drop specs.length)) else .ok ()

end LiveMarkup.Command
