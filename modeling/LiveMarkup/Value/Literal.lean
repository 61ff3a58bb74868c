import LiveMarkup.Number.Shortest
import LiveMarkup.Text.Json
import LiveMarkup.Value.Basic
/-! Values as literals of the client's language. Tuples become lists and markup becomes text. -/
namespace LiveMarkup.Value

inductive LiteralError where
  | key (typeName : String)
  | value (typeName : String)
  | digits
  deriving DecidableEq, Repr

namespace LiteralError

def message : LiteralError → String
  | key typeName => "keys must be str, int, float, bool or None, not " ++ typeName
  | value typeName => "Object of type " ++ typeName ++ " is not JSON serializable"
  | digits =>
    "Exceeds the limit (4300 digits) for integer string conversion; " ++
      "use sys.set_int_max_str_digits() to increase the limit"

end LiteralError

def encodeText (s : String) : String := String.ofList (Text.Json.encode s.toList)

def realLiteral : Binary64 → String
  | .undefined => "NaN"
  | .infinite negative => if negative then "-Infinity" else "Infinity"
  | x => x.write

def digitLimit : Nat := 4300

def isShort (n : Int) : Bool := (Nat.toDigits 10 n.natAbs).length ≤ digitLimit

def wholeLiteral (n : Int) : Except LiteralError String :=
  if isShort n then .ok (toString n) else .error .digits

def keyText : Value → Except LiteralError String
  | none => .ok "null"
  | truth b => .ok (if b then "true" else "false")
  | whole n => wholeLiteral n
  | real x => .ok (realLiteral x)
  | text s => .ok s
  | markup s => .ok s
  | rendered s .. => .ok s
  | v => .error (.key v.typeName)

mutual

def literal : Value → Except LiteralError String
  | none => .ok "null"
  | truth b => .ok (if b then "true" else "false")
  | whole n => wholeLiteral n
  | real x => .ok (realLiteral x)
  | text s => .ok (encodeText s)
  | markup s => .ok (encodeText s)
  | rendered s .. => .ok (encodeText s)
  | list items => do return "[" ++ ", ".intercalate (← literals items) ++ "]"
  | tuple items => do return "[" ++ ", ".intercalate (← literals items) ++ "]"
  | dict entries => do return "\x7b" ++ ", ".intercalate (← entryLiterals entries) ++ "\x7d"
  | v => .error (.value v.typeName)

def literals : List Value → Except LiteralError (List String)
  | [] => .ok []
  | v :: rest => do
    let first ← literal v
    return first :: (← literals rest)

def entryLiterals : List (Value × Value) → Except LiteralError (List String)
  | [] => .ok []
  | (k, v) :: rest => do
    let key ← keyText k
    let value ← literal v
    return (encodeText key ++ ": " ++ value) :: (← entryLiterals rest)

end

end LiveMarkup.Value
