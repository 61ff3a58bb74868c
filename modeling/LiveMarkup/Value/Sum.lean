import LiveMarkup.Value.Escaped
/-! Sums of values: numbers are added, sequences joined. Text that joins markup is escaped. -/
namespace LiveMarkup.Value

inductive SumError where
  | unsupported (left right : String)
  | mismatch (left right : String)
  | mismatchedBytes (right : String)
  deriving DecidableEq, Repr

namespace SumError

def message : SumError → String
  | unsupported left right =>
    "unsupported operand type(s) for +: '" ++ left ++ "' and '" ++ right ++ "'"
  | mismatch left right =>
    "can only concatenate " ++ left ++ " (not \"" ++ right ++ "\") to " ++ left
  | mismatchedBytes right => "can't concat " ++ right ++ " to bytes"

end SumError

def asMarkup? : Value → Option String
  | text s => some (Markup.escapeQuotes s)
  | v => v.safeHtml?

def whole? : Value → Option Int
  | truth b => some (if b then 1 else 0)
  | whole n => some n
  | _ => Option.none

def real? : Value → Option Binary64
  | real x => some x
  | v => v.whole?.map .ofInt

def markupLike (v : Value) (s : String) : Value :=
  match v with
  | rendered .. => rendered s s Option.none
  | _ => markup s

def isMarkup : Value → Bool
  | markup _ => true
  | rendered .. => true
  | _ => false

def addPlain (v w : Value) : Except SumError Value :=
  match v, w with
  | text s, text t => .ok (text (s ++ t))
  | list items, list others => .ok (list (items ++ others))
  | tuple items, tuple others => .ok (tuple (items ++ others))
  | bytes data, bytes more => .ok (bytes (data ++ more))
  | text _, _ => .error (.mismatch v.typeName w.typeName)
  | list _, _ => .error (.mismatch v.typeName w.typeName)
  | tuple _, _ => .error (.mismatch v.typeName w.typeName)
  | bytes _, _ => .error (.mismatchedBytes w.typeName)
  | _, _ =>
    match v.whole?, w.whole? with
    | some n, some m => .ok (whole (n + m))
    | _, _ =>
      match v.real?, w.real? with
      | some x, some y => .ok (real (x.add y))
      | _, _ => .error (.unsupported v.typeName w.typeName)

def add (v w : Value) : Except SumError Value :=
  if v.isMarkup || w.isMarkup then
    match v.asMarkup?, w.asMarkup? with
    | some s, some t => .ok (markupLike (if v.isMarkup then v else w) (s ++ t))
    | _, _ => addPlain v w
  else addPlain v w

end LiveMarkup.Value
