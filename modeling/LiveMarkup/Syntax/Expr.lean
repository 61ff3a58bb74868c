import LiveMarkup.Number.Binary64
/-! Expressions of the render language. A call keeps the line it starts on, since template calls are
told apart by it. -/
namespace LiveMarkup.Syntax

inductive UnaryOp where
  | negation
  | minus
  | plus
  | complement
  deriving DecidableEq, Repr

inductive BinaryOp where
  | add
  | sub
  | mul
  | matMul
  | div
  | floorDiv
  | mod
  | pow
  | shiftLeft
  | shiftRight
  | bitOr
  | bitXor
  | bitAnd
  deriving DecidableEq, Repr

inductive BooleanOp where
  | and
  | or
  deriving DecidableEq, Repr

inductive CompareOp where
  | eq
  | notEq
  | lt
  | le
  | gt
  | ge
  | same
  | notSame
  | member
  | notMember
  deriving DecidableEq, Repr

inductive Conversion where
  | shown
  | quoted
  | ascii
  deriving DecidableEq, Repr

inductive Constant where
  | null
  | truth (value : Bool)
  | whole (value : Nat)
  | real (value : Binary64)
  | imaginary (value : Binary64)
  | text (value : String) (marked : Bool)
  | bytes (value : List UInt8)
  | ellipsis
  deriving DecidableEq, Repr

mutual

inductive Expr where
  | constant (value : Constant)
  | name (id : String)
  | field (base : Expr) (name : String)
  | subscript (base index : Expr)
  | slice (lower upper step : Option Expr)
  | starred (value : Expr)
  | call (line : Nat) (func : Expr) (args : List Expr) (keywords : List Keyword)
  | unary (op : UnaryOp) (operand : Expr)
  | binary (left : Expr) (op : BinaryOp) (right : Expr)
  | boolean (op : BooleanOp) (operands : List Expr)
  | compare (left : Expr) (rest : List Comparison)
  | conditional (test body orelse : Expr)
  | lambda (params : LambdaParams) (body : Expr)
  | list (items : List Expr)
  | tuple (items : List Expr)
  | set (items : List Expr)
  | dict (entries : List Entry)
  | listComp (item : Expr) (clauses : List Clause)
  | setComp (item : Expr) (clauses : List Clause)
  | generator (item : Expr) (clauses : List Clause)
  | dictComp (key value : Expr) (clauses : List Clause)
  | joined (parts : List Expr)
  | formatted (value : Expr) (conversion : Option Conversion) (spec : Option Expr)
  | assigned (target : String) (value : Expr)
  | await (value : Expr)
  | yield (value : Option Expr)
  | yieldFrom (value : Expr)

inductive Keyword where
  | named (name : String) (value : Expr)
  | spread (value : Expr)

inductive Comparison where
  | mk (op : CompareOp) (right : Expr)

inductive Entry where
  | pair (key value : Expr)
  | spread (value : Expr)

inductive Clause where
  | mk (isAsync : Bool) (target iter : Expr) (conditions : List Expr)

inductive LambdaParams where
  | mk (positionalOnly positional : List String) (variadic : Option String)
      (keywordOnly : List String) (keywordDefaults : List (Option Expr))
      (keywordVariadic : Option String) (defaults : List Expr)

end

namespace LambdaParams

def positionalOnly : LambdaParams → List String
  | .mk posonly _ _ _ _ _ _ => posonly

def positional : LambdaParams → List String
  | .mk _ args _ _ _ _ _ => args

def names (p : LambdaParams) : List String := p.positionalOnly ++ p.positional

def isPlain : LambdaParams → Bool
  | .mk _ _ variadic keywordOnly _ keywordVariadic defaults =>
    variadic.isNone && keywordVariadic.isNone && keywordOnly.isEmpty && defaults.isEmpty

end LambdaParams

namespace Expr

def kind : Expr → String
  | constant _ => "Constant"
  | name _ => "Name"
  | field _ _ => "Attribute"
  | subscript _ _ => "Subscript"
  | slice _ _ _ => "Slice"
  | starred _ => "Starred"
  | call _ _ _ _ => "Call"
  | unary _ _ => "UnaryOp"
  | binary _ _ _ => "BinOp"
  | boolean _ _ => "BoolOp"
  | compare _ _ => "Compare"
  | conditional _ _ _ => "IfExp"
  | lambda _ _ => "Lambda"
  | list _ => "List"
  | tuple _ => "Tuple"
  | set _ => "Set"
  | dict _ => "Dict"
  | listComp _ _ => "ListComp"
  | setComp _ _ => "SetComp"
  | generator _ _ => "GeneratorExp"
  | dictComp _ _ _ => "DictComp"
  | joined _ => "JoinedStr"
  | formatted _ _ _ => "FormattedValue"
  | assigned _ _ => "NamedExpr"
  | await _ => "Await"
  | yield _ => "Yield"
  | yieldFrom _ => "YieldFrom"

def isCompound : Expr → Bool
  | binary _ _ _ | boolean _ _ | compare _ _ | conditional _ _ _ | lambda _ _ | assigned _ _
  | unary _ _ => true
  | _ => false

def text? : Expr → Option String
  | constant (.text s _) => some s
  | _ => none

def isNull : Expr → Bool
  | constant .null => true
  | _ => false

def isTemplateCall (tag : String) : Expr → Bool
  | call _ (name id) _ _ => id == tag
  | call _ (field _ id) _ _ => id == tag
  | _ => false

end Expr

end LiveMarkup.Syntax
