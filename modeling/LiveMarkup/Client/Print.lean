import LiveMarkup.Client.Code
import LiveMarkup.Client.Scope
import LiveMarkup.Number.Shortest
import LiveMarkup.Syntax.Expr
import LiveMarkup.Text.Json
import LiveMarkup.Text.Name
/-! Expressions printed as JavaScript. Only what reads naturally inside a template slot has a form;
a field of the component is printed as `this.field`, and the receiver alone as `this`. -/
namespace LiveMarkup.Client
open Syntax

inductive Untranslatable where
  | expression (kind : String)
  | constant (value : Constant)
  | operator
  | keywordArguments
  | assignmentArity
  | assignmentName
  | sliceStep
  | formatSpec
  | lambdaParameters
  | comprehensionShape
  | comprehensionTarget
  deriving DecidableEq, Repr

def constantText : Constant → String
  | .imaginary x => x.writeWith "" ++ "j"
  | .bytes b => String.ofList (Text.Quoted.encodeBytes b)
  | .ellipsis => "Ellipsis"
  | .null => "None"
  | .truth b => if b then "True" else "False"
  | .whole n => toString n
  | .real x => x.write
  | .text s _ => Text.quoted s

namespace Untranslatable

def message : Untranslatable → String
  | expression kind => "Unsupported expression: " ++ kind
  | constant value => "Unsupported constant: " ++ constantText value
  | operator => "Unsupported operator: MatMult"
  | keywordArguments => "Keyword arguments are not supported"
  | assignmentArity => "setattr() takes exactly three arguments"
  | assignmentName => "setattr() needs a literal attribute name to be replayed"
  | sliceStep => "Slice steps are not supported"
  | formatSpec => "Format specs in f-strings are not supported"
  | lambdaParameters => "Lambdas may only take plain positional parameters"
  | comprehensionShape => "Only single, synchronous comprehensions are supported"
  | comprehensionTarget => "Unsupported comprehension target"

end Untranslatable

abbrev Coded := Except Untranslatable Code

def unaryText : UnaryOp → String
  | .negation => "!"
  | .minus => "-"
  | .plus => "+"
  | .complement => "~"

def binaryText? : BinaryOp → Option String
  | .add => some "+"
  | .sub => some "-"
  | .mul => some "*"
  | .div => some "/"
  | .mod => some "%"
  | .pow => some "**"
  | .bitAnd => some "&"
  | .bitOr => some "|"
  | .bitXor => some "^"
  | .shiftLeft => some "<<"
  | .shiftRight => some ">>"
  | .matMul | .floorDiv => none

def booleanText : BooleanOp → String
  | .and => " && "
  | .or => " || "

def compareText : CompareOp → String
  | .eq | .same | .member => "==="
  | .notEq | .notSame | .notMember => "!=="
  | .lt => "<"
  | .le => "<="
  | .gt => ">"
  | .ge => ">="

def function? (name : String) : Option String :=
  match name with
  | "abs" => some "Math.abs"
  | "min" => some "Math.min"
  | "max" => some "Math.max"
  | "round" => some "Math.round"
  | "print" => some "console.log"
  | "str" => some "String"
  | "int" => some "parseInt"
  | "float" => some "parseFloat"
  | "bool" => some "Boolean"
  | _ => none

def method (name : String) : String :=
  match name with
  | "append" => "push"
  | "upper" => "toUpperCase"
  | "lower" => "toLowerCase"
  | "strip" => "trim"
  | "lstrip" => "trimStart"
  | "rstrip" => "trimEnd"
  | "startswith" => "startsWith"
  | "endswith" => "endsWith"
  | _ => name

def constantCode : Constant → Coded
  | .null => .ok "null"
  | .truth b => .ok (if b then "true" else "false" : String)
  | .text s _ => .ok (Text.jsString s)
  | .whole n => .ok (toString n)
  | .real (.infinite negative) => .ok (if negative then "-Infinity" else "Infinity" : String)
  | .real .undefined => .ok "NaN"
  | .real x => .ok x.write
  | c => .error (.constant c)

def spelled (id : String) : String := if id == "this" then "this_" else id

def nameCode (s : Scope) (id : String) : Code :=
  if s.isReceiver id then .component else .variable id (spelled id)

/-- The characters of a template literal that would otherwise end it, open a substitution or close
the script. Each replacement works on the result of the ones before. -/
def escapeTemplate (text : List Char) : List Char :=
  Text.Json.guardClosing (guardSubstitution (text.flatMap escapeChar))
where
  escapeChar (c : Char) : List Char :=
    if c == '\\' then ['\\', '\\'] else if c == '\x60' then ['\\', '\x60'] else [c]
  guardSubstitution : List Char → List Char
    | '$' :: '\x7b' :: rest => '\\' :: '$' :: '\x7b' :: guardSubstitution rest
    | c :: rest => c :: guardSubstitution rest
    | [] => []

def wrapped (e : Expr) (c : Code) : Code :=
  if e.isCompound then c.group else c

def arrowBody (body : Expr) (c : Code) : Code :=
  match body with
  | .dict _ => c.group
  | _ => c

def isComponent (s : Scope) : Expr → Bool
  | .name id => s.isReceiver id
  | _ => false

def memberCode (s : Scope) (object : Expr) (c : Code) (name shown : String) : Code :=
  if isComponent s object then .access name shown else wrapped object c ++ ("." ++ shown)

def comparison (op : CompareOp) (left right : Expr) (l r : Coded) : Coded := do
  match op with
  | .member | .notMember =>
    let r ← r
    let l ← l
    let check := wrapped right r ++ ".includes(" ++ l ++ ")"
    return if op = .notMember then "!" ++ check else check
  | .same | .notSame =>
    let loose := if op = .notSame then " != null" else " == null"
    if right.isNull then return wrapped left (← l) ++ loose
    if left.isNull then return wrapped right (← r) ++ loose
    let l ← l
    return wrapped left l ++ (" " ++ compareText op ++ " ") ++ wrapped right (← r)
  | _ =>
    let l ← l
    return wrapped left l ++ (" " ++ compareText op ++ " ") ++ wrapped right (← r)

def comprehensionTarget : Expr → Except Untranslatable (Bool × List String)
  | .name id => .ok (false, [id])
  | .tuple items =>
    match items.mapM fun | .name id => some id | _ => none with
    | some names => .ok (true, names)
    | none => .error .comprehensionTarget
  | _ => .error .comprehensionTarget

def countsFromEnd : Expr → Bool
  | .unary .minus (.constant _) => true
  | _ => false

def callCode (s : Scope) (func : Expr) (args : List Expr) (codes : List Code) (base : Coded) :
    Coded := do
  match func with
  | .name id =>
    if id == s.tag then return .variable id "html" ++ .arguments codes
    if id == "setattr" then
      match args, codes with
      | [target, field, _], [object, _, value] =>
        match field.text? with
        | some name =>
          if Text.isName name.toList then
            return .variable id "" ++ memberCode s target object name name ++ " = " ++ value
          else throw .assignmentName
        | none => throw .assignmentName
      | _, _ => throw .assignmentArity
    if id == "len" then
      match args, codes with
      | [arg], [c] => return .variable id "" ++ wrapped arg c ++ ".length"
      | _, _ => pure ()
    match function? id with
    | some f => return .variable id f ++ .arguments codes
    | none => return (← base) ++ .arguments codes
  | .field object field =>
    if field == s.tag then return "html" ++ .arguments codes
    if field == "join" then
      match args, codes with
      | [arg], [c] => return wrapped arg c ++ ".join" ++ (← base).group
      | _, _ => pure ()
    return memberCode s object (← base) field (method field) ++ .arguments codes
  | _ => return wrapped func (← base) ++ .arguments codes

mutual

def code (s : Scope) : Expr → Coded
  | .constant c => constantCode c
  | .name id => .ok (nameCode s id)
  | .field base name => do return memberCode s base (← code s base) name name
  | .starred value => do return "..." ++ wrapped value (← code s value)
  | .call _ (.field object name) args keywords => do
    if !keywords.isEmpty then throw .keywordArguments
    let codes ← codeAll s args
    callCode s (.field object name) args codes (code s object)
  | .call _ func args keywords => do
    if !keywords.isEmpty then throw .keywordArguments
    let codes ← codeAll s args
    callCode s func args codes (code s func)
  | .binary left op right => do
    let l := wrapped left (← code s left)
    let r := wrapped right (← code s right)
    match op with
    | .floorDiv => return "Math.floor(" ++ l ++ " / " ++ r ++ ")"
    | _ =>
      match binaryText? op with
      | some text => return l ++ (" " ++ text ++ " ") ++ r
      | none => throw .operator
  | .unary op operand => do return unaryText op ++ wrapped operand (← code s operand)
  | .boolean op operands => do
    let codes ← codeOperands s operands
    return .separated (booleanText op) codes
  | .compare left rest => do
    match ← codeChain s left (code s left) rest with
    | [part] => return part
    | parts => return .separated " && " (parts.map .group)
  | .conditional test body orelse => do
    let t := wrapped test (← code s test)
    let b := wrapped body (← code s body)
    let o := wrapped orelse (← code s orelse)
    return t ++ " ? " ++ b ++ " : " ++ o
  | .subscript base (.slice lower upper step) => do
    let value := wrapped base (← code s base)
    if step.isSome then throw .sliceStep
    let low ← codeBound s lower
    match upper with
    | some e => return value ++ ".slice(" ++ low ++ ", " ++ (← code s e) ++ ")"
    | none => return value ++ ".slice(" ++ low ++ ")"
  | .subscript base index => do
    let value := wrapped base (← code s base)
    let i ← code s index
    return if countsFromEnd index then value ++ ".at(" ++ i ++ ")" else value ++ "[" ++ i ++ "]"
  | .list items => do return "[" ++ .separated ", " (← codeAll s items) ++ "]"
  | .tuple items => do return "[" ++ .separated ", " (← codeAll s items) ++ "]"
  | .dict entries => do return "\x7b" ++ .separated ", " (← codeEntries s entries) ++ "\x7d"
  | .joined parts => do return "\x60" ++ .concat (← codeParts s parts) ++ "\x60"
  | .lambda params body => do
    if !params.isPlain then throw .lambdaParameters
    let c ← code (s.bind params.names) body
    return .arrow params.names false (arrowBody body c)
  | .listComp item clauses => codeComprehension s (fun inner => code inner item) clauses
  | .generator item clauses => codeComprehension s (fun inner => code inner item) clauses
  | .assigned target value => do return nameCode s target ++ " = " ++ (← code s value)
  | e => .error (.expression e.kind)

def codeAll (s : Scope) : List Expr → Except Untranslatable (List Code)
  | [] => .ok []
  | e :: rest => do
    let c ← code s e
    return c :: (← codeAll s rest)

def codeBound (s : Scope) : Option Expr → Coded
  | some e => code s e
  | none => .ok "0"

def codeOperands (s : Scope) : List Expr → Except Untranslatable (List Code)
  | [] => .ok []
  | e :: rest => do
    let c ← code s e
    return wrapped e c :: (← codeOperands s rest)

def codeChain (s : Scope) (left : Expr) (l : Coded) :
    List Comparison → Except Untranslatable (List Code)
  | [] => .ok []
  | .mk op right :: rest => do
    let r := code s right
    let part ← comparison op left right l r
    return part :: (← codeChain s right r rest)

def codeEntries (s : Scope) : List Entry → Except Untranslatable (List Code)
  | [] => .ok []
  | .spread value :: rest => do
    let c ← code s value
    return ("..." ++ wrapped value c) :: (← codeEntries s rest)
  | .pair key value :: rest => do
    let k ← code s key
    let v ← code s value
    let k := if key.text?.isSome then k else "[" ++ k ++ "]"
    return (k ++ ": " ++ v) :: (← codeEntries s rest)

def codeParts (s : Scope) : List Expr → Except Untranslatable (List Code)
  | [] => .ok []
  | .constant (.text t _) :: rest => do
    return String.ofList (escapeTemplate t.toList) :: (← codeParts s rest)
  | .formatted value _ spec :: rest => do
    if spec.isSome then throw .formatSpec
    let c ← code s value
    return ("$\x7b" ++ c ++ "\x7d") :: (← codeParts s rest)
  | e :: _ => .error (.expression e.kind)

def codeComprehension (s : Scope) (item : Scope → Coded) : List Clause → Coded
  | [.mk false target iter conditions] => do
    let chain := wrapped iter (← code s iter)
    let (listed, names) ← comprehensionTarget target
    let inner := s.bind names
    let filters ← codeAll inner conditions
    let result ← item inner
    return chain ++ .concat (filters.map fun f => ".filter(" ++ .arrow names listed f ++ ")") ++
      ".map(" ++ .arrow names listed result ++ ")"
  | _ => .error .comprehensionShape

end

def bodyCode (s : Scope) (params : LambdaParams) (body : Expr) : Coded := do
  if !params.isPlain then throw .lambdaParameters
  let inner := s.bind params.names
  match body with
  | .tuple items => return .separated "; " (← codeAll inner items)
  | _ => code inner body

abbrev Printed := Except Untranslatable String

def print (s : Scope) (e : Expr) : Printed := (code s e).map Code.write

def printBody (s : Scope) (params : LambdaParams) (body : Expr) : Printed :=
  (bodyCode s params body).map Code.write

end LiveMarkup.Client
