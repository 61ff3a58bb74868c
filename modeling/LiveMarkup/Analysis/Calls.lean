import LiveMarkup.Syntax.Stmt
/-! The calls in expressions and statements: an outer call before those in its callee and arguments. -/
namespace LiveMarkup.Analysis
open Syntax

structure Call where
  line : Nat
  func : Expr
  args : List Expr
  keywords : List Keyword

def Call.isTemplateCall (tag : String) (c : Call) : Bool :=
  (Expr.call c.line c.func c.args c.keywords).isTemplateCall tag

mutual

def calls : Expr → List Call
  | .constant _ => []
  | .name _ => []
  | .field base _ => calls base
  | .subscript base index => calls base ++ calls index
  | .slice lower upper step =>
    (match lower with | some e => calls e | none => []) ++
    (match upper with | some e => calls e | none => []) ++
    (match step with | some e => calls e | none => [])
  | .starred value => calls value
  | .call line func args keywords =>
    ⟨line, func, args, keywords⟩ :: (calls func ++ callsAll args ++ callsKeywords keywords)
  | .unary _ operand => calls operand
  | .binary left _ right => calls left ++ calls right
  | .boolean _ operands => callsAll operands
  | .compare left rest => calls left ++ callsComparisons rest
  | .conditional test body orelse => calls test ++ calls body ++ calls orelse
  | .lambda params body => callsParams params ++ calls body
  | .list items => callsAll items
  | .tuple items => callsAll items
  | .set items => callsAll items
  | .dict entries => callsKeys entries ++ callsValues entries
  | .listComp item clauses => calls item ++ callsClauses clauses
  | .setComp item clauses => calls item ++ callsClauses clauses
  | .generator item clauses => calls item ++ callsClauses clauses
  | .dictComp key value clauses => calls key ++ calls value ++ callsClauses clauses
  | .joined parts => callsAll parts
  | .formatted value _ spec => calls value ++ (match spec with | some e => calls e | none => [])
  | .assigned _ value => calls value
  | .await value => calls value
  | .yield value => match value with | some e => calls e | none => []
  | .yieldFrom value => calls value

def callsAll : List Expr → List Call
  | [] => []
  | e :: rest => calls e ++ callsAll rest

def callsOptions : List (Option Expr) → List Call
  | [] => []
  | none :: rest => callsOptions rest
  | some e :: rest => calls e ++ callsOptions rest

def callsKeywords : List Keyword → List Call
  | [] => []
  | .named _ value :: rest => calls value ++ callsKeywords rest
  | .spread value :: rest => calls value ++ callsKeywords rest

def callsComparisons : List Comparison → List Call
  | [] => []
  | .mk _ right :: rest => calls right ++ callsComparisons rest

def callsKeys : List Entry → List Call
  | [] => []
  | .pair key _ :: rest => calls key ++ callsKeys rest
  | .spread _ :: rest => callsKeys rest

def callsValues : List Entry → List Call
  | [] => []
  | .pair _ value :: rest => calls value ++ callsValues rest
  | .spread value :: rest => calls value ++ callsValues rest

def callsClauses : List Clause → List Call
  | [] => []
  | .mk _ target iter conditions :: rest =>
    calls target ++ calls iter ++ callsAll conditions ++ callsClauses rest

def callsParams : LambdaParams → List Call
  | .mk _ _ _ _ keywordDefaults _ defaults => callsOptions keywordDefaults ++ callsAll defaults

end

mutual

def callsOfStmt : Stmt → List Call
  | .function _ signature body outer => callsAll signature ++ callsOfBlock body ++ callsAll outer
  | .other parts => callsOfParts parts

def callsOfParts : List Part → List Call
  | [] => []
  | .expr e :: rest => calls e ++ callsOfParts rest
  | .block body :: rest => callsOfBlock body ++ callsOfParts rest
  | .clause parts :: rest => callsOfParts parts ++ callsOfParts rest

def callsOfBlock : List Stmt → List Call
  | [] => []
  | s :: rest => callsOfStmt s ++ callsOfBlock rest

end

end LiveMarkup.Analysis
