import LiveMarkup.Syntax.Expr
/-! Statements, as far as template calls depend on them: their expressions and blocks in the order in
which an analysis visits them. -/
namespace LiveMarkup.Syntax

mutual

inductive Stmt where
  | function (receiver : Option String) (signature : List Expr) (body : List Stmt)
      (outer : List Expr)
  | other (parts : List Part)

inductive Part where
  | expr (e : Expr)
  | block (body : List Stmt)
  | clause (parts : List Part)

end

structure FoundFunction where
  depth : Nat
  receiver : Option String
  body : List Stmt

def FoundFunction.pick : Option FoundFunction → Option FoundFunction → Option FoundFunction
  | none, b => b
  | some a, some b => if a.depth ≤ b.depth then some a else some b
  | a, none => a

def FoundFunction.deeper (f : FoundFunction) : FoundFunction := { f with depth := f.depth + 1 }

mutual

def Stmt.outermost : Stmt → Option FoundFunction
  | .function receiver _ body _ => some ⟨0, receiver, body⟩
  | .other parts => (outermostPart parts).map (·.deeper)

def outermostPart : List Part → Option FoundFunction
  | [] => none
  | .expr _ :: rest => outermostPart rest
  | .block body :: rest => FoundFunction.pick (outermostStmt body) (outermostPart rest)
  | .clause parts :: rest => FoundFunction.pick ((outermostPart parts).map (·.deeper)) (outermostPart rest)

def outermostStmt : List Stmt → Option FoundFunction
  | [] => none
  | s :: rest => FoundFunction.pick s.outermost (outermostStmt rest)

end

end LiveMarkup.Syntax
