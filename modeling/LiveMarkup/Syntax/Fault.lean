import LiveMarkup.Syntax.Token
/-! What is reported of a text that does not parse: the kind of fault and its line. -/
namespace LiveMarkup.Syntax

inductive SyntaxKind where
  | general
  | indentation
  | tabs
  deriving DecidableEq, Repr

structure SyntaxError where
  kind : SyntaxKind
  line : Nat
  deriving DecidableEq, Repr

inductive Failure where
  | unexpected
  | rejected
  | needsBlock
  | lexical (f : Fault)
  | settled (e : SyntaxError)
  deriving DecidableEq, Repr

namespace Fault

def toError (f : Fault) : SyntaxError :=
  match f.cause with
  | .malformed | .strayContinuation => ⟨.general, f.line⟩
  | .unfinished => ⟨.general, f.bracket.getD f.line⟩
  | .unevenIndent | .tooDeep => ⟨.indentation, f.line⟩
  | .mixedTabs => ⟨.tabs, f.line⟩

/-- Does a fault further on replace an error at `line`? A malformed token always does, any other only
if a bracket was left open on an earlier line. -/
def replaces? (f : Fault) (line : Nat) : Option SyntaxError :=
  match f.cause, f.bracket with
  | .malformed, _ => some ⟨.general, f.line⟩
  | _, some opened => if opened < line then some ⟨.general, opened⟩ else none
  | _, none => none

end Fault

def finalFault? (tokens : List Token) : Option Fault :=
  match tokens.getLast? with
  | some { kind := .fault f, .. } => some f
  | _ => none

def Failure.report (tokens : List Token) (furthest : Token) : Failure → SyntaxError
  | lexical f => f.toError
  | settled e => ((finalFault? tokens).bind (·.replaces? furthest.line)).getD e
  | needsBlock =>
    ((finalFault? tokens).bind (·.replaces? furthest.line)).getD ⟨.indentation, furthest.line⟩
  | unexpected =>
    if furthest.kind == .indent || furthest.kind == .dedent then ⟨.indentation, furthest.line⟩
    else ((finalFault? tokens).bind (·.replaces? furthest.line)).getD ⟨.general, furthest.line⟩
  | rejected =>
    ((finalFault? tokens).bind (·.replaces? furthest.line)).getD ⟨.general, furthest.line⟩

end LiveMarkup.Syntax
