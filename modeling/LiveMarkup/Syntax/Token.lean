/-! Tokens of the render language. A sequence of tokens ends with `stop`, or with the fault that
kept the rest of the text from being read. -/
namespace LiveMarkup.Syntax

inductive FaultCause where
  | malformed
  | unfinished
  | unevenIndent
  | mixedTabs
  | tooDeep
  | strayContinuation
  deriving DecidableEq, Repr

structure Fault where
  cause : FaultCause
  line : Nat
  bracket : Option Nat
  deriving DecidableEq, Repr

inductive TokenKind where
  | name
  | keyword
  | number
  | string
  | op
  | newline
  | indent
  | dedent
  | stop
  | fault (f : Fault)
  deriving DecidableEq, Repr

structure Token where
  kind : TokenKind
  text : String
  line : Nat
  enclosed : Bool := false
  deriving DecidableEq, Repr

def keywords : List String :=
  ["False", "None", "True", "and", "as", "assert", "async", "await", "break", "class", "continue",
   "def", "del", "elif", "else", "except", "finally", "for", "from", "global", "if", "import", "in",
   "is", "lambda", "nonlocal", "not", "or", "pass", "raise", "return", "try", "while", "with",
   "yield"]

namespace Token

def isOp (t : Token) (text : String) : Bool := t.kind == .op && t.text == text

def isKeyword (t : Token) (text : String) : Bool := t.kind == .keyword && t.text == text

end Token

end LiveMarkup.Syntax
