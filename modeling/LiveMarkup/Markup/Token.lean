import LiveMarkup.Text.Quoted
/-! The pieces that markup is read into. -/
namespace LiveMarkup.Markup

inductive Aside where
  | comment
  | doctype
  | cdata
  | declaration
  | instruction
  deriving DecidableEq, Repr

inductive Token where
  | opening (name : String) (attributes : List (String × String)) (closed : Bool)
  | closing (name : String)
  | text (s : String)
  | aside (kind : Aside) (s : String)
  deriving DecidableEq, Repr

inductive MarkupError where
  | noKeyword (start : String)
  | unknownKeyword (keyword : String)
  deriving DecidableEq, Repr

namespace MarkupError

def cause : MarkupError → String
  | noKeyword start => "expected name token at " ++ Text.quoted start
  | unknownKeyword keyword =>
    "unknown status keyword " ++ Text.quoted keyword ++ " in marked section"

def message (e : MarkupError) : String :=
  "The markup you provided was rejected by the parser. Trying a different parser or a different encoding may help.

Original error(s) from parser:
  AssertionError: " ++ e.cause

end MarkupError

end LiveMarkup.Markup
