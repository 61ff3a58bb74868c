/-! What an expression of a render method is read against: the name of the component, the template
function, and whether an enclosing parameter hides the component's name. -/
namespace LiveMarkup

structure Scope where
  receiver : String := "self"
  tag : String := "html"
  hidden : Bool := false
  deriving DecidableEq, Repr

namespace Scope

def bind (s : Scope) (names : List String) : Scope :=
  { s with hidden := s.hidden || names.contains s.receiver }

def isReceiver (s : Scope) (id : String) : Bool := id == s.receiver && !s.hidden

end Scope

end LiveMarkup
