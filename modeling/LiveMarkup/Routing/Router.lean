import LiveMarkup.Routing.Pattern
/-! Routers: what stands on which path. The first route that fits a path, or has a name, is the one. -/
namespace LiveMarkup.Routing

structure Route (α : Type) where
  pattern : Pattern
  target : α
  name? : Option String
  deriving DecidableEq, Repr

structure Router (α : Type) where
  routes : List (Route α) := []
  deriving DecidableEq, Repr

inductive PathError where
  | clash (owner taken : String)
  | unknown (name : String)
  | fill (e : Template.FillError)
  deriving DecidableEq, Repr

namespace PathError

def message : PathError → String
  | clash owner taken => owner ++ " got multiple values for argument '" ++ taken ++ "'"
  | unknown name => "Route '" ++ name ++ "' not found"
  | fill e => e.message

end PathError

def clash? (reserved : List String) (parameters : List (String × Value)) : Option String :=
  (parameters.find? fun (name, _) => reserved.contains name).map (·.1)

namespace Pattern

def pathFor (p : Pattern) (parameters : List (String × Value)) : Except PathError String :=
  match clash? ["self"] parameters with
  | some taken => .error (.clash "Route.url()" taken)
  | none => (p.path parameters).mapError .fill

end Pattern

namespace Router

variable {α : Type}

def add (r : Router α) (pattern : String) (target : α) (name? : Option String) :
    Except PatternError (Router α) := do
  return ⟨r.routes ++ [⟨← Pattern.read pattern, target, name?⟩]⟩

def matchFirst (path : String) :
    List (Route α) → Except LongNumber (Option (Route α × List (String × Value)))
  | [] => .ok none
  | route :: rest => do
    match ← route.pattern.parameters? path with
    | some found => return some (route, found)
    | none => matchFirst path rest

def match? (r : Router α) (path : String) :
    Except LongNumber (Option (Route α × List (String × Value))) :=
  matchFirst path r.routes

def pathFor (r : Router α) (owner name : String) (parameters : List (String × Value)) :
    Except PathError String :=
  match clash? ["self", "name"] parameters with
  | some taken => .error (.clash owner taken)
  | none =>
    match r.routes.find? (·.name? == some name) with
    | none => .error (.unknown name)
    | some route => route.pattern.pathFor parameters

end Router

end LiveMarkup.Routing
