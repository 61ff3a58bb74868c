import LiveMarkup.Number.Binary64
/-! The values that a page is made from, the components among them, and the recipes by which a
component makes values while it renders. -/
namespace LiveMarkup

inductive Link where
  | onSuccess
  | onFailure
  deriving DecidableEq, Repr

inductive RaisedKind where
  | runtime
  | badValue
  | missingKey
  | badType
  deriving DecidableEq, Repr

mutual

inductive Value where
  | none
  | truth (b : Bool)
  | whole (n : Int)
  | real (x : Binary64)
  | text (s : String)
  | bytes (data : List UInt8)
  | list (items : List Value)
  | tuple (items : List Value)
  | generator (items : List Value)
  | set (items : List Value)
  | dict (entries : List (Value × Value))
  | markup (s : String)
  | rendered (output body : String) (owner : Option Nat)
  | safe (s : String)
  | object (kind : String)
  | promise (url : Value) (options : Option Value) (chain : List Link)
  | component (c : Component)

inductive Component where
  | mk (className : String) (fields : List (String × Value)) (source : Option String)
      (firstLine : Int) (file : String) (steps : List Step) (returns : Option Recipe)

inductive Step where
  | mk (template : String) (values : List Recipe) (line : Int) (guarded : Bool)

inductive Recipe where
  | value (v : Value)
  | list (items : List Recipe)
  | tuple (items : List Recipe)
  | generator (items : List Recipe)
  | set (items : List Recipe)
  | dict (entries : List (Recipe × Recipe))
  | promise (url : Recipe) (options : Option Recipe) (chain : List Link)
  | component (c : Component) (fields : List (String × Recipe))
  | add (left right : Recipe)
  | raise (kind : RaisedKind) (text : String)
  | html (step : Step)
  | step (number : Nat)
  | field (name : String)
  | requestPath

end

instance : Inhabited Value := ⟨.none⟩

instance : Inhabited Recipe := ⟨.value .none⟩

instance : Inhabited Step := ⟨.mk "" [] 1 false⟩

namespace Component

def className : Component → String
  | .mk n .. => n

def fields : Component → List (String × Value)
  | .mk _ fs .. => fs

def source? : Component → Option String
  | .mk _ _ s .. => s

def firstLine : Component → Int
  | .mk _ _ _ l .. => l

def file : Component → String
  | .mk _ _ _ _ f .. => f

def steps : Component → List Step
  | .mk _ _ _ _ _ s _ => s

def returns? : Component → Option Recipe
  | .mk _ _ _ _ _ _ r => r

def ofFields (className : String) (fields : List (String × Value)) : Component :=
  .mk className fields none 1 "" [] none

def withFields (c : Component) (fields : List (String × Value)) : Component :=
  .mk c.className fields c.source? c.firstLine c.file c.steps c.returns?

def wrapperNames : List String :=
  ["__delattr__", "__eq__", "__ge__", "__getattribute__", "__gt__", "__hash__", "__init__", "__le__", "__lt__",
   "__ne__", "__repr__", "__setattr__", "__str__"]

def builtinNames : List String :=
  ["__dir__", "__format__", "__getstate__", "__init_subclass__", "__new__", "__reduce__", "__reduce_ex__",
   "__sizeof__", "__subclasshook__"]

def inherited? (name : String) : Option Value :=
  if name == "render" then some (.object "method")
  else if name == "__class__" then some (.object "ABCMeta")
  else if name == "__module__" then some (.text "__main__")
  else if name == "__doc__" || name == "__weakref__" then some .none
  else if name == "__slots__" then some (.tuple [])
  else if name == "__abstractmethods__" then some (.object "frozenset")
  else if name == "_abc_impl" then some (.object "_abc_data")
  else if wrapperNames.contains name then some (.object "method-wrapper")
  else if builtinNames.contains name then some (.object "builtin_function_or_method")
  else none

def get? (c : Component) (name : String) : Option Value :=
  match c.fields.find? (·.1 == name) with
  | some (_, v) => some v
  | none =>
    if name == "__dict__" then some (.dict (c.fields.map fun (key, v) => (.text key, v)))
    else inherited? name

def setFields (fields : List (String × Value)) : List (String × Value) → List (String × Value)
  | [] => fields
  | (name, v) :: rest =>
    let fields :=
      if fields.any (·.1 == name) then fields.map fun (k, w) => if k == name then (k, v) else (k, w)
      else fields ++ [(name, v)]
    setFields fields rest

end Component

namespace Value

def typeName : Value → String
  | none => "NoneType"
  | truth _ => "bool"
  | whole _ => "int"
  | real _ => "float"
  | text _ => "str"
  | bytes _ => "bytes"
  | list _ => "list"
  | tuple _ => "tuple"
  | generator _ => "generator"
  | set _ => "set"
  | dict _ => "dict"
  | markup _ => "Markup"
  | rendered .. => "Rendered"
  | safe _ => "Safe"
  | object kind => kind
  | promise .. => "ClientPromise"
  | component c => c.className

def safeHtml? : Value → Option String
  | markup s => some s
  | rendered s .. => some s
  | safe s => some s
  | _ => Option.none

def isSafe (v : Value) : Bool := v.safeHtml?.isSome

end Value

end LiveMarkup
