/-! What the client has to do with the elements of a page. -/
namespace LiveMarkup.Client

def idAttribute : String := "data-zid"

structure Binding where
  id : String
  signals : List String
  source : String
  attribute? : Option String := none
  deriving DecidableEq, Repr

structure Handler where
  id : String
  event : String
  source : String
  writes : List String
  params : List String := []
  signals : List String := []
  deriving DecidableEq, Repr

structure AsyncBinding where
  id : String
  promise : String
  thenCallback : String
  catchCallback? : Option String := none
  fields : List String := []
  deriving DecidableEq, Repr

structure Records where
  bindings : List Binding := []
  handlers : List Handler := []
  asyncBindings : List AsyncBinding := []
  deriving DecidableEq, Repr

namespace Records

def isEmpty (r : Records) : Bool :=
  r.bindings.isEmpty && r.handlers.isEmpty && r.asyncBindings.isEmpty

def mentions (r : Records) : List String :=
  r.bindings.flatMap (·.signals) ++ r.handlers.flatMap (·.writes) ++
    r.handlers.flatMap (·.signals) ++ r.asyncBindings.flatMap (·.fields)

def ids (r : Records) : List String :=
  r.bindings.map (·.id) ++ r.handlers.map (·.id) ++ r.asyncBindings.map (·.id)

end Records

def distinct (items : List String) : List String :=
  items.foldl (fun seen s => if seen.contains s then seen else seen ++ [s]) []

end LiveMarkup.Client
