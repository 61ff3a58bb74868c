import LiveMarkup.Render.Component
import LiveMarkup.Routing.Router
import LiveMarkup.Text.Lower
/-! Sites: pages on the paths of a router. -/
namespace LiveMarkup
open Render Routing

structure PageSource where
  recipe : Recipe
  takesFields : Bool
  allowed? : Option (List String)

structure Site where
  debug : Bool
  router : Router PageSource := {}

inductive SiteError where
  | notFound (path : String)
  | longNumber (e : LongNumber)
  | unexpected (names : List String)
  | notComponent (path typeName : String)
  | render (e : RenderError)
  deriving DecidableEq, Repr

namespace SiteError

def message : SiteError → String
  | notFound path => "No page is registered for " ++ path
  | longNumber e => e.message
  | unexpected names => "unexpected parameters: " ++ ", ".intercalate names
  | notComponent path typeName => "Route " ++ path ++ " produced " ++ typeName ++ ", not a Component"
  | render e => e.message

def typeName : SiteError → String
  | notFound _ => "PageNotFound"
  | longNumber _ => "ValueError"
  | unexpected _ => "TypeError"
  | notComponent .. => "TypeError"
  | render e => e.typeName

def isForeseen : SiteError → Bool
  | notFound _ => true
  | render e => e.isTemplateFault
  | _ => false

end SiteError

namespace PageSource

def make (p : PageSource) (parameters : List (String × Value)) : Except SiteError Value := do
  match p.allowed? with
  | some allowed =>
    let others := (parameters.map (·.1)).filter (!allowed.contains ·)
    if !others.isEmpty then throw (.unexpected (others.mergeSort fun a b => !(b < a)))
  | none => pure ()
  match evaluate p.recipe with
  | .error e => throw (.render e)
  | .ok (.component c) =>
    if p.takesFields then return .component (c.withFields (Component.setFields c.fields parameters))
    else return .component c
  | .ok v => return v

end PageSource

namespace Site

def switches : List String := ["1", "true", "yes", "on"]

def debugFrom (given? : Option Bool) (setting? : Option String) : Bool :=
  given?.getD (switches.contains (String.ofList (Text.lower (setting?.getD "").toList)))

def add (s : Site) (pattern : String) (source : PageSource) (name? : Option String) :
    Except PatternError Site := do
  return { s with router := ← s.router.add pattern source name? }

def pathFor (s : Site) (name : String) (parameters : List (String × Value)) :
    Except PathError String :=
  s.router.pathFor "Zinc.url_for()" name parameters

def canonical (path : String) : String :=
  if path == "/" then path
  else String.ofList ((path.toList.reverse.dropWhile (· == '/')).reverse)

def componentOn (s : Site) (path : String) : Except SiteError Component := do
  match s.router.match? path with
  | .error e => throw (.longNumber e)
  | .ok none => throw (.notFound path)
  | .ok (some (route, parameters)) =>
    match ← route.target.make parameters with
    | .component c => return c
    | v => throw (.notComponent path v.typeName)

def renderPath (s : Site) (path : String) (request? : Option String) (page : Page) :
    Except SiteError String × Page :=
  match s.componentOn (canonical path) with
  | .error e => (.error e, page)
  | .ok c =>
    let o := renderComponent c request? page
    (o.result.mapError .render, o.page)

end Site

end LiveMarkup
