import LiveMarkup.Analysis.Slot
import LiveMarkup.Client.Record
import LiveMarkup.Client.Script
import LiveMarkup.Markup.Token
import LiveMarkup.Render.Placeholder
import LiveMarkup.Template.Split
import LiveMarkup.Value.Sum
/-! The state of a render. A factory serves the template calls of one component; the identifiers are
shared by all components of a page. -/
namespace LiveMarkup.Render
open Analysis Client

inductive TemplateProblem where
  | braces (e : Template.BraceError)
  | count (slots values : Nat) (template : String)
  | unreachable (className expression : String) (line : Int)
  deriving DecidableEq, Repr

namespace TemplateProblem

def message : TemplateProblem → String
  | braces e => e.message
  | count slots values template =>
    "Template has " ++ toString slots ++ " slots but " ++ toString values ++
      " values were given: " ++ Text.quoted template
  | unreachable className expression line =>
    className ++ ": \x60" ++ expression ++ "\x60 (line " ++ toString line ++
      ") is live but sits where no binding can reach it (script, style or comment content)"

end TemplateProblem

inductive RenderError where
  | analysis (e : AnalysisError)
  | template (p : TemplateProblem)
  | hydration (className expression : String) (line : Int)
  | script (e : ScriptError)
  | markup (e : Markup.MarkupError)
  | raised (kind : RaisedKind) (text : String)
  | sum (e : Value.SumError)
  | unhashable (typeName : String)
  | noField (name : String)
  | noStep (number : Nat)
  | noRequest
  deriving DecidableEq, Repr

namespace RenderError

def message : RenderError → String
  | analysis e => e.text
  | template p => p.message
  | hydration className expression line =>
    className ++ ": the expression \x60" ++ expression ++ "\x60 (line " ++ toString line ++
      ") must run in the browser but has no JavaScript form"
  | script e => e.message
  | markup e => e.message
  | raised _ text => text
  | sum e => e.message
  | unhashable typeName => "unhashable type: '" ++ typeName ++ "'"
  | noField name => "no field '" ++ name ++ "'"
  | noStep _ => "list index out of range"
  | noRequest => "'NoneType' object has no attribute 'url'"

def typeName : RenderError → String
  | analysis (.located ..) => "TemplateSyntaxError"
  | analysis _ => "ValueError"
  | template _ => "TemplateError"
  | hydration .. => "HydrationError"
  | script _ => "ScriptGenerationError"
  | markup _ => "ParserRejectedMarkup"
  | raised .runtime _ => "RuntimeError"
  | raised .badValue _ => "ValueError"
  | raised .missingKey _ => "KeyError"
  | raised .badType _ => "TypeError"
  | sum _ => "TypeError"
  | unhashable _ => "TypeError"
  | noField _ => "AttributeError"
  | noStep _ => "IndexError"
  | noRequest => "AttributeError"

def isTemplateFault : RenderError → Bool
  | analysis (.located ..) | template _ | hydration .. | script _ => true
  | _ => false

end RenderError

structure Page where
  nextId : Nat := 0
  nextFactory : Nat := 0
  deriving DecidableEq, Repr

def idText (n : Nat) : String := "_" ++ toString n

structure Factory where
  component : Component
  number : Nat
  slots : List Slot
  request? : Option String

structure Live where
  value : Value
  slot : Slot

inductive Deferred where
  | markup (s : String)
  | component (c : Component)

inductive Traced where
  | done (output : String) (bindings handlers asyncBindings : Nat)
  | failed (e : RenderError)
  deriving DecidableEq, Repr

structure State where
  page : Page
  written : List String
  records : Records := {}
  nextPlaceholder : Nat := 0
  live : List (String × Live) := []
  deferred : List (String × Deferred) := []
  trace : List Traced := []

abbrev Rendering := ReaderT Factory (ExceptT RenderError (StateM State))

abbrev Nested := Component → ExceptT RenderError (StateM Page) String

namespace Factory

def start (f : Factory) (page : Page) : State :=
  { page, written := distinct (f.slots.flatMap (·.writes)) }

end Factory

def newId : Rendering String := do
  let s ← get
  set { s with page := { s.page with nextId := s.page.nextId + 1 } }
  return idText s.page.nextId

def newPlaceholder : Rendering String := do
  let f ← read
  let s ← get
  set { s with nextPlaceholder := s.nextPlaceholder + 1 }
  return Placeholder.text f.number s.nextPlaceholder

def defer (content : Deferred) : Rendering String := do
  let key ← newPlaceholder
  modify fun s => { s with deferred := s.deferred ++ [(key, content)] }
  return key

def mark (value : Value) (slot : Slot) : Rendering String := do
  let f ← read
  if !slot.translatable then
    throw (.hydration f.component.className slot.expression slot.line)
  let key ← newPlaceholder
  modify fun s => { s with live := s.live ++ [(key, ⟨value, slot⟩)] }
  return key

def State.live? (s : State) (key : String) : Option Live :=
  (s.live.find? (·.1 == key)).map (·.2)

def State.isReactive (s : State) (slot : Slot) : Bool := slot.signals.any s.written.contains

def State.isLive (s : State) (slot : Slot) : Bool :=
  slot.isAsync || slot.isEvent || (!slot.isFunction && s.isReactive slot)

def isContent (value : Value) (slot : Slot) : Bool :=
  if slot.isAsync || slot.isEvent then false
  else
    match value with
    | .component _ | .list _ | .tuple _ | .generator _ => true
    | v => v.isSafe

structure Site where
  template : String
  line : Int
  slots : List Slot
  deriving DecidableEq, Repr

def sitesOf : List Slot → List Site
  | [] => []
  | s :: rest =>
    match sitesOf rest with
    | [] => [⟨s.template, s.line, [s]⟩]
    | site :: sites =>
      match site.slots with
      | next :: _ =>
        if next.slot = 0 then ⟨s.template, s.line, [s]⟩ :: site :: sites
        else { site with template := s.template, line := s.line, slots := s :: site.slots } :: sites
      | [] => ⟨s.template, s.line, [s]⟩ :: sites

def Site.later (a b : Site) : Site := if a.line < b.line then b else a

/-- The site of a call made on `line`: of several with the same template and number of values, the
closest at or above the line, or else the first. -/
def siteFor? (slots : List Slot) (template : String) (count : Nat) (line : Int) : Option Site :=
  let candidates :=
    (sitesOf slots).filter fun site => site.template == template && site.slots.length == count
  match candidates with
  | [] => none
  | first :: rest =>
    if rest.isEmpty then some first
    else
      match candidates.filter fun site => site.line ≤ line with
      | [] => some first
      | site :: sites => some (sites.foldl Site.later site)

end LiveMarkup.Render
