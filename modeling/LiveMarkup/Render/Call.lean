import LiveMarkup.Render.Bind
import LiveMarkup.Render.Fill
/-! One template call. -/
namespace LiveMarkup.Render
open Client

def takeDeferred? (key : String) : Rendering (Option Deferred) := do
  let s ← get
  match s.deferred.find? (·.1 == key) with
  | none => return none
  | some (_, content) =>
    set { s with deferred := s.deferred.filter (·.1 != key) }
    return some content

def renderNested (nested : Nested) (c : Component) : Rendering String := do
  let s ← get
  let (result, page) := (nested c).run s.page
  set { s with page }
  match result with
  | .ok output => return output
  | .error e => throw e

def spliced (nested : Nested) : Piece → Rendering String
  | .plain s => return s
  | .placeholder key => do
    match ← takeDeferred? key with
    | none => return key
    | some (.markup s) => return s
    | some (.component c) => renderNested nested c

def splice (nested : Nested) (markup : String) : Rendering String := do
  let f ← read
  return String.join (← (Piece.split f.number markup).mapM (spliced nested))

def knownSlots (f : Factory) (template : String) (values : List Value) (line : Int) :
    List (Option Analysis.Slot) :=
  match siteFor? f.slots template values.length line with
  | some site => site.slots.map some
  | none => values.map fun _ => none

def filled (template : String) (values : List Value) (line : Int) : Rendering String := do
  let f ← read
  let segments ←
    match Template.split template with
    | .ok segments => pure segments
    | .error e => throw (.template (.braces e))
  if segments.length - 1 ≠ values.length then
    throw (.template (.count (segments.length - 1) values.length template))
  fill f (segments.headD "") values (knownSlots f template values line) (segments.drop 1)

def finished (nested : Nested) (markup : String) : Rendering Value := do
  let f ← read
  let body ← splice nested markup
  let s ← get
  if s.records.isEmpty then return .rendered body body (some f.number)
  match script f.component s.records with
  | .ok script => return .rendered (body ++ script) body (some f.number)
  | .error e => throw (.script e)

def call (nested : Nested) (template : String) (values : List Value) (line : Int) :
    Rendering Value := do
  let markup ← filled template values line
  let markup ← if (← get).live.isEmpty then pure markup else settleLive markup
  finished nested markup

def tracedCall (nested : Nested) (template : String) (values : List Value) (line : Int) :
    Rendering Value := do
  let note (t : Traced) : Rendering Unit := modify fun s => { s with trace := s.trace ++ [t] }
  try
    let v ← call nested template values line
    let r := (← get).records
    note (.done v.plain r.bindings.length r.handlers.length r.asyncBindings.length)
    return v
  catch e =>
    note (.failed e)
    throw e

end LiveMarkup.Render
