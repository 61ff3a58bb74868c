import LiveMarkup.Render.Recipe
import LiveMarkup.Value.Depth
/-! Rendering whole components, and the components inside them. -/
namespace LiveMarkup.Render
open Analysis

def slotsOf (c : Component) : Except RenderError (List Slot) :=
  match c.source? with
  | none => .error (.analysis (.located (.noSource c.className) none none))
  | some source =>
    let (result, _) := (analyzeSource source c.firstLine (some c.file) "html").run []
    match result with
    | .ok slots => .ok slots
    | .error e => .error (.analysis e)

def newFactory (c : Component) (request? : Option String) (page : Page) :
    Except RenderError (Factory × State) := do
  let f : Factory := ⟨c, page.nextFactory, ← slotsOf c, request?⟩
  return (f, f.start { page with nextFactory := page.nextFactory + 1 })

def runMethod (nested : Nested) (c : Component) : Rendering Value := do
  let results ← runSteps nested [] c.steps
  match c.returns? with
  | some r => return (← make nested results r).trusted
  | none => return (results.getLast?.getD (.text "")).trusted

structure Outcome where
  result : Except RenderError String
  page : Page
  state? : Option State

def renderWith (nested : Nested) (request? : Option String) (c : Component) (page : Page) :
    Outcome :=
  match newFactory c request? page with
  | .error e => ⟨.error e, page, none⟩
  | .ok (f, s) =>
    let (result, s) := ((runMethod nested c).run f).run.run s
    ⟨result.map (·.plain), s.page, some s⟩

def nestedBy (render : Component → Page → Outcome) : Nested := fun c => do
  let o := render c (← get)
  set o.page
  match o.result with
  | .ok output => return output
  | .error e => throw e

def renderWithin (request? : Option String) : (depth : Nat) → Component → Page → Outcome
  | 0, _, page => ⟨.ok "", page, none⟩
  | depth + 1, c, page => renderWith (nestedBy (renderWithin request? depth)) request? c page

def renderComponent (c : Component) (request? : Option String) (page : Page) : Outcome :=
  renderWithin request? c.depth c page

structure Reply where
  result : Except RenderError Value
  records : Client.Records
  written : List String

def replies (nested : Nested) (results : Results) : List Step → Rendering (List Reply)
  | [] => return []
  | s :: rest => do
    let result ←
      try
        pure (Except.ok (← runStep nested results s))
      catch e => pure (Except.error e)
    let now ← get
    let value := match result with
      | .ok v => v
      | .error _ => .text ""
    return ⟨result, now.records, now.written⟩ :: (← replies nested (results ++ [value]) rest)

def callAll (c : Component) (calls : List Step) : Except RenderError (List Reply) := do
  let (f, s) ← newFactory c none {}
  let depth := max c.depth (Step.depthAll calls)
  let nested := nestedBy (renderWithin none depth)
  (((replies nested [] calls).run f).run.run s).1

def renderPage (page : Page) : List Component → List (Except RenderError String) × Page
  | [] => ([], page)
  | c :: rest =>
    let o := renderComponent c none page
    let (results, page) := renderPage o.page rest
    (o.result :: results, page)

end LiveMarkup.Render
