import LiveMarkup.Markup.Writer
import LiveMarkup.Render.Compose
/-! Settling live placeholders in the tree of a piece of markup: first the events, then the attributes
and the texts, and the promise chains last. Elements get their identifiers in that order. -/
namespace LiveMarkup.Render
open Analysis Client Markup

/-- The identifier of an element, and its attributes with it. One that the template gives is kept. -/
def identify (attributes : List Attribute) : Rendering (String × List Attribute) := do
  let f ← read
  let existing := (Attribute.get? attributes idAttribute).filter fun id =>
    !id.isEmpty && !isPlaceholder f.number id
  match existing with
  | some id => return (id, attributes)
  | none =>
    let id ← newId
    return (id, Attribute.put idAttribute id attributes)

def addBinding (b : Binding) : Rendering Unit :=
  modify fun s => { s with records := { s.records with bindings := s.records.bindings ++ [b] } }

def bindEvent (attributes : List Attribute) (a : Attribute) : Rendering (List Attribute) := do
  match (← get).live? a.value with
  | none => return attributes
  | some live =>
    if !live.slot.isEvent then return attributes
    let (id, attributes) ← identify attributes
    let handler : Handler :=
      { id, event := a.name, source := live.slot.bodySource.getD "", writes := live.slot.writes,
        params := live.slot.params, signals := live.slot.signals }
    modify fun s =>
      { s with
        written := distinct (s.written ++ live.slot.writes)
        records := { s.records with handlers := s.records.handlers ++ [handler] } }
    return Attribute.erase a.name attributes

/-- Sets an attribute to what it shows. One that is a live value itself shows nothing and falsehood by
its absence. -/
def showAttribute (live? : Option Live) (name literal : String) (attributes : List Attribute) :
    List Attribute :=
  match live? with
  | none => Attribute.put name literal attributes
  | some live =>
    match live.value with
    | .none | .truth false => Attribute.erase name attributes
    | .truth true => Attribute.put name "" attributes
    | _ => Attribute.put name literal attributes

def bindAttribute (attributes : List Attribute) (a : Attribute) : Rendering (List Attribute) := do
  let f ← read
  if a.name == idAttribute || (placeholders f.number a.value).isEmpty then return attributes
  let s ← get
  let c := compose f.number s a.value
  let attributes := showAttribute (s.live? a.value) a.name c.literal attributes
  match c.source? with
  | none => return attributes
  | some source =>
    let (id, attributes) ← identify attributes
    addBinding { id, signals := c.signals, source, attribute? := some a.name }
    return attributes

def eachAttribute (bind : List Attribute → Attribute → Rendering (List Attribute))
    (attributes : List Attribute) : Rendering (List Attribute) :=
  attributes.foldlM bind attributes

mutual

def onElements (change : List Attribute → Rendering (List Attribute)) : Node → Rendering Node
  | .text kind s => return .text kind s
  | .element name attributes children => do
    let attributes ← change attributes
    return .element name attributes (← onAllElements change children)

def onAllElements (change : List Attribute → Rendering (List Attribute)) :
    List Node → Rendering (List Node)
  | [] => return []
  | n :: rest => do
    let first ← onElements change n
    return first :: (← onAllElements change rest)

end

def settle (chunk : String) : Rendering Composed := do
  let f ← read
  let s ← get
  if (placeholders f.number chunk).any fun key => (s.live? key).isSome then
    return compose f.number s chunk
  return ⟨chunk, none, []⟩

/-- A chunk that stands among others. If it may change it gets an element of its own. -/
def wrapChunk (chunk : String) : Rendering Node := do
  let c ← settle chunk
  let node := Node.text .plain c.literal
  match c.source? with
  | none => return node
  | some source =>
    let (id, attributes) ← identify []
    addBinding { id, signals := c.signals, source }
    return .element "span" attributes [node]

def chunksOf (text : String) : Rendering (List String) := do
  let f ← read
  let s ← get
  if (placeholders f.number text).isEmpty then return [text]
  let parts := splitDeferred f.number s text
  return if parts.length ≤ 1 then [text] else parts

def bindOnlyText (name : String) (attributes : List Attribute) (chunk : String) :
    Rendering Node := do
  let c ← settle chunk
  let node := Node.text .plain c.literal
  match c.source? with
  | none => return .element name attributes [node]
  | some source =>
    let (id, attributes) ← identify attributes
    addBinding { id, signals := c.signals, source }
    return .element name attributes [node]

mutual

def bindElementTexts : Node → Rendering (List Node)
  | .text .plain s => do (← chunksOf s).mapM wrapChunk
  | .text kind s => return [.text kind s]
  | .element name attributes [.text .plain s] => do
    match ← chunksOf s with
    | [chunk] => return [← bindOnlyText name attributes chunk]
    | parts => return [.element name attributes (← parts.mapM wrapChunk)]
  | .element name attributes children => do
    return [.element name attributes (← bindTexts children)]

def bindTexts : List Node → Rendering (List Node)
  | [] => return []
  | n :: rest => do
    let first ← bindElementTexts n
    return first ++ (← bindTexts rest)

end

def bindAnchor (attributes : List Attribute) : Rendering (List Attribute) := do
  match (← get).live? ((Attribute.get? attributes idAttribute).getD "") with
  | none => return attributes
  | some live =>
    let id ← newId
    let binding : AsyncBinding :=
      { id, promise := live.slot.promiseSource.getD "",
        thenCallback := live.slot.thenCallback.getD "",
        catchCallback? := live.slot.catchCallback, fields := live.slot.reads }
    modify fun s =>
      { s with
        records := { s.records with asyncBindings := s.records.asyncBindings ++ [binding] } }
    return Attribute.put idAttribute id attributes

def settleTree (tree : List Node) : Rendering (List Node) := do
  let tree ← onAllElements (eachAttribute bindEvent) tree
  let tree ← onAllElements (eachAttribute bindAttribute) tree
  let tree ← bindTexts tree
  onAllElements bindAnchor tree

def settleLive (markup : String) : Rendering String := do
  let f ← read
  let tree ←
    match readTree markup with
    | .ok tree => pure tree
    | .error e => throw (.markup e)
  let tree ← settleTree tree
  let output := writeTree tree
  let unresolved := (placeholders f.number output).filterMap (← get).live?
  modify fun s => { s with live := [] }
  match unresolved with
  | [] => return output
  | live :: _ =>
    throw (.template (.unreachable f.component.className live.slot.expression live.slot.line))

end LiveMarkup.Render
