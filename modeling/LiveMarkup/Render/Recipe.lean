import LiveMarkup.Render.Call
import LiveMarkup.Value.Equal
/-! Making values while a component renders. -/
namespace LiveMarkup.Render

abbrev Results := List Value

def stepResult (results : Results) (number : Nat) : Rendering Value :=
  match results[number]? with
  | some v => return v
  | none => throw (.noStep number)

def fieldValue (name : String) : Rendering Value := do
  let f ← read
  match f.component.get? name with
  | some v => return v
  | none => throw (.noField name)

def requestPath : Rendering Value := do
  let f ← read
  match f.request? with
  | some path => return .text path
  | none => throw .noRequest

def asKey (v : Value) : Rendering Value :=
  match v.changeable? with
  | some typeName => throw (.unhashable typeName)
  | none => return v

mutual

def make (nested : Nested) (results : Results) : Recipe → Rendering Value
  | .value v => return v
  | .list items => return .list (← makeAll nested results items)
  | .tuple items => return .tuple (← makeAll nested results items)
  | .generator items => return .generator (← makeAll nested results items)
  | .set items => do
    let keys ← (← makeAll nested results items).mapM asKey
    return .set (keys.foldl (fun done v => Value.adjoin v done) [])
  | .dict entries => return .dict (← makeEntries nested results [] entries)
  | .promise url options chain => do
    let url ← make nested results url
    match options with
    | none => return .promise url none chain
    | some o => return .promise url (some (← make nested results o)) chain
  | .component c fields => return .component (c.withFields (← makeFields nested results fields))
  | .add left right => do
    let v ← make nested results left
    let w ← make nested results right
    match v.add w with
    | .ok sum => return sum
    | .error e => throw (.sum e)
  | .raise kind text => throw (.raised kind text)
  | .html (.mk template values line _) => do
    tracedCall nested template (← makeAll nested results values) line
  | .step number => stepResult results number
  | .field name => fieldValue name
  | .requestPath => requestPath

def makeAll (nested : Nested) (results : Results) : List Recipe → Rendering (List Value)
  | [] => return []
  | r :: rest => do
    let first ← make nested results r
    return first :: (← makeAll nested results rest)

def makeEntries (nested : Nested) (results : Results) (done : List (Value × Value)) :
    List (Recipe × Recipe) → Rendering (List (Value × Value))
  | [] => return done
  | (k, v) :: rest => do
    let key ← make nested results k
    let value ← make nested results v
    let key ← asKey key
    makeEntries nested results (Value.insert key value done) rest

def makeFields (nested : Nested) (results : Results) :
    List (String × Recipe) → Rendering (List (String × Value))
  | [] => return []
  | (name, r) :: rest => do
    let first ← make nested results r
    return (name, first) :: (← makeFields nested results rest)

end

def evaluate (r : Recipe) : Except RenderError Value :=
  let f : Factory := ⟨.ofFields "" [], 0, [], none⟩
  (((make (fun _ => return "") [] r).run f).run.run (f.start {})).1

def runStep (nested : Nested) (results : Results) : Step → Rendering Value
  | .mk template values line _ => do
    tracedCall nested template (← makeAll nested results values) line

def runGuarded (nested : Nested) (results : Results) (s : Step) : Rendering Value :=
  match s with
  | .mk _ _ _ true => tryCatch (runStep nested results s) fun _ => return .text ""
  | _ => runStep nested results s

def runSteps (nested : Nested) (results : Results) : List Step → Rendering Results
  | [] => return results
  | s :: rest => do
    let v ← runGuarded nested results s
    runSteps nested (results ++ [v]) rest

end LiveMarkup.Render
