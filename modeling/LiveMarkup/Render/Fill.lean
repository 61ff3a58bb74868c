import LiveMarkup.Render.Factory
import LiveMarkup.Template.Place
import LiveMarkup.Value.Escaped
/-! Putting values into the slots of a template. Plain values are written out; safe content and
components are put off; live values are marked for the client. -/
namespace LiveMarkup.Render
open Analysis Client

mutual

def inline (f : Factory) : Value → Rendering String
  | .list items => inlineAll f items
  | .tuple items => inlineAll f items
  | .generator items => inlineAll f items
  | .component c => defer (.component c)
  | .rendered output body owner => defer (.markup (if owner = some f.number then body else output))
  | v =>
    match v.safeHtml? with
    | some s => defer (.markup s)
    | none => return v.escaped

def inlineAll (f : Factory) : List Value → Rendering String
  | [] => return ""
  | v :: rest => do
    let first ← inline f v
    return first ++ (← inlineAll f rest)

end

def escapeApostrophe (c : Char) : List Char :=
  if c == '\'' then ['&', '#', '3', '9', ';'] else [c]

/-- The text of a value behind an attribute's equals sign and opening quote. Without a quote it brings
its own. -/
def attributeText (v : Value) (quote? : Option Char) : String :=
  let text :=
    match v with
    | .truth true => ""
    | _ =>
      if !v.isSafe && quote? == some '\'' then
        String.ofList (v.escaped.toList.flatMap escapeApostrophe)
      else v.escaped
  match quote? with
  | some _ => text
  | none => "\"" ++ text ++ "\""

def removesAttribute : Value → Bool
  | .none => true
  | .truth false => true
  | _ => false

def fillPlain (f : Factory) (markup : String) (v : Value) (following : String) :
    Rendering String := do
  match Template.attributePlace? markup.toList with
  | none => return markup ++ (← inline f v) ++ following
  | some place =>
    if removesAttribute v then
      match place.quote? with
      | none => return String.ofList place.before ++ following
      | some q =>
        if following.toList.head? == some q then
          return String.ofList place.before ++ String.ofList (following.toList.drop 1)
        else return markup ++ following
    else return markup ++ attributeText v place.quote? ++ following

def fillLive (markup : String) (v : Value) (slot : Slot) (following : String) :
    Rendering String := do
  let key ← mark v slot
  let anchor :=
    if slot.isAsync then "<span " ++ idAttribute ++ "=\"" ++ key ++ "\"></span>" else key
  return markup ++ anchor ++ following

def fill (f : Factory) (markup : String) : List Value → List (Option Slot) → List String →
    Rendering String
  | v :: values, slot? :: slots, following :: texts => do
    let s ← get
    let markup ←
      match slot? with
      | some slot =>
        if s.isLive slot && !isContent v slot then fillLive markup v slot following
        else fillPlain f markup v following
      | none => fillPlain f markup v following
    fill f markup values slots texts
  | _, _, _ => return markup

end LiveMarkup.Render
