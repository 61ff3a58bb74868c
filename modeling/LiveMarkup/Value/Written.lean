import LiveMarkup.Number.Shortest
import LiveMarkup.Text.Quoted
import LiveMarkup.Value.Basic
/-! Values written as text. Inside another value a text stands in quotes. -/
namespace LiveMarkup.Value

def bracketed (left : String) (items : List String) (right : String) : String :=
  left ++ ", ".intercalate items ++ right

def writeLink : Link → String
  | .onSuccess => ".then(...)"
  | .onFailure => ".catch(...)"

def writePromise (args : List String) (chain : List Link) : String :=
  "<ClientPromise fetch" ++ bracketed "(" args ")" ++ String.join (chain.map writeLink) ++ ">"

mutual

def written : Value → String
  | none => "None"
  | truth b => if b then "True" else "False"
  | whole n => toString n
  | real x => x.write
  | text s => Text.quoted s
  | bytes data => String.ofList (Text.Quoted.encodeBytes data)
  | list items => bracketed "[" (writtenAll items) "]"
  | tuple [item] => "(" ++ written item ++ ",)"
  | tuple items => bracketed "(" (writtenAll items) ")"
  | generator _ => "<generator>"
  | set [] => "set()"
  | set items => bracketed "\x7b" (writtenAll items) "\x7d"
  | dict entries => bracketed "\x7b" (writtenEntries entries) "\x7d"
  | markup s => "Markup(" ++ Text.quoted s ++ ")"
  | rendered s .. => "Rendered(" ++ Text.quoted s ++ ")"
  | safe _ => "<Safe>"
  | object kind => "<" ++ kind ++ ">"
  | promise url options chain =>
    match options with
    | some .none | Option.none => writePromise [written url] chain
    | some o => writePromise [written url, written o] chain
  | component c => "<" ++ c.className ++ ">"

def writtenAll : List Value → List String
  | [] => []
  | v :: rest => written v :: writtenAll rest

def writtenEntries : List (Value × Value) → List String
  | [] => []
  | (k, v) :: rest => (written k ++ ": " ++ written v) :: writtenEntries rest

end

def plain : Value → String
  | text s => s
  | markup s => s
  | rendered s .. => s
  | v => v.written

end LiveMarkup.Value
