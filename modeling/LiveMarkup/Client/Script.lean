import LiveMarkup.Client.Receiver
import LiveMarkup.Client.Record
import LiveMarkup.Text.Name
import LiveMarkup.Value.Literal
/-! The script that keeps a rendered component live. It declares a local variable for each field,
finds the elements, and installs bindings, handlers and promise chains. -/
namespace LiveMarkup.Client

def reservedWords : List String :=
  ["arguments", "await", "break", "case", "catch", "class", "const",
   "continue", "debugger", "default", "delete", "do", "else", "enum",
   "eval", "export", "extends", "false", "finally", "for", "function",
   "if", "implements", "import", "in", "instanceof", "interface", "let",
   "new", "null", "package", "private", "protected", "public", "return",
   "static", "super", "switch", "this", "throw", "true", "try", "typeof",
   "undefined", "var", "void", "while", "with", "yield"]

def helperNames : List String :=
  ["document", "html", "fetch", "__update", "__attr", "__esc", "__piece", "__fill"]

def isVariable (name : String) : Bool :=
  Text.isName name.toList && !reservedWords.contains name && !helperNames.contains name

inductive ScriptError where
  | unusable (className field : String)
  | missing (className field : String)
  | noLiteral (className field typeName : String) (cause : Value.LiteralError)
  deriving DecidableEq, Repr

namespace ScriptError

def message : ScriptError → String
  | unusable className field =>
    "Field '" ++ field ++ "' of " ++ className ++ " cannot be used as a client-side variable name"
  | missing className field => className ++ " has no field '" ++ field ++ "' to hydrate"
  | noLiteral className field typeName cause =>
    "Field '" ++ field ++ "' of " ++ className ++ " holds a " ++ typeName ++
      ", which has no literal form: " ++ cause.message

end ScriptError

def fieldLiteral (c : Component) (name : String) : Except ScriptError String :=
  if !isVariable name then .error (.unusable c.className name)
  else
    match c.get? name with
    | none => .error (.missing c.className name)
    | some v =>
      match v.literal with
      | .ok s => .ok (String.ofList (Text.Json.guardClosing s.toList))
      | .error e => .error (.noLiteral c.className name v.typeName e)

def declareField (c : Component) (name : String) : Except ScriptError String := do
  return "  let " ++ name ++ " = " ++ (← fieldLiteral c name) ++ ";\n"

def lookUp (id : String) : String :=
  "  const " ++ id ++ " = document.querySelector('[" ++ idAttribute ++ "=\"" ++ id ++ "\"]');\n"

def attributeHelper : String :=
  "  function __attr(el, name, v) \x7b
    if (v === false || v == null) el.removeAttribute(name);
    else el.setAttribute(name, v === true ? \"\" : v);
  \x7d
"

def asyncHelpers : String :=
  "  function __esc(s) \x7b
    return s.replace(/&/g, \"&amp;\").replace(/</g, \"&lt;\").replace(/>/g, \"&gt;\").replace(/\"/g, \"&quot;\");
  \x7d
  function __piece(v) \x7b
    if (v === false || v == null) return \"\";
    if (Array.isArray(v)) return v.map(__piece).join(\"\");
    if (v.__html !== undefined) return v.__html;
    return __esc(String(v));
  \x7d
  function html(t, ...vs) \x7b
    let i = 0;
    return \x7b __html: t.replace(/\\\x7b\\\x7b|\\\x7d\\\x7d|\\\x7b\\\x7d/g, (m) => (m === \"\x7b\x7d\" ? __piece(vs[i++]) : m[0])) \x7d;
  \x7d
  function __fill(el, v) \x7b
    if (v != null && v.__html !== undefined) el.innerHTML = v.__html;
    else el.textContent = v == null ? \"\" : String(v);
  \x7d
"

def Binding.statement (b : Binding) : String :=
  match b.attribute? with
  | none => "    " ++ b.id ++ ".textContent = " ++ stripReceiver b.source ++ ";\n"
  | some name =>
    "    __attr(" ++ b.id ++ ", " ++ Text.jsString name ++ ", " ++ stripReceiver b.source ++ ");\n"

def Handler.statement (h : Handler) : String :=
  "  " ++ h.id ++ "." ++ h.event ++ " = (" ++ ", ".intercalate h.params ++ ") => \x7b " ++
    stripReceiver h.source ++ "; __update(); \x7d;\n"

def AsyncBinding.statement (a : AsyncBinding) : String :=
  "  " ++ stripReceiver a.promise ++ "\n    .then(" ++ stripReceiver a.thenCallback ++
    ")\n    .then((r) => __fill(" ++ a.id ++ ", r))" ++
    (match a.catchCallback? with
      | none => ""
      | some g => "\n    .catch((e) => __fill(" ++ a.id ++ ", (" ++ stripReceiver g ++ ")(e)))") ++
    ";\n"

def script (c : Component) (r : Records) : Except ScriptError String := do
  let fields ← (distinct r.mentions).mapM (declareField c)
  return "\n<script>\n(function() \x7b\n" ++ String.join fields ++
    String.join ((distinct r.ids).map lookUp) ++
    (if r.bindings.any (·.attribute?.isSome) then attributeHelper else "") ++
    (if r.asyncBindings.isEmpty then "" else asyncHelpers) ++
    "  function __update() \x7b\n" ++ String.join (r.bindings.map (·.statement)) ++ "  \x7d\n" ++
    String.join (r.handlers.map (·.statement)) ++
    String.join (r.asyncBindings.map (·.statement)) ++ "\x7d)();\n</script>"

end LiveMarkup.Client
