import LiveMarkup.Markup.Reader
/-! The tree of a piece of markup. There are no implied end tags: an end tag closes everything up to
its own element, one without an open element is ignored, and the rest is closed at the end. -/
namespace LiveMarkup.Markup

/-- An attribute. `written?` is what is written instead of the value, as long as nobody sets it. -/
structure Attribute where
  name : String
  value : String
  written? : Option String := none
  deriving DecidableEq, Repr

inductive TextKind where
  | plain
  | hidden
  | aside (kind : Aside)
  deriving DecidableEq, Repr

inductive Node where
  | text (kind : TextKind) (s : String)
  | element (name : String) (attributes : List Attribute) (children : List Node)
  deriving Repr

namespace Attribute

def get? (attributes : List Attribute) (name : String) : Option String :=
  (attributes.find? (·.name == name)).map (·.value)

def put (name value : String) : List Attribute → List Attribute
  | [] => [{ name, value }]
  | a :: rest => if a.name == name then { name, value } :: rest else a :: put name value rest

def erase (name : String) (attributes : List Attribute) : List Attribute :=
  attributes.filter (·.name != name)

def ofWritten (written : List (String × String)) : List Attribute :=
  written.foldl (fun done (name, value) => put name value done) []

def encoding : List Char := ['u', 't', 'f', '-', '8']

/-- Names the page's own encoding in every `charset=` that begins the text, a line, or follows a blank
or a semicolon; none if there is no such place. `lineStart` tells whether a line begins here. -/
def renameCharset : (fuel : Nat) → (lineStart : Bool) → List Char → Option (List Char)
  | 0, _, _ => none
  | fuel + 1, lineStart, s =>
    let key := "charset=".toList
    let value (lead : List Char) (s : List Char) : Option (List Char) :=
      let rest := (s.drop key.length).dropWhile (· != ';')
      let last := ((s.take (s.length - rest.length)).getLast?).getD '='
      some (lead ++ key ++ encoding ++ (renameCharset fuel (last == '\n') rest).getD rest)
    if lineStart && key.isPrefixOf s then value [] s
    else
      match s with
      | [] => none
      | c :: rest =>
        if (Text.isBlank c || c == ';') && key.isPrefixOf rest then value [c] rest
        else (renameCharset fuel (c == '\n') rest).map (c :: ·)

def declareEncoding (attributes : List Attribute) : List Attribute :=
  let setWritten (name : String) (text : List Char) :=
    attributes.map fun a =>
      if a.name == name then { a with written? := some (String.ofList text) } else a
  match get? attributes "charset" with
  | some _ => setWritten "charset" encoding
  | none =>
    match get? attributes "content", get? attributes "http-equiv" with
    | some content, some kind =>
      if Text.lower kind.toList == "content-type".toList then
        match renameCharset (content.length + 1) true content.toList with
        | some text => setWritten "content" text
        | none => attributes
      else attributes
    | _, _ => attributes

end Attribute

def voidElements : List String :=
  ["area", "base", "br", "col", "embed", "hr", "img", "input", "keygen", "link", "menuitem", "meta",
   "param", "source", "track", "wbr", "basefont", "bgsound", "command", "frame", "image", "isindex",
   "nextid", "spacer"]

def isVoid (name : String) : Bool := voidElements.contains name

def keepsBlanks (name : String) : Bool := name == "pre" || name == "textarea"

def hidesText (name : String) : Bool :=
  ["script", "style", "template", "rt", "rp"].contains name

namespace Tree

structure Open where
  name : String
  attributes : List Attribute
  children : List Node
  deriving Repr

structure State where
  stack : List Open := []
  top : List Node := []
  pending : Option (List Char) := none
  ended : List String := []
  deriving Repr

namespace State

def add (node : Node) (s : State) : State :=
  match s.stack with
  | [] => { s with top := node :: s.top }
  | o :: rest => { s with stack := { o with children := node :: o.children } :: rest }

def shrink (text : List Char) : List Char :=
  if text.all Text.isMarkupBlank then if text.contains '\n' then ['\n'] else [' '] else text

def addText (kind : TextKind) (text : List Char) (s : State) : State :=
  let text := if s.stack.any (keepsBlanks ·.name) then text else shrink text
  let kind := match kind with
    | .plain => if s.stack.any (hidesText ·.name) then .hidden else .plain
    | k => k
  s.add (.text kind (String.ofList text))

def flush (s : State) : State :=
  match s.pending with
  | none => s
  | some text => { s with pending := none }.addText .plain text

def pop (s : State) : State :=
  match s.stack with
  | [] => s
  | o :: rest => { s with stack := rest }.add (.element o.name o.attributes o.children.reverse)

def popMany (s : State) : Nat → State
  | 0 => s
  | count + 1 => popMany s.pop count

def push (name : String) (attributes : List Attribute) (s : State) : State :=
  { s with stack := ⟨name, attributes, []⟩ :: s.stack }

def step (s : State) : Token → State
  | .text t => { s with pending := some (s.pending.getD [] ++ t.toList) }
  | .aside kind t => s.flush.addText (.aside kind) t.toList
  | .opening name written closed =>
    let attributes := Attribute.ofWritten written
    let attributes := if name == "meta" then Attribute.declareEncoding attributes else attributes
    let opened := s.flush.push name attributes
    if closed then opened.pop
    else if isVoid name then { opened.pop with ended := name :: opened.ended }
    else opened
  | .closing name =>
    if s.ended.contains name then { s with ended := s.ended.erase name }
    else
      let s := s.flush
      if s.stack.any (·.name == name) then
        s.popMany ((s.stack.takeWhile (·.name != name)).length + 1)
      else s

end State

def ofTokens (tokens : List Token) : List Node :=
  let s := (tokens.foldl State.step {}).flush
  (s.popMany s.stack.length).top.reverse

end Tree

def readTree (s : String) : Except MarkupError (List Node) := do
  return Tree.ofTokens (← readTokens s.toList)

end LiveMarkup.Markup
