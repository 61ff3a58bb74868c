import LiveMarkup.Text.Blank
/-! Where a slot stands, as told by the markup before it. -/
namespace LiveMarkup.Template

def isQuote (c : Char) : Bool := c == '"' || c == '\''

def endsInTag (markup : List Char) : Bool :=
  markup.reverse.find? (fun c => c == '<' || c == '>') == some '<'

structure OpenAttribute where
  before : List Char
  quote? : Option Char
  deriving DecidableEq, Repr

def isAttributeNameChar (c : Char) : Bool :=
  !(Text.isBlank c || isQuote c || c == '<' || c == '>' || c == '/' || c == '=')

def quoteAtEnd (reversed : List Char) : Option Char × List Char :=
  match reversed with
  | '\n' :: q :: rest => if isQuote q then (some q, rest) else (none, reversed)
  | q :: rest => if isQuote q then (some q, rest) else (none, reversed)
  | [] => (none, [])

def openAttribute? (markup : List Char) : Option OpenAttribute :=
  let (quote?, rest) := quoteAtEnd markup.reverse
  match rest.dropWhile Text.isBlank with
  | '=' :: rest =>
    let rest := rest.dropWhile Text.isBlank
    match rest.takeWhile isAttributeNameChar, rest.dropWhile isAttributeNameChar with
    | _ :: _, blank :: before =>
      if Text.isBlank blank then some ⟨before.reverse, quote?⟩ else none
    | _, _ => none
  | _ => none

def attributePlace? (markup : List Char) : Option OpenAttribute :=
  if endsInTag markup then openAttribute? markup else none

end LiveMarkup.Template
