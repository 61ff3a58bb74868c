import LiveMarkup.Text.Blank
import Mathlib.Data.List.Basic
/-! The tokenizer of the HTML standard: where it is in the text, the tag it reads and the tags it has
read. Character references never end a value, so they are read as the characters they are written with. -/
namespace LiveMarkup.Standard
open Text

inductive Content where
  | markup
  | raw
  | plain
  | script
  | escaped (dashes : Nat)
  | doubled (dashes : Nat)
  deriving DecidableEq, Repr

inductive Ending where
  | start
  | startDash
  | none
  | dash
  | dashes
  | bang
  deriving DecidableEq, Repr

inductive State where
  | text (content : Content)
  | angle (content : Content)
  | closing (content : Content)
  | closingName (content : Content) (name : List Char)
  | tagName
  | beforeAttribute
  | attributeName
  | afterAttribute
  | beforeValue
  | quoted (quote : Char)
  | unquoted
  | afterValue
  | selfClosing
  | declaration (dash : Bool)
  | skipped
  | comment (ending : Ending)
  | escape (dash : Bool)
  | doubling (name : List Char)
  | undoubling (name : List Char)
  deriving DecidableEq, Repr

structure Tag where
  closing : Bool
  name : List Char
  attributes : List (List Char)
  deriving DecidableEq, Repr

structure Tokenizer where
  state : State
  tag : Tag
  value : List Char
  tags : List Tag
  deriving DecidableEq, Repr

namespace Tokenizer

def start : Tokenizer := ⟨.text .markup, ⟨false, [], []⟩, [], []⟩

def goto (t : Tokenizer) (s : State) : Tokenizer := { t with state := s }

def beginTag (t : Tokenizer) (closing : Bool) (name : List Char) : Tokenizer :=
  { t with state := .tagName, tag := ⟨closing, name, []⟩ }

def contentOf (name : String) : Content :=
  if name = "script" then .script
  else if name = "plaintext" then .plain
  else if name ∈ ["textarea", "title", "style", "xmp", "iframe", "noembed", "noframes", "noscript"] then .raw
  else .markup

def finishTag (t : Tokenizer) : Tokenizer :=
  { t with
    state := .text (if t.tag.closing then .markup else contentOf (String.ofList t.tag.name))
    tags := t.tag :: t.tags }

def extendTag (t : Tokenizer) (c : Char) : Tokenizer :=
  { t with tag := { t.tag with name := t.tag.name ++ [c.toLower] } }

def beginAttribute (t : Tokenizer) (c : Char) : Tokenizer :=
  { t with state := .attributeName, tag := { t.tag with attributes := [c.toLower] :: t.tag.attributes } }

def extendAttribute (t : Tokenizer) (c : Char) : Tokenizer :=
  { t with tag := { t.tag with attributes := t.tag.attributes.modifyHead (· ++ [c.toLower]) } }

def beginValue (t : Tokenizer) (s : State) (value : List Char) : Tokenizer := { t with state := s, value := value }

def extendValue (t : Tokenizer) (c : Char) : Tokenizer := { t with value := t.value ++ [c] }

def inText (t : Tokenizer) (content : Content) (c : Char) : Tokenizer :=
  match content with
  | .plain => t.goto (.text .plain)
  | .escaped n =>
    if c = '-' then t.goto (.text (.escaped (n + 1)))
    else if c = '<' then t.goto (.angle (.escaped 0))
    else if c = '>' ∧ 2 ≤ n then t.goto (.text .script)
    else t.goto (.text (.escaped 0))
  | .doubled n =>
    if c = '-' then t.goto (.text (.doubled (n + 1)))
    else if c = '<' then t.goto (.angle (.doubled 0))
    else if c = '>' ∧ 2 ≤ n then t.goto (.text .script)
    else t.goto (.text (.doubled 0))
  | _ => if c = '<' then t.goto (.angle content) else t.goto (.text content)

def skip (t : Tokenizer) (c : Char) : Tokenizer := if c = '>' then t.goto (.text .markup) else t.goto .skipped

def behindAngle (t : Tokenizer) (content : Content) (c : Char) : Tokenizer :=
  match content with
  | .markup =>
    if c = '!' then t.goto (.declaration false)
    else if c = '/' then t.goto (.closing .markup)
    else if c.isAlpha then t.beginTag false [c.toLower]
    else if c = '?' then t.goto .skipped
    else t.inText .markup c
  | .script =>
    if c = '/' then t.goto (.closing .script)
    else if c = '!' then t.goto (.escape false)
    else t.inText .script c
  | .escaped _ =>
    if c = '/' then t.goto (.closing (.escaped 0))
    else if c.isAlpha then t.goto (.doubling [c.toLower])
    else t.inText (.escaped 0) c
  | .doubled _ => if c = '/' then t.goto (.undoubling []) else t.inText (.doubled 0) c
  | _ => if c = '/' then t.goto (.closing content) else t.inText content c

def behindSlash (t : Tokenizer) (content : Content) (c : Char) : Tokenizer :=
  match content with
  | .markup => if c.isAlpha then t.beginTag true [c.toLower] else t.skip c
  | _ => if c.isAlpha then t.goto (.closingName content [c.toLower]) else t.inText content c

def atAttribute (t : Tokenizer) (c : Char) : Tokenizer :=
  if isMarkupBlank c then t.goto .beforeAttribute
  else if c = '/' then t.goto .selfClosing
  else if c = '>' then t.finishTag
  else t.beginAttribute c

def inClosingName (t : Tokenizer) (content : Content) (name : List Char) (c : Char) : Tokenizer :=
  if c.isAlpha then t.goto (.closingName content (name ++ [c.toLower]))
  else if t.tag.name = name ∧ (isMarkupBlank c ∨ c = '/' ∨ c = '>') then (t.beginTag true name).atAttribute c
  else t.inText content c

def inScriptName (t : Tokenizer) (more : List Char → State) (name : List Char) (found other : Content) (c : Char) :
    Tokenizer :=
  if isMarkupBlank c ∨ c = '/' ∨ c = '>' then
    t.goto (.text (if name = "script".toList then found else other))
  else if c.isAlpha then t.goto (more (name ++ [c.toLower]))
  else t.inText other c

def inComment (t : Tokenizer) (ending : Ending) (c : Char) : Tokenizer :=
  let inside : Tokenizer := t.goto (.comment (if c = '-' then .dash else .none))
  match ending with
  | .start => if c = '-' then t.goto (.comment .startDash) else if c = '>' then t.goto (.text .markup) else inside
  | .startDash => if c = '-' then t.goto (.comment .dashes) else if c = '>' then t.goto (.text .markup) else inside
  | .none => inside
  | .dash => if c = '-' then t.goto (.comment .dashes) else inside
  | .dashes =>
    if c = '>' then t.goto (.text .markup)
    else if c = '!' then t.goto (.comment .bang)
    else if c = '-' then t.goto (.comment .dashes)
    else inside
  | .bang => if c = '>' then t.goto (.text .markup) else inside

def step (t : Tokenizer) (c : Char) : Tokenizer :=
  match t.state with
  | .text content => t.inText content c
  | .angle content => t.behindAngle content c
  | .closing content => t.behindSlash content c
  | .closingName content name => t.inClosingName content name c
  | .tagName =>
    if isMarkupBlank c then t.goto .beforeAttribute
    else if c = '/' then t.goto .selfClosing
    else if c = '>' then t.finishTag
    else t.extendTag c
  | .beforeAttribute => t.atAttribute c
  | .attributeName =>
    if isMarkupBlank c then t.goto .afterAttribute
    else if c = '/' then t.goto .selfClosing
    else if c = '>' then t.finishTag
    else if c = '=' then t.goto .beforeValue
    else t.extendAttribute c
  | .afterAttribute =>
    if isMarkupBlank c then t
    else if c = '/' then t.goto .selfClosing
    else if c = '=' then t.goto .beforeValue
    else if c = '>' then t.finishTag
    else t.beginAttribute c
  | .beforeValue =>
    if isMarkupBlank c then t
    else if c = '"' ∨ c = '\'' then t.beginValue (.quoted c) []
    else if c = '>' then t.finishTag
    else t.beginValue .unquoted [c]
  | .quoted q => if c = q then t.goto .afterValue else t.extendValue c
  | .unquoted =>
    if isMarkupBlank c then t.goto .beforeAttribute
    else if c = '>' then t.finishTag
    else t.extendValue c
  | .afterValue => t.atAttribute c
  | .selfClosing => t.atAttribute c
  | .declaration dash =>
    if c = '-' then t.goto (if dash then .comment .start else .declaration true) else t.skip c
  | .skipped => t.skip c
  | .comment ending => t.inComment ending c
  | .escape dash =>
    if c = '-' then t.goto (if dash then .text (.escaped 2) else .escape true) else t.inText .script c
  | .doubling name => t.inScriptName .doubling name (.doubled 0) (.escaped 0) c
  | .undoubling name => t.inScriptName .undoubling name (.escaped 0) (.doubled 0) c

end Tokenizer

def read (text : List Char) : Tokenizer := text.foldl Tokenizer.step .start

theorem readAppend {a b : List Char} : read (a ++ b) = b.foldl Tokenizer.step (read a) := List.foldl_append

theorem readSnoc {a : List Char} {c : Char} : read (a ++ [c]) = (read a).step c := by
  rw [readAppend]
  rfl

end LiveMarkup.Standard
