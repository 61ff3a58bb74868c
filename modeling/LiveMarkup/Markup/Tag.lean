import LiveMarkup.Markup.Entity
import LiveMarkup.Markup.Token
import LiveMarkup.Text.Blank
import LiveMarkup.Text.Lower
import LiveMarkup.Text.Search
/-! Reading tags. -/
namespace LiveMarkup.Markup.Tag
open Text

def isTagNameChar (c : Char) : Bool :=
  !(c == '\t' || c == '\n' || c == '\r' || c == '\x0c' || c == ' ' || c == '/' || c == '>' ||
    c == '\x00')

def lowerText (s : List Char) : String := String.ofList (lower s)

def skipGap : List Char → List Char
  | '/' :: '>' :: rest => '/' :: '>' :: rest
  | c :: rest => if isBlank c || c == '/' then skipGap rest else c :: rest
  | [] => []

structure Written where
  name : List Char
  value : List Char
  deriving DecidableEq, Repr

def isBareChar (c : Char) : Bool := !(isBlank c || c == '>')

/-- The value behind the name of an attribute and the text behind it. The value is empty if there is
none, or if its opening quote is never closed and a blank stands before it. -/
def valueAndRest (s : List Char) : List Char × List Char :=
  let afterName := s.dropWhile isBlank
  let signs := afterName.takeWhile (· == '=')
  let behind := afterName.drop signs.length
  let start := behind.dropWhile isBlank
  if signs.isEmpty then ([], s)
  else
    match start with
    | [] => ([], [])
    | q :: body =>
      if q == '"' || q == '\'' then
        match cut? [q] body with
        | some (value, rest) => (value, rest)
        | none =>
          if start.length < behind.length then ([], start)
          else if 2 ≤ signs.length then
            ('=' :: start.takeWhile isBareChar, start.dropWhile isBareChar)
          else ([], s)
      else (start.takeWhile isBareChar, start.dropWhile isBareChar)

def mayPrecede (c : Char) : Bool := isBlank c || c == '"' || c == '\'' || c == '/'

def isAttributeStart (c : Char) : Bool := !(isBlank c || c == '/' || c == '>')

def isAttributeChar (c : Char) : Bool := isAttributeStart c && c != '='

def lastBefore (previous : Char) (s rest : List Char) : Char :=
  ((s.take (s.length - rest.length)).getLast?).getD previous

def attributesAndRest : (fuel : Nat) → (previous : Char) → List Char → List Written × List Char
  | 0, _, s => ([], s)
  | _ + 1, _, [] => ([], [])
  | fuel + 1, previous, c :: s =>
    if mayPrecede previous && isAttributeStart c then
      let name := c :: s.takeWhile isAttributeChar
      let (value, behind) := valueAndRest (s.dropWhile isAttributeChar)
      let rest := skipGap behind
      let (more, rest) := attributesAndRest fuel (lastBefore previous (c :: s) rest) rest
      (⟨name, value⟩ :: more, rest)
    else ([], c :: s)

inductive Start where
  | tag (token : Token) (rest : List Char)
  | content (rest : List Char)
  | incomplete
  deriving DecidableEq, Repr

def Written.attribute (a : Written) : String × String :=
  (lowerText a.name, String.ofList (Entity.decode a.value))

def readStart (s : List Char) : Start :=
  let name := s.takeWhile isTagNameChar
  let behind := s.dropWhile isTagNameChar
  let gap := skipGap behind
  let (attributes, rest) := attributesAndRest gap.length (lastBefore 'a' s gap) gap
  let token := Token.opening (lowerText name) (attributes.map (·.attribute))
  match rest.dropWhile isBlank with
  | '>' :: rest => .tag (token false) rest
  | '/' :: '>' :: rest => .tag (token true) rest
  | [] => .incomplete
  | c :: rest => if c.isAlpha || c == '=' || c == '/' then .incomplete else .content (c :: rest)

def plainEnd? (s : List Char) : Option (String × List Char) :=
  let s := s.dropWhile isBlank
  let isPart (c : Char) : Bool := c.isAlphanum || c == '-' || c == '.' || c == ':' || c == '_'
  match s.dropWhile isPart |>.dropWhile isBlank with
  | '>' :: rest => if s.head?.any Char.isAlpha then some (lowerText (s.takeWhile isPart), rest) else none
  | _ => none

/-- Reads the end tag at the front of `s`, the text behind `</`. A tag without a name is a comment.
None means that the tag does not end. -/
def readEnd? (s : List Char) : Option (List Token × List Char) :=
  match cut? ['>'] s with
  | none => none
  | some (before, after) =>
    match plainEnd? s with
    | some (name, rest) => some ([.closing name], rest)
    | none =>
      if s.head?.any Char.isAlpha then
        some ([.closing (lowerText (s.takeWhile isTagNameChar))], after)
      else if before.isEmpty then some ([], after)
      else some ([.aside .comment (String.ofList before)], after)

end LiveMarkup.Markup.Tag
