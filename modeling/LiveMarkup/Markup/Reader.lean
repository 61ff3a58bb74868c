import LiveMarkup.Markup.Tag
/-! Reading markup into tokens. Anything that does not end, or is not well formed, becomes text.

Reading goes in two passes. The first stops where markup may be incomplete; the second starts there,
and where it stops again the rest is text. -/
namespace LiveMarkup.Markup.Reader
open Text

inductive Step where
  | advance (tokens : List Token) (raw : Option String) (rest : List Char)
  | halt (tokens : List Token) (rest : List Char)
  deriving DecidableEq, Repr

def textToken (s : List Char) : Token := .text (String.ofList s)

def textTokens (s : List Char) : List Token := if s.isEmpty then [] else [textToken s]

def rawElements : List String := ["script", "style"]

/-- What markup that does not end becomes, in the last pass: text up to the next closing or opening
angle. `s` is the text behind the opening angle. -/
def unfinished (final : Bool) (s : List Char) : Step :=
  if !final then .halt [] ('<' :: s)
  else
    match cut? ['>'] s with
    | some (before, after) => .advance [textToken ('<' :: before ++ ['>'])] none after
    | none =>
      match cut? ['<'] s with
      | some (before, after) => .advance [textToken ('<' :: before)] none ('<' :: after)
      | none => .advance [textToken ['<']] none s

def cutClosing? (pattern : List Char → Option (List Char)) (s : List Char) :
    Option (List Char × List Char) :=
  match pattern s with
  | some rest => some ([], rest)
  | none =>
    match s with
    | [] => none
    | c :: rest => (cutClosing? pattern rest).map fun (before, after) => (c :: before, after)

def blanksThen? (c : Char) (s : List Char) : Option (List Char) :=
  match s.dropWhile isBlank with
  | d :: rest => if d == c then some rest else none
  | [] => none

def commentEnd? : List Char → Option (List Char)
  | '-' :: '-' :: rest => blanksThen? '>' rest
  | _ => none

def sectionEnd? : List Char → Option (List Char)
  | ']' :: rest => (blanksThen? ']' rest).bind (blanksThen? '>')
  | _ => none

def conditionEnd? : List Char → Option (List Char)
  | ']' :: rest => blanksThen? '>' rest
  | _ => none

def isKeywordChar (c : Char) : Bool := c.isAlphanum || c == '-' || c == '_' || c == '.'

def sectionToken (s : List Char) : Token :=
  let mark := s.take 6
  if lower mark == ['c', 'd', 'a', 't', 'a', '['] then .aside .cdata (String.ofList (s.drop 6))
  else .aside .declaration (String.ofList s)

def section? (s : List Char) : Except MarkupError (Option (Token × List Char)) :=
  let keyword := s.takeWhile isKeywordChar
  let gap := (s.dropWhile isKeywordChar).takeWhile isBlank
  let cut (pattern : List Char → Option (List Char)) :=
    .ok ((cutClosing? pattern s).map fun (inside, rest) => (sectionToken inside, rest))
  if s.isEmpty then .ok none
  else if !(s.head?.any Char.isAlpha) then
    .error (.noKeyword (String.ofList (('<' :: '!' :: '[' :: s).take 20)))
  else if keyword.length + gap.length = s.length then .ok none
  else
    let name := Tag.lowerText keyword
    if ["temp", "cdata", "ignore", "include", "rcdata"].contains name then cut sectionEnd?
    else if ["if", "else", "endif"].contains name then cut conditionEnd?
    else .error (.unknownKeyword (String.ofList (keyword ++ gap)))

def declaration? (s : List Char) : Except MarkupError (Option (Token × List Char)) :=
  match s with
  | '[' :: inside => section? inside
  | _ =>
    if lower (s.take 7) == ['d', 'o', 'c', 't', 'y', 'p', 'e'] then
      .ok ((cut? ['>'] (s.drop 7)).map fun (before, after) =>
        (.aside .doctype (String.ofList (before.drop 1)), after))
    else
      .ok ((cut? ['>'] s).map fun (before, after) => (.aside .comment (String.ofList before), after))

def finish (final : Bool) (s : List Char) (read : Option (Token × List Char)) : Step :=
  match read with
  | some (token, rest) => .advance [token] none rest
  | none => unfinished final s

def angle (final : Bool) (s : List Char) : Except MarkupError Step :=
  match s with
  | [] => .ok (.halt [] ['<'])
  | '/' :: rest =>
    match Tag.readEnd? rest with
    | some (tokens, rest) => .ok (.advance tokens none rest)
    | none => .ok (unfinished final s)
  | '!' :: '-' :: '-' :: rest =>
    .ok (finish final s ((cutClosing? commentEnd? rest).map fun (inside, rest) =>
      (.aside .comment (String.ofList inside), rest)))
  | '?' :: rest =>
    .ok (finish final s ((cut? ['>'] rest).map fun (inside, rest) =>
      (.aside .instruction (String.ofList inside), rest)))
  | '!' :: rest => return finish final s (← declaration? rest)
  | c :: _ =>
    if c.isAlpha then
      match Tag.readStart s with
      | .tag (.opening name attributes closed) rest =>
        let raw := if !closed && rawElements.contains name then some name else none
        .ok (.advance [.opening name attributes closed] raw rest)
      | .tag token rest => .ok (.advance [token] none rest)
      | .content rest => .ok (.advance [textToken ('<' :: s.take (s.length - rest.length))] none rest)
      | .incomplete => .ok (unfinished final s)
    else .ok (.advance [textToken ['<']] none s)

def afterReference : List Char → List Char
  | ';' :: rest => rest
  | rest => rest

def nameLengthAtEnd (run : List Char) : Nat :=
  let tail := run.reverse.takeWhile Char.isAlphanum
  run.length - tail.length - 1

def numbered (s : List Char) : Step :=
  let hex := s.head? == some 'x' || s.head? == some 'X'
  let body := if hex then s.drop 1 else s
  let isDigit := if hex then Entity.isHex else Char.isDigit
  let digits := body.takeWhile isDigit
  let rest := body.dropWhile isDigit
  if !digits.isEmpty && rest.head?.any fun c => !Entity.isHex c then
    let n := if hex then readHex (String.ofList digits) else Entity.decimal digits
    .advance [textToken [Entity.numbered n]] none (afterReference rest)
  else if s.contains ';' then .halt [textToken ['&', '#']] s
  else .halt [] ('&' :: '#' :: s)

def ampersand (final : Bool) (s : List Char) : Step :=
  match s with
  | [] => .halt [] ['&']
  | '#' :: rest => numbered rest
  | c :: _ =>
    if c.isAlpha then
      let run := s.takeWhile fun c => c.isAlphanum || c == '-' || c == '.'
      let length := if run.length < s.length then run.length else nameLengthAtEnd run
      if 0 < length then
        let name := run.take length
        let chars := (Entity.named? name).getD ('&' :: name)
        .advance [textToken chars] none (afterReference (s.drop length))
      else if final && s.length = 1 then .halt [] s
      else .halt [] ('&' :: s)
    else .advance [textToken ['&']] none s

/-- Does `s` begin with `word`, in any letter case? The dotless i and the long s count as i and s. -/
def afterWord? : (word : List Char) → List Char → Option (List Char)
  | [], s => some s
  | w :: word, c :: s =>
    if c.toLower == w || (w == 'i' && (c == 'ı' || c == 'İ')) || (w == 's' && c == 'ſ') then
      afterWord? word s
    else none
  | _, [] => none

def rawEnd? (name : String) : List Char → Option (List Char)
  | '<' :: '/' :: s => (afterWord? name.toList (s.dropWhile isBlank)).bind (blanksThen? '>')
  | _ => none

def rawStep (name : String) (s : List Char) : Step :=
  match cutClosing? (rawEnd? name) s with
  | none => .halt [] s
  | some (before, rest) =>
    let written := (s.drop before.length).take (s.length - before.length - rest.length)
    match Tag.plainEnd? (written.drop 2) with
    | some (found, _) =>
      if found == name then .advance (textTokens before ++ [.closing name]) none rest
      else .advance [textToken (before ++ written)] (some name) rest
    | none => .advance [textToken (before ++ written)] (some name) rest

def isOrdinary (c : Char) : Bool := c != '<' && c != '&'

def next (final : Bool) (raw : Option String) (s : List Char) : Except MarkupError Step :=
  match raw with
  | some name => .ok (rawStep name s)
  | none =>
    let before := s.takeWhile isOrdinary
    if !before.isEmpty then .ok (.advance [textToken before] none (s.dropWhile isOrdinary))
    else
      match s with
      | '<' :: rest => angle final rest
      | _ :: rest => .ok (ampersand final rest)
      | [] => .ok (.halt [] [])

structure Pass where
  tokens : List Token
  raw : Option String
  rest : List Char
  deriving DecidableEq, Repr

def pass (final : Bool) : (fuel : Nat) → Option String → List Char → Except MarkupError Pass
  | 0, raw, s => .ok ⟨[], raw, s⟩
  | _ + 1, raw, [] => .ok ⟨[], raw, []⟩
  | fuel + 1, raw, s => do
    match ← next final raw s with
    | .halt tokens rest => return ⟨tokens, raw, rest⟩
    | .advance tokens raw rest =>
      let p ← pass final fuel raw rest
      return { p with tokens := tokens ++ p.tokens }

end Reader

/-- The tokens of a piece of markup. Content of a raw element that does not end is dropped. -/
def readTokens (s : List Char) : Except MarkupError (List Token) := do
  let first ← Reader.pass false s.length none s
  let second ← Reader.pass true first.rest.length first.raw first.rest
  let tail := if second.raw.isSome then [] else Reader.textTokens second.rest
  return first.tokens ++ second.tokens ++ tail

end LiveMarkup.Markup
