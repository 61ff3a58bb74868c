/-! Templates: static text with `{}` slots, where `{{` and `}}` stand for braces. -/
namespace LiveMarkup.Template

inductive BraceError where
  | loneClosing
  | loneOpening
  | openingInName
  | endInName
  | endBeforeConversion
  | afterConversion
  | endInFormat
  | notBare (name : List Char)
  deriving DecidableEq, Repr

namespace BraceError

def message : BraceError → String
  | loneClosing => "Single '\x7d' encountered in format string"
  | loneOpening => "Single '\x7b' encountered in format string"
  | openingInName => "unexpected '\x7b' in field name"
  | endInName => "expected '\x7d' before end of string"
  | endBeforeConversion => "end of string while looking for conversion specifier"
  | afterConversion => "expected ':' after conversion specifier"
  | endInFormat => "unmatched '\x7b' in format spec"
  | notBare name =>
    "Only bare \x7b\x7d slots are supported in templates, found \x7b" ++ String.ofList name ++ "\x7d"

end BraceError

structure Field where
  name : List Char
  conversion : Option Char
  format : List Char
  deriving DecidableEq, Repr

def formatText (depth : Nat) (done : List Char) : List Char → Except BraceError (List Char × List Char)
  | [] => .error .endInFormat
  | '\x7b' :: rest => formatText (depth + 1) ('\x7b' :: done) rest
  | '\x7d' :: rest =>
    if depth = 0 then .ok (done.reverse, rest) else formatText (depth - 1) ('\x7d' :: done) rest
  | c :: rest => formatText depth (c :: done) rest

def fieldName (bracketed : Bool) (done : List Char) : List Char →
    Except BraceError (List Char × Char × List Char)
  | [] => .error .endInName
  | c :: rest =>
    if bracketed then fieldName (c != ']') (c :: done) rest
    else if c == '\x7b' then .error .openingInName
    else if c == '\x7d' || c == ':' || c == '!' then .ok (done.reverse, c, rest)
    else fieldName (c == '[') (c :: done) rest

def field (s : List Char) : Except BraceError (Field × List Char) := do
  let (name, ending, rest) ← fieldName false [] s
  if ending == '\x7d' then return (⟨name, none, []⟩, rest)
  if ending == ':' then
    let (format, rest) ← formatText 0 [] rest
    return (⟨name, none, format⟩, rest)
  match rest with
  | [] => throw .endBeforeConversion
  | c :: rest =>
    -- The null character counts as no conversion.
    let conversion := if c == '\x00' then none else some c
    match rest with
    | '\x7d' :: rest => return (⟨name, conversion, []⟩, rest)
    | ':' :: rest =>
      let (format, rest) ← formatText 0 [] rest
      return (⟨name, conversion, format⟩, rest)
    | [] => throw .endInFormat
    | _ => throw .afterConversion

def fieldError (s : List Char) : BraceError :=
  match field s with
  | .error e => e
  | .ok (f, _) => .notBare f.name

def consFirst (c : Char) : List (List Char) → List (List Char)
  | [] => [[c]]
  | segment :: rest => (c :: segment) :: rest

/-- The static texts around the slots, one more than there are slots. Besides `{}`, a slot may carry an
empty format or an empty conversion. -/
def segments : List Char → Except BraceError (List (List Char))
  | [] => .ok [[]]
  | '\x7b' :: '\x7b' :: rest => (segments rest).map (consFirst '\x7b')
  | '\x7d' :: '\x7d' :: rest => (segments rest).map (consFirst '\x7d')
  | '\x7d' :: _ => .error .loneClosing
  | '\x7b' :: '\x7d' :: rest => (segments rest).map ([] :: ·)
  | '\x7b' :: ':' :: '\x7d' :: rest => (segments rest).map ([] :: ·)
  | '\x7b' :: '!' :: '\x00' :: '\x7d' :: rest => (segments rest).map ([] :: ·)
  | '\x7b' :: '!' :: '\x00' :: ':' :: '\x7d' :: rest => (segments rest).map ([] :: ·)
  | ['\x7b'] => .error .loneOpening
  | '\x7b' :: rest => .error (fieldError rest)
  | c :: rest => (segments rest).map (consFirst c)

def split (template : String) : Except BraceError (List String) :=
  (segments template.toList).map (·.map String.ofList)

end LiveMarkup.Template
