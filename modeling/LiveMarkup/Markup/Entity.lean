import LiveMarkup.Markup.EntityTable
import LiveMarkup.Text.Ranges
import LiveMarkup.Text.Search
/-! Character references. In text a name counts as far as it reaches; in an attribute value the
longest known beginning of a name counts, and some names need a closing semicolon. -/
namespace LiveMarkup.Markup.Entity

def readEntry (item : String) : String × List Char :=
  let (name, codes) := Text.cutAt '=' item.toList
  let (first, second) := Text.cutAt '+' codes
  let character (code : List Char) : Char := Char.ofNat (Text.readHex (String.ofList code))
  (String.ofList name, character first :: if second.isEmpty then [] else [character second])

def readAll (text : String) : Array (String × List Char) :=
  ((Text.words text).map readEntry).toArray

def search (entries : Array (String × List Char)) (name : String) (low count : Nat) :
    Option (List Char) :=
  if count = 0 then none
  else
    let middle := low + count / 2
    match entries[middle]? with
    | none => none
    | some (key, chars) =>
      if name < key then search entries name low (count / 2)
      else if key < name then search entries name (middle + 1) (count - count / 2 - 1)
      else some chars
termination_by count

def entries : Array (String × List Char) := readAll Table.entities

def named? (name : List Char) : Option (List Char) :=
  match name with
  | ['a', 'm', 'p'] => some ['&']
  | ['l', 't'] => some ['<']
  | ['g', 't'] => some ['>']
  | ['q', 'u', 'o', 't'] => some ['"']
  | _ => search entries (String.ofList name) 0 entries.size

def openNames : List (List Char) := (Text.words Table.openEntities).map String.toList

def openNamed? (name : List Char) : Option (List Char) :=
  if openNames.contains name then named? name else none

def legacyCharacters : List Nat :=
  [0x20ac, 0x81, 0x201a, 0x192, 0x201e, 0x2026, 0x2020, 0x2021, 0x2c6, 0x2030, 0x160, 0x2039, 0x152,
   0x8d, 0x17d, 0x8f, 0x90, 0x2018, 0x2019, 0x201c, 0x201d, 0x2022, 0x2013, 0x2014, 0x2dc, 0x2122,
   0x161, 0x203a, 0x153, 0x9d, 0x17e, 0x178]

def legacy? (n : Nat) : Option Char :=
  if n < 128 then none else (legacyCharacters[n - 128]?).map Char.ofNat

def character (n : Nat) : Char := if n.isValidChar then Char.ofNat n else '\ufffd'

def numbered (n : Nat) : Char := (legacy? n).getD (character n)

def isUnwanted (n : Nat) : Bool :=
  (1 ≤ n && n ≤ 8) || n == 11 || (14 ≤ n && n ≤ 31) || n == 127 || (0xfdd0 ≤ n && n ≤ 0xfdef) ||
  (n % 0x10000 == 0xfffe) || (n % 0x10000 == 0xffff)

def numberedInAttribute (n : Nat) : List Char :=
  if n = 0 then ['\ufffd']
  else
    match legacy? n with
    | some c => [c]
    | none =>
      if 0x10ffff < n then ['\ufffd'] else if isUnwanted n then [] else [character n]

def decimal (digits : List Char) : Nat :=
  digits.foldl (fun n c => 10 * n + (c.toNat - '0'.toNat)) 0

def isHex (c : Char) : Bool := (Text.hexValue? c).isSome

def digitsAndRest (isDigit : Char → Bool) (s : List Char) : List Char × List Char :=
  let rest := s.dropWhile isDigit
  (s.takeWhile isDigit, if rest.head? == some ';' then rest.drop 1 else rest)

def isNameChar (c : Char) : Bool :=
  !(c == '\t' || c == '\n' || c == '\x0c' || c == ' ' || c == '<' || c == '&' || c == '#' || c == ';')

def openStart? (name : List Char) : (length : Nat) → Option (List Char × List Char)
  | 0 => none
  | 1 => none
  | length + 1 =>
    match openNamed? (name.take (length + 1)) with
    | some chars => some (chars, name.drop (length + 1))
    | none => openStart? name length

def inAttribute? (s : List Char) : Option (List Char × List Char) :=
  match s with
  | '#' :: x :: rest =>
    if x.isDigit then
      let (digits, rest) := digitsAndRest Char.isDigit (x :: rest)
      some (numberedInAttribute (decimal digits), rest)
    else if (x == 'x' || x == 'X') && rest.head?.any isHex then
      let (digits, rest) := digitsAndRest isHex rest
      some (numberedInAttribute (Text.readHex (String.ofList digits)), rest)
    else none
  | _ =>
    let name := (s.take 32).takeWhile isNameChar
    let rest := s.drop name.length
    let closed := rest.head? == some ';' && !name.isEmpty
    let rest := if closed then rest.drop 1 else rest
    let whole := if closed then named? name else openNamed? name
    match whole with
    | some chars => some (chars, rest)
    | none =>
      let written := if closed then name ++ [';'] else name
      match openStart? written (written.length - 1) with
      | some (chars, more) => some (chars ++ more, rest)
      | none => none

def decodeFrom : (fuel : Nat) → List Char → List Char
  | 0, _ => []
  | _ + 1, [] => []
  | fuel + 1, '&' :: s =>
    match inAttribute? s with
    | some (chars, rest) => chars ++ decodeFrom fuel rest
    | none => '&' :: decodeFrom fuel s
  | fuel + 1, c :: s => c :: decodeFrom fuel s

def decode (s : List Char) : List Char := decodeFrom s.length s

end LiveMarkup.Markup.Entity
