import LiveMarkup.Number.Decimal
import LiveMarkup.Text.Ranges
import LiveMarkup.Text.Word
import LiveMarkup.Value.Written
/-! Values written in a given layout: fill, alignment, sign, width, separators, precision and kind. -/
namespace LiveMarkup

inductive Alignment where
  | left
  | right
  | center
  | afterSign
  deriving DecidableEq, Repr

inductive SignRule where
  | plus
  | blank
  | minus
  deriving DecidableEq, Repr

structure Layout where
  fill? : Option Char := none
  alignment? : Option Alignment := none
  sign? : Option SignRule := none
  plainZero : Bool := false
  alternate : Bool := false
  width : Nat := 0
  separator? : Option Char := none
  precision? : Option Nat := none
  kind? : Option Char := none
  deriving DecidableEq, Repr

inductive LayoutPart where
  | sign
  | blank
  | plainZero
  | alternate
  | afterSign
  | precision
  deriving DecidableEq, Repr

inductive LayoutTarget where
  | text
  | whole
  | character
  deriving DecidableEq, Repr

inductive LayoutError where
  | tooManyDigits
  | bothSeparators
  | noPrecision
  | malformed (layout : List Char) (typeName : String)
  | separatorWith (kind separator : Char)
  | unknownKind (kind : Char) (typeName : String)
  | refused (part : LayoutPart) (target : LayoutTarget)
  | unsupported (typeName : String)
  | noCharacter
  | hugeCharacter
  | tooLarge
  deriving DecidableEq, Repr

namespace LayoutPart

def name : LayoutPart → String
  | sign => "Sign"
  | blank => "Space"
  | plainZero => "Negative zero coercion (z)"
  | alternate => "Alternate form (#)"
  | afterSign => "'=' alignment"
  | precision => "Precision"

end LayoutPart

namespace LayoutTarget

def place : LayoutTarget → String
  | text => "in string format specifier"
  | whole => "in integer format specifier"
  | character => "with integer format specifier 'c'"

end LayoutTarget

def digitsIn (base : Nat) (n : Nat) : List Char :=
  (Nat.toDigits base n)

def codeText (c : Char) : String :=
  if 32 < c.toNat ∧ c.toNat < 128 then String.singleton c
  else "\\x" ++ String.ofList (digitsIn 16 c.toNat)

namespace LayoutError

def message : LayoutError → String
  | tooManyDigits => "Too many decimal digits in format string"
  | bothSeparators => "Cannot specify both ',' and '_'."
  | noPrecision => "Format specifier missing precision"
  | malformed layout typeName =>
    "Invalid format specifier '" ++ String.ofList layout ++ "' for object of type '" ++ typeName ++ "'"
  | separatorWith kind separator =>
    "Cannot specify '" ++ String.singleton separator ++ "' with '" ++ codeText kind ++ "'."
  | unknownKind kind typeName =>
    "Unknown format code '" ++ codeText kind ++ "' for object of type '" ++ typeName ++ "'"
  | refused part target => part.name ++ " not allowed " ++ target.place
  | unsupported typeName => "unsupported format string passed to " ++ typeName ++ ".__format__"
  | noCharacter => "%c arg not in range(0x110000)"
  | hugeCharacter => "Python int too large to convert to C long"
  | tooLarge => "int too large to convert to float"

end LayoutError

namespace Layout

def alignmentOf? : Char → Option Alignment
  | '<' => some .left
  | '>' => some .right
  | '^' => some .center
  | '=' => some .afterSign
  | _ => none

def greatestNumber : Nat := Nat.pow 2 63 - 1

def number? (s : List Char) : Except LayoutError (Option Nat × List Char) :=
  let digits := s.takeWhile Text.isDigit
  if digits.isEmpty then .ok (none, s)
  else
    let n := Text.readDigits digits
    if greatestNumber < n then .error .tooManyDigits
    else .ok (some n, s.dropWhile Text.isDigit)

def skip (c : Char) (s : List Char) : Bool × List Char :=
  if s.head? == some c then (true, s.drop 1) else (false, s)

def readAlignment (l : Layout) (s : List Char) : Layout × List Char :=
  match s with
  | fill :: a :: rest =>
    match alignmentOf? a with
    | some a => ({ l with fill? := some fill, alignment? := some a }, rest)
    | none =>
      match alignmentOf? fill with
      | some f => ({ l with alignment? := some f }, a :: rest)
      | none => (l, s)
  | [a] =>
    match alignmentOf? a with
    | some a => ({ l with alignment? := some a }, [])
    | none => (l, s)
  | [] => (l, s)

def readSign (l : Layout) (s : List Char) : Layout × List Char :=
  match s with
  | '+' :: rest => ({ l with sign? := some .plus }, rest)
  | ' ' :: rest => ({ l with sign? := some .blank }, rest)
  | '-' :: rest => ({ l with sign? := some .minus }, rest)
  | _ => (l, s)

def mayGroup (kind : Char) (separator : Char) : Bool :=
  ['d', 'e', 'f', 'g', 'E', 'G', '%', 'F'].contains kind ||
  (separator == '_' && ['b', 'o', 'x', 'X'].contains kind)

def read (typeName : String) (numeric : Bool) (layout : List Char) : Except LayoutError Layout := do
  let (l, s) := readAlignment {} layout
  let (l, s) := readSign l s
  let (plainZero, s) := skip 'z' s
  let (alternate, s) := skip '#' s
  let (zero, s) := if l.fill?.isNone then skip '0' s else (false, s)
  let l := { l with plainZero, alternate }
  let l :=
    if zero then
      { l with
        fill? := some '0'
        alignment? := if l.alignment?.isNone && numeric then some .afterSign else l.alignment? }
    else l
  let (width?, s) ← number? s
  let (comma, s) := skip ',' s
  let (line, s) := skip '_' s
  if line && (comma || s.head? == some ',') then throw .bothSeparators
  let l := { l with
    width := width?.getD 0
    separator? := if comma then some ',' else if line then some '_' else none }
  let (l, s) ←
    match s with
    | '.' :: rest =>
      match ← number? rest with
      | (none, _) => throw .noPrecision
      | (some n, rest) => pure ({ l with precision? := some n }, rest)
    | _ => pure (l, s)
  let l ←
    match s with
    | [] => pure l
    | [kind] => pure { l with kind? := some kind }
    | _ => throw (.malformed layout typeName)
  let grouped := l.kind? <|> (if numeric then none else some 's')
  match l.separator?, grouped with
  | some separator, some kind => if !mayGroup kind separator then throw (.separatorWith kind separator)
  | _, _ => pure ()
  return l

def pad (l : Layout) (default : Alignment) (lead body : List Char) : List Char :=
  let missing := l.width - lead.length - body.length
  let fill (n : Nat) := List.replicate n (l.fill?.getD ' ')
  match l.alignment?.getD default with
  | .left => lead ++ body ++ fill missing
  | .right => fill missing ++ lead ++ body
  | .center => fill (missing / 2) ++ lead ++ body ++ fill (missing - missing / 2)
  | .afterSign => lead ++ fill missing ++ body

def group (separator : Char) (size : Nat) (digits : List Char) : List Char :=
  (go digits.reverse 0).reverse
where
  go : List Char → Nat → List Char
    | [], _ => []
    | c :: rest, count =>
      if count = size then separator :: c :: go rest 1 else c :: go rest (count + 1)

def groupUpTo (separator : Char) (size least : Nat) : (fuel : Nat) → List Char → List Char
  | 0, digits => group separator size digits
  | fuel + 1, digits =>
    let grouped := group separator size digits
    if least ≤ grouped.length then grouped else groupUpTo separator size least fuel ('0' :: digits)

def signText (l : Layout) (negative : Bool) : List Char :=
  if negative then ['-']
  else
    match l.sign? with
    | some .plus => ['+']
    | some .blank => [' ']
    | _ => []

def assemble (l : Layout) (negative : Bool) (mark digits tail : List Char) (groupSize : Nat) :
    List Char :=
  let lead := l.signText negative ++ mark
  let zeros := l.fill? == some '0' && l.alignment? == some .afterSign
  let digits :=
    match l.separator? with
    | none => digits
    | some separator =>
      let least := if zeros then l.width - lead.length - tail.length else 0
      groupUpTo separator groupSize least least digits
  l.pad .right lead (digits ++ tail)

def layText (l : Layout) (typeName s : String) : Except LayoutError String := do
  match l.kind? with
  | some 's' | none => pure ()
  | some kind => throw (.unknownKind kind typeName)
  match l.sign? with
  | some .blank => throw (.refused .blank .text)
  | some _ => throw (.refused .sign .text)
  | none => pure ()
  if l.plainZero then throw (.refused .plainZero .text)
  if l.alternate then throw (.refused .alternate .text)
  if l.alignment? == some .afterSign then throw (.refused .afterSign .text)
  let chars := match l.precision? with
    | some n => s.toList.take n
    | none => s.toList
  return String.ofList (l.pad .left [] chars)

def pointed (alternate : Bool) (written : List Char) : List Char :=
  if alternate && !written.contains '.' then
    written.takeWhile Char.isDigit ++ '.' :: written.dropWhile Char.isDigit
  else written

def layReal (l : Layout) (typeName : String) (x : Binary64) : Except LayoutError String := do
  match l.kind? with
  | some kind =>
    if !(['e', 'E', 'f', 'F', 'g', 'G', 'n', '%'].contains kind) then
      throw (.unknownKind kind typeName)
  | none => pure ()
  let kind := l.kind?.getD ' '
  let x := if kind == '%' then x.percent else x
  let upper := kind == 'E' || kind == 'F' || kind == 'G'
  let mark := if upper then 'E' else 'e'
  let body (num den : Nat) : List Char :=
    match kind, l.precision? with
    | ' ', none => pointed l.alternate (Binary64.ofRatio false num den).write.toList
    | ' ', some p => Binary64.writeGeneral num den (max p 1) l.alternate true mark
    | 'e', p | 'E', p => Binary64.writeScientific num den (p.getD 6) l.alternate mark
    | 'g', p | 'G', p | 'n', p =>
      Binary64.writeGeneral num den (max (p.getD 6) 1) l.alternate false mark
    | _, p => Binary64.writeFixed num den (p.getD 6) l.alternate
  let written :=
    match x.size? with
    | some (num, den) => body num den
    | none =>
      let name := (match x with | .undefined => "nan" | _ => "inf").toList
      if upper then name.map Char.toUpper else name
  let isZero := written.all fun c => !c.isDigit || c == '0' || c == 'e' || c == 'E'
  let negative := x.isNegative && !(l.plainZero && isZero && x.size?.isSome)
  let whole := written.takeWhile Char.isDigit
  let tail := written.dropWhile Char.isDigit ++ (if kind == '%' then ['%'] else [])
  if x.size?.isSome then return String.ofList (l.assemble negative [] whole tail 3)
  let ungrouped := { l with separator? := none }
  return String.ofList (ungrouped.assemble negative [] [] tail 3)

def layWhole (l : Layout) (typeName : String) (n : Int) : Except LayoutError String := do
  let kind := l.kind?.getD 'd'
  if ['e', 'E', 'f', 'F', 'g', 'G', '%'].contains kind then
    match Binary64.ofInt n with
    | .infinite _ => throw .tooLarge
    | x => layReal l typeName x
  else if !(['b', 'c', 'd', 'o', 'x', 'X', 'n'].contains kind) then
    throw (.unknownKind kind typeName)
  else
    if l.precision?.isSome then throw (.refused .precision .whole)
    if l.plainZero then throw (.refused .plainZero .whole)
    if kind == 'c' then
      if l.sign?.isSome then throw (.refused .sign .character)
      if l.alternate then throw (.refused .alternate .character)
      if n < -greatestNumber - 1 ∨ greatestNumber < n then throw .hugeCharacter
      if n < 0 ∨ 0x10ffff < n then throw .noCharacter
      return String.ofList (l.pad .right [] [Char.ofNat n.toNat])
    let (base, mark) : Nat × List Char := match kind with
      | 'b' => (2, ['0', 'b'])
      | 'o' => (8, ['0', 'o'])
      | 'x' => (16, ['0', 'x'])
      | 'X' => (16, ['0', 'X'])
      | _ => (10, [])
    let digits := digitsIn base n.natAbs
    let digits := if kind == 'X' then digits.map Char.toUpper else digits
    let groupSize := if base = 10 then 3 else 4
    return String.ofList
      (l.assemble (decide (n < 0)) (if l.alternate then mark else []) digits [] groupSize)

end Layout

def Value.layOut (v : Value) (layout : List Char) : Except LayoutError String := do
  if layout.isEmpty then return v.plain
  match v with
  | text s => Layout.layText (← Layout.read "str" false layout) "str" s
  | markup s => Layout.layText (← Layout.read "str" false layout) "str" s
  | rendered s .. => Layout.layText (← Layout.read "str" false layout) "str" s
  | whole n => Layout.layWhole (← Layout.read "int" true layout) "int" n
  | truth b => Layout.layWhole (← Layout.read "bool" true layout) "bool" (if b then 1 else 0)
  | real x => Layout.layReal (← Layout.read "float" true layout) "float" x
  | _ => throw (.unsupported v.typeName)

end LiveMarkup
