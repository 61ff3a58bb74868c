import LiveMarkup.Syntax.Expr
import LiveMarkup.Syntax.Fault
import LiveMarkup.Text.Ranges
/-! The values of numbers and texts as they are written, and formatted texts with their fields. -/
namespace LiveMarkup.Syntax
open Text

def digitLimit : Nat := 4300

def readBase (base : Nat) (s : List Char) : Nat :=
  s.foldl (fun n c => base * n + (hexValue? c).getD 0) 0

def readReal (s : List Char) : Binary64 :=
  let mantissa := s.takeWhile fun c => c != 'e' && c != 'E'
  let power := s.drop (mantissa.length + 1)
  let whole := mantissa.takeWhile (· != '.')
  let part := mantissa.drop (whole.length + 1)
  let size := match power with
    | '-' :: digits => -(readBase 10 digits : Int)
    | '+' :: digits => (readBase 10 digits : Int)
    | digits => (readBase 10 digits : Int)
  .ofDecimal false (readBase 10 (whole ++ part)) (size - part.length)

def numberValue (text : String) : Option Constant :=
  let s := text.toList.filter (· != '_')
  match s with
  | '0' :: b :: digits =>
    if b == 'x' || b == 'X' then some (.whole (readBase 16 digits))
    else if b == 'o' || b == 'O' then some (.whole (readBase 8 digits))
    else if b == 'b' || b == 'B' then some (.whole (readBase 2 digits))
    else decimal s
  | _ => decimal s
where
  decimal (s : List Char) : Option Constant :=
    if s.getLast?.any fun c => c == 'j' || c == 'J' then some (.imaginary (readReal s.dropLast))
    else if s.all fun c => '0' ≤ c && c ≤ '9' then
      if digitLimit < s.length then none else some (.whole (readBase 10 s))
    else some (.real (readReal s))

def isOctal (c : Char) : Bool := '0' ≤ c && c < '8'

def isHex (c : Char) : Bool := (hexValue? c).isSome

def hexEscape? (width : Nat) (s : List Char) : Option Char :=
  let digits := s.take width
  if digits.length = width ∧ digits.all isHex then
    let n := readBase 16 digits
    if n < 0x110000 then some (if 0xd800 ≤ n ∧ n < 0xe000 then '\ufffd' else Char.ofNat n) else none
  else none

def surrogatePair? (s : List Char) : Option Char :=
  let high := readBase 16 (s.take 4)
  let low := readBase 16 ((s.drop 6).take 4)
  if 10 ≤ s.length ∧ (s.take 4).all isHex ∧ (s.drop 4).take 2 = ['\\', 'u'] ∧
      ((s.drop 6).take 4).all isHex ∧
      0xd800 ≤ high ∧ high < 0xdc00 ∧ 0xdc00 ≤ low ∧ low < 0xe000 then
    some (Char.ofNat (0x10000 + (high - 0xd800) * 0x400 + (low - 0xdc00)))
  else none

def simpleEscape? : Char → Option Char
  | '\\' => some '\\'
  | '\'' => some '\''
  | '"' => some '"'
  | 'a' => some '\x07'
  | 'b' => some '\x08'
  | 'f' => some '\x0c'
  | 'n' => some '\n'
  | 'r' => some '\r'
  | 't' => some '\t'
  | 'v' => some '\x0b'
  | _ => none

/-- The text that a body with escapes stands for. An unknown escape stays as it is; `wide` bodies know
the escapes of characters beyond one byte. -/
def unescape (wide : Bool) (fuel : Nat) (s : List Char) : Option (List Char) :=
  match fuel with
  | 0 => some []
  | fuel + 1 =>
    match s with
    | [] => some []
    | '\\' :: '\n' :: rest => unescape wide fuel rest
    | '\\' :: c :: rest =>
      if let some e := simpleEscape? c then (unescape wide fuel rest).map (e :: ·)
      else if isOctal c then
        let digits := (c :: rest).take 3 |>.takeWhile isOctal
        let n := readBase 8 digits
        (unescape wide fuel ((c :: rest).drop digits.length)).map
          (Char.ofNat (if wide then n else n % 256) :: ·)
      else if c == 'x' then do
        let e ← hexEscape? 2 rest
        (unescape wide fuel (rest.drop 2)).map (e :: ·)
      else if wide && c == 'u' then
        match surrogatePair? rest with
        | some e => (unescape wide fuel (rest.drop 10)).map (e :: ·)
        | none => do
          let e ← hexEscape? 4 rest
          (unescape wide fuel (rest.drop 4)).map (e :: ·)
      else if wide && c == 'U' then do
        let e ← hexEscape? 8 rest
        (unescape wide fuel (rest.drop 8)).map (e :: ·)
      else if wide && c == 'N' then none
      else (unescape wide fuel rest).map ('\\' :: c :: ·)
    | c :: rest => (unescape wide fuel rest).map (c :: ·)

structure TextToken where
  isBytes : Bool
  isRaw : Bool
  isFormatted : Bool
  marked : Bool
  body : List Char
  lineOf : List Char → Nat

def TextToken.of (t : Token) : TextToken :=
  let s := t.text.toList
  let marks := s.takeWhile Char.isAlpha
  let lower := marks.map Char.toLower
  let quotes := s.drop marks.length
  let quote := quotes.headD '"'
  let width := if 6 ≤ quotes.length ∧ [quote, quote, quote].isPrefixOf quotes then 3 else 1
  let body := (quotes.drop width).take (quotes.length - 2 * width)
  { isBytes := lower.contains 'b'
    isRaw := lower.contains 'r'
    isFormatted := lower.contains 'f'
    marked := marks.head? == some 'u'
    body
    lineOf := fun rest => t.line + (body.count '\n' - rest.count '\n') }

def TextToken.decode (t : TextToken) (s : List Char) : Option (List Char) :=
  if t.isRaw then some s else unescape (!t.isBytes) (s.length + 1) s

inductive LiteralStop where
  | doubled
  | field
  | ended
  deriving DecidableEq, Repr

def literalAt (raw outer : Bool) (done : List Char) :
    List Char → Option (List Char × LiteralStop × List Char)
  | [] => some (done, .ended, [])
  | '\\' :: c :: rest =>
    if raw then literalAt raw outer ('\\' :: done) (c :: rest)
    else if c == '\x7b' || c == '\x7d' then brace c ('\\' :: done) rest
    else literalAt raw outer (c :: '\\' :: done) rest
  | c :: rest =>
    if c == '\x7b' || c == '\x7d' then brace c done rest else literalAt raw outer (c :: done) rest
where
  brace (c : Char) (done rest : List Char) : Option (List Char × LiteralStop × List Char) :=
    if outer && rest.head? == some c then some (c :: done, .doubled, rest.drop 1)
    else if c == '\x7b' then some (done, .field, rest)
    else if outer then none
    else some (done, .ended, c :: rest)

def fieldText (quote : Option (Char × Bool)) (brackets : List Char) (done : List Char) :
    List Char → Option (List Char × List Char)
  | [] => none
  | c :: rest =>
    if c == '\\' then none
    else
      match quote with
      | some (q, true) =>
        if c == q then
          match rest with
          | a :: b :: more =>
            if a == q && b == q then fieldText none brackets (b :: a :: c :: done) more
            else fieldText quote brackets (c :: done) (a :: b :: more)
          | rest => fieldText quote brackets (c :: done) rest
        else fieldText quote brackets (c :: done) rest
      | some (q, false) => fieldText (if c == q then none else quote) brackets (c :: done) rest
      | none =>
        if c == '\'' || c == '"' then
          match rest with
          | a :: b :: more =>
            if a == c && b == c then fieldText (some (c, true)) brackets (b :: a :: c :: done) more
            else fieldText (some (c, false)) brackets (c :: done) (a :: b :: more)
          | rest => fieldText (some (c, false)) brackets (c :: done) rest
        else if c == '(' || c == '[' || c == '\x7b' then
          if 200 ≤ brackets.length then none else fieldText none (c :: brackets) (c :: done) rest
        else if c == '#' then none
        else if brackets.isEmpty &&
            (c == '!' || c == ':' || c == '\x7d' || c == '=' || c == '<' || c == '>') then
          match rest with
          | '=' :: more =>
            if c == '!' || c == '=' || c == '<' || c == '>' then
              fieldText none brackets ('=' :: c :: done) more
            else some (done, c :: rest)
          | rest =>
            if c == '<' || c == '>' then fieldText none brackets (c :: done) rest
            else some (done, c :: rest)
        else if c == ')' || c == ']' || c == '\x7d' then
          match brackets with
          | opening :: outer =>
            if (opening == '(' && c == ')') || (opening == '[' && c == ']') ||
                (opening == '\x7b' && c == '\x7d') then
              fieldText none outer (c :: done) rest
            else none
          | [] => none
        else fieldText none brackets (c :: done) rest
termination_by s => s.length
decreasing_by all_goals simp_wf <;> omega

def isFieldBlank (c : Char) : Bool := c == ' ' || c == '\t' || c == '\n' || c == '\x0c'

def isSignBlank (c : Char) : Bool := isFieldBlank c || c == '\x0b' || c == '\r'

def addText (marked : Bool) (s : List Char) (parts : List Expr) : List Expr :=
  if s.isEmpty then parts
  else
    match parts with
    | .constant (.text before _) :: rest => .constant (.text (before ++ String.ofList s) marked) :: rest
    | _ => .constant (.text (String.ofList s) marked) :: parts

def readParts (embedded : List Char → Nat → Except Failure Expr) (t : TextToken) (marked : Bool)
    (fuel depth : Nat) (parts : List Expr) (s : List Char) :
    Except Failure (List Expr × List Char) :=
  match fuel with
  | 0 => .error .rejected
  | fuel + 1 => do
    let some (literal, stop, rest) := literalAt t.isRaw (depth = 0) [] s | throw .rejected
    let some text := t.decode literal.reverse | throw .rejected
    let parts := addText marked text parts
    match stop with
    | .doubled => readParts embedded t marked fuel depth parts rest
    | .ended => return (parts, rest)
    | .field =>
      if 2 ≤ depth then throw .rejected
      let some (source, after) := fieldText none [] [] rest | throw .rejected
      let source := source.reverse
      if source.all isFieldBlank then throw .rejected
      let value ← embedded source (t.lineOf rest)
      let (described, after) := match after with
        | '=' :: more =>
          let blanks := more.takeWhile isSignBlank
          (source ++ '=' :: blanks, more.drop blanks.length)
        | _ => ([], after)
      let parts := addText marked described parts
      let (conversion, after) ← match after with
        | '!' :: c :: more =>
          match c with
          | 's' => pure (some Conversion.shown, more)
          | 'r' => pure (some Conversion.quoted, more)
          | 'a' => pure (some Conversion.ascii, more)
          | _ => throw .rejected
        | _ => pure (none, after)
      let (spec, after) ← match after with
        | ':' :: more => do
          let (inner, after) ← readParts embedded t marked fuel (depth + 1) [] more
          pure (some (Expr.joined inner.reverse), after)
        | _ => pure (none, after)
      let conversion := if conversion.isNone && spec.isNone && !described.isEmpty
        then some .quoted else conversion
      match after with
      | '\x7d' :: more =>
        readParts embedded t marked fuel depth (.formatted value conversion spec :: parts) more
      | _ => throw .rejected

def readTexts (embedded : List Char → Nat → Except Failure Expr) (tokens : List Token) :
    Except Failure Expr := do
  let texts := tokens.map TextToken.of
  let marked := (texts.head?.map (·.marked)).getD false
  if texts.all (·.isBytes) then
    let bodies ← texts.mapM fun t =>
      if t.body.all fun c => c.toNat < 128 then
        match t.decode t.body with
        | some s => pure s
        | none => throw Failure.rejected
      else throw Failure.rejected
    return .constant (.bytes (bodies.flatten.map fun c => c.toNat.toUInt8))
  if texts.any (·.isBytes) then throw .rejected
  let parts ← texts.foldlM (fun parts t => do
    if t.isFormatted then
      let (parts, rest) ← readParts embedded t marked (t.body.length + 2) 0 parts t.body
      if rest.isEmpty then pure parts else throw Failure.rejected
    else
      match t.decode t.body with
      | some s => pure (addText marked s parts)
      | none => throw Failure.rejected) []
  if texts.any (·.isFormatted) then return .joined parts.reverse
  match parts with
  | [.constant c] => return .constant c
  | _ => return .constant (.text "" marked)

end LiveMarkup.Syntax
