import LiveMarkup.Syntax.Token
import LiveMarkup.Text.Name
import LiveMarkup.Text.Normal
/-! Reading text as tokens: numbers, texts, names, operators, and the indentation of blocks. -/
namespace LiveMarkup.Syntax
open Text

def isDecimal (c : Char) : Bool := '0' ≤ c && c ≤ '9'

def mayStartName (c : Char) : Bool := c.isAlpha || c == '_' || 128 ≤ c.toNat

def mayContinueName (c : Char) : Bool := mayStartName c || isDecimal c

namespace Numeral

def tail (isDigit : Char → Bool) : List Char → Option (List Char × List Char)
  | '_' :: c :: rest =>
    if isDigit c then (tail isDigit rest).map fun (s, r) => ('_' :: c :: s, r) else none
  | ['_'] => none
  | c :: rest =>
    if isDigit c then (tail isDigit rest).map fun (s, r) => (c :: s, r) else some ([], c :: rest)
  | [] => some ([], [])

def followers : List (List Char) :=
  ["and", "else", "for", "or", "not"].map String.toList

def endsBefore (s : List Char) : Bool :=
  match s with
  | [] => true
  | c :: rest =>
    !mayContinueName c ||
    (c == 'i' && rest.head?.any fun d => d == 'f' || d == 'n' || d == 's') ||
    followers.any fun w => w.isPrefixOf s && !((s.drop w.length).head?.any mayContinueName)

def based (isDigit : Char → Bool) (s : List Char) : Option (List Char × List Char) :=
  let (mark, s) := match s with
    | '_' :: rest => (['_'], rest)
    | s => ([], s)
  match s with
  | c :: rest =>
    if isDigit c then
      match tail isDigit rest with
      | some (digits, rest) =>
        if endsBefore rest && !(rest.head?.any isDecimal) then some (mark ++ c :: digits, rest)
        else none
      | none => none
    else none
  | [] => none

def finish (s : List Char) : Option (List Char × List Char) :=
  match s with
  | c :: rest =>
    if c == 'j' || c == 'J' then if endsBefore rest then some ([c], rest) else none
    else if endsBefore s then some ([], s) else none
  | [] => some ([], [])

def exponent (s : List Char) : Option (List Char × List Char) :=
  match s with
  | e :: rest =>
    if e == 'e' || e == 'E' then
      let (sign, digits) := match rest with
        | '+' :: r => (['+'], r)
        | '-' :: r => (['-'], r)
        | r => ([], r)
      match digits with
      | d :: more =>
        if isDecimal d then do
          let (ds, r) ← tail isDecimal more
          let (j, r) ← finish r
          some (e :: sign ++ d :: ds ++ j, r)
        else if sign.isEmpty && endsBefore s then some ([], s) else none
      | [] => none
    else finish s
  | [] => some ([], [])

def fraction (s : List Char) : Option (List Char × List Char) :=
  match s with
  | d :: more =>
    if isDecimal d then do
      let (ds, r) ← tail isDecimal more
      let (e, r) ← exponent r
      some (d :: ds ++ e, r)
    else exponent s
  | [] => some ([], [])

def afterWhole (s : List Char) : Option (List Char × List Char) :=
  match s with
  | '.' :: rest => (fraction rest).map fun (t, r) => ('.' :: t, r)
  | _ => exponent s

def read (s : List Char) : Option (List Char × List Char) :=
  match s with
  | '0' :: b :: rest =>
    if b == 'x' || b == 'X' then
      (based (fun c => (hexValue? c).isSome) rest).map fun (t, r) => ('0' :: b :: t, r)
    else if b == 'o' || b == 'O' then
      (based (fun c => '0' ≤ c && c < '8') rest).map fun (t, r) => ('0' :: b :: t, r)
    else if b == 'b' || b == 'B' then
      (based (fun c => c == '0' || c == '1') rest).map fun (t, r) => ('0' :: b :: t, r)
    else do
      let (digits, rest) ← tail isDecimal (b :: rest)
      let (t, rest) ← afterWhole rest
      let isWhole := t.isEmpty
      if isWhole && digits.any (fun c => c != '0' && c != '_') then none
      else some ('0' :: digits ++ t, rest)
  | d :: rest => do
    let (digits, rest) ← tail isDecimal rest
    let (t, rest) ← afterWhole rest
    some (d :: digits ++ t, rest)
  | [] => none

end Numeral

def closeText (quote : Char) (triple : Bool) : List Char → Option (List Char × List Char)
  | [] => none
  | '\\' :: c :: rest => (closeText quote triple rest).map fun (s, r) => ('\\' :: c :: s, r)
  | c :: rest =>
    if c == quote && !triple then some ([c], rest)
    else if c == quote && [quote, quote].isPrefixOf rest then some ([c, c, c], rest.drop 2)
    else if c == '\n' && !triple then none
    else (closeText quote triple rest).map fun (s, r) => (c :: s, r)

def textMarks (s : List Char) : Option (List Char × List Char) :=
  let letters := s.takeWhile Char.isAlpha
  let rest := s.drop letters.length
  let quoted := match rest with
    | c :: _ => c == '"' || c == '\''
    | [] => false
  let allowed := ["", "b", "u", "r", "f", "br", "rb", "fr", "rf"]
  if quoted && letters.length ≤ 2 && allowed.contains (String.ofList (letters.map Char.toLower)) then
    some (letters, rest)
  else none

def operators3 : List String := ["**=", "//=", ">>=", "<<=", "..."]

def operators2 : List String :=
  ["**", "//", ">>", "<<", "<=", ">=", "==", "!=", "<>", "->", "+=", "-=", "*=", "/=", "%=", "&=",
   "|=", "^=", "@=", ":="]

def operatorAt (s : List Char) : List Char :=
  let three := s.take 3
  let two := s.take 2
  if operators3.contains (String.ofList three) then three
  else if operators2.contains (String.ofList two) then two
  else s.take 1

def closes (opening closing : Char) : Bool :=
  (opening == '(' && closing == ')') || (opening == '[' && closing == ']') ||
  (opening == '\x7b' && closing == '\x7d')

structure LexState where
  line : Nat
  brackets : List (Char × Nat)
  indents : List (Nat × Nat)
  deriving DecidableEq, Repr

namespace LexState

def fault (st : LexState) (cause : FaultCause) (line : Nat) : List Token :=
  [⟨.fault ⟨cause, line, st.brackets.head?.map (·.2)⟩, "", line, false⟩]

def nextLine (st : LexState) (rest : List Char) : LexState :=
  if rest.isEmpty then st else { st with line := st.line + 1 }

end LexState

inductive IndentScan where
  | at (rest : List Char) (passed column plain : Nat)
  | stray (passed : Nat)
  | ended (passed : Nat)

def measureIndent (passed column plain first : Nat) : List Char → IndentScan
  | ' ' :: rest => measureIndent passed (column + 1) (plain + 1) first rest
  | '\t' :: rest => measureIndent passed ((column / 8 + 1) * 8) (plain + 1) first rest
  | '\x0c' :: rest => measureIndent passed 0 0 first rest
  | '\\' :: '\n' :: rest =>
    if rest.isEmpty then .ended passed
    else measureIndent (passed + 1) column plain (if first = 0 then column else first) rest
  | '\\' :: _ => .stray passed
  | rest =>
    if first = 0 then .at rest passed column plain else .at rest passed first first

def indentTokens (st : LexState) (column plain : Nat) : Except FaultCause (List Token × LexState) :=
  match st.indents with
  | [] => .ok ([], st)
  | (top, topPlain) :: _ =>
    if column = top then if plain = topPlain then .ok ([], st) else .error .mixedTabs
    else if top < column then
      if 100 ≤ st.indents.length then .error .tooDeep
      else if plain ≤ topPlain then .error .mixedTabs
      else .ok ([⟨.indent, "", st.line, false⟩], { st with indents := (column, plain) :: st.indents })
    else
      let closed := st.indents.takeWhile fun b => column < b.1
      let left := st.indents.dropWhile fun b => column < b.1
      match left with
      | (c, p) :: _ =>
        if c ≠ column then .error .unevenIndent
        else if p ≠ plain then .error .mixedTabs
        else .ok (closed.map fun _ => ⟨.dedent, "", st.line, false⟩, { st with indents := left })
      | [] => .error .unevenIndent

mutual

def lexLine (fuel : Nat) (st : LexState) (s : List Char) : List Token :=
  match fuel with
  | 0 => st.fault .malformed st.line
  | fuel + 1 =>
    match measureIndent 0 0 0 0 s with
    | .stray passed => st.fault .strayContinuation (st.line + passed)
    | .ended passed => st.fault .unfinished (st.line + passed)
    | .at rest passed column plain =>
      let st := { st with line := st.line + passed }
      let isEmpty := rest.head?.any fun c => c == '#' || c == '\n'
      if isEmpty then
        match rest.dropWhile (· != '\n') with
        | _ :: rest => lexLine fuel (st.nextLine rest) rest
        | [] => lexTokens fuel st []
      else if st.brackets.isEmpty then
        match indentTokens st column plain with
        | .ok (tokens, st) => tokens ++ lexTokens fuel st rest
        | .error cause => st.fault cause st.line
      else lexTokens fuel st rest

def lexTokens (fuel : Nat) (st : LexState) (s : List Char) : List Token :=
  match fuel with
  | 0 => st.fault .malformed st.line
  | fuel + 1 =>
    let s := s.dropWhile fun c => c == ' ' || c == '\t' || c == '\x0c'
    let s := if s.head? == some '#' then s.dropWhile (· != '\n') else s
    match s with
    | [] =>
      if st.brackets.isEmpty then [⟨.stop, "", st.line, false⟩] else st.fault .unfinished st.line
    | '\n' :: rest =>
      let after := lexLine fuel (st.nextLine rest) rest
      if st.brackets.isEmpty then ⟨.newline, "", st.line, false⟩ :: after else after
    | '\\' :: '\n' :: rest =>
      if rest.isEmpty then st.fault .unfinished st.line
      else lexTokens fuel (st.nextLine rest) rest
    | '\\' :: _ => st.fault .strayContinuation st.line
    | c :: rest =>
      let inside := !st.brackets.isEmpty
      match textMarks s with
      | some (marks, body) =>
        let quote := body.headD '"'
        let triple := [quote, quote, quote].isPrefixOf body
        let opening := if triple then body.take 3 else body.take 1
        match closeText quote triple (body.drop opening.length) with
        | some (content, rest) =>
          let text := marks ++ opening ++ content
          let breaks := text.count '\n'
          ⟨.string, String.ofList text, st.line, inside⟩ ::
            lexTokens fuel { st with line := st.line + breaks } rest
        | none => st.fault .malformed st.line
      | none =>
        if mayStartName c then
          let word := s.takeWhile mayContinueName
          let rest := s.drop word.length
          if isName word then
            let text := String.ofList word
            let token : Token :=
              if keywords.contains text then ⟨.keyword, text, st.line, inside⟩
              else ⟨.name, String.ofList (normalize word), st.line, inside⟩
            token :: lexTokens fuel st rest
          else st.fault .malformed st.line
        else if isDecimal c || (c == '.' && rest.head?.any isDecimal) then
          let number := if c == '.' then (Numeral.fraction rest).map fun (t, r) => ('.' :: t, r)
            else Numeral.read s
          match number with
          | some (text, rest) =>
            ⟨.number, String.ofList text, st.line, inside⟩ :: lexTokens fuel st rest
          | none => st.fault .malformed st.line
        else
          let text := operatorAt s
          let token : Token := ⟨.op, String.ofList text, st.line, inside⟩
          if c == '(' || c == '[' || c == '\x7b' then
            if 200 ≤ st.brackets.length then st.fault .malformed st.line
            else token :: lexTokens fuel { st with brackets := (c, st.line) :: st.brackets } rest
          else if c == ')' || c == ']' || c == '\x7d' then
            match st.brackets with
            | (opening, _) :: outer =>
              if closes opening c then
                { token with enclosed := !outer.isEmpty } ::
                  lexTokens fuel { st with brackets := outer } rest
              else st.fault .malformed st.line
            | [] => st.fault .malformed st.line
          else if c.toNat < 32 || c.toNat == 127 then st.fault .malformed st.line
          else token :: lexTokens fuel st (s.drop text.length)

end

def unifyBreaks : List Char → List Char
  | '\r' :: '\n' :: rest => '\n' :: unifyBreaks rest
  | '\r' :: rest => '\n' :: unifyBreaks rest
  | c :: rest => c :: unifyBreaks rest
  | [] => []

def tokensOf (line : Nat) (s : List Char) : List Token :=
  lexLine (2 * s.length + 4) ⟨line, [], [(0, 0)]⟩ s

end LiveMarkup.Syntax
