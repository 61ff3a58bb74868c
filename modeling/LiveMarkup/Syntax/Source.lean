import LiveMarkup.Number.Shortest
import LiveMarkup.Syntax.Expr
import LiveMarkup.Text.Quoted
import LiveMarkup.Text.Search
/-! Expressions written back as text of the render language, in a normal form of its own: parentheses
where the grouping needs them, single quotes, one blank around operators. -/
namespace LiveMarkup.Syntax
open Text

inductive Level where
  | named
  | tuple
  | yield
  | test
  | or
  | and
  | not
  | comparison
  | bitOr
  | bitXor
  | bitAnd
  | shift
  | sum
  | term
  | factor
  | power
  | await
  | atom
  deriving DecidableEq, Repr

namespace Level

def all : List Level :=
  [named, tuple, yield, test, or, and, not, comparison, bitOr, bitXor, bitAnd, shift, sum, term,
   factor, power, await, atom]

def rank (l : Level) : Nat := all.idxOf l

def next (l : Level) : Level := (all[l.rank + 1]?).getD .atom

end Level

def grouped (own place : Level) (text : String) : String :=
  if own.rank < place.rank then "(" ++ text ++ ")" else text

def UnaryOp.symbol : UnaryOp → String
  | .negation => "not "
  | .minus => "-"
  | .plus => "+"
  | .complement => "~"

def UnaryOp.level : UnaryOp → Level
  | .negation => .not
  | _ => .factor

def BinaryOp.symbol : BinaryOp → String
  | .add => "+"
  | .sub => "-"
  | .mul => "*"
  | .matMul => "@"
  | .div => "/"
  | .floorDiv => "//"
  | .mod => "%"
  | .pow => "**"
  | .shiftLeft => "<<"
  | .shiftRight => ">>"
  | .bitOr => "|"
  | .bitXor => "^"
  | .bitAnd => "&"

def BinaryOp.level : BinaryOp → Level
  | .add | .sub => .sum
  | .mul | .matMul | .div | .floorDiv | .mod => .term
  | .pow => .power
  | .shiftLeft | .shiftRight => .shift
  | .bitOr => .bitOr
  | .bitXor => .bitXor
  | .bitAnd => .bitAnd

def CompareOp.symbol : CompareOp → String
  | .eq => "=="
  | .notEq => "!="
  | .lt => "<"
  | .le => "<="
  | .gt => ">"
  | .ge => ">="
  | .same => "is"
  | .notSame => "is not"
  | .member => "in"
  | .notMember => "not in"

def BooleanOp.symbol : BooleanOp → String
  | .and => " and "
  | .or => " or "

def BooleanOp.level : BooleanOp → Level
  | .and => .and
  | .or => .or

def Conversion.symbol : Conversion → String
  | .shown => "!s"
  | .quoted => "!r"
  | .ascii => "!a"

def writeReal (x : Binary64) (whole : String) : String :=
  match x with
  | .infinite false => "1e309"
  | x => x.writeWith whole

def singleQuotes : List (List Char) := [['\''], ['"']]

def tripleQuotes : List (List Char) := [['"', '"', '"'], ['\'', '\'', '\'']]

def quotable (quotes : List (List Char)) (breaks : Bool) (s : List Char) :
    List Char × List (List Char) :=
  let escape (c : Char) : List Char :=
    if (c == '\n' || c == '\t') && !breaks then [c]
    else if c == '\\' || !isPrintable c then Quoted.escapeChar '\\' c
    else [c]
  let escaped := s.flatMap escape
  let possible := if escaped.contains '\n' then quotes.filter (tripleQuotes.contains ·) else quotes
  let possible := possible.filter fun q => !occurs q escaped
  if possible.isEmpty then
    let plain := Quoted.encode s
    let mark := plain.head?.getD '\''
    let quote := (quotes.find? (·.contains mark)).getD [mark]
    ((plain.drop 1).dropLast, [quote])
  else
    match escaped.getLast? with
    | none => (escaped, possible)
    | some last =>
      let ends (q : List Char) : Bool := q.head? == some last
      let sorted := possible.filter (!ends ·) ++ possible.filter ends
      if (sorted.head?.map ends).getD false then (escaped.dropLast ++ ['\\', last], sorted)
      else (escaped, sorted)

def quoteSparingly (s : List Char) : String :=
  let (body, quotes) := quotable (singleQuotes ++ tripleQuotes) false s
  let quote := quotes.headD ['\'']
  String.ofList (quote ++ body ++ quote)

def constantSource (sparing : Bool) : Constant → String
  | .null => "None"
  | .truth b => if b then "True" else "False"
  | .whole n => toString n
  | .real x => writeReal x ".0"
  | .imaginary x => writeReal x "" ++ "j"
  | .text s marked =>
    (if marked then "u" else "") ++ (if sparing then quoteSparingly s.toList else quoted s)
  | .bytes b => String.ofList (Quoted.encodeBytes b)
  | .ellipsis => "..."

structure FormattedPart where
  text : String
  isConstant : Bool
  deriving DecidableEq, Repr

def quoteParts (parts : List FormattedPart) : String :=
  let (texts, quotes) := parts.foldl (fun (texts, quotes) p =>
      let (text, quotes) := quotable quotes p.isConstant p.text.toList
      (texts ++ text, quotes)) (([] : List Char), singleQuotes ++ tripleQuotes)
  let quote := quotes.headD ['\'']
  "f" ++ String.ofList (quote ++ texts ++ quote)

def doubleBraces (s : String) : String :=
  String.ofList (s.toList.flatMap fun c => if c == '\x7b' || c == '\x7d' then [c, c] else [c])

def fieldPart (text : String) (conversion : Option Conversion) (format : String) :
    Option FormattedPart :=
  if text.toList.contains '\\' then none
  else
    let gap := if text.toList.head? == some '\x7b' then " " else ""
    let mark := (conversion.map Conversion.symbol).getD ""
    some ⟨"\x7b" ++ gap ++ text ++ mark ++ format ++ "\x7d", false⟩

def tupleItems : List String → String
  | [item] => item ++ ","
  | items => ", ".intercalate items

def writeParams (posonly args : List String) (variadic : Option String) (keywordOnly : List String)
    (keywordDefaults : List (Option String)) (keywordVariadic : Option String)
    (defaults : List String) : String :=
  let names := posonly ++ args
  let missing := names.length - defaults.length
  let positional := names.zipIdx.map fun (n, i) =>
    let value := if missing ≤ i then (defaults[i - missing]?).map ("=" ++ ·) else none
    let mark := if i + 1 = posonly.length then ", /" else ""
    n ++ value.getD "" ++ mark
  let star := if variadic.isSome || !keywordOnly.isEmpty then ["*" ++ variadic.getD ""] else []
  let named := (keywordOnly.zip keywordDefaults).map fun (n, d) => n ++ (d.map ("=" ++ ·)).getD ""
  let rest := (keywordVariadic.map ("**" ++ ·)).toList
  ", ".intercalate (positional ++ star ++ named ++ rest)

mutual

def source (sparing : Bool) (place : Level) : Expr → Option String
  | .constant c => some (constantSource sparing c)
  | .name id => some id
  | .field base name => do
    let b ← source sparing .atom base
    let gap := match base with
      | .constant (.whole _) | .constant (.truth _) => " "
      | _ => ""
    return b ++ gap ++ "." ++ name
  | .subscript base (.tuple (e :: rest)) => do
    let b ← source sparing .atom base
    let first ← source sparing .test e
    let more ← sourceAll sparing rest
    return b ++ "[" ++ tupleItems (first :: more) ++ "]"
  | .subscript base index => do
    return (← source sparing .atom base) ++ "[" ++ (← source sparing .test index) ++ "]"
  | .slice lower upper step => do
    let l ← match lower with
      | some e => source sparing .test e
      | none => some ""
    let u ← match upper with
      | some e => source sparing .test e
      | none => some ""
    let s ← match step with
      | some e => (source sparing .test e).map (":" ++ ·)
      | none => some ""
    return l ++ ":" ++ u ++ s
  | .starred value => do return "*" ++ (← source sparing .bitOr value)
  | .call _ func args keywords => do
    let f ← source sparing .atom func
    let a ← sourceAll sparing args
    let k ← sourceKeywords sparing keywords
    return f ++ "(" ++ ", ".intercalate (a ++ k) ++ ")"
  | .unary op operand => do
    return grouped op.level place (op.symbol ++ (← source sparing op.level operand))
  | .binary left op right => do
    let (l, r) := if op = .pow then (op.level.next, op.level) else (op.level, op.level.next)
    let a ← source sparing l left
    let b ← source sparing r right
    return grouped op.level place (a ++ " " ++ op.symbol ++ " " ++ b)
  | .boolean op operands => do
    return grouped op.level place
      (op.symbol.intercalate (← sourceOperands sparing op.level.next operands))
  | .compare left rest => do
    let l ← source sparing Level.comparison.next left
    return grouped .comparison place (l ++ String.join (← sourceComparisons sparing rest))
  | .conditional test body orelse => do
    let b ← source sparing Level.test.next body
    let t ← source sparing Level.test.next test
    let o ← source sparing .test orelse
    return grouped .test place (b ++ " if " ++ t ++ " else " ++ o)
  | .lambda (.mk posonly args variadic keywordOnly keywordDefaults keywordVariadic defaults) body => do
    let d ← sourceAll sparing defaults
    let k ← sourceOptions sparing keywordDefaults
    let params := writeParams posonly args variadic keywordOnly k keywordVariadic d
    let b ← source sparing .test body
    let gap := if params.isEmpty then "" else " "
    return grouped .test place ("lambda" ++ gap ++ params ++ ": " ++ b)
  | .list items => do return "[" ++ ", ".intercalate (← sourceAll sparing items) ++ "]"
  | .tuple [] => some "()"
  | .tuple items => do return grouped .tuple place (tupleItems (← sourceAll sparing items))
  | .set items => do return "\x7b" ++ ", ".intercalate (← sourceAll sparing items) ++ "\x7d"
  | .dict entries => do
    return "\x7b" ++ ", ".intercalate (← sourceEntries sparing entries) ++ "\x7d"
  | .listComp item clauses => do
    let i ← source sparing .test item
    return "[" ++ i ++ String.join (← sourceClauses sparing clauses) ++ "]"
  | .setComp item clauses => do
    let i ← source sparing .test item
    return "\x7b" ++ i ++ String.join (← sourceClauses sparing clauses) ++ "\x7d"
  | .generator item clauses => do
    let i ← source sparing .test item
    return "(" ++ i ++ String.join (← sourceClauses sparing clauses) ++ ")"
  | .dictComp key value clauses => do
    let k ← source sparing .test key
    let v ← source sparing .test value
    return "\x7b" ++ k ++ ": " ++ v ++ String.join (← sourceClauses sparing clauses) ++ "\x7d"
  | .joined parts => do
    let parts ← sourceParts parts
    if sparing then
      return "f" ++ quoteSparingly (String.join (parts.map (·.text))).toList
    return quoteParts parts
  | .formatted value conversion spec => do
    let text ← source true Level.test.next value
    let format ← match spec with
      | some (.joined parts) => do
        let parts ← sourceParts parts
        some (":" ++ String.join (parts.map (·.text)))
      | _ => some ""
    return "f" ++ quoteSparingly (← fieldPart text conversion format).text.toList
  | .assigned target value => do
    return grouped .named place (target ++ " := " ++ (← source sparing .atom value))
  | .await value => do return grouped .await place ("await " ++ (← source sparing .atom value))
  | .yield none => some (grouped .yield place "yield")
  | .yield (some value) => do
    return grouped .yield place ("yield " ++ (← source sparing .atom value))
  | .yieldFrom value => do
    return grouped .yield place ("yield from " ++ (← source sparing .atom value))

def sourceAll (sparing : Bool) : List Expr → Option (List String)
  | [] => some []
  | e :: rest => do
    let text ← source sparing .test e
    return text :: (← sourceAll sparing rest)

def sourceOptions (sparing : Bool) : List (Option Expr) → Option (List (Option String))
  | [] => some []
  | none :: rest => do return none :: (← sourceOptions sparing rest)
  | some e :: rest => do
    let text ← source sparing .test e
    return some text :: (← sourceOptions sparing rest)

def sourceOperands (sparing : Bool) (place : Level) : List Expr → Option (List String)
  | [] => some []
  | e :: rest => do
    let text ← source sparing place e
    return text :: (← sourceOperands sparing place.next rest)

def sourceComparisons (sparing : Bool) : List Comparison → Option (List String)
  | [] => some []
  | .mk op right :: rest => do
    let text ← source sparing Level.comparison.next right
    return (" " ++ op.symbol ++ " " ++ text) :: (← sourceComparisons sparing rest)

def sourceEntries (sparing : Bool) : List Entry → Option (List String)
  | [] => some []
  | .pair key value :: rest => do
    let k ← source sparing .test key
    let v ← source sparing .test value
    return (k ++ ": " ++ v) :: (← sourceEntries sparing rest)
  | .spread value :: rest => do
    let text ← source sparing .bitOr value
    return ("**" ++ text) :: (← sourceEntries sparing rest)

def sourceKeywords (sparing : Bool) : List Keyword → Option (List String)
  | [] => some []
  | .named name value :: rest => do
    let text ← source sparing .test value
    return (name ++ "=" ++ text) :: (← sourceKeywords sparing rest)
  | .spread value :: rest => do
    let text ← source sparing .test value
    return ("**" ++ text) :: (← sourceKeywords sparing rest)

def sourceClauses (sparing : Bool) : List Clause → Option (List String)
  | [] => some []
  | .mk isAsync target iter conditions :: rest => do
    let t ← source sparing .tuple target
    let i ← source sparing Level.test.next iter
    let cs ← sourceConditions sparing conditions
    let text := (if isAsync then " async for " else " for ") ++ t ++ " in " ++ i ++ String.join cs
    return text :: (← sourceClauses sparing rest)

def sourceConditions (sparing : Bool) : List Expr → Option (List String)
  | [] => some []
  | e :: rest => do
    let text ← source sparing Level.test.next e
    return (" if " ++ text) :: (← sourceConditions sparing rest)

def sourceParts : List Expr → Option (List FormattedPart)
  | [] => some []
  | e :: rest => do
    let part ← sourcePart e
    return part :: (← sourceParts rest)

def sourcePart : Expr → Option FormattedPart
  | .constant (.text s _) => some ⟨doubleBraces s, true⟩
  | .formatted value conversion spec => do
    let text ← source true Level.test.next value
    let format ← match spec with
      | some (.joined parts) => do
        let parts ← sourceParts parts
        some (":" ++ String.join (parts.map (·.text)))
      | _ => some ""
    fieldPart text conversion format
  | _ => none

end

def Expr.source? (e : Expr) : Option String := source false .test e

end LiveMarkup.Syntax
