import LiveMarkup.Syntax.Lexer
import LiveMarkup.Syntax.Parser.Basic
/-! The grammar of expressions. Every function reads one level of nesting; a `Grammar` holds the
readings one level further in, and each is entered only behind a token, so the length of a text
bounds the nesting. -/
namespace LiveMarkup.Syntax
open LiveMarkup.Syntax.Parser

structure Grammar where
  expression : Parser Expr
  disjunction : Parser Expr
  inversion : Parser Expr
  bitOr : Parser Expr
  factor : Parser Expr
  primary : Parser Expr
  embedded : List Char → Nat → Except Failure Expr

namespace Reading

def begins (t : Token) : Bool :=
  match t.kind with
  | .name | .number | .string => true
  | .keyword => ["True", "False", "None", "not", "lambda", "await"].contains t.text
  | .op => ["(", "[", "\x7b", "-", "+", "~", "..."].contains t.text
  | _ => false

def beginsItem (t : Token) : Bool := begins t || t.isOp "*"

def nameBefore (text : String) : Parser Bool := do
  if (← peek).kind != .name then return false
  return ((← peekSecond).map (·.isOp text)).getD false

def named (g : Grammar) (expression : Parser Expr) : Parser Expr := do
  if ← nameBefore ":=" then
    let target ← name
    advance
    return .assigned target (← g.expression)
  let e ← expression
  if ← nextIsOp ":=" then fail
  return e

def starredOr (operand other : Parser Expr) : Parser Expr := do
  if ← takeOp? "*" then return .starred (← operand)
  other

def item (g : Grammar) : Parser Expr := starredOr g.bitOr (named g g.expression)

def itemsAsTuple (one : Parser Expr) : Parser Expr := do
  let (items, trailing) ← commaSeparated one beginsItem
  match items, trailing with
  | [e], false => return e
  | items, _ => return .tuple items

def starExpressions (g : Grammar) : Parser Expr :=
  itemsAsTuple (starredOr g.bitOr g.expression)

def yielded (g : Grammar) : Parser Expr := do
  if ← takeKeyword? "from" then return .yieldFrom (← g.expression)
  if beginsItem (← peek) then return .yield (some (← starExpressions g))
  return .yield none

mutual

def isTarget (nested : Bool) : Expr → Bool
  | .name _ | .field _ _ | .subscript _ _ => true
  | .starred e => nested && isTarget false e
  | .tuple items => areTargets items
  | .list items => areTargets items
  | _ => false

def areTargets : List Expr → Bool
  | [] => true
  | e :: rest => isTarget true e && areTargets rest

end

def loopTargets (g : Grammar) : Parser Expr := do
  let start ← tokensAhead
  let target ← itemsAsTuple (starredOr g.primary g.primary)
  if isTarget true target && (← nextIsKeyword "in") then
    advance
    return target
  modify fun c => { c with rest := start }
  match ← attempt (starExpressions g) with
  | .error (.settled e) => throw (.settled e)
  | _ => fail

def clauseBegins (t : Token) : Bool := t.isKeyword "for" || t.isKeyword "async"

def clause (g : Grammar) : Parser Clause := do
  let isAsync ← takeKeyword? "async"
  expectKeyword "for"
  let target ← loopTargets g
  let iter ← g.disjunction
  let conditions ← repeatFrom [] fun conditions => do
    if ← takeKeyword? "if" then return some ((← g.disjunction) :: conditions)
    return none
  return .mk isAsync target iter conditions.reverse

def clauses (g : Grammar) : Parser (List Clause) := do
  let first ← clause g
  let all ← repeatFrom [first] fun done => do
    if clauseBegins (← peek) then return some ((← clause g) :: done)
    return none
  return all.reverse

def isStarred : Expr → Bool
  | .starred _ => true
  | _ => false

def parenthesized (g : Grammar) : Parser Expr := do
  if ← takeOp? ")" then return .tuple []
  if ← takeKeyword? "yield" then
    let e ← yielded g
    expectOp ")"
    return e
  let first ← item g
  let t ← peek
  if clauseBegins t then
    if isStarred first then fail
    let cs ← clauses g
    expectOp ")"
    return .generator first cs
  if t.isOp "," then
    advance
    let more ← if beginsItem (← peek) then
        let (items, _) ← commaSeparated (item g) beginsItem
        pure items
      else pure []
    expectOp ")"
    return .tuple (first :: more)
  if isStarred first then fail
  expectOp ")"
  return first

def bracketed (g : Grammar) : Parser Expr := do
  if ← takeOp? "]" then return .list []
  let first ← item g
  if clauseBegins (← peek) then
    if isStarred first then fail
    let cs ← clauses g
    expectOp "]"
    return .listComp first cs
  let more ← if ← takeOp? "," then
      if beginsItem (← peek) then
        let (items, _) ← commaSeparated (item g) beginsItem
        pure items
      else pure []
    else pure []
  expectOp "]"
  return .list (first :: more)

def entryValue (g : Grammar) : Parser Expr := do
  let line := (← peek).line
  expectOp ":"
  let t ← peek
  if t.isOp "\x7d" || t.isOp "," then failAt line
  g.expression

def entry (g : Grammar) : Parser Entry := do
  if ← takeOp? "**" then return .spread (← g.bitOr)
  let line := (← peek).line
  let key ← g.expression
  if !(← nextIsOp ":") then failAt line
  return .pair key (← entryValue g)

def beginsEntry (t : Token) : Bool := begins t || t.isOp "**"

def furtherEntries (g : Grammar) (first : Entry) : Parser Expr := do
  let more ← if ← takeOp? "," then
      if beginsEntry (← peek) then
        let (entries, _) ← commaSeparated (entry g) beginsEntry
        pure entries
      else pure []
    else pure []
  expectOp "\x7d"
  return .dict (first :: more)

def braced (g : Grammar) : Parser Expr := do
  if ← takeOp? "\x7d" then return .dict []
  if ← nextIsOp "**" then
    let first ← entry g
    furtherEntries g first
  else
    let bare := !(← nameBefore ":=")
    let first ← item g
    if bare && !isStarred first && (← nextIsOp ":") then
      let value ← entryValue g
      if clauseBegins (← peek) then
        let cs ← clauses g
        expectOp "\x7d"
        return .dictComp first value cs
      furtherEntries g (.pair first value)
    else if clauseBegins (← peek) then
      if isStarred first then fail
      let cs ← clauses g
      expectOp "\x7d"
      return .setComp first cs
    else
      let more ← if ← takeOp? "," then
          if beginsItem (← peek) then
            let (items, _) ← commaSeparated (item g) beginsItem
            pure items
          else pure []
        else pure []
      expectOp "\x7d"
      return .set (first :: more)

def texts (g : Grammar) : Parser Expr := do
  let tokens ← repeatFrom [] fun done => do
    let t ← peek
    if t.kind != .string then return none
    advance
    return some (t :: done)
  match readTexts g.embedded tokens.reverse with
  | .ok e => return e
  | .error f => throw f

def atom (g : Grammar) : Parser Expr := do
  let t ← peek
  match t.kind with
  | .name =>
    advance
    return .name t.text
  | .number =>
    advance
    match numberValue t.text with
    | some c => return .constant c
    | none => throw .rejected
  | .string => texts g
  | .keyword =>
    let value ← match t.text with
      | "None" => pure Constant.null
      | "True" => pure (Constant.truth true)
      | "False" => pure (Constant.truth false)
      | _ => fail
    advance
    return .constant value
  | .op =>
    match t.text with
    | "(" =>
      advance
      parenthesized g
    | "[" =>
      advance
      bracketed g
    | "\x7b" =>
      advance
      braced g
    | "..." =>
      advance
      return .constant .ellipsis
    | _ => fail
  | _ => fail

structure Arguments where
  plain : List Expr := []
  keyed : List Keyword := []
  closed : Bool := false

def argument (g : Grammar) (done : Arguments) : Parser Arguments := do
  if ← takeOp? "**" then
    return { done with keyed := .spread (← g.expression) :: done.keyed, closed := true }
  if ← takeOp? "*" then
    if done.closed then fail
    return { done with plain := .starred (← g.expression) :: done.plain }
  if ← nameBefore "=" then
    let id ← name
    advance
    return { done with keyed := .named id (← g.expression) :: done.keyed }
  let line := (← peek).line
  let e ← named g g.expression
  if ← nextIsOp "=" then failAt line
  if !done.keyed.isEmpty then fail
  return { done with plain := e :: done.plain }

def beginsArgument (t : Token) : Bool := beginsItem t || t.isOp "**"

def arguments (g : Grammar) : Parser (List Expr × List Keyword) := do
  if ← takeOp? ")" then return ([], [])
  let line := (← peek).line
  let first ← argument g {}
  if clauseBegins (← peek) then
    match first.plain, first.keyed with
    | [e], [] =>
      if isStarred e then fail
      let cs ← clauses g
      if ← nextIsOp "," then failAt line
      expectOp ")"
      return ([.generator e cs], [])
    | _, _ => fail
  else
    let (all, _) ← repeatFrom (first, true) fun (done, going) => do
      if !going then return none
      if !(← takeOp? ",") then return none
      if beginsArgument (← peek) then
        let next ← argument g done
        return some (next, true)
      return some (done, false)
    expectOp ")"
    return (all.plain.reverse, all.keyed.reverse)

def bound? (g : Grammar) : Parser (Option Expr) := do
  if begins (← peek) then return some (← g.expression)
  return none

def sliceFrom (g : Grammar) (lower : Option Expr) : Parser Expr := do
  expectOp ":"
  let upper ← bound? g
  let step ← if ← takeOp? ":" then bound? g else pure none
  return .slice lower upper step

def index (g : Grammar) : Parser Expr := do
  if ← nextIsOp ":" then sliceFrom g none
  else
    let bare := !(← nameBefore ":=")
    let e ← starredOr g.expression (named g g.expression)
    if ← nextIsOp ":" then
      if bare && !isStarred e then sliceFrom g (some e) else fail
    else return e

def indices (g : Grammar) : Parser Expr := do
  let (items, trailing) ← commaSeparated (index g) fun t => beginsItem t || t.isOp ":"
  expectOp "]"
  match items, trailing with
  | [e], false => return if isStarred e then .tuple [e] else e
  | items, _ => return .tuple items

def primary (g : Grammar) : Parser Expr := do
  let line := (← peek).line
  let first ← atom g
  repeatFrom first fun e => do
    let t ← peek
    if t.kind != .op then return none
    match t.text with
    | "." =>
      advance
      return some (.field e (← name))
    | "(" =>
      advance
      let (args, keyed) ← arguments g
      return some (.call line e args keyed)
    | "[" =>
      advance
      return some (.subscript e (← indices g))
    | _ => return none

def power (g : Grammar) : Parser Expr := do
  let base ← if ← takeKeyword? "await" then do pure (Expr.await (← g.primary)) else primary g
  if ← takeOp? "**" then return .binary base .pow (← g.factor)
  return base

def unaryOp? (t : Token) : Option UnaryOp :=
  if t.kind != .op then none
  else
    match t.text with
    | "-" => some .minus
    | "+" => some .plus
    | "~" => some .complement
    | _ => none

def factor (g : Grammar) : Parser Expr := do
  match unaryOp? (← peek) with
  | some op =>
    advance
    return .unary op (← g.factor)
  | none => power g

def leftGrouped (ops : List (String × BinaryOp)) (operand : Parser Expr) : Parser Expr := do
  let first ← operand
  repeatFrom first fun left => do
    let t ← peek
    if t.kind != .op then return none
    match ops.find? (·.1 == t.text) with
    | some (_, op) =>
      advance
      return some (.binary left op (← operand))
    | none => return none

def term (g : Grammar) : Parser Expr :=
  leftGrouped [("*", .mul), ("/", .div), ("//", .floorDiv), ("%", .mod), ("@", .matMul)] (factor g)

def sum (g : Grammar) : Parser Expr := leftGrouped [("+", .add), ("-", .sub)] (term g)

def shift (g : Grammar) : Parser Expr :=
  leftGrouped [("<<", .shiftLeft), (">>", .shiftRight)] (sum g)

def bitAnd (g : Grammar) : Parser Expr := leftGrouped [("&", .bitAnd)] (shift g)

def bitXor (g : Grammar) : Parser Expr := leftGrouped [("^", .bitXor)] (bitAnd g)

def bitOr (g : Grammar) : Parser Expr := leftGrouped [("|", .bitOr)] (bitXor g)

def compareOp? : Parser (Option CompareOp) := do
  let t ← peek
  match t.kind, t.text with
  | .op, "==" => take .eq
  | .op, "!=" => take .notEq
  | .op, "<" => take .lt
  | .op, "<=" => take .le
  | .op, ">" => take .gt
  | .op, ">=" => take .ge
  | .keyword, "in" => take .member
  | .keyword, "is" =>
    advance
    if ← takeKeyword? "not" then return some .notSame
    return some .same
  | .keyword, "not" =>
    match ← peekSecond with
    | some u =>
      if u.isKeyword "in" then
        advance
        take .notMember
      else return none
    | none => return none
  | _, _ => return none
where
  take (op : CompareOp) : Parser (Option CompareOp) := do
    advance
    return some op

def comparison (g : Grammar) : Parser Expr := do
  let left ← bitOr g
  let rest ← repeatFrom [] fun done => do
    match ← compareOp? with
    | some op => return some (.mk op (← bitOr g) :: done)
    | none => return none
  return if rest.isEmpty then left else .compare left rest.reverse

def inversion (g : Grammar) : Parser Expr := do
  if ← takeKeyword? "not" then return .unary .negation (← g.inversion)
  comparison g

def joinedBy (word : String) (op : BooleanOp) (operand : Parser Expr) : Parser Expr := do
  let first ← operand
  let all ← repeatFrom [first] fun done => do
    if ← takeKeyword? word then return some ((← operand) :: done)
    return none
  match all with
  | [e] => return e
  | all => return .boolean op all.reverse

def conjunction (g : Grammar) : Parser Expr := joinedBy "and" .and (inversion g)

def disjunction (g : Grammar) : Parser Expr := joinedBy "or" .or (conjunction g)

structure ParamList where
  positionalOnly : List String := []
  positional : List String := []
  variadic : Option String := none
  keywordOnly : List String := []
  keywordDefaults : List (Option Expr) := []
  keywordVariadic : Option String := none
  defaults : List Expr := []
  annotations : List Expr := []
  starred : Bool := false
  slashed : Bool := false

def annotation? (g : Grammar) (annotated unpacked : Bool) : Parser (Option Expr) := do
  if annotated then
    if ← takeOp? ":" then
      return some (← if unpacked then starredOr g.bitOr g.expression else g.expression)
  return none

def default? (g : Grammar) : Parser (Option Expr) := do
  let line := (← peek).line
  if ← takeOp? "=" then
    let t ← peek
    if t.isOp ")" || t.isOp "," then failAt line
    return some (← g.expression)
  return none

def parameter (g : Grammar) (annotated : Bool) (p : ParamList) : Parser ParamList := do
  if p.keywordVariadic.isSome then fail
  if ← takeOp? "**" then
    let id ← name
    let note ← annotation? g annotated false
    return { p with keywordVariadic := some id, annotations := note.toList ++ p.annotations }
  if ← takeOp? "*" then
    if p.starred then fail
    let t ← peek
    if t.kind == .name then
      advance
      let note ← annotation? g annotated true
      return { p with
        starred := true, variadic := some t.text, annotations := note.toList ++ p.annotations }
    -- A bare star needs a further parameter by name.
    if !t.isOp "," then fail
    match ← peekSecond with
    | some u => if u.kind != .name then fail
    | none => fail
    return { p with starred := true }
  if ← takeOp? "/" then
    if p.starred || p.slashed || p.positional.isEmpty then fail
    return { p with slashed := true, positionalOnly := p.positional, positional := [] }
  let id ← name
  let note ← annotation? g annotated false
  let default? ← default? g
  let p := { p with annotations := note.toList ++ p.annotations }
  if p.starred then
    return { p with
      keywordOnly := id :: p.keywordOnly, keywordDefaults := default? :: p.keywordDefaults }
  if default?.isNone && !p.defaults.isEmpty then fail
  return { p with positional := id :: p.positional, defaults := default?.toList ++ p.defaults }

def parameters (g : Grammar) (annotated : Bool) (ending : String) : Parser ParamList := do
  if ← nextIsOp ending then return {}
  let first ← parameter g annotated {}
  let (p, _) ← repeatFrom (first, true) fun (p, going) => do
    if !going then return none
    if !(← takeOp? ",") then return none
    if ← nextIsOp ending then return some (p, false)
    let next ← parameter g annotated p
    return some (next, true)
  if !(← nextIsOp ending) then fail
  return p

def ParamList.toLambda (p : ParamList) : LambdaParams :=
  .mk p.positionalOnly.reverse p.positional.reverse p.variadic p.keywordOnly.reverse
    p.keywordDefaults.reverse p.keywordVariadic p.defaults.reverse

def oldStatements : List String := ["print", "exec"]

def standsAlone (t : Token) : Bool :=
  match t.kind with
  | .name | .number | .string => true
  | .keyword => ["True", "False", "None"].contains t.text
  | .op => t.text == "..."
  | _ => false

def anotherFollows (g : Grammar) (behindName : Bool) : Parser Bool := do
  match ← tokensAhead with
  | [] => return false
  | t :: _ =>
    if !begins t then return false
    let isLambda := t.isKeyword "lambda"
    match ← attempt (if isLambda then g.expression else g.disjunction) with
    | .ok _ => return true
    | .error (.lexical f) => throw (.lexical f)
    | .error (.settled e) =>
      if standsAlone t || isLambda then return true
      if behindName then throw (.settled e)
      return false
    | .error _ => return standsAlone t

def mayBeWord (text : String) : Bool :=
  ["_", "case", "match"].any fun word => text.toList.isPrefixOf word.toList

def checkSingle (g : Grammar) (start : List Token) (body : Expr) : Parser Unit := do
  match start, ← tokensAhead with
  | first :: behind, t :: _ =>
    let isName := first.kind == .name
    let isOld := match body with
      | .name id => oldStatements.contains id
      | _ => false
    let isOpen := t.enclosed &&
      !(isName && (behind.head?.any (·.kind == .string) || mayBeWord first.text))
    if if isOld then isName else isOpen then
      if ← anotherFollows g isName then failAt first.line
  | _, _ => return

def conditionOf (g : Grammar) (line : Nat) : Parser Expr := do
  let begun := (← tokensAhead).head?.any standsAlone
  try
    g.disjunction
  catch
    | .unexpected => if begun then failAt line else fail
    | e => throw e

def expression (g : Grammar) : Parser Expr := do
  if ← takeKeyword? "lambda" then
    let p ← parameters g false ":"
    expectOp ":"
    return .lambda p.toLambda (← g.expression)
  let start ← tokensAhead
  let body ← disjunction g
  checkSingle g start body
  if ← takeKeyword? "if" then
    let line := (start.head?.map (·.line)).getD 1
    let test ← conditionOf g line
    if !(← nextIsKeyword "else") && !(← nextIsOp ":") then failAt line
    expectKeyword "else"
    return .conditional test body (← g.expression)
  return body

def run {α : Type} (tokens : List Token) (p : Parser α) : Except SyntaxError α :=
  match p ⟨tokens, tokens.length⟩ with
  | .ok a _ => .ok a
  | .error f c =>
    let furthest := (tokens[tokens.length - 1 - c.reach]?).getD ⟨.stop, "", 1, false⟩
    .error (f.report tokens furthest)

def ofDepth : (depth : Nat) → Grammar
  | 0 => ⟨fail, fail, fail, fail, fail, fail, fun _ _ => .error .unexpected⟩
  | depth + 1 =>
    { expression := fun c => expression (ofDepth depth) c
      disjunction := fun c => disjunction (ofDepth depth) c
      inversion := fun c => inversion (ofDepth depth) c
      bitOr := fun c => bitOr (ofDepth depth) c
      factor := fun c => factor (ofDepth depth) c
      primary := fun c => primary (ofDepth depth) c
      embedded := fun source line =>
        let tokens := tokensOf line ('(' :: source ++ [')', '\n'])
        match run tokens (starExpressions (ofDepth depth)) with
        | .ok e => .ok e
        | .error e => .error (.settled e) }

def forText (s : List Char) : Grammar := ofDepth (s.length + 2)

end Reading

end LiveMarkup.Syntax
