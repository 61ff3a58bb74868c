import LiveMarkup.Syntax.Parser.Expr
import LiveMarkup.Syntax.Stmt
/-! The grammar of statements, and the readings of whole texts. -/
namespace LiveMarkup.Syntax
namespace Reading
open LiveMarkup.Syntax.Parser

structure BlockGrammar where
  expr : Grammar
  statement : Parser (List Stmt)

def starExpressionsOrYield (g : Grammar) : Parser Expr := do
  if ← takeKeyword? "yield" then yielded g else starExpressions g

def augmentedOps : List String :=
  ["+=", "-=", "*=", "@=", "/=", "%=", "&=", "|=", "^=", "<<=", ">>=", "**=", "//="]

def isSinglePlace : Expr → Bool
  | .name _ | .field _ _ | .subscript _ _ => true
  | _ => false

def assignment (g : Grammar) : Parser (List Expr) := do
  let line := (← peek).line
  let first ← starExpressionsOrYield g
  let t ← peek
  if t.isOp ":" then
    if !isSinglePlace first then
      advance
      match ← attempt g.expression with
      | .ok _ => failAt line
      | .error (.settled e) => throw (.settled e)
      | .error _ => fail
    advance
    let note ← g.expression
    if ← takeOp? "=" then return [first, note, ← starExpressionsOrYield g]
    return [first, note]
  if t.kind == .op && augmentedOps.contains t.text then
    if !isSinglePlace first then fail
    advance
    return [first, ← starExpressionsOrYield g]
  let all ← repeatFrom [first] fun done => do
    if !(← nextIsOp "=") then return none
    if !((done.head?.map (isTarget true)).getD false) then fail
    advance
    return some ((← starExpressionsOrYield g) :: done)
  return all.reverse

def dottedName : Parser Unit := do
  let _ ← name
  let _ ← repeatFrom () fun _ => do
    if ← takeOp? "." then
      let _ ← name
      return some ()
    return none

def imported (path : Parser Unit) : Parser Unit := do
  path
  if ← takeKeyword? "as" then
    let _ ← name

def isName (t : Token) : Bool := t.kind == .name

def importFrom : Parser Unit := do
  let dots ← repeatFrom 0 fun n => do
    if (← takeOp? ".") || (← takeOp? "...") then return some (n + 1)
    return none
  if dots == 0 || !(← nextIsKeyword "import") then dottedName
  expectKeyword "import"
  if ← takeOp? "*" then return
  let single := imported (do let _ ← name)
  if ← takeOp? "(" then
    let _ ← commaSeparated single isName
    expectOp ")"
  else
    let (_, trailing) ← commaSeparated single isName
    if trailing then fail

def simpleStatement (g : Grammar) : Parser Stmt := do
  let t ← peek
  let exprs ← if t.kind != .keyword then assignment g
    else
      match t.text with
      | "pass" | "break" | "continue" =>
        advance
        pure []
      | "return" =>
        advance
        if beginsItem (← peek) then pure [← starExpressions g] else pure []
      | "raise" =>
        advance
        if begins (← peek) then
          let e ← g.expression
          if ← takeKeyword? "from" then pure [e, ← g.expression] else pure [e]
        else pure []
      | "global" | "nonlocal" =>
        advance
        let (_, trailing) ← commaSeparated name isName
        if trailing then fail
        pure []
      | "del" =>
        advance
        let (targets, _) ← commaSeparated g.primary begins
        if !areTargets targets then fail
        pure targets
      | "assert" =>
        advance
        let e ← g.expression
        if ← takeOp? "," then pure [e, ← g.expression] else pure [e]
      | "import" =>
        advance
        let (_, trailing) ← commaSeparated (imported dottedName) isName
        if trailing then fail
        pure []
      | "from" =>
        advance
        importFrom
        pure []
      | _ => assignment g
  return .other (exprs.map .expr)

def newline : Parser Unit := do
  if (← peek).kind != .newline then fail
  advance

def simpleStatements (g : Grammar) : Parser (List Stmt) := do
  let first ← simpleStatement g
  let (all, _) ← repeatFrom ([first], true) fun (done, going) => do
    if !going then return none
    if !(← takeOp? ";") then return none
    if (← peek).kind == .newline then return some (done, false)
    return some ((← simpleStatement g) :: done, true)
  newline
  return all.reverse

def statementsUntil (statement : Parser (List Stmt)) (ending : TokenKind) : Parser (List Stmt) := do
  let all ← repeatFrom [] fun done => do
    if (← peek).kind == ending then return none
    return some ((← statement) :: done)
  return all.reverse.flatten

def block (b : BlockGrammar) : Parser (List Stmt) := do
  expectOp ":"
  if (← peek).kind == .newline then
    advance
    if (← peek).kind != .indent then throw .needsBlock
    advance
    let body ← statementsUntil b.statement .dedent
    advance
    return body
  simpleStatements b.expr

def blockAfter? (b : BlockGrammar) (word : String) : Parser (Option (List Stmt)) := do
  if ← takeKeyword? word then return some (← block b)
  return none

def optionalBlock (body : Option (List Stmt)) : List Part :=
  match body with
  | some body => [.block body]
  | none => []

def choice (b : BlockGrammar) : Parser (List Part) := do
  let test ← named b.expr b.expr.expression
  let body ← block b
  let branches ← repeatFrom [(test, body)] fun done => do
    if ← takeKeyword? "elif" then
      let test ← named b.expr b.expr.expression
      return some ((test, ← block b) :: done)
    return none
  let orelse ← blockAfter? b "else"
  let parts := branches.foldl (fun inner (test, body) =>
      let rest := if inner.isEmpty then optionalBlock orelse else [.block [.other inner]]
      (.expr test :: .block body :: rest : List Part)) []
  return parts

def loop (b : BlockGrammar) : Parser (List Part) := do
  let target ← loopTargets b.expr
  let iter ← starExpressions b.expr
  let body ← block b
  return [.expr target, .expr iter, .block body] ++ optionalBlock (← blockAfter? b "else")

def context (g : Grammar) : Parser (List Expr) := do
  let e ← g.expression
  if ← takeKeyword? "as" then
    let target ← starredOr g.primary g.primary
    if !isTarget true target then fail
    let t ← peek
    if !(t.isOp "," || t.isOp ")" || t.isOp ":") then fail
    return [e, target]
  return [e]

def contexts (g : Grammar) : Parser (List Expr) := do
  let bracketed : Parser (List Expr) := do
    expectOp "("
    let (items, _) ← commaSeparated (context g) begins
    expectOp ")"
    if !(← nextIsOp ":") then fail
    return items.flatten
  let plain : Parser (List Expr) := do
    let (items, trailing) ← commaSeparated (context g) begins
    if trailing then fail
    return items.flatten
  either bracketed plain

def guarded (b : BlockGrammar) : Parser (List Part) := do
  let body ← block b
  let handlers ← repeatFrom ([], none) fun (done, grouped) => do
    if !(← takeKeyword? "except") then return none
    let isGroup ← takeOp? "*"
    if (grouped.map (· != isGroup)).getD false then fail
    let caught ← if ← nextIsOp ":" then do
        if isGroup then fail
        pure []
      else do
        let e ← b.expr.expression
        if ← takeKeyword? "as" then
          let _ ← name
        pure [Part.expr e]
    let handler := caught ++ [.block (← block b)]
    return some (Part.clause handler :: done, some isGroup)
  let handlers := handlers.1.reverse
  let orelse ← if handlers.isEmpty then pure none else blockAfter? b "else"
  let final ← blockAfter? b "finally"
  if handlers.isEmpty && final.isNone then throw .rejected
  return .block body :: handlers ++ optionalBlock orelse ++ optionalBlock final

mutual

def pattern (g : Grammar) (depth : Nat) : Parser (List Expr) :=
  match depth with
  | 0 => fail
  | depth + 1 => do
    let first ← closedPattern g depth
    let all ← repeatFrom [first] fun done => do
      if ← takeOp? "|" then return some ((← closedPattern g depth) :: done)
      return none
    if ← takeKeyword? "as" then
      if (← name) == "_" then fail
    return all.reverse.flatten

def closedPattern (g : Grammar) (depth : Nat) : Parser (List Expr) :=
  match depth with
  | 0 => fail
  | depth + 1 => do
    let t ← peek
    match t.kind with
    | .string => return [← texts g]
    | .number => signedNumber
    | .keyword =>
      if ["None", "True", "False"].contains t.text then
        advance
        return []
      fail
    | .name =>
      dottedName
      if ← takeOp? "(" then
        let (items, _) ← if ← nextIsOp ")" then pure ([], false)
          else commaSeparated (argumentPattern g depth) fun t => !t.isOp ")"
        expectOp ")"
        return items.flatten
      return []
    | .op =>
      match t.text with
      | "-" =>
        advance
        if (← peek).kind != .number then fail
        signedNumber
      | "(" => sequence g depth ")"
      | "[" => sequence g depth "]"
      | "\x7b" =>
        advance
        let (items, _) ← if ← nextIsOp "\x7d" then pure ([], false)
          else commaSeparated (mappedPattern g depth) fun t => !t.isOp "\x7d"
        expectOp "\x7d"
        return items.flatten
      | _ => fail
    | _ => fail
where
  isImaginary (t : Token) : Bool := t.text.endsWith "j" || t.text.endsWith "J"
  -- A complex number has a real part, and an imaginary one behind it.
  signedNumber : Parser (List Expr) := do
    let real ← peek
    advance
    if (← nextIsOp "+") || (← nextIsOp "-") then
      if isImaginary real then failAt real.line
      advance
      let imaginary ← peek
      if imaginary.kind != .number then fail
      if !isImaginary imaginary then failAt imaginary.line
      advance
    return []

def argumentPattern (g : Grammar) (depth : Nat) : Parser (List Expr) :=
  match depth with
  | 0 => fail
  | depth + 1 => do
    let t ← peek
    if t.kind == .name then
      match ← peekSecond with
      | some u =>
        if u.isOp "=" then
          advance
          advance
      | none => pure ()
    pattern g depth

def mappedPattern (g : Grammar) (depth : Nat) : Parser (List Expr) :=
  match depth with
  | 0 => fail
  | depth + 1 => do
    if ← takeOp? "**" then
      let _ ← name
      return []
    let key ← closedPattern g depth
    expectOp ":"
    return key ++ (← pattern g depth)

def starredPattern (g : Grammar) (depth : Nat) : Parser (List Expr) :=
  match depth with
  | 0 => fail
  | depth + 1 => do
    if ← takeOp? "*" then
      let _ ← name
      return []
    pattern g depth

def sequence (g : Grammar) (depth : Nat) (ending : String) : Parser (List Expr) :=
  match depth with
  | 0 => fail
  | depth + 1 => do
    advance
    let (items, _) ← if ← nextIsOp ending then pure ([], false)
      else commaSeparated (starredPattern g depth) fun t => !t.isOp ending
    expectOp ending
    return items.flatten

end

def caseClause (b : BlockGrammar) : Parser Part := do
  let t ← peek
  if !(t.kind == .name && t.text == "case") then fail
  advance
  let depth := 8 * (← ahead)
  let (items, _) ← commaSeparated (starredPattern b.expr depth) fun t =>
    !(t.isOp ":" || t.isKeyword "if")
  let guard ← if ← takeKeyword? "if" then do
      pure [Part.expr (← named b.expr b.expr.expression)]
    else pure []
  let body ← block b
  return .clause (items.flatten.map .expr ++ guard ++ [.block body])

def matching (b : BlockGrammar) : Parser (List Stmt) := do
  advance
  let subject ← itemsAsTuple (item b.expr)
  expectOp ":"
  newline
  if (← peek).kind != .indent then throw .needsBlock
  advance
  let first ← caseClause b
  let cases ← repeatFrom [first] fun done => do
    if (← peek).kind == .dedent then return none
    return some ((← caseClause b) :: done)
  advance
  return [.other (.expr subject :: cases.reverse)]

def keywordValue : Keyword → Expr
  | .named _ e => e
  | .spread e => e

def functionDef (b : BlockGrammar) (decorators : List Expr) : Parser Stmt := do
  expectKeyword "def"
  let _ ← name
  expectOp "("
  let p ← parameters b.expr true ")"
  expectOp ")"
  let result ← if ← takeOp? "->" then do pure [← b.expr.expression] else pure []
  let body ← block b
  let receiver := (p.positionalOnly.reverse ++ p.positional.reverse).head?
  let signature := p.annotations.reverse ++ p.keywordDefaults.reverse.filterMap id ++
    p.defaults.reverse
  return .function receiver signature body (decorators ++ result)

def classDef (b : BlockGrammar) (decorators : List Expr) : Parser Stmt := do
  expectKeyword "class"
  let _ ← name
  let (bases, keyed) ← if ← takeOp? "(" then arguments b.expr else pure ([], [])
  let body ← block b
  return .other (bases.map .expr ++ keyed.map (fun k => .expr (keywordValue k)) ++ [.block body] ++
    decorators.map .expr)

def statement (b : BlockGrammar) : Parser (List Stmt) := do
  let t ← peek
  let g := b.expr
  if t.isOp "@" then
    let decorators ← repeatFrom [] fun done => do
      if !(← takeOp? "@") then return none
      let e ← named g g.expression
      newline
      return some (e :: done)
    let decorators := decorators.reverse
    let t ← peek
    if t.isKeyword "class" then return [← classDef b decorators]
    if t.isKeyword "async" then advance
    return [← functionDef b decorators]
  if t.kind == .name && t.text == "match" then return ← either (matching b) (simpleStatements g)
  if t.kind != .keyword then return ← simpleStatements g
  match t.text with
  | "def" => return [← functionDef b []]
  | "class" => return [← classDef b []]
  | "if" =>
    advance
    return [.other (← choice b)]
  | "while" =>
    advance
    let test ← named g g.expression
    let body ← block b
    return [.other ([.expr test, .block body] ++ optionalBlock (← blockAfter? b "else"))]
  | "for" =>
    advance
    return [.other (← loop b)]
  | "with" =>
    advance
    let items ← contexts g
    return [.other (items.map .expr ++ [.block (← block b)])]
  | "try" =>
    advance
    return [.other (← guarded b)]
  | "async" =>
    advance
    let t ← peek
    if t.isKeyword "def" then return [← functionDef b []]
    if ← takeKeyword? "for" then return [.other (← loop b)]
    if ← takeKeyword? "with" then
      let items ← contexts g
      return [.other (items.map .expr ++ [.block (← block b)])]
    fail
  | _ => simpleStatements g

def blocksOfDepth (g : Grammar) : (depth : Nat) → BlockGrammar
  | 0 => ⟨g, fail⟩
  | depth + 1 => ⟨g, fun c => statement (blocksOfDepth g depth) c⟩

end Reading

open Reading LiveMarkup.Syntax.Parser

def readExpression (text : String) : Except SyntaxError Expr :=
  let s := unifyBreaks text.toList
  let g := forText s
  run (tokensOf 1 s) do
    let e ← itemsAsTuple (expression g)
    let _ ← repeatFrom () fun _ => do
      if (← peek).kind == .newline then
        advance
        return some ()
      return none
    if (← peek).kind != .stop then fail
    return e

def readStatements (text : String) : Except SyntaxError (List Stmt) :=
  let s := unifyBreaks text.toList
  let s := if s.getLast? == some '\n' then s else s ++ ['\n']
  let b := blocksOfDepth (forText s) (s.length + 2)
  run (tokensOf 1 s) (statementsUntil (statement b) .stop)

end LiveMarkup.Syntax
