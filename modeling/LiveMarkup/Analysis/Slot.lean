import LiveMarkup.Analysis.Calls
import LiveMarkup.Analysis.Fields
import LiveMarkup.Client.Print
import LiveMarkup.Syntax.Parser.Stmt
import LiveMarkup.Syntax.Source
import LiveMarkup.Template.Split
import LiveMarkup.Text.Blank
import LiveMarkup.Text.Word
/-! The slots of a render method's template calls: what stands in each, which fields it touches, and
its client form. -/
namespace LiveMarkup.Analysis
open Syntax Client

structure Slot where
  signals : List String := []
  writes : List String := []
  isFunction : Bool := false
  isEvent : Bool := false
  eventName : Option String := none
  source : String := ""
  bodySource : Option String := none
  params : List String := []
  isAsync : Bool := false
  promiseSource : Option String := none
  thenCallback : Option String := none
  catchCallback : Option String := none
  reads : List String := []
  translatable : Bool := true
  expression : String := ""
  template : String := ""
  slot : Nat := 0
  line : Int := 0
  deriving DecidableEq, Repr

inductive Note where
  | skipped (file : Option String) (line : Int)
  | withoutClientForm (slot : Nat) (line : Int) (cause : Untranslatable)
  | chainStays (line : Int) (cause : Untranslatable)
  deriving DecidableEq, Repr

namespace Note

def text : Note → String
  | skipped file line =>
    let file := match file with
      | some "" | none => "<source>"
      | some f => f
    "Skipping template call at " ++ file ++ ":" ++ toString line ++
      ": the template is not a string literal"
  | withoutClientForm slot line cause =>
    "Slot " ++ toString slot ++ " at line " ++ toString line ++ " has no client form: " ++
      cause.message
  | chainStays line cause =>
    "Promise chain at line " ++ toString line ++ " stays server-side: " ++ cause.message

end Note

inductive Problem where
  | unparsable
  | noFunction
  | keywordArguments
  | noTemplate
  | braces (e : Template.BraceError)
  | count (slots values : Nat)
  | starred
  | noSource (className : String)
  deriving DecidableEq, Repr

namespace Problem

def message : Problem → String
  | unparsable => "Cannot parse render method: ?"
  | noFunction => "No function definition found in render source"
  | keywordArguments => "Template calls take positional arguments only"
  | noTemplate => "Template call without a template string"
  | braces e => e.message
  | count slots values =>
    "Template has " ++ toString slots ++ " slots but " ++ toString values ++ " values"
  | starred => "Starred template values are not supported"
  | noSource className =>
    "Cannot read the source of " ++ className ++ ".render: could not get source code"

end Problem

structure Located where
  message : String
  file : Option String
  line : Option Int
  deriving DecidableEq, Repr

namespace Located

def text (l : Located) : String :=
  let line? := l.line.filter (· ≠ 0)
  match l.file.filter (· ≠ ""), line? with
  | some f, some n => l.message ++ " (" ++ f ++ ", line " ++ toString n ++ ")"
  | some f, none => l.message ++ " (" ++ f ++ ")"
  | none, some n => l.message ++ " (line " ++ toString n ++ ")"
  | none, none => l.message

end Located

inductive AnalysisError where
  | located (problem : Problem) (file : Option String) (line : Option Int)
  | unwritable
  | nullCharacter
  deriving DecidableEq, Repr

namespace AnalysisError

def located? : AnalysisError → Option Located
  | located problem file line => some ⟨problem.message, file, line⟩
  | _ => none

def text : AnalysisError → String
  | located problem file line => (Located.mk problem.message file line).text
  | unwritable => "Unable to avoid backslash in f-string expression part"
  | nullCharacter => "source code string cannot contain null bytes"

end AnalysisError

abbrev Noting := ExceptT AnalysisError (StateM (List Note))

def note (n : Note) : Noting Unit := modify (· ++ [n])

/-- The name of the event attribute at whose value the text before a slot ends: a blank, the name, an
equals sign, blanks, and perhaps a quote. A line break may follow the quote. -/
def eventBefore? (before : List Char) : Option String :=
  let r := before.reverse
  let r := match r with
    | '\n' :: q :: rest => if q == '"' || q == '\'' then q :: rest else r
    | _ => r
  let r := match r with
    | q :: rest => if q == '"' || q == '\'' then rest else r
    | [] => r
  match r.dropWhile Text.isBlank with
  | '=' :: rest =>
    let word := rest.takeWhile Text.isWord
    let name := word.reverse
    if 3 ≤ word.length && ['o', 'n'].isPrefixOf name &&
        ((rest.drop word.length).head?.any Text.isBlank) then
      some (String.ofList name)
    else none
  | _ => none

structure PrintedChain where
  source : String
  promise : String
  thenCallback : String
  catchCallback : Option String
  deriving DecidableEq, Repr

def printChainParts (s : Scope) (e : Expr) (c : Chain) : Except Untranslatable PrintedChain := do
  let source ← print s e
  let promise ← print s c.promise
  let thenCallback ← print s c.thenCallback
  match c.catchCallback with
  | some g => return ⟨source, promise, thenCallback, some (← print s g)⟩
  | none => return ⟨source, promise, thenCallback, none⟩

def lambdaParams? : Expr → Option (LambdaParams × Expr)
  | .lambda params body => some (params, body)
  | _ => none

def printSlot (s : Scope) (e : Expr) : Except Untranslatable (String × Option String) := do
  let source ← print s e
  match lambdaParams? e with
  | some (params, body) => return (source, some (← printBody s params body))
  | none => return (source, none)

def classify (s : Scope) (e : Expr) (before template : String) (slot : Nat) (line : Int) :
    Noting Slot := do
  let some expression := e.source? | throw .unwritable
  let base : Slot := { expression, template, slot, line }
  match chain? e with
  | some c =>
    match printChainParts s e c with
    | .ok p =>
      return { base with
        isAsync := true, reads := (fieldsOf s e).signals, source := p.source,
        promiseSource := some p.promise, thenCallback := some p.thenCallback,
        catchCallback := p.catchCallback }
    | .error cause =>
      note (.chainStays line cause)
      return { base with isAsync := true, source := expression, translatable := false }
  | none =>
    let touched := fieldsOf s e
    let isFunction := (lambdaParams? e).isSome
    let event := if isFunction then eventBefore? before.toList else none
    let params := ((lambdaParams? e).map (·.1.names)).getD []
    let base := { base with
      signals := touched.signals, writes := touched.writes, isFunction,
      isEvent := event.isSome, eventName := event, params }
    match printSlot s e with
    | .ok (source, bodySource) => return { base with source, bodySource }
    | .error cause =>
      note (.withoutClientForm slot line cause)
      return { base with source := expression, translatable := false }

structure Context where
  scope : Scope
  offset : Int
  file : Option String

def Context.fail {α : Type} (c : Context) (p : Problem) (line : Int) : Noting α :=
  throw (.located p c.file (some line))

def classifyAll (c : Context) (template : String) (line : Int) :
    Nat → List Expr → List String → Noting (List Slot)
  | slot, e :: rest, before :: texts => do
    if Reading.isStarred e then c.fail .starred line
    let first ← classify c.scope e before template slot line
    return first :: (← classifyAll c template line (slot + 1) rest texts)
  | _, _, _ => return []

def analyzeSite (c : Context) (call : Call) : Noting (List Slot) := do
  let line : Int := call.line + c.offset
  if !call.keywords.isEmpty then c.fail .keywordArguments line
  match call.args with
  | [] => c.fail .noTemplate line
  | first :: values =>
    match first.text? with
    | none =>
      note (.skipped c.file line)
      return []
    | some template =>
      match Template.split template with
      | .error e => c.fail (.braces e) line
      | .ok segments =>
        if segments.length - 1 ≠ values.length then
          c.fail (.count (segments.length - 1) values.length) line
        classifyAll c template line 0 values segments

def analyzeCalls (c : Context) : List Call → Noting (List Slot)
  | [] => return []
  | call :: rest => do
    if call.isTemplateCall c.scope.tag then
      let slots ← analyzeSite c call
      return slots ++ (← analyzeCalls c rest)
    analyzeCalls c rest

def isIndented (source : List Char) : Bool :=
  match (Text.lines source).find? fun l => l.any (!Text.isBlank ·) with
  | some (c :: _) => Text.isBlank c
  | _ => false

/-- The slots of every template call in the source of a render method, in source order. `firstLine` is
the line of its file that the source starts on. An indented method is read as part of a class. -/
def analyzeSource (source : String) (firstLine : Int) (file : Option String) (tag : String) :
    Noting (List Slot) := do
  let indented := isIndented source.toList
  let text := if indented then "class _Render:\n" ++ source else source
  let offset := firstLine - 1 - (if indented then 1 else 0)
  if text.toList.contains '\x00' then throw .nullCharacter
  match readStatements text with
  | .error e =>
    let line := if e.line = 0 then 1 else e.line
    throw (.located .unparsable file (some (line + offset)))
  | .ok body =>
    match outermostStmt body with
    | none => throw (.located .noFunction file none)
    | some f =>
      let scope : Scope := { receiver := f.receiver.getD "self", tag }
      analyzeCalls ⟨scope, offset, file⟩ (callsOfBlock f.body)

end LiveMarkup.Analysis
