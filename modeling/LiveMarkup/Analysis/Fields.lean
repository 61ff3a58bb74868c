import LiveMarkup.Client.Scope
import LiveMarkup.Syntax.Expr
/-! The fields of the component that an expression reads and writes. A field is written by `setattr` on
the component or by a mutating method called right on the field; what is written counts as read. -/
namespace LiveMarkup.Analysis
open Syntax

structure Touched where
  signals : List String := []
  writes : List String := []
  deriving DecidableEq, Repr

namespace Touched

def insertNew (name : String) (names : List String) : List String :=
  if names.contains name then names else names ++ [name]

def read (t : Touched) (name : String) : Touched := { t with signals := insertNew name t.signals }

def write (t : Touched) (name : String) : Touched :=
  { signals := insertNew name t.signals, writes := insertNew name t.writes }

end Touched

theorem Touched.mem_insertNew {a name : String} {names : List String} :
    a ∈ insertNew name names ↔ a ∈ names ∨ a = name := by
  unfold insertNew
  split
  · next h =>
    constructor
    · exact .inl
    · rintro (h' | rfl)
      · exact h'
      · simpa using h
  · simp

theorem Touched.nodup_insertNew {name : String} {names : List String} (h : names.Nodup) :
    (insertNew name names).Nodup := by
  unfold insertNew
  split
  · exact h
  · next hn =>
    rw [List.nodup_append]
    refine ⟨h, by simp, ?_⟩
    intro a ha b hb
    simp at hb
    subst hb
    rintro rfl
    simp_all

def mutatingMethods : List String :=
  ["append", "extend", "insert", "pop", "remove", "clear", "update", "add", "discard", "sort",
   "reverse", "setdefault", "popitem"]

def isReceiver (s : Scope) : Expr → Bool
  | .name id => s.isReceiver id
  | _ => false

def writtenBy? (s : Scope) (func : Expr) (args : List Expr) : Option String :=
  match func, args with
  | .name "setattr", target :: field :: _ => if isReceiver s target then field.text? else none
  | .field (.field target name) method, _ =>
    if mutatingMethods.contains method && isReceiver s target then some name else none
  | _, _ => none

mutual

def mentioned : Expr → List String
  | .constant _ => []
  | .name id => [id]
  | .field base _ => mentioned base
  | .subscript base index => mentioned base ++ mentioned index
  | .slice lower upper step =>
    mentionedOption lower ++ mentionedOption upper ++ mentionedOption step
  | .starred value => mentioned value
  | .call _ func args keywords =>
    mentioned func ++ mentionedAll args ++ mentionedKeywords keywords
  | .unary _ operand => mentioned operand
  | .binary left _ right => mentioned left ++ mentioned right
  | .boolean _ operands => mentionedAll operands
  | .compare left rest => mentioned left ++ mentionedComparisons rest
  | .conditional test body orelse => mentioned test ++ mentioned body ++ mentioned orelse
  | .lambda params body => mentionedParams params ++ mentioned body
  | .list items => mentionedAll items
  | .tuple items => mentionedAll items
  | .set items => mentionedAll items
  | .dict entries => mentionedEntries entries
  | .listComp item clauses => mentioned item ++ mentionedClauses clauses
  | .setComp item clauses => mentioned item ++ mentionedClauses clauses
  | .generator item clauses => mentioned item ++ mentionedClauses clauses
  | .dictComp key value clauses => mentioned key ++ mentioned value ++ mentionedClauses clauses
  | .joined parts => mentionedAll parts
  | .formatted value _ spec => mentioned value ++ mentionedOption spec
  | .assigned target value => target :: mentioned value
  | .await value => mentioned value
  | .yield value => mentionedOption value
  | .yieldFrom value => mentioned value

def mentionedAll : List Expr → List String
  | [] => []
  | e :: rest => mentioned e ++ mentionedAll rest

def mentionedOption : Option Expr → List String
  | none => []
  | some e => mentioned e

def mentionedOptions : List (Option Expr) → List String
  | [] => []
  | e :: rest => mentionedOption e ++ mentionedOptions rest

def mentionedKeywords : List Keyword → List String
  | [] => []
  | .named _ value :: rest => mentioned value ++ mentionedKeywords rest
  | .spread value :: rest => mentioned value ++ mentionedKeywords rest

def mentionedComparisons : List Comparison → List String
  | [] => []
  | .mk _ right :: rest => mentioned right ++ mentionedComparisons rest

def mentionedEntries : List Entry → List String
  | [] => []
  | .pair key value :: rest => mentioned key ++ mentioned value ++ mentionedEntries rest
  | .spread value :: rest => mentioned value ++ mentionedEntries rest

def mentionedClauses : List Clause → List String
  | [] => []
  | .mk _ target iter conditions :: rest =>
    mentioned target ++ mentioned iter ++ mentionedAll conditions ++ mentionedClauses rest

def mentionedParams : LambdaParams → List String
  | .mk _ _ _ _ keywordDefaults _ defaults =>
    mentionedOptions keywordDefaults ++ mentionedAll defaults

end

def boundNames : List Clause → List String
  | [] => []
  | .mk _ target _ _ :: rest => mentioned target ++ boundNames rest

mutual

def touch (s : Scope) (t : Touched) : Expr → Touched
  | .constant _ => t
  | .name _ => t
  | .field base name =>
    let t := if isReceiver s base then t.read name else t
    touch s t base
  | .subscript base index => touch s (touch s t base) index
  | .slice lower upper step =>
    touchOption s (touchOption s (touchOption s t lower) upper) step
  | .starred value => touch s t value
  | .call _ func args keywords =>
    let t := match writtenBy? s func args with | some name => t.write name | none => t
    touchKeywords s (touchAll s (touch s t func) args) keywords
  | .unary _ operand => touch s t operand
  | .binary left _ right => touch s (touch s t left) right
  | .boolean _ operands => touchAll s t operands
  | .compare left rest => touchComparisons s (touch s t left) rest
  | .conditional test body orelse => touch s (touch s (touch s t test) body) orelse
  | .lambda params body =>
    -- Defaults are read under the parameters too.
    let inner := s.bind params.names
    touch inner (touchParams inner t params) body
  | .list items => touchAll s t items
  | .tuple items => touchAll s t items
  | .set items => touchAll s t items
  | .dict entries => touchValues s (touchKeys s t entries) entries
  | .listComp item clauses =>
    let inner := s.bind (boundNames clauses)
    touchClauses inner (touch inner (touchSource s t clauses) item) true clauses
  | .setComp item clauses =>
    let inner := s.bind (boundNames clauses)
    touchClauses inner (touch inner (touchSource s t clauses) item) true clauses
  | .generator item clauses =>
    let inner := s.bind (boundNames clauses)
    touchClauses inner (touch inner (touchSource s t clauses) item) true clauses
  | .dictComp key value clauses =>
    let inner := s.bind (boundNames clauses)
    let t := touch inner (touch inner (touchSource s t clauses) key) value
    touchClauses inner t true clauses
  | .joined parts => touchAll s t parts
  | .formatted value _ spec => touchOption s (touch s t value) spec
  | .assigned _ value => touch s t value
  | .await value => touch s t value
  | .yield value => touchOption s t value
  | .yieldFrom value => touch s t value

def touchAll (s : Scope) (t : Touched) : List Expr → Touched
  | [] => t
  | e :: rest => touchAll s (touch s t e) rest

def touchOption (s : Scope) (t : Touched) : Option Expr → Touched
  | none => t
  | some e => touch s t e

def touchOptions (s : Scope) (t : Touched) : List (Option Expr) → Touched
  | [] => t
  | e :: rest => touchOptions s (touchOption s t e) rest

def touchKeywords (s : Scope) (t : Touched) : List Keyword → Touched
  | [] => t
  | .named _ value :: rest => touchKeywords s (touch s t value) rest
  | .spread value :: rest => touchKeywords s (touch s t value) rest

def touchComparisons (s : Scope) (t : Touched) : List Comparison → Touched
  | [] => t
  | .mk _ right :: rest => touchComparisons s (touch s t right) rest

def touchKeys (s : Scope) (t : Touched) : List Entry → Touched
  | [] => t
  | .pair key _ :: rest => touchKeys s (touch s t key) rest
  | .spread _ :: rest => touchKeys s t rest

def touchValues (s : Scope) (t : Touched) : List Entry → Touched
  | [] => t
  | .pair _ value :: rest => touchValues s (touch s t value) rest
  | .spread value :: rest => touchValues s (touch s t value) rest

def touchSource (s : Scope) (t : Touched) : List Clause → Touched
  | [] => t
  | .mk _ _ iter _ :: _ => touch s t iter

def touchClauses (s : Scope) (t : Touched) (first : Bool) : List Clause → Touched
  | [] => t
  | .mk _ _ iter conditions :: rest =>
    let t := if first then t else touch s t iter
    touchClauses s (touchAll s t conditions) false rest

def touchParams (s : Scope) (t : Touched) : LambdaParams → Touched
  | .mk _ _ _ _ keywordDefaults _ defaults => touchAll s (touchOptions s t keywordDefaults) defaults

end

def fieldsOf (s : Scope) (e : Expr) : Touched := touch s {} e

structure Chain where
  promise : Expr
  thenCallback : Expr
  catchCallback : Option Expr

def chain? : Expr → Option Chain
  | .call _ (.field promise "then") [f] [] => some ⟨promise, f, none⟩
  | .call _ (.field (.call _ (.field promise "then") [f] []) "catch") [g] [] => some ⟨promise, f, some g⟩
  | _ => none

end LiveMarkup.Analysis
