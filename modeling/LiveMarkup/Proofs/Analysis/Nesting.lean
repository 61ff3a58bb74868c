import LiveMarkup.Analysis.Calls
/-! The order of the calls in a method: an outer call stands right before those in its callee and its
arguments. -/
namespace LiveMarkup.Analysis
open Syntax

def Call.inner (c : Call) : List Call := calls c.func ++ callsAll c.args ++ callsKeywords c.keywords

/-- Every call is followed by the calls in it, and these by the next one that is not in it. -/
inductive OuterFirst : List Call → Prop where
  | nil : OuterFirst []
  | call {c rest} (inner : OuterFirst c.inner) (later : OuterFirst rest) : OuterFirst (c :: (c.inner ++ rest))

variable {a b : List Call}

theorem outerAppend (h : OuterFirst a) (h' : OuterFirst b) : OuterFirst (a ++ b) := by
  induction h with
  | nil => exact h'
  | call inner later _ ih =>
    rw [List.cons_append, List.append_assoc]
    exact .call inner ih

theorem outerCall {c : Call} (h : OuterFirst c.inner) : OuterFirst (c :: c.inner) := by
  have alone := OuterFirst.call h .nil
  rwa [List.append_nil] at alone

theorem sliceCalls {lower upper step : Option Expr} :
    calls (.slice lower upper step) = callsOptions [lower] ++ callsOptions [upper] ++ callsOptions [step] := by
  cases lower <;> cases upper <;> cases step <;> simp [calls, callsOptions]

theorem formattedCalls {value : Expr} {conversion : Option Conversion} {spec : Option Expr} :
    calls (.formatted value conversion spec) = calls value ++ callsOptions [spec] := by
  cases spec <;> simp [calls, callsOptions]

mutual

theorem callsOuter : (e : Expr) → OuterFirst (calls e)
  | .constant _ | .name _ => .nil
  | .field base _ => callsOuter base
  | .subscript base index => outerAppend (callsOuter base) (callsOuter index)
  | .slice lower upper step => by
    rw [sliceCalls]
    exact outerAppend (outerAppend (optionOuter lower) (optionOuter upper)) (optionOuter step)
  | .call line func args keywords =>
    outerCall (c := ⟨line, func, args, keywords⟩)
      (outerAppend (outerAppend (callsOuter func) (allOuter args)) (keywordsOuter keywords))
  | .binary left _ right => outerAppend (callsOuter left) (callsOuter right)
  | .boolean _ items | .list items | .tuple items | .set items | .joined items => allOuter items
  | .compare left rest => outerAppend (callsOuter left) (comparisonsOuter rest)
  | .conditional test body orelse => outerAppend (outerAppend (callsOuter test) (callsOuter body)) (callsOuter orelse)
  | .lambda params body => outerAppend (paramsOuter params) (callsOuter body)
  | .dict entries => outerAppend (keysOuter entries) (valuesOuter entries)
  | .listComp item clauses | .setComp item clauses | .generator item clauses =>
    outerAppend (callsOuter item) (clausesOuter clauses)
  | .dictComp key value clauses =>
    outerAppend (outerAppend (callsOuter key) (callsOuter value)) (clausesOuter clauses)
  | .formatted value _ spec => by
    rw [formattedCalls]
    exact outerAppend (callsOuter value) (optionOuter spec)
  | .starred value | .unary _ value | .assigned _ value | .await value | .yieldFrom value => callsOuter value
  | .yield none => .nil
  | .yield (some e) => callsOuter e

theorem allOuter : (es : List Expr) → OuterFirst (callsAll es)
  | [] => .nil
  | e :: rest => outerAppend (callsOuter e) (allOuter rest)

theorem optionOuter : (o : Option Expr) → OuterFirst (callsOptions [o])
  | none => .nil
  | some e => outerAppend (callsOuter e) .nil

theorem optionsOuter : (es : List (Option Expr)) → OuterFirst (callsOptions es)
  | [] => .nil
  | none :: rest => optionsOuter rest
  | some e :: rest => outerAppend (callsOuter e) (optionsOuter rest)

theorem keywordsOuter : (ks : List Keyword) → OuterFirst (callsKeywords ks)
  | [] => .nil
  | .named _ value :: rest | .spread value :: rest => outerAppend (callsOuter value) (keywordsOuter rest)

theorem comparisonsOuter : (cs : List Comparison) → OuterFirst (callsComparisons cs)
  | [] => .nil
  | .mk _ right :: rest => outerAppend (callsOuter right) (comparisonsOuter rest)

theorem keysOuter : (es : List Entry) → OuterFirst (callsKeys es)
  | [] => .nil
  | .pair key _ :: rest => outerAppend (callsOuter key) (keysOuter rest)
  | .spread _ :: rest => keysOuter rest

theorem valuesOuter : (es : List Entry) → OuterFirst (callsValues es)
  | [] => .nil
  | .pair _ value :: rest | .spread value :: rest => outerAppend (callsOuter value) (valuesOuter rest)

theorem clausesOuter : (cs : List Clause) → OuterFirst (callsClauses cs)
  | [] => .nil
  | .mk _ target iter conditions :: rest =>
    outerAppend (outerAppend (outerAppend (callsOuter target) (callsOuter iter)) (allOuter conditions))
      (clausesOuter rest)

theorem paramsOuter : (p : LambdaParams) → OuterFirst (callsParams p)
  | .mk _ _ _ _ keywordDefaults _ defaults => outerAppend (optionsOuter keywordDefaults) (allOuter defaults)

end

mutual

theorem stmtOuter : (s : Stmt) → OuterFirst (callsOfStmt s)
  | .function _ signature body outer =>
    outerAppend (outerAppend (allOuter signature) (blockOuter body)) (allOuter outer)
  | .other parts => partsOuter parts

theorem partsOuter : (ps : List Part) → OuterFirst (callsOfParts ps)
  | [] => .nil
  | .expr e :: rest => outerAppend (callsOuter e) (partsOuter rest)
  | .block body :: rest => outerAppend (blockOuter body) (partsOuter rest)
  | .clause parts :: rest => outerAppend (partsOuter parts) (partsOuter rest)

theorem blockOuter : (body : List Stmt) → OuterFirst (callsOfBlock body)
  | [] => .nil
  | s :: rest => outerAppend (stmtOuter s) (blockOuter rest)

end

end LiveMarkup.Analysis
