import LiveMarkup.Analysis.Fields
/-! Variables under other names. Every variable of an expression is called by another name, where it is bound and
where it is used; members, keywords and texts keep theirs. -/
namespace LiveMarkup.Syntax
open Analysis

section Renaming

variable (f : String → String)

mutual

def rename : Expr → Expr
  | .constant value => .constant value
  | .name id => .name (f id)
  | .field base name => .field (rename base) name
  | .subscript base index => .subscript (rename base) (rename index)
  | .slice lower upper step => .slice (renameOption lower) (renameOption upper) (renameOption step)
  | .starred value => .starred (rename value)
  | .call line func args keywords => .call line (rename func) (renameAll args) (renameKeywords keywords)
  | .unary op operand => .unary op (rename operand)
  | .binary left op right => .binary (rename left) op (rename right)
  | .boolean op operands => .boolean op (renameAll operands)
  | .compare left rest => .compare (rename left) (renameComparisons rest)
  | .conditional test body orelse => .conditional (rename test) (rename body) (rename orelse)
  | .lambda params body => .lambda (renameParams params) (rename body)
  | .list items => .list (renameAll items)
  | .tuple items => .tuple (renameAll items)
  | .set items => .set (renameAll items)
  | .dict entries => .dict (renameEntries entries)
  | .listComp item clauses => .listComp (rename item) (renameClauses clauses)
  | .setComp item clauses => .setComp (rename item) (renameClauses clauses)
  | .generator item clauses => .generator (rename item) (renameClauses clauses)
  | .dictComp key value clauses => .dictComp (rename key) (rename value) (renameClauses clauses)
  | .joined parts => .joined (renameAll parts)
  | .formatted value conversion spec => .formatted (rename value) conversion (renameOption spec)
  | .assigned target value => .assigned (f target) (rename value)
  | .await value => .await (rename value)
  | .yield value => .yield (renameOption value)
  | .yieldFrom value => .yieldFrom (rename value)

def renameAll : List Expr → List Expr
  | [] => []
  | e :: rest => rename e :: renameAll rest

def renameOption : Option Expr → Option Expr
  | none => none
  | some e => some (rename e)

def renameOptions : List (Option Expr) → List (Option Expr)
  | [] => []
  | e :: rest => renameOption e :: renameOptions rest

def renameKeywords : List Keyword → List Keyword
  | [] => []
  | .named name value :: rest => .named name (rename value) :: renameKeywords rest
  | .spread value :: rest => .spread (rename value) :: renameKeywords rest

def renameComparisons : List Comparison → List Comparison
  | [] => []
  | .mk op right :: rest => .mk op (rename right) :: renameComparisons rest

def renameEntries : List Entry → List Entry
  | [] => []
  | .pair key value :: rest => .pair (rename key) (rename value) :: renameEntries rest
  | .spread value :: rest => .spread (rename value) :: renameEntries rest

def renameClauses : List Clause → List Clause
  | [] => []
  | .mk isAsync target iter conditions :: rest =>
    .mk isAsync (rename target) (rename iter) (renameAll conditions) :: renameClauses rest

def renameParams : LambdaParams → LambdaParams
  | .mk positionalOnly positional variadic keywordOnly keywordDefaults keywordVariadic defaults =>
    .mk (positionalOnly.map f) (positional.map f) (variadic.map f) (keywordOnly.map f)
      (renameOptions keywordDefaults) (keywordVariadic.map f) (renameAll defaults)

end

end Renaming

section Binding

def LambdaParams.allNames : LambdaParams → List String
  | .mk positionalOnly positional variadic keywordOnly _ keywordVariadic _ =>
    positionalOnly ++ positional ++ variadic.toList ++ keywordOnly ++ keywordVariadic.toList

mutual

def stored : Expr → List String
  | .name id => [id]
  | .starred value => stored value
  | .tuple items => storedAll items
  | .list items => storedAll items
  | _ => []

def storedAll : List Expr → List String
  | [] => []
  | e :: rest => stored e ++ storedAll rest

end

mutual

def rebound : Expr → List String
  | .constant _ => []
  | .name _ => []
  | .field base _ => rebound base
  | .subscript base index => rebound base ++ rebound index
  | .slice lower upper step => reboundOption lower ++ reboundOption upper ++ reboundOption step
  | .starred value => rebound value
  | .call _ func args keywords => rebound func ++ reboundAll args ++ reboundKeywords keywords
  | .unary _ operand => rebound operand
  | .binary left _ right => rebound left ++ rebound right
  | .boolean _ operands => reboundAll operands
  | .compare left rest => rebound left ++ reboundComparisons rest
  | .conditional test body orelse => rebound test ++ rebound body ++ rebound orelse
  | .lambda params body => params.allNames ++ (reboundParams params ++ rebound body)
  | .list items => reboundAll items
  | .tuple items => reboundAll items
  | .set items => reboundAll items
  | .dict entries => reboundEntries entries
  | .listComp item clauses => rebound item ++ reboundClauses clauses
  | .setComp item clauses => rebound item ++ reboundClauses clauses
  | .generator item clauses => rebound item ++ reboundClauses clauses
  | .dictComp key value clauses => rebound key ++ rebound value ++ reboundClauses clauses
  | .joined parts => reboundAll parts
  | .formatted value _ spec => rebound value ++ reboundOption spec
  | .assigned target value => [target] ++ rebound value
  | .await value => rebound value
  | .yield value => reboundOption value
  | .yieldFrom value => rebound value

def reboundAll : List Expr → List String
  | [] => []
  | e :: rest => rebound e ++ reboundAll rest

def reboundOption : Option Expr → List String
  | none => []
  | some e => rebound e

def reboundOptions : List (Option Expr) → List String
  | [] => []
  | e :: rest => reboundOption e ++ reboundOptions rest

def reboundKeywords : List Keyword → List String
  | [] => []
  | .named _ value :: rest => rebound value ++ reboundKeywords rest
  | .spread value :: rest => rebound value ++ reboundKeywords rest

def reboundComparisons : List Comparison → List String
  | [] => []
  | .mk _ right :: rest => rebound right ++ reboundComparisons rest

def reboundEntries : List Entry → List String
  | [] => []
  | .pair key value :: rest => rebound key ++ rebound value ++ reboundEntries rest
  | .spread value :: rest => rebound value ++ reboundEntries rest

def reboundClauses : List Clause → List String
  | [] => []
  | .mk _ target iter conditions :: rest =>
    stored target ++ (rebound target ++ rebound iter ++ reboundAll conditions ++ reboundClauses rest)

def reboundParams : LambdaParams → List String
  | .mk _ _ _ _ keywordDefaults _ defaults => reboundOptions keywordDefaults ++ reboundAll defaults

end

end Binding

section Shape

variable {f : String → String} {e : Expr}

theorem renamedCompound : (rename f e).isCompound = e.isCompound := by cases e <;> rfl

theorem renamedText : (rename f e).text? = e.text? := by cases e <;> rfl

theorem renamedNull : (rename f e).isNull = e.isNull := by cases e <;> rfl

theorem renamedKeywords {keywords : List Keyword} : (renameKeywords f keywords).isEmpty = keywords.isEmpty := by
  cases keywords with
  | nil => rfl
  | cons k rest => cases k <;> rfl

theorem renamedSome {e : Option Expr} : (renameOption f e).isSome = e.isSome := by cases e <;> rfl

theorem renamedNames {params : LambdaParams} : (renameParams f params).names = params.names.map f := by
  obtain ⟨⟩ := params
  exact List.map_append.symm

theorem renamedPlain {params : LambdaParams} : (renameParams f params).isPlain = params.isPlain := by
  obtain ⟨_, _, variadic, keywordOnly, _, keywordVariadic, defaults⟩ := params
  cases variadic <;> cases keywordOnly <;> cases keywordVariadic <;> cases defaults <;> rfl

end Shape

section Names

variable (f : String → String)

mutual

theorem mentionedRenamed : (e : Expr) → mentioned (rename f e) = (mentioned e).map f
  | .constant _ => rfl
  | .name _ => rfl
  | .field base _ => mentionedRenamed base
  | .subscript base index | .binary base _ index => by
    simp only [rename, mentioned, mentionedRenamed base, mentionedRenamed index, List.map_append]
  | .slice lower upper step => by
    simp only [rename, mentioned, optionRenamed lower, optionRenamed upper, optionRenamed step, List.map_append]
  | .starred value | .unary _ value | .await value | .yieldFrom value => mentionedRenamed value
  | .call _ func args keywords => by
    simp only [rename, mentioned, mentionedRenamed func, allRenamed args, keywordsRenamed keywords, List.map_append]
  | .boolean _ items | .list items | .tuple items | .set items | .joined items => allRenamed items
  | .compare left rest => by
    simp only [rename, mentioned, mentionedRenamed left, comparisonsRenamed rest, List.map_append]
  | .conditional test body orelse => by
    simp only [rename, mentioned, mentionedRenamed test, mentionedRenamed body, mentionedRenamed orelse, List.map_append]
  | .lambda params body => by
    simp only [rename, mentioned, paramsRenamed params, mentionedRenamed body, List.map_append]
  | .dict entries => entriesRenamed entries
  | .listComp item clauses | .setComp item clauses | .generator item clauses => by
    simp only [rename, mentioned, mentionedRenamed item, clausesRenamed clauses, List.map_append]
  | .dictComp key value clauses => by
    simp only [rename, mentioned, mentionedRenamed key, mentionedRenamed value, clausesRenamed clauses, List.map_append]
  | .formatted value _ spec => by
    simp only [rename, mentioned, mentionedRenamed value, optionRenamed spec, List.map_append]
  | .assigned target value => by simp only [rename, mentioned, mentionedRenamed value, List.map_cons]
  | .yield value => optionRenamed value

theorem allRenamed : (es : List Expr) → mentionedAll (renameAll f es) = (mentionedAll es).map f
  | [] => rfl
  | e :: rest => by simp only [renameAll, mentionedAll, mentionedRenamed e, allRenamed rest, List.map_append]

theorem optionRenamed : (e : Option Expr) → mentionedOption (renameOption f e) = (mentionedOption e).map f
  | none => rfl
  | some e => mentionedRenamed e

theorem optionsRenamed : (es : List (Option Expr)) →
    mentionedOptions (renameOptions f es) = (mentionedOptions es).map f
  | [] => rfl
  | e :: rest => by
    simp only [renameOptions, mentionedOptions, optionRenamed e, optionsRenamed rest, List.map_append]

theorem keywordsRenamed : (ks : List Keyword) →
    mentionedKeywords (renameKeywords f ks) = (mentionedKeywords ks).map f
  | [] => rfl
  | .named _ value :: rest | .spread value :: rest => by
    simp only [renameKeywords, mentionedKeywords, mentionedRenamed value, keywordsRenamed rest, List.map_append]

theorem comparisonsRenamed : (cs : List Comparison) →
    mentionedComparisons (renameComparisons f cs) = (mentionedComparisons cs).map f
  | [] => rfl
  | .mk _ right :: rest => by
    simp only [renameComparisons, mentionedComparisons, mentionedRenamed right, comparisonsRenamed rest,
      List.map_append]

theorem entriesRenamed : (es : List Entry) → mentionedEntries (renameEntries f es) = (mentionedEntries es).map f
  | [] => rfl
  | .pair key value :: rest => by
    simp only [renameEntries, mentionedEntries, mentionedRenamed key, mentionedRenamed value, entriesRenamed rest,
      List.map_append]
  | .spread value :: rest => by
    simp only [renameEntries, mentionedEntries, mentionedRenamed value, entriesRenamed rest, List.map_append]

theorem clausesRenamed : (cs : List Clause) → mentionedClauses (renameClauses f cs) = (mentionedClauses cs).map f
  | [] => rfl
  | .mk _ target iter conditions :: rest => by
    simp only [renameClauses, mentionedClauses, mentionedRenamed target, mentionedRenamed iter, allRenamed conditions,
      clausesRenamed rest, List.map_append]

theorem paramsRenamed : (p : LambdaParams) → mentionedParams (renameParams f p) = (mentionedParams p).map f
  | .mk _ _ _ _ keywordDefaults _ defaults => by
    simp only [renameParams, mentionedParams, optionsRenamed keywordDefaults, allRenamed defaults, List.map_append]

end

theorem boundRenamed {clauses : List Clause} : boundNames (renameClauses f clauses) = (boundNames clauses).map f := by
  induction clauses with
  | nil => rfl
  | cons c rest ih =>
    obtain ⟨_, target, _, _⟩ := c
    simp only [renameClauses, boundNames, mentionedRenamed f target, ih, List.map_append]

end Names

end LiveMarkup.Syntax
