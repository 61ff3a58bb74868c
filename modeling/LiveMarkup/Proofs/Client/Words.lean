import LiveMarkup.Analysis.Fields
import LiveMarkup.Proofs.Client.Forms
/-! What an expression names and what its printed code names, each with the parameters around it. The
two agree but for fields whose mention is not printed. -/
namespace LiveMarkup.Client
open Syntax Analysis

inductive Word where
  | field (name : String) (shown? : Option String) (written : Bool)
  | component
  | «variable» (id shown : String)
  deriving DecidableEq, Repr

abbrev Binders := List (List String)

abbrev Mention := Word × Binders

namespace Word

def printed? : Word → Option Word
  | field name (some shown) _ => some (field name (some shown) false)
  | field _ none _ => none
  | w => some w

def hidden? : Word → Option Word
  | field name _ written => some (field name none written)
  | _ => none

end Word

def shown (ms : List Mention) : List Mention := ms.filterMap fun (w, b) => w.printed?.map (·, b)

def unprinted (ms : List Mention) : List Mention := ms.filterMap fun (w, b) => w.hidden?.map (·, b)

def Code.mentions (b : Binders) : Code → List Mention
  | text _ => []
  | access field shown => [(.field field (some shown) false, b)]
  | component => [(.component, b)]
  | «variable» id shown => [(.variable id shown, b)]
  | arrow params _ body => body.mentions (params :: b)
  | join first second => first.mentions b ++ second.mentions b

def nameWord (s : Scope) (id : String) : Word :=
  if s.isReceiver id then .component else .variable id (spelled id)

def calleeWord (s : Scope) (id : String) (count : Nat) : Word :=
  if id = s.tag then .variable id "html"
  else if id = "setattr" ∨ id = "len" ∧ count = 1 then .variable id ""
  else
    match function? id with
    | some f => .variable id f
    | none => nameWord s id

def writtenWords (s : Scope) (b : Binders) (func : Expr) (args : List Expr) : List Mention :=
  match writtenBy? s func args with
  | some name =>
    [(.field name (if (Expr.call 0 func args []).isTemplateCall s.tag then none else some name) true, b)]
  | none => []

def methodWords (s : Scope) (b : Binders) (own : Bool) (name : String) (count : Nat)
    (object : List Mention) : List Mention :=
  if name = s.tag then (if own then [(.field name none false, b)] else []) ++ unprinted object
  else if name = "join" ∧ count = 1 then (if own then [(.field name none false, b)] else []) ++ object
  else if own then [(.field name (some (method name)) false, b)]
  else object

mutual

def words (s : Scope) (b : Binders) : Expr → List Mention
  | .constant _ => []
  | .name id => [(nameWord s id, b)]
  | .field base name =>
    if isComponent s base then [(.field name (some name) false, b)] else words s b base
  | .subscript base index => words s b base ++ words s b index
  | .slice lower upper step => wordsOption s b lower ++ wordsOption s b upper ++ wordsOption s b step
  | .starred value => words s b value
  | .call _ (.name id) args keywords =>
    writtenWords s b (.name id) args ++ (calleeWord s id args.length, b) ::
      (if id = "setattr" ∧ id ≠ s.tag then wordsAssignment s b args else wordsAll s b args) ++
      wordsKeywords s b keywords
  | .call _ (.field object name) args keywords =>
    writtenWords s b (.field object name) args ++
      methodWords s b (isComponent s object) name args.length (words s b object) ++
      wordsAll s b args ++ wordsKeywords s b keywords
  | .call _ func args keywords => words s b func ++ wordsAll s b args ++ wordsKeywords s b keywords
  | .unary _ operand => words s b operand
  | .binary left _ right => words s b left ++ words s b right
  | .boolean _ operands => wordsAll s b operands
  | .compare left [] => unprinted (words s b left)
  | .compare left (first :: rest) => words s b left ++ wordsComparisons s b (first :: rest)
  | .conditional test body orelse => words s b test ++ words s b body ++ words s b orelse
  | .lambda params body =>
    unprinted (wordsParams (s.bind params.names) (params.names :: b) params) ++
      words (s.bind params.names) (params.names :: b) body
  | .list items => wordsAll s b items
  | .tuple items => wordsAll s b items
  | .set items => wordsAll s b items
  | .dict entries => wordsKeys s b entries ++ wordsValues s b entries
  | .listComp item clauses =>
    let names := boundNames clauses
    wordsSource s b clauses ++ words (s.bind names) (names :: b) item ++
      wordsClauses (s.bind names) (names :: b) true clauses
  | .setComp item clauses =>
    let names := boundNames clauses
    wordsSource s b clauses ++ words (s.bind names) (names :: b) item ++
      wordsClauses (s.bind names) (names :: b) true clauses
  | .generator item clauses =>
    let names := boundNames clauses
    wordsSource s b clauses ++ words (s.bind names) (names :: b) item ++
      wordsClauses (s.bind names) (names :: b) true clauses
  | .dictComp key value clauses =>
    let names := boundNames clauses
    wordsSource s b clauses ++ words (s.bind names) (names :: b) key ++
      words (s.bind names) (names :: b) value ++ wordsClauses (s.bind names) (names :: b) true clauses
  | .joined parts => wordsAll s b parts
  | .formatted value _ spec => words s b value ++ wordsOption s b spec
  | .assigned target value => (nameWord s target, b) :: words s b value
  | .await value => words s b value
  | .yield value => wordsOption s b value
  | .yieldFrom value => words s b value

def wordsAll (s : Scope) (b : Binders) : List Expr → List Mention
  | [] => []
  | e :: rest => words s b e ++ wordsAll s b rest

def wordsAssignment (s : Scope) (b : Binders) : List Expr → List Mention
  | [] => []
  | target :: rest => (if isComponent s target then [] else words s b target) ++ wordsAll s b rest

def wordsOption (s : Scope) (b : Binders) : Option Expr → List Mention
  | none => []
  | some e => words s b e

def wordsOptions (s : Scope) (b : Binders) : List (Option Expr) → List Mention
  | [] => []
  | e :: rest => wordsOption s b e ++ wordsOptions s b rest

def wordsKeywords (s : Scope) (b : Binders) : List Keyword → List Mention
  | [] => []
  | .named _ value :: rest => words s b value ++ wordsKeywords s b rest
  | .spread value :: rest => words s b value ++ wordsKeywords s b rest

def wordsComparisons (s : Scope) (b : Binders) : List Comparison → List Mention
  | [] => []
  | .mk _ right :: rest => words s b right ++ wordsComparisons s b rest

def wordsKeys (s : Scope) (b : Binders) : List Entry → List Mention
  | [] => []
  | .pair key _ :: rest => words s b key ++ wordsKeys s b rest
  | .spread _ :: rest => wordsKeys s b rest

def wordsValues (s : Scope) (b : Binders) : List Entry → List Mention
  | [] => []
  | .pair _ value :: rest => words s b value ++ wordsValues s b rest
  | .spread value :: rest => words s b value ++ wordsValues s b rest

def wordsSource (s : Scope) (b : Binders) : List Clause → List Mention
  | [] => []
  | .mk _ _ iter _ :: _ => words s b iter

def wordsClauses (s : Scope) (b : Binders) (first : Bool) : List Clause → List Mention
  | [] => []
  | .mk _ _ iter conditions :: rest =>
    (if first then [] else words s b iter) ++ wordsAll s b conditions ++ wordsClauses s b false rest

def wordsParams (s : Scope) (b : Binders) : LambdaParams → List Mention
  | .mk _ _ _ _ keywordDefaults _ defaults => wordsOptions s b keywordDefaults ++ wordsAll s b defaults

end

def Word.touch (t : Touched) : Word → Touched
  | field name _ written => if written then t.write name else t.read name
  | _ => t

def touchAllOf (t : Touched) (ms : List Mention) : Touched := ms.foldl (fun t m => m.1.touch t) t

theorem touchNil {t : Touched} : touchAllOf t [] = t := rfl

theorem touchCons {t : Touched} {m : Mention} {ms : List Mention} :
    touchAllOf t (m :: ms) = touchAllOf (m.1.touch t) ms := rfl

theorem touchAppend {t : Touched} {ms ns : List Mention} :
    touchAllOf t (ms ++ ns) = touchAllOf (touchAllOf t ms) ns := List.foldl_append

theorem touchUnprinted {t : Touched} {ms : List Mention} :
    touchAllOf t (unprinted ms) = touchAllOf t ms := by
  induction ms generalizing t with
  | nil => rfl
  | cons m rest ih =>
    obtain ⟨w, b⟩ := m
    cases w with
    | field name shown? written => exact ih
    | component => exact ih
    | «variable» id shown => exact ih

theorem isReceiverEq {s : Scope} {e : Expr} : isReceiver s e = isComponent s e := by
  cases e <;> rfl

theorem touchComponent {s : Scope} {t : Touched} {e : Expr} (h : isComponent s e = true) :
    touch s t e = t := by
  cases e <;> first | rfl | contradiction

theorem touchName {s : Scope} {t : Touched} {id : String} : (nameWord s id).touch t = t := by
  unfold nameWord
  split <;> rfl

theorem touchCallee {s : Scope} {t : Touched} {id : String} {count : Nat} :
    (calleeWord s id count).touch t = t := by
  unfold calleeWord
  split
  · rfl
  split
  · rfl
  split
  · rfl
  · exact touchName

theorem touchWritten {s : Scope} {b : Binders} {t : Touched} {func : Expr} {args : List Expr} :
    touchAllOf t (writtenWords s b func args) =
      match writtenBy? s func args with | some name => t.write name | none => t := by
  unfold writtenWords
  split <;> rfl

theorem touchMethod {s : Scope} {b : Binders} {t : Touched} {object : Expr} {name : String} {count : Nat}
    (inner : ∀ {t}, touch s t object = touchAllOf t (words s b object)) :
    touch s t (.field object name) =
      touchAllOf t (methodWords s b (isComponent s object) name count (words s b object)) := by
  rw [touch, isReceiverEq]
  cases own : isComponent s object with
  | false =>
    simp only [methodWords, Bool.false_eq_true, if_false, List.nil_append]
    refine inner.trans ?_
    split
    · exact touchUnprinted.symm
    · simp only [ite_self]
  | true =>
    have plain {t} : touchAllOf t (words s b object) = t := inner.symm.trans (touchComponent own)
    simp only [methodWords, if_true]
    rw [touchComponent own]
    split
    · rw [touchAppend, touchUnprinted, plain]
      rfl
    split
    · rw [touchAppend, plain]
      rfl
    · rfl

mutual

theorem touchWords {s : Scope} {b : Binders} {t : Touched} : (e : Expr) →
    touch s t e = touchAllOf t (words s b e)
  | .constant _ => rfl
  | .name id => touchName.symm
  | .field base name => by
    rw [touch, words, isReceiverEq]
    split
    · next own => exact touchComponent own
    · exact touchWords base
  | .subscript base index => by
    rw [touch, words, touchAppend, touchWords base, touchWords index]
  | .slice lower upper step => by
    rw [touch, words, touchAppend, touchAppend, ← touchWordsOption lower, ← touchWordsOption upper,
      ← touchWordsOption step]
  | .starred value => touchWords value
  | .call _ func args keywords => by
    have base (t : Touched) : touch s t func = touchAllOf t (words s b func) := touchWords func
    have all (t : Touched) : touchAll s t args = touchAllOf t (wordsAll s b args) := touchWordsAll args
    have keys (t : Touched) : touchKeywords s t keywords = touchAllOf t (wordsKeywords s b keywords) :=
      touchWordsKeywords keywords
    cases func with
    | name id =>
      have given (t : Touched) : touchAll s t args = touchAllOf t
          (if id = "setattr" ∧ id ≠ s.tag then wordsAssignment s b args else wordsAll s b args) := by
        split
        · exact touchWordsAssignment args
        · exact all t
      rw [touch, words, touchAppend, touchAppend, touchCons, touchCallee, touchWritten, ← given, ← keys]
      rfl
    | field object name =>
      have callee (t : Touched) : touch s t (.field object name) =
          touchAllOf t (methodWords s b (isComponent s object) name args.length (words s b object)) :=
        touchMethod (touchWords object)
      rw [touch, words, touchAppend, touchAppend, touchAppend, touchWritten, ← callee, ← all]
      exact keys _
    | _ =>
      rw [words, touchAppend, touchAppend, ← base, ← all, ← keys]
      · rfl
      all_goals simp
  | .unary _ operand => touchWords operand
  | .binary left _ right => by
    rw [touch, words, touchAppend, touchWords left, touchWords right]
  | .boolean _ operands => touchWordsAll operands
  | .compare left [] => by
    rw [touch, words, touchUnprinted, touchComparisons, touchWords left]
  | .compare left (first :: rest) => by
    rw [touch, words, touchAppend, touchWords left, touchWordsComparisons (first :: rest)]
  | .conditional test body orelse => by
    rw [touch, words, touchAppend, touchAppend, touchWords test, touchWords body, touchWords orelse]
  | .lambda params body => by
    rw [touch, words, touchAppend, touchUnprinted, ← touchWordsParams params, ← touchWords body]
  | .list items | .tuple items | .set items => touchWordsAll items
  | .dict entries => by
    rw [touch, words, touchAppend, touchWordsKeys entries, touchWordsValues entries]
  | .listComp item clauses | .setComp item clauses | .generator item clauses => by
    rw [touch, words]
    simp only [touchAppend, ← touchWordsSource clauses, ← touchWords item, ← touchWordsClauses clauses]
  | .dictComp key value clauses => by
    rw [touch, words]
    simp only [touchAppend, ← touchWordsSource clauses, ← touchWords key, ← touchWords value,
      ← touchWordsClauses clauses]
  | .joined parts => touchWordsAll parts
  | .formatted value _ spec => by
    rw [touch, words, touchAppend, ← touchWords value, ← touchWordsOption spec]
  | .assigned target value => by
    rw [touch, words, touchCons, touchName, touchWords value]
  | .await value => touchWords value
  | .yield value => touchWordsOption value
  | .yieldFrom value => touchWords value

theorem touchWordsAll {s : Scope} {b : Binders} {t : Touched} : (es : List Expr) →
    touchAll s t es = touchAllOf t (wordsAll s b es)
  | [] => rfl
  | e :: rest => by rw [touchAll, wordsAll, touchAppend, ← touchWords e, ← touchWordsAll rest]

theorem touchWordsAssignment {s : Scope} {b : Binders} {t : Touched} : (es : List Expr) →
    touchAll s t es = touchAllOf t (wordsAssignment s b es)
  | [] => rfl
  | target :: rest => by
    rw [touchAll, wordsAssignment, touchAppend, ← touchWordsAll rest]
    split
    · next own => rw [touchComponent own, touchNil]
    · rw [touchWords target]

theorem touchWordsOption {s : Scope} {b : Binders} {t : Touched} : (e : Option Expr) →
    touchOption s t e = touchAllOf t (wordsOption s b e)
  | none => rfl
  | some e => touchWords e

theorem touchWordsOptions {s : Scope} {b : Binders} {t : Touched} : (es : List (Option Expr)) →
    touchOptions s t es = touchAllOf t (wordsOptions s b es)
  | [] => rfl
  | e :: rest => by
    rw [touchOptions, wordsOptions, touchAppend, ← touchWordsOption e, ← touchWordsOptions rest]

theorem touchWordsKeywords {s : Scope} {b : Binders} {t : Touched} : (ks : List Keyword) →
    touchKeywords s t ks = touchAllOf t (wordsKeywords s b ks)
  | [] => rfl
  | .named _ value :: rest => by
    rw [touchKeywords, wordsKeywords, touchAppend, ← touchWords value, ← touchWordsKeywords rest]
  | .spread value :: rest => by
    rw [touchKeywords, wordsKeywords, touchAppend, ← touchWords value, ← touchWordsKeywords rest]

theorem touchWordsComparisons {s : Scope} {b : Binders} {t : Touched} : (cs : List Comparison) →
    touchComparisons s t cs = touchAllOf t (wordsComparisons s b cs)
  | [] => rfl
  | .mk _ right :: rest => by
    rw [touchComparisons, wordsComparisons, touchAppend, ← touchWords right,
      ← touchWordsComparisons rest]

theorem touchWordsKeys {s : Scope} {b : Binders} {t : Touched} : (es : List Entry) →
    touchKeys s t es = touchAllOf t (wordsKeys s b es)
  | [] => rfl
  | .pair key _ :: rest => by
    rw [touchKeys, wordsKeys, touchAppend, ← touchWords key, ← touchWordsKeys rest]
  | .spread _ :: rest => touchWordsKeys rest

theorem touchWordsValues {s : Scope} {b : Binders} {t : Touched} : (es : List Entry) →
    touchValues s t es = touchAllOf t (wordsValues s b es)
  | [] => rfl
  | .pair _ value :: rest => by
    rw [touchValues, wordsValues, touchAppend, ← touchWords value, ← touchWordsValues rest]
  | .spread value :: rest => by
    rw [touchValues, wordsValues, touchAppend, ← touchWords value, ← touchWordsValues rest]

theorem touchWordsSource {s : Scope} {b : Binders} {t : Touched} : (cs : List Clause) →
    touchSource s t cs = touchAllOf t (wordsSource s b cs)
  | [] => rfl
  | .mk _ _ iter _ :: _ => touchWords iter

theorem touchWordsClauses {s : Scope} {b : Binders} {t : Touched} {first : Bool} :
    (cs : List Clause) → touchClauses s t first cs = touchAllOf t (wordsClauses s b first cs)
  | [] => rfl
  | .mk _ _ iter conditions :: rest => by
    rw [touchClauses, wordsClauses, touchAppend, touchAppend, ← touchWordsClauses rest,
      ← touchWordsAll conditions]
    cases first with
    | true => rfl
    | false => exact congrArg (fun t => touchClauses s (touchAll s t conditions) false rest) (touchWords iter)

theorem touchWordsParams {s : Scope} {b : Binders} {t : Touched} : (p : LambdaParams) →
    touchParams s t p = touchAllOf t (wordsParams s b p)
  | .mk _ _ _ _ keywordDefaults _ defaults => by
    rw [touchParams, wordsParams, touchAppend, ← touchWordsOptions keywordDefaults,
      ← touchWordsAll defaults]

end

section Alike

variable {α : Type} {ms ns os ps : List α}

def Alike (ms ns : List α) : Prop := ∀ m, m ∈ ms ↔ m ∈ ns

theorem alikeRefl : Alike ms ms := fun _ => Iff.rfl

theorem alikeIf {p : Prop} [Decidable p] (h : Alike ms ns) : Alike (if p then os else ms) (if p then os else ns) := by
  split
  · exact alikeRefl
  · exact h

theorem alikeAppend {ms' ns' : List α} (h : Alike ms ns) (h' : Alike ms' ns') : Alike (ms ++ ms') (ns ++ ns') := by
  intro m
  rw [List.mem_append, List.mem_append, h m, h' m]

theorem alikeSwap : Alike (ms ++ ns) (ns ++ ms) := by
  intro m
  rw [List.mem_append, List.mem_append, or_comm]

theorem alikeShuffle : Alike (ms ++ ns ++ (os ++ ps)) (ms ++ os ++ (ns ++ ps)) := by
  intro m
  simp only [List.mem_append]
  exact or_or_or_comm

theorem alikeTwice : Alike (ms ++ ns ++ (ns ++ os)) (ms ++ ns ++ os) := by
  intro m
  simp only [List.mem_append, or_assoc]
  rw [or_self_left]

theorem Alike.trans (h : Alike ms ns) (h' : Alike ns os) : Alike ms os := fun m => (h m).trans (h' m)

end Alike

theorem shownAppend {ms ns : List Mention} : shown (ms ++ ns) = shown ms ++ shown ns :=
  List.filterMap_append

theorem memShown {ms : List Mention} {m : Mention} :
    m ∈ shown ms ↔ ∃ w, (w, m.2) ∈ ms ∧ w.printed? = some m.1 := by
  simp only [shown, List.mem_filterMap, Option.map_eq_some_iff]
  constructor
  · rintro ⟨⟨w, b⟩, hw, w', printed, rfl⟩
    exact ⟨w, hw, printed⟩
  · rintro ⟨w, hw, printed⟩
    exact ⟨(w, m.2), hw, m.1, printed, rfl⟩

theorem shownUnprinted {ms : List Mention} : shown (unprinted ms) = [] := by
  induction ms with
  | nil => rfl
  | cons m rest ih =>
    obtain ⟨w, b⟩ := m
    cases w with
    | field name shown? written => exact ih
    | component => exact ih
    | «variable» id shown => exact ih

namespace Code

theorem mentionsAppend {b : Binders} {c d : Code} :
    (c ++ d).mentions b = c.mentions b ++ d.mentions b := rfl

theorem mentionsText {b : Binders} {t : String} : (text t).mentions b = [] := rfl

theorem mentionsSeparated {b : Binders} {sep : String} : {codes : List Code} →
    (separated sep codes).mentions b = codes.flatMap (·.mentions b)
  | [] => rfl
  | [c] => by simp [separated]
  | c :: d :: rest => by
    rw [separated, mentionsAppend, mentionsAppend, mentionsText, List.append_nil, mentionsSeparated]
    · rfl
    · simp

theorem mentionsConcat {b : Binders} {codes : List Code} :
    (concat codes).mentions b = codes.flatMap (·.mentions b) := by
  induction codes with
  | nil => rfl
  | cons c rest ih => rw [concat, mentionsAppend, ih, List.flatMap_cons]

theorem mentionsGroup {b : Binders} {c : Code} : c.group.mentions b = c.mentions b := by
  rw [group, mentionsAppend, mentionsAppend, mentionsText, mentionsText, List.nil_append,
    List.append_nil]

theorem mentionsArguments {b : Binders} {codes : List Code} :
    (arguments codes).mentions b = codes.flatMap (·.mentions b) := by
  rw [arguments, mentionsGroup, mentionsSeparated]

end Code

open Code

theorem mentionsWrapped {b : Binders} {e : Expr} {c : Code} :
    (wrapped e c).mentions b = c.mentions b := by
  unfold wrapped
  split
  · exact mentionsGroup
  · rfl

theorem mentionsBody {b : Binders} {body : Expr} {c : Code} :
    (arrowBody body c).mentions b = c.mentions b := by
  unfold arrowBody
  split
  · exact mentionsGroup
  · rfl

theorem mentionsMember {b : Binders} {s : Scope} {object : Expr} {c : Code} {name shown : String} :
    (memberCode s object c name shown).mentions b =
      if isComponent s object then [(.field name (some shown) false, b)] else c.mentions b := by
  unfold memberCode
  split
  · rfl
  · rw [mentionsAppend, mentionsWrapped, mentionsAppend, mentionsText, mentionsText, List.append_nil,
      List.append_nil]

theorem mentionsName {b : Binders} {s : Scope} {id : String} :
    (nameCode s id).mentions b = shown [(nameWord s id, b)] := by
  unfold nameCode nameWord
  split <;> rfl

theorem mentionsComparison {b : Binders} {left right : Expr} {l r part : Code} {op : CompareOp}
    (nullLeft : left.isNull → l.mentions b = []) (nullRight : right.isNull → r.mentions b = [])
    (form : ComparisonForm left right l r op part) :
    Alike (part.mentions b) (l.mentions b ++ r.mentions b) := by
  cases form with
  | member =>
    simp only [mentionsAppend, mentionsText, mentionsWrapped, List.append_nil]
    exact alikeSwap
  | notMember =>
    simp only [mentionsAppend, mentionsText, mentionsWrapped, List.append_nil, List.nil_append]
    exact alikeSwap
  | nullRight _ null =>
    simp only [mentionsAppend, mentionsText, mentionsWrapped, nullRight null]
    exact alikeRefl
  | nullLeft _ null _ =>
    simp only [mentionsAppend, mentionsText, mentionsWrapped, nullLeft null, List.append_nil]
    exact alikeRefl
  | between =>
    simp only [mentionsAppend, mentionsText, mentionsWrapped, List.append_nil]
    exact alikeRefl

theorem mentionsNull {s : Scope} {b : Binders} {e : Expr} {c : Code} (h : Prints s e c)
    (null : e.isNull) : c.mentions b = [] := by
  unfold Expr.isNull at null
  split at null
  · cases h with
    | constant form =>
      cases form
      rfl
  · contradiction

theorem itemNames {items : List Expr} {names : List String}
    (h : (items.mapM fun | .name id => some id | _ => none) = some names) :
    mentionedAll items = names := by
  induction items generalizing names with
  | nil => cases h; rfl
  | cons e rest ih =>
    cases e with
    | name id =>
      simp only [List.mapM_cons, Option.pure_def, Option.bind_eq_bind, Option.bind_some,
        Option.bind_eq_some_iff, Option.some.injEq] at h
      obtain ⟨others, found, rfl⟩ := h
      rw [mentionedAll, mentioned, ih found]
      rfl
    | _ => cases h

theorem targetNames {target : Expr} {listed : Bool} {names : List String}
    (h : comprehensionTarget target = .ok (listed, names)) : mentioned target = names := by
  unfold comprehensionTarget at h
  split at h
  · cases h
    rfl
  · split at h
    · next found =>
      cases h
      exact itemNames found
    · contradiction
  · contradiction

theorem writtenNone {s : Scope} {b : Binders} {id : String} {args : List Expr} (other : id ≠ "setattr") :
    writtenWords s b (.name id) args = [] := by
  unfold writtenWords writtenBy?
  split
  · next h =>
    split at h
    · next same => exact absurd (Expr.name.inj same) other
    · next same => cases same
    · cases h
  · rfl

theorem shownTemplateWritten {s : Scope} {b : Binders} {func : Expr} {args : List Expr}
    (h : (Expr.call 0 func args []).isTemplateCall s.tag = true) :
    shown (writtenWords s b func args) = [] := by
  unfold writtenWords
  rw [h]
  split <;> rfl

theorem shownVariable {ms : List Mention} {id text : String} {b : Binders} :
    shown ((.variable id text, b) :: ms) = (.variable id text, b) :: shown ms := rfl

section Calls

variable {s : Scope} {b : Binders} {line : Nat} {args : List Expr}

theorem shownTemplate {id : String} (tag : id = s.tag) :
    shown (words s b (.call line (.name id) args [])) =
      (.variable id "html", b) :: shown (wordsAll s b args) := by
  have callee : calleeWord s id args.length = .variable id "html" := if_pos tag
  have template : (Expr.call 0 (.name id) args []).isTemplateCall s.tag = true := by
    simpa [Expr.isTemplateCall] using tag
  rw [words, shownAppend, shownAppend, shownTemplateWritten template, callee, if_neg (fun h => h.2 tag),
    wordsKeywords]
  exact List.append_nil _

theorem shownAssignment {target field third : Expr} {name : String} (other : "setattr" ≠ s.tag)
    (literal : field.text? = some name) :
    Alike (shown (words s b (.call line (.name "setattr") [target, field, third] [])))
      ((.variable "setattr" "", b) ::
        ((if isComponent s target then [(.field name (some name) false, b)] else shown (words s b target)) ++
          shown (words s b third))) := by
  have plain : (Expr.call 0 (.name "setattr") [target, field, third] []).isTemplateCall s.tag = false := by
    simpa [Expr.isTemplateCall] using other
  have callee : calleeWord s "setattr" 3 = .variable "setattr" "" := by
    rw [calleeWord, if_neg other, if_pos (.inl rfl)]
  have silent : words s b field = [] := by
    unfold Expr.text? at literal
    split at literal
    · rfl
    · cases literal
  have written : writtenWords s b (.name "setattr") [target, field, third] =
      if isComponent s target then [(.field name (some name) true, b)] else [] := by
    rw [writtenWords, plain, writtenBy?, isReceiverEq]
    cases isComponent s target
    · rfl
    · simp only [if_true, literal]
      rfl
  have split : words s b (.call line (.name "setattr") [target, field, third] []) =
      (if isComponent s target then [(.field name (some name) true, b)] else []) ++
        (.variable "setattr" "", b) ::
          ((if isComponent s target then [] else words s b target) ++ words s b third) := by
    rw [words, written, wordsAssignment, wordsAll, silent, wordsAll, wordsAll, wordsKeywords]
    simp only [List.length_cons, List.length_nil, Nat.zero_add, Nat.reduceAdd, callee, other, ne_eq,
      not_false_eq_true, and_self, if_true, List.nil_append, List.append_nil]
  rw [split]
  cases isComponent s target with
  | true =>
    have two (f v : Mention) (ms : List Mention) : Alike ([f] ++ v :: ms) (v :: ([f] ++ ms)) := by
      intro m
      simp only [List.singleton_append, List.mem_cons]
      rw [or_left_comm]
    exact two _ _ _
  | false =>
    simp only [Bool.false_eq_true, if_false, List.nil_append]
    rw [shownVariable, shownAppend]
    exact alikeRefl

theorem shownLength {arg : Expr} (other : "len" ≠ s.tag) :
    shown (words s b (.call line (.name "len") [arg] [])) =
      (.variable "len" "", b) :: shown (words s b arg) := by
  have callee : calleeWord s "len" 1 = .variable "len" "" := by
    rw [calleeWord, if_neg other, if_pos (.inr ⟨rfl, rfl⟩)]
  rw [words, writtenNone (by decide), if_neg (by simp), wordsAll, wordsAll, wordsKeywords,
    List.append_nil, List.append_nil]
  exact congrArg (fun w => shown ((w, b) :: words s b arg)) callee

theorem shownNamed {id : String} (other : id ≠ s.tag ∧ id ≠ "setattr") :
    shown (words s b (.call line (.name id) args [])) =
      shown [(calleeWord s id args.length, b)] ++ shown (wordsAll s b args) := by
  rw [words, writtenNone other.2, if_neg (fun h => other.2 h.1), wordsKeywords, ← shownAppend,
    List.append_nil]
  rfl

theorem shownTemplateMethod {object : Expr} {name : String} (tag : name = s.tag) :
    shown (words s b (.call line (.field object name) args [])) = shown (wordsAll s b args) := by
  have template : (Expr.call 0 (.field object name) args []).isTemplateCall s.tag = true := by
    simpa [Expr.isTemplateCall] using tag
  have callee : shown (methodWords s b (isComponent s object) name args.length (words s b object)) = [] := by
    rw [methodWords, if_pos tag, shownAppend, shownUnprinted]
    cases isComponent s object <;> rfl
  rw [words, shownAppend, shownAppend, shownAppend, shownTemplateWritten template, callee, wordsKeywords]
  exact List.append_nil _

theorem shownJoined {object arg : Expr} (other : "join" ≠ s.tag) :
    shown (words s b (.call line (.field object "join") [arg] [])) =
      shown (words s b object) ++ shown (words s b arg) := by
  have written : writtenWords s b (.field object "join") [arg] = [] := by
    unfold writtenWords writtenBy?
    cases object <;> rfl
  have callee : shown (methodWords s b (isComponent s object) "join" 1 (words s b object)) =
      shown (words s b object) := by
    rw [methodWords, if_neg other, if_pos ⟨rfl, rfl⟩, shownAppend]
    cases isComponent s object <;> rfl
  rw [words, written, wordsAll, wordsAll, wordsKeywords, List.append_nil, List.append_nil,
    List.nil_append, shownAppend]
  exact congrArg (· ++ shown (words s b arg)) callee

theorem shownMethodWritten {object : Expr} {name : String} (other : name ≠ s.tag) :
    ∀ m ∈ shown (writtenWords s b (.field object name) args),
      isComponent s object = false ∧ m ∈ shown (words s b object) := by
  have plain : (Expr.call 0 (.field object name) args []).isTemplateCall s.tag = false := by
    simpa [Expr.isTemplateCall] using other
  intro m hm
  rw [writtenWords, plain] at hm
  cases object with
  | field target f =>
    simp only [writtenBy?, isReceiverEq] at hm
    cases changes : mutatingMethods.contains name && isComponent s target with
    | false => rw [changes] at hm; cases hm
    | true =>
      rw [changes] at hm
      refine ⟨rfl, ?_⟩
      rw [words, if_pos (Bool.and_eq_true_iff.mp changes).2]
      exact hm
  | _ => cases hm

theorem shownMethod {object : Expr} {name : String} (other : name ≠ s.tag)
    (plain : name = "join" → args.length ≠ 1) :
    Alike (shown (words s b (.call line (.field object name) args [])))
      ((if isComponent s object then [(.field name (some (method name)) false, b)]
        else shown (words s b object)) ++ shown (wordsAll s b args)) := by
  have written := @shownMethodWritten s b args object name other
  have callee : methodWords s b (isComponent s object) name args.length (words s b object) =
      if isComponent s object then [(.field name (some (method name)) false, b)] else words s b object := by
    rw [methodWords, if_neg other, if_neg (fun h => plain h.1 h.2)]
  have last : shown [] = [] := rfl
  rw [words, shownAppend, shownAppend, shownAppend, callee, wordsKeywords, last, List.append_nil]
  intro m
  cases own : isComponent s object with
  | true =>
    have head : shown [(.field name (some (method name)) false, b)] =
        [(.field name (some (method name)) false, b)] := rfl
    have fresh : m ∉ shown (writtenWords s b (.field object name) args) := by
      intro hm
      have other := (written m hm).1
      rw [own] at other
      cases other
    simp only [if_true, head, List.mem_append, fresh, false_or]
  | false =>
    have again (hm : m ∈ shown (writtenWords s b (.field object name) args)) := (written m hm).2
    simp only [Bool.false_eq_true, if_false, List.mem_append, or_iff_right_of_imp again]

end Calls

theorem wordsNone {s : Scope} {b : Binders} : wordsOption s b none = [] := by rw [wordsOption]

theorem wordsSome {s : Scope} {b : Binders} {e : Expr} : wordsOption s b (some e) = words s b e := by
  rw [wordsOption]

theorem mappedOther {id f : String} (mapping : function? id = some f) : id ≠ "setattr" := by
  rintro rfl
  cases mapping

theorem calleeMapped {s : Scope} {id f : String} {count : Nat} (other : id ≠ s.tag)
    (mapping : function? id = some f) : calleeWord s id count = .variable id f := by
  have free : ¬(id = "setattr" ∨ id = "len" ∧ count = 1) := by
    rintro (rfl | ⟨rfl, _⟩) <;> cases mapping
  rw [calleeWord, if_neg other, if_neg free, mapping]

theorem calleeNamed {s : Scope} {id : String} {count : Nat} (other : id ≠ s.tag ∧ id ≠ "setattr")
    (unmapped : function? id = none) (measured : id = "len" → count ≠ 1) :
    calleeWord s id count = nameWord s id := by
  have free : ¬(id = "setattr" ∨ id = "len" ∧ count = 1) := by
    rintro (same | ⟨same, one⟩)
    · exact other.2 same
    · exact measured same one
  rw [calleeWord, if_neg other.1, if_neg free, unmapped]

theorem wordsApplied {s : Scope} {b : Binders} {line : Nat} {func : Expr} {args : List Expr}
    (computed : ∀ id, func ≠ .name id) (free : ∀ object name, func ≠ .field object name) :
    words s b (.call line func args []) = words s b func ++ wordsAll s b args := by
  rw [words, wordsKeywords, List.append_nil]
  · exact computed
  · exact free

mutual

-- The induction is on the printed form. What is printed in another order than it is read counts as alike.
theorem mentionsOf {s e c} {b : Binders} : Prints s e c → Alike (c.mentions b) (shown (words s b e))
  | .constant form => by
    obtain ⟨t, rfl⟩ : ∃ t, c = .text t := by
      unfold constantCode at form
      split at form <;> cases form <;> exact ⟨_, rfl⟩
    exact alikeRefl
  | .name => by
    rw [mentionsName]
    exact alikeRefl
  | .field object => by
    have inner := mentionsOf (b := b) object
    rw [mentionsMember, words]
    split
    · exact alikeRefl
    · exact inner
  | .starred inner => by
    have value := mentionsOf (b := b) inner
    rwa [mentionsAppend, mentionsText, mentionsWrapped, List.nil_append, words]
  | .template tag values => by
    rw [shownTemplate tag, mentionsAppend, mentionsArguments]
    exact alikeAppend alikeRefl (mentionsAll values)
  | .assignment other written literal _ assigned => by
    refine Alike.trans ?_ (fun m => (shownAssignment other literal m).symm)
    simp only [mentionsAppend, mentionsMember, mentionsText, List.append_nil]
    exact alikeAppend (alikeAppend alikeRefl (alikeIf (mentionsOf written))) (mentionsOf assigned)
  | .length other object => by
    rw [shownLength other, mentionsAppend, mentionsAppend, mentionsWrapped, mentionsText, List.append_nil]
    exact alikeAppend alikeRefl (mentionsOf object)
  | .mapped other mapping values => by
    rw [shownNamed ⟨other, mappedOther mapping⟩, calleeMapped other mapping, mentionsAppend, mentionsArguments]
    exact alikeAppend alikeRefl (mentionsAll values)
  | .named other unmapped measured values => by
    rw [shownNamed other, calleeNamed other unmapped measured, mentionsAppend, mentionsArguments,
      mentionsName]
    exact alikeAppend alikeRefl (mentionsAll values)
  | .templateMethod tag values => by
    rw [shownTemplateMethod tag, mentionsAppend, mentionsArguments]
    exact mentionsAll values
  | .joinedBy other separator items => by
    rw [shownJoined other]
    simp only [mentionsAppend, mentionsWrapped, mentionsText, mentionsGroup, List.append_nil]
    exact alikeSwap.trans (alikeAppend (mentionsOf separator) (mentionsOf items))
  | .method other plain base values => by
    refine Alike.trans ?_ (fun m => (shownMethod other plain m).symm)
    rw [mentionsAppend, mentionsMember, mentionsArguments]
    exact alikeAppend (alikeIf (mentionsOf base)) (mentionsAll values)
  | .applied computed free callee values => by
    rw [wordsApplied computed free, shownAppend, mentionsAppend, mentionsWrapped, mentionsArguments]
    exact alikeAppend (mentionsOf callee) (mentionsAll values)
  | .floorDiv first second => by
    rw [words, shownAppend]
    simp only [mentionsAppend, mentionsWrapped, mentionsText, List.append_nil, List.nil_append]
    exact alikeAppend (mentionsOf first) (mentionsOf second)
  | .binary first second _ => by
    rw [words, shownAppend]
    simp only [mentionsAppend, mentionsWrapped, mentionsText, List.append_nil]
    exact alikeAppend (mentionsOf first) (mentionsOf second)
  | .unary inner => by
    have operand := mentionsOf (b := b) inner
    rwa [mentionsAppend, mentionsText, mentionsWrapped, List.nil_append, words]
  | .boolean all => by
    rw [mentionsSeparated, words]
    exact mentionsOperands all
  | .comparison first second form => by
    have nullLeft (null) := mentionsNull (b := b) first null
    have nullRight (null) := mentionsNull (b := b) second null
    rw [words, wordsComparisons, wordsComparisons, List.append_nil, shownAppend]
    exact (mentionsComparison nullLeft nullRight form).trans
      (alikeAppend (mentionsOf first) (mentionsOf second))
  | .chain _ all => by
    rw [mentionsSeparated, List.flatMap_map]
    simp only [mentionsGroup]
    exact mentionsChain all
  | .conditional first second third => by
    rw [words, shownAppend, shownAppend]
    simp only [mentionsAppend, mentionsWrapped, mentionsText, List.append_nil]
    exact alikeAppend (alikeAppend (mentionsOf first) (mentionsOf second)) (mentionsOf third)
  | .slice object low high => by
    rw [words, words, wordsSome, wordsNone, List.append_nil, ← List.append_assoc, shownAppend, shownAppend]
    simp only [mentionsAppend, mentionsWrapped, mentionsText, List.append_nil]
    exact alikeAppend (alikeAppend (mentionsOf object) (mentionsBound low)) (mentionsOf high)
  | .sliceRest object low => by
    rw [words, words, wordsNone, List.append_nil, List.append_nil, shownAppend]
    simp only [mentionsAppend, mentionsWrapped, mentionsText, List.append_nil]
    exact alikeAppend (mentionsOf object) (mentionsBound low)
  | .fromEnd _ object inner | .subscript _ object inner => by
    rw [words, shownAppend]
    simp only [mentionsAppend, mentionsWrapped, mentionsText, List.append_nil]
    exact alikeAppend (mentionsOf object) (mentionsOf inner)
  | .list all | .tuple all => by
    rw [mentionsAppend, mentionsAppend, mentionsText, mentionsText, mentionsSeparated, words,
      List.append_nil]
    exact mentionsAll all
  | .dict all => by
    rw [mentionsAppend, mentionsAppend, mentionsText, mentionsText, mentionsSeparated, words,
      List.append_nil]
    exact mentionsEntries all
  | .joined all => by
    rw [mentionsAppend, mentionsAppend, mentionsText, mentionsConcat, words, List.append_nil]
    exact mentionsParts all
  | .lambda _ inner => by
    rw [words, shownAppend, shownUnprinted, mentions, mentionsBody]
    exact mentionsOf inner
  | .listComp all | .generator all => by
    rw [words]
    exact mentionsComprehension all
  | .assigned inner => by
    rw [words, mentionsAppend, mentionsAppend, mentionsText, mentionsName, List.append_nil]
    refine (alikeAppend alikeRefl (mentionsOf inner)).trans ?_
    rw [← shownAppend]
    exact alikeRefl

theorem mentionsAll {s es codes} {b : Binders} : PrintsAll s es codes →
    Alike (codes.flatMap (·.mentions b)) (shown (wordsAll s b es))
  | .nil => alikeRefl
  | .cons head tail => by
    rw [wordsAll, shownAppend]
    exact alikeAppend (mentionsOf head) (mentionsAll tail)

theorem mentionsOperands {s es codes} {b : Binders} : PrintsOperands s es codes →
    Alike (codes.flatMap (·.mentions b)) (shown (wordsAll s b es))
  | .nil => alikeRefl
  | .cons head tail => by
    rw [wordsAll, shownAppend, List.flatMap_cons, mentionsWrapped]
    exact alikeAppend (mentionsOf head) (mentionsOperands tail)

theorem mentionsBound {s bound c} {b : Binders} : PrintsBound s bound c →
    Alike (c.mentions b) (shown (wordsOption s b bound))
  | .none => alikeRefl
  | .some inner => mentionsOf inner

theorem mentionsChain {s left rest parts} {b : Binders} : PrintsChain s left rest parts →
    Alike (parts.flatMap (·.mentions b)) (shown (words s b (.compare left rest)))
  | .nil => by
    rw [words, shownUnprinted]
    exact alikeRefl
  | .cons first second form tail => by
    have nullLeft (null) := mentionsNull (b := b) first null
    have nullRight (null) := mentionsNull (b := b) second null
    have part := (mentionsComparison nullLeft nullRight form).trans
      (alikeAppend (mentionsOf first) (mentionsOf second))
    have others := mentionsChain (b := b) tail
    rw [words, wordsComparisons, List.flatMap_cons, ← List.append_assoc, shownAppend, shownAppend]
    cases tail with
    | nil => exact alikeAppend part alikeRefl
    | cons =>
      rw [words, shownAppend] at others
      exact (alikeAppend part others).trans alikeTwice

theorem mentionsEntries {s entries codes} {b : Binders} : PrintsEntries s entries codes →
    Alike (codes.flatMap (·.mentions b)) (shown (wordsKeys s b entries ++ wordsValues s b entries))
  | .nil => alikeRefl
  | .spread head tail => by
    have value := mentionsOf (b := b) head
    have others := mentionsEntries (b := b) tail
    rw [shownAppend] at others ⊢
    rw [wordsKeys, wordsValues, List.flatMap_cons, mentionsAppend, mentionsText, mentionsWrapped,
      List.nil_append, shownAppend]
    exact (alikeAppend value others).trans (@alikeShuffle _ [] _ _ _)
  | .literal _ name head tail => by
    have key := mentionsOf (b := b) name
    have value := mentionsOf (b := b) head
    have others := mentionsEntries (b := b) tail
    rw [shownAppend] at others ⊢
    rw [wordsKeys, wordsValues, List.flatMap_cons, shownAppend, shownAppend]
    simp only [mentionsAppend, mentionsText, List.append_nil]
    exact (alikeAppend (alikeAppend key value) others).trans alikeShuffle
  | .computed _ name head tail => by
    have key := mentionsOf (b := b) name
    have value := mentionsOf (b := b) head
    have others := mentionsEntries (b := b) tail
    rw [shownAppend] at others ⊢
    rw [wordsKeys, wordsValues, List.flatMap_cons, shownAppend, shownAppend]
    simp only [mentionsAppend, mentionsText, List.append_nil, List.nil_append]
    exact (alikeAppend (alikeAppend key value) others).trans alikeShuffle

theorem mentionsParts {s parts codes} {b : Binders} : PrintsParts s parts codes →
    Alike (codes.flatMap (·.mentions b)) (shown (wordsAll s b parts))
  | .nil => alikeRefl
  | .text tail => by
    have others := mentionsParts (b := b) tail
    rwa [wordsAll, words, List.nil_append, List.flatMap_cons, mentionsText, List.nil_append]
  | .formatted head tail => by
    rw [wordsAll, words, wordsNone, List.append_nil, shownAppend, List.flatMap_cons, mentionsAppend,
      mentionsAppend, mentionsText, mentionsText, List.append_nil]
    exact alikeAppend (mentionsOf head) (mentionsParts tail)

theorem mentionsComprehension {s item clauses c} {b : Binders} : PrintsComprehension s item clauses c →
    Alike (c.mentions b) (shown (wordsSource s b clauses ++
      words (s.bind (boundNames clauses)) (boundNames clauses :: b) item ++
      wordsClauses (s.bind (boundNames clauses)) (boundNames clauses :: b) true clauses))
  | @PrintsComprehension.mk _ _ _ _ _ _ names _ _ _ binder outer guards element => by
    have filters := mentionsAll (b := names :: b) guards
    have result := mentionsOf (b := names :: b) element
    rw [wordsSource, wordsClauses, wordsClauses]
    simp only [boundNames, List.append_nil, targetNames binder, if_true, List.nil_append, shownAppend]
    simp only [mentionsAppend, mentionsWrapped, mentionsConcat, List.append_nil, List.flatMap_map,
      List.nil_append, mentions]
    refine Alike.trans (alikeAppend (alikeAppend (mentionsOf outer) filters) result) fun m => ?_
    simp only [List.mem_append]
    exact or_right_comm

end

end LiveMarkup.Client
