import LiveMarkup.Client.Print
import LiveMarkup.Proofs.Outcome
/-! The printed forms of expressions as a relation, one rule for each way to print. Facts about printed
code are proved by induction on it. -/
namespace LiveMarkup.Client
open Syntax

inductive ComparisonForm (left right : Expr) (l r : Code) : CompareOp → Code → Prop where
  | member : ComparisonForm left right l r .member
      (wrapped right r ++ ".includes(" ++ l ++ ")")
  | notMember : ComparisonForm left right l r .notMember
      ("!" ++ (wrapped right r ++ ".includes(" ++ l ++ ")"))
  | nullRight {op} (identity : op = .same ∨ op = .notSame) (null : right.isNull) :
      ComparisonForm left right l r op
        (wrapped left l ++ (if op = .notSame then " != null" else " == null"))
  | nullLeft {op} (identity : op = .same ∨ op = .notSame) (null : left.isNull) (other : right.isNull = false) :
      ComparisonForm left right l r op
        (wrapped right r ++ (if op = .notSame then " != null" else " == null"))
  | between {op} (plain : op ≠ .member ∧ op ≠ .notMember)
      (filled : op = .same ∨ op = .notSame → right.isNull = false ∧ left.isNull = false) :
      ComparisonForm left right l r op
        (wrapped left l ++ (" " ++ compareText op ++ " ") ++ wrapped right r)

mutual

inductive Prints : Scope → Expr → Code → Prop where
  | constant {s k c} (form : constantCode k = .ok c) : Prints s (.constant k) c
  | name {s id} : Prints s (.name id) (nameCode s id)
  | field {s base name c} (object : Prints s base c) :
      Prints s (.field base name) (memberCode s base c name name)
  | starred {s value c} (inner : Prints s value c) :
      Prints s (.starred value) ("..." ++ wrapped value c)
  | template {s line id args codes} (tag : id = s.tag) (values : PrintsAll s args codes) :
      Prints s (.call line (.name id) args []) (.variable id "html" ++ .arguments codes)
  | assignment {s line target field third object name value} (other : "setattr" ≠ s.tag)
      (written : Prints s target object) (literal : field.text? = some name)
      (identifier : Text.isName name.toList) (assigned : Prints s third value) :
      Prints s (.call line (.name "setattr") [target, field, third] [])
        (.variable "setattr" "" ++ memberCode s target object name name ++ " = " ++ value)
  | length {s line arg c} (other : "len" ≠ s.tag) (object : Prints s arg c) :
      Prints s (.call line (.name "len") [arg] []) (.variable "len" "" ++ wrapped arg c ++ ".length")
  | mapped {s line id f args codes} (other : id ≠ s.tag) (mapping : function? id = some f)
      (values : PrintsAll s args codes) :
      Prints s (.call line (.name id) args []) (.variable id f ++ .arguments codes)
  | named {s line id args codes} (other : id ≠ s.tag ∧ id ≠ "setattr")
      (unmapped : function? id = none) (measured : id = "len" → args.length ≠ 1)
      (values : PrintsAll s args codes) :
      Prints s (.call line (.name id) args []) (nameCode s id ++ .arguments codes)
  | templateMethod {s line object name args codes} (tag : name = s.tag)
      (values : PrintsAll s args codes) :
      Prints s (.call line (.field object name) args []) ("html" ++ .arguments codes)
  | joinedBy {s line object arg b c} (other : "join" ≠ s.tag) (separator : Prints s object b)
      (items : Prints s arg c) :
      Prints s (.call line (.field object "join") [arg] []) (wrapped arg c ++ ".join" ++ b.group)
  | method {s line object name args codes b} (other : name ≠ s.tag)
      (plain : name = "join" → args.length ≠ 1) (base : Prints s object b)
      (values : PrintsAll s args codes) :
      Prints s (.call line (.field object name) args [])
        (memberCode s object b name (method name) ++ .arguments codes)
  | applied {s line func args codes b} (computed : ∀ id, func ≠ .name id)
      (free : ∀ object name, func ≠ .field object name) (callee : Prints s func b)
      (values : PrintsAll s args codes) :
      Prints s (.call line func args []) (wrapped func b ++ .arguments codes)
  | floorDiv {s left right l r} (first : Prints s left l) (second : Prints s right r) :
      Prints s (.binary left .floorDiv right)
        ("Math.floor(" ++ wrapped left l ++ " / " ++ wrapped right r ++ ")")
  | binary {s left op right l r text} (first : Prints s left l) (second : Prints s right r)
      (operator : binaryText? op = some text) :
      Prints s (.binary left op right)
        (wrapped left l ++ (" " ++ text ++ " ") ++ wrapped right r)
  | unary {s op operand c} (inner : Prints s operand c) :
      Prints s (.unary op operand) (unaryText op ++ wrapped operand c)
  | boolean {s op operands codes} (all : PrintsOperands s operands codes) :
      Prints s (.boolean op operands) (.separated (booleanText op) codes)
  | comparison {s left op right l r part} (first : Prints s left l) (second : Prints s right r)
      (form : ComparisonForm left right l r op part) :
      Prints s (.compare left [.mk op right]) part
  | chain {s left rest parts} (several : parts.length ≠ 1) (all : PrintsChain s left rest parts) :
      Prints s (.compare left rest) (.separated " && " (parts.map .group))
  | conditional {s test body orelse t b o} (first : Prints s test t) (second : Prints s body b)
      (third : Prints s orelse o) :
      Prints s (.conditional test body orelse)
        (wrapped test t ++ " ? " ++ wrapped body b ++ " : " ++ wrapped orelse o)
  | slice {s base lower upper b l u} (object : Prints s base b) (low : PrintsBound s lower l)
      (high : Prints s upper u) :
      Prints s (.subscript base (.slice lower (some upper) none))
        (wrapped base b ++ ".slice(" ++ l ++ ", " ++ u ++ ")")
  | sliceRest {s base lower b l} (object : Prints s base b) (low : PrintsBound s lower l) :
      Prints s (.subscript base (.slice lower none none)) (wrapped base b ++ ".slice(" ++ l ++ ")")
  | fromEnd {s base index b i} (counted : countsFromEnd index) (object : Prints s base b)
      (inner : Prints s index i) :
      Prints s (.subscript base index) (wrapped base b ++ ".at(" ++ i ++ ")")
  | subscript {s base index b i} (plain : countsFromEnd index = false) (object : Prints s base b)
      (inner : Prints s index i) :
      Prints s (.subscript base index) (wrapped base b ++ "[" ++ i ++ "]")
  | list {s items codes} (all : PrintsAll s items codes) :
      Prints s (.list items) ("[" ++ .separated ", " codes ++ "]")
  | tuple {s items codes} (all : PrintsAll s items codes) :
      Prints s (.tuple items) ("[" ++ .separated ", " codes ++ "]")
  | dict {s entries codes} (all : PrintsEntries s entries codes) :
      Prints s (.dict entries) ("\x7b" ++ .separated ", " codes ++ "\x7d")
  | joined {s parts codes} (all : PrintsParts s parts codes) :
      Prints s (.joined parts) ("\x60" ++ .concat codes ++ "\x60")
  | lambda {s params body c} (plain : params.isPlain) (inner : Prints (s.bind params.names) body c) :
      Prints s (.lambda params body)
        (.arrow params.names false (arrowBody body c))
  | listComp {s item clauses c} (all : PrintsComprehension s item clauses c) :
      Prints s (.listComp item clauses) c
  | generator {s item clauses c} (all : PrintsComprehension s item clauses c) :
      Prints s (.generator item clauses) c
  | assigned {s target value c} (inner : Prints s value c) :
      Prints s (.assigned target value) (nameCode s target ++ " = " ++ c)

inductive PrintsAll : Scope → List Expr → List Code → Prop where
  | nil {s} : PrintsAll s [] []
  | cons {s e rest c codes} (head : Prints s e c) (tail : PrintsAll s rest codes) :
      PrintsAll s (e :: rest) (c :: codes)

inductive PrintsOperands : Scope → List Expr → List Code → Prop where
  | nil {s} : PrintsOperands s [] []
  | cons {s e rest c codes} (head : Prints s e c) (tail : PrintsOperands s rest codes) :
      PrintsOperands s (e :: rest) (wrapped e c :: codes)

inductive PrintsBound : Scope → Option Expr → Code → Prop where
  | none {s} : PrintsBound s none "0"
  | some {s e c} (inner : Prints s e c) : PrintsBound s (some e) c

inductive PrintsChain : Scope → Expr → List Comparison → List Code → Prop where
  | nil {s left} : PrintsChain s left [] []
  | cons {s left op right rest l r part parts} (first : Prints s left l) (second : Prints s right r)
      (form : ComparisonForm left right l r op part) (tail : PrintsChain s right rest parts) :
      PrintsChain s left (.mk op right :: rest) (part :: parts)

inductive PrintsEntries : Scope → List Entry → List Code → Prop where
  | nil {s} : PrintsEntries s [] []
  | spread {s value rest c codes} (head : Prints s value c) (tail : PrintsEntries s rest codes) :
      PrintsEntries s (.spread value :: rest) (("..." ++ wrapped value c) :: codes)
  | literal {s key value rest k v codes} (text : key.text?.isSome) (name : Prints s key k)
      (head : Prints s value v) (tail : PrintsEntries s rest codes) :
      PrintsEntries s (.pair key value :: rest) ((k ++ ": " ++ v) :: codes)
  | computed {s key value rest k v codes} (code : key.text? = none) (name : Prints s key k)
      (head : Prints s value v) (tail : PrintsEntries s rest codes) :
      PrintsEntries s (.pair key value :: rest) (("[" ++ k ++ "]" ++ ": " ++ v) :: codes)

inductive PrintsParts : Scope → List Expr → List Code → Prop where
  | nil {s} : PrintsParts s [] []
  | text {s t marked rest codes} (tail : PrintsParts s rest codes) :
      PrintsParts s (.constant (.text t marked) :: rest)
        ((String.ofList (escapeTemplate t.toList) : Code) :: codes)
  | formatted {s value conversion rest c codes} (head : Prints s value c)
      (tail : PrintsParts s rest codes) :
      PrintsParts s (.formatted value conversion none :: rest)
        (("$\x7b" ++ c ++ "\x7d") :: codes)

inductive PrintsComprehension : Scope → Expr → List Clause → Code → Prop where
  | mk {s item target iter conditions listed names source filters result}
      (binder : comprehensionTarget target = .ok (listed, names)) (outer : Prints s iter source)
      (guards : PrintsAll (s.bind names) conditions filters)
      (element : Prints (s.bind names) item result) :
      PrintsComprehension s item [.mk false target iter conditions]
        (wrapped iter source ++
          .concat (filters.map fun f => ".filter(" ++ .arrow names listed f ++ ")") ++
          ".map(" ++ .arrow names listed result ++ ")")

end

theorem comparisonForm {left right : Expr} {l r part : Code} {op : CompareOp}
    (h : comparison op left right (.ok l) (.ok r) = .ok part) :
    ComparisonForm left right l r op part := by
  cases op
  case member => obtain rfl := pureOk.mp h; exact .member
  case notMember => obtain rfl := pureOk.mp h; exact .notMember
  case same | notSame =>
    by_cases nr : right.isNull
    · simp only [comparison, nr, if_true] at h
      obtain rfl := pureOk.mp h
      exact .nullRight (by simp) nr
    by_cases nl : left.isNull
    · simp only [comparison, nr, nl, if_true] at h
      obtain rfl := pureOk.mp h
      exact .nullLeft (by simp) nl (by simpa using nr)
    simp only [comparison, nr, nl] at h
    obtain rfl := pureOk.mp h
    exact .between (by simp) (by simp [nr, nl])
  all_goals
    obtain rfl := pureOk.mp h
    exact .between (by simp) (by simp)

theorem PrintsAll.length {s es codes} : PrintsAll s es codes → es.length = codes.length
  | .nil => rfl
  | .cons _ tail => congrArg (· + 1) tail.length

theorem plainCallForm {s line id args codes c} (values : PrintsAll s args codes)
    (other : id ≠ s.tag ∧ id ≠ "setattr") (measured : id = "len" → args.length ≠ 1)
    (h : (match function? id with
      | some f => pure (Code.variable id f ++ Code.arguments codes)
      | none => do return (← (.ok (nameCode s id) : Coded)) ++ Code.arguments codes) = .ok c) :
    Prints s (.call line (.name id) args []) c := by
  split at h
  · next f mapping =>
    obtain rfl := pureOk.mp h
    exact .mapped other.1 mapping values
  · next unmapped =>
    obtain rfl := pureOk.mp h
    exact .named other unmapped measured values

theorem namedCallForm {s line id args codes c} (values : PrintsAll s args codes)
    (h : callCode s (.name id) args codes (code s (.name id)) = .ok c) :
    Prints s (.call line (.name id) args []) c := by
  simp only [callCode, code, beq_iff_eq] at h
  split at h
  · next tag =>
    obtain rfl := pureOk.mp h
    exact .template tag values
  next other =>
  split at h
  · next assigned =>
    subst assigned
    split at h
    · obtain _ | ⟨written, _ | ⟨_, _ | ⟨assigned, _⟩⟩⟩ := values
      split at h
      · next name literal =>
        split at h
        · next identifier =>
          obtain rfl := pureOk.mp h
          exact .assignment other written literal identifier assigned
        · contradiction
      · contradiction
    · contradiction
  next free =>
  split at h
  · next measured =>
    subst measured
    split at h
    · obtain _ | ⟨object, _⟩ := values
      obtain rfl := pureOk.mp h
      exact .length other object
    · next several =>
      refine plainCallForm values ⟨other, free⟩ ?_ h
      intro _ one
      obtain ⟨arg, rfl⟩ := List.length_eq_one_iff.mp one
      obtain ⟨c, rfl⟩ := List.length_eq_one_iff.mp (values.length.symm.trans one)
      exact several arg c rfl rfl
  · next unmeasured => exact plainCallForm values ⟨other, free⟩ (absurd · unmeasured) h

theorem methodCallForm {s line object name args codes c} (values : PrintsAll s args codes)
    (base : ∀ {b}, code s object = .ok b → Prints s object b)
    (h : callCode s (.field object name) args codes (code s object) = .ok c) :
    Prints s (.call line (.field object name) args []) c := by
  simp only [callCode, beq_iff_eq] at h
  split at h
  · next tag =>
    obtain rfl := pureOk.mp h
    exact .templateMethod tag values
  next other =>
  split at h
  · next join =>
    subst join
    split at h
    · obtain _ | ⟨items, _⟩ := values
      obtain ⟨b, hb, h⟩ := bindOk.mp h
      obtain rfl := pureOk.mp h
      exact .joinedBy other (base hb) items
    · next several =>
      obtain ⟨b, hb, h⟩ := bindOk.mp h
      obtain rfl := pureOk.mp h
      refine .method other ?_ (base hb) values
      intro _ one
      obtain ⟨arg, rfl⟩ := List.length_eq_one_iff.mp one
      obtain ⟨c, rfl⟩ := List.length_eq_one_iff.mp (values.length.symm.trans one)
      exact several arg c rfl rfl
  · next plain =>
    obtain ⟨b, hb, h⟩ := bindOk.mp h
    obtain rfl := pureOk.mp h
    exact .method other (absurd · plain) (base hb) values

theorem appliedCallForm {s line func args codes c} (values : PrintsAll s args codes)
    (computed : ∀ id, func ≠ .name id) (free : ∀ object name, func ≠ .field object name)
    (callee : ∀ {b}, code s func = .ok b → Prints s func b)
    (h : callCode s func args codes (code s func) = .ok c) :
    Prints s (.call line func args []) c := by
  unfold callCode at h
  split at h
  · next id => exact absurd rfl (computed id)
  · next object name => exact absurd rfl (free object name)
  · obtain ⟨b, hb, h⟩ := bindOk.mp h
    obtain rfl := pureOk.mp h
    exact .applied computed free (callee hb) values

theorem codeNull {s : Scope} {e : Expr} (h : e.isNull) : code s e = .ok "null" := by
  unfold Expr.isNull at h
  split at h
  · rfl
  · contradiction

theorem comparisonOperands {s : Scope} {left right : Expr} {op : CompareOp} {part : Code}
    (h : comparison op left right (code s left) (code s right) = .ok part) :
    ∃ l r, code s left = .ok l ∧ code s right = .ok r := by
  cases op
  case member | notMember =>
    obtain ⟨r, hr, h⟩ := bindOk.mp h
    obtain ⟨l, hl, _⟩ := bindOk.mp h
    exact ⟨l, r, hl, hr⟩
  case same | notSame =>
    simp only [comparison] at h
    split at h
    · next nr =>
      obtain ⟨l, hl, _⟩ := bindOk.mp h
      exact ⟨l, _, hl, codeNull nr⟩
    split at h
    · next nl =>
      obtain ⟨r, hr, _⟩ := bindOk.mp h
      exact ⟨_, r, codeNull nl, hr⟩
    obtain ⟨l, hl, h⟩ := bindOk.mp h
    obtain ⟨r, hr, _⟩ := bindOk.mp h
    exact ⟨l, r, hl, hr⟩
  all_goals
    obtain ⟨l, hl, h⟩ := bindOk.mp h
    obtain ⟨r, hr, _⟩ := bindOk.mp h
    exact ⟨l, r, hl, hr⟩

theorem subscriptForm {s base index c} (plain : ∀ lower upper step, index ≠ .slice lower upper step)
    (object : ∀ {b}, code s base = .ok b → Prints s base b)
    (inner : ∀ {i}, code s index = .ok i → Prints s index i)
    (h : code s (.subscript base index) = .ok c) : Prints s (.subscript base index) c := by
  rw [code] at h
  · simp only [bindOk] at h
    obtain ⟨b, hb, i, hi, h⟩ := h
    obtain rfl := pureOk.mp h
    cases counted : countsFromEnd index
    · exact .subscript counted (object hb) (inner hi)
    · exact .fromEnd counted (object hb) (inner hi)
  · exact plain

theorem sliceForm {s base lower upper step c}
    (object : ∀ {b}, code s base = .ok b → Prints s base b)
    (low : ∀ {l}, codeBound s lower = .ok l → PrintsBound s lower l)
    (high : ∀ {u}, codeBound s upper = .ok u → PrintsBound s upper u)
    (h : code s (.subscript base (.slice lower upper step)) = .ok c) :
    Prints s (.subscript base (.slice lower upper step)) c := by
  simp only [code, bindOk] at h
  obtain ⟨b, hb, h⟩ := h
  cases step with
  | some e => contradiction
  | none =>
    obtain ⟨l, hl, h⟩ := bindOk.mp h
    cases upper with
    | none =>
      obtain rfl := pureOk.mp h
      exact .sliceRest (object hb) (low hl)
    | some upper =>
      obtain ⟨u, hu, h⟩ := bindOk.mp h
      obtain rfl := pureOk.mp h
      obtain _ | ⟨high⟩ := high hu
      exact .slice (object hb) (low hl) high

mutual

-- The induction is on the expression; calls, comparisons and subscripts are printed in several ways.
theorem printsOf {s : Scope} : (e : Expr) → {c : Code} → code s e = .ok c → Prints s e c
  | .constant _, _, h => .constant h
  | .name _, _, h => by
    obtain rfl := pureOk.mp h
    exact .name
  | .field base _, _, h => by
    obtain ⟨b, hb, h⟩ := bindOk.mp h
    obtain rfl := pureOk.mp h
    exact .field (printsOf base hb)
  | .starred value, _, h => by
    obtain ⟨b, hb, h⟩ := bindOk.mp h
    obtain rfl := pureOk.mp h
    exact .starred (printsOf value hb)
  | .call _ func args [], _, h => by
    have values {codes} (h : codeAll s args = .ok codes) := printsAll args h
    have callee {b} (h : code s func = .ok b) := printsOf func h
    cases func with
    | name id =>
      obtain ⟨codes, hcodes, h⟩ := bindOk.mp h
      exact namedCallForm (values hcodes) h
    | field object name =>
      obtain ⟨codes, hcodes, h⟩ := bindOk.mp h
      exact methodCallForm (values hcodes) (printsOf object) h
    | _ =>
      obtain ⟨codes, hcodes, h⟩ := bindOk.mp h
      exact appliedCallForm (values hcodes) (by simp) (by simp) callee h
  | .call _ func _ (_ :: _), _, h => by cases func <;> contradiction
  | .binary left op right, _, h => by
    simp only [code, bindOk] at h
    obtain ⟨l, hl, r, hr, h⟩ := h
    split at h
    · obtain rfl := pureOk.mp h
      exact .floorDiv (printsOf left hl) (printsOf right hr)
    · split at h
      · next operator =>
        obtain rfl := pureOk.mp h
        exact .binary (printsOf left hl) (printsOf right hr) operator
      · contradiction
  | .unary _ operand, _, h => by
    obtain ⟨b, hb, h⟩ := bindOk.mp h
    obtain rfl := pureOk.mp h
    exact .unary (printsOf operand hb)
  | .boolean _ operands, _, h => by
    obtain ⟨codes, hcodes, h⟩ := bindOk.mp h
    obtain rfl := pureOk.mp h
    exact .boolean (printsOperands operands hcodes)
  | .compare left rest, _, h => by
    obtain ⟨parts, hparts, h⟩ := bindOk.mp h
    have all := printsChain left rest (printsOf left) hparts
    split at h
    · obtain rfl := pureOk.mp h
      obtain _ | ⟨first, second, form, _ | _⟩ := all
      exact .comparison first second form
    · next several =>
      obtain rfl := pureOk.mp h
      refine .chain ?_ all
      intro one
      obtain ⟨part, rfl⟩ := List.length_eq_one_iff.mp one
      exact several part rfl
  | .conditional test body orelse, _, h => by
    simp only [code, bindOk] at h
    obtain ⟨t, ht, b, hb, o, ho, h⟩ := h
    obtain rfl := pureOk.mp h
    exact .conditional (printsOf test ht) (printsOf body hb) (printsOf orelse ho)
  | .subscript base index, _, h => by
    have inner {i} (h : code s index = .ok i) := printsOf index h
    have object {b} (h : code s base = .ok b) := printsOf base h
    cases index with
    | slice lower upper step => exact sliceForm object (printsBound lower) (printsBound upper) h
    | _ => exact subscriptForm (by simp) object inner h
  | .list items, _, h => by
    obtain ⟨codes, hcodes, h⟩ := bindOk.mp h
    obtain rfl := pureOk.mp h
    exact .list (printsAll items hcodes)
  | .tuple items, _, h => by
    obtain ⟨codes, hcodes, h⟩ := bindOk.mp h
    obtain rfl := pureOk.mp h
    exact .tuple (printsAll items hcodes)
  | .dict entries, _, h => by
    obtain ⟨codes, hcodes, h⟩ := bindOk.mp h
    obtain rfl := pureOk.mp h
    exact .dict (printsEntries entries hcodes)
  | .joined parts, _, h => by
    obtain ⟨codes, hcodes, h⟩ := bindOk.mp h
    obtain rfl := pureOk.mp h
    exact .joined (printsParts parts hcodes)
  | .lambda params body, _, h => by
    simp only [code] at h
    split at h
    · contradiction
    · next plain =>
      obtain ⟨c, hc, h⟩ := bindOk.mp h
      obtain rfl := pureOk.mp h
      exact .lambda (by simpa using plain) (printsOf body hc)
  | .listComp item clauses, _, h =>
    .listComp (printsComprehension item clauses (printsOf item) h)
  | .generator item clauses, _, h =>
    .generator (printsComprehension item clauses (printsOf item) h)
  | .assigned _ value, _, h => by
    obtain ⟨b, hb, h⟩ := bindOk.mp h
    obtain rfl := pureOk.mp h
    exact .assigned (printsOf value hb)
  | .slice _ _ _, _, h | .set _, _, h | .setComp _ _, _, h | .dictComp _ _ _, _, h
  | .formatted _ _ _, _, h | .await _, _, h | .yield _, _, h | .yieldFrom _, _, h => nomatch h

theorem printsAll {s : Scope} : (es : List Expr) → {codes : List Code} →
    codeAll s es = .ok codes → PrintsAll s es codes
  | [], _, h => by
    obtain rfl := pureOk.mp h
    exact .nil
  | e :: rest, _, h => by
    obtain ⟨c, hc, h⟩ := bindOk.mp h
    obtain ⟨codes, hcodes, h⟩ := bindOk.mp h
    obtain rfl := pureOk.mp h
    exact .cons (printsOf e hc) (printsAll rest hcodes)

theorem printsOperands {s : Scope} : (es : List Expr) → {codes : List Code} →
    codeOperands s es = .ok codes → PrintsOperands s es codes
  | [], _, h => by
    obtain rfl := pureOk.mp h
    exact .nil
  | e :: rest, _, h => by
    obtain ⟨c, hc, h⟩ := bindOk.mp h
    obtain ⟨codes, hcodes, h⟩ := bindOk.mp h
    obtain rfl := pureOk.mp h
    exact .cons (printsOf e hc) (printsOperands rest hcodes)

theorem printsChain {s : Scope} (left : Expr) : (rest : List Comparison) →
    (∀ {l}, code s left = .ok l → Prints s left l) → {parts : List Code} →
    codeChain s left (code s left) rest = .ok parts → PrintsChain s left rest parts
  | [], _, _, h => by
    obtain rfl := pureOk.mp h
    exact .nil
  | .mk op right :: rest, first, _, h => by
    simp only [codeChain, bindOk] at h
    obtain ⟨part, hpart, parts, hparts, h⟩ := h
    obtain rfl := pureOk.mp h
    obtain ⟨l, r, hl, hr⟩ := comparisonOperands hpart
    rw [hl, hr] at hpart
    exact .cons (first hl) (printsOf right hr) (comparisonForm hpart)
      (printsChain right rest (printsOf right) hparts)

theorem printsBound {s : Scope} : (bound : Option Expr) → {c : Code} →
    codeBound s bound = .ok c → PrintsBound s bound c
  | none, _, h => by
    obtain rfl := pureOk.mp h
    exact .none
  | some e, _, h => .some (printsOf e h)

theorem printsEntries {s : Scope} : (entries : List Entry) → {codes : List Code} →
    codeEntries s entries = .ok codes → PrintsEntries s entries codes
  | [], _, h => by
    obtain rfl := pureOk.mp h
    exact .nil
  | .spread value :: rest, _, h => by
    simp only [codeEntries, bindOk] at h
    obtain ⟨c, hc, codes, hcodes, h⟩ := h
    obtain rfl := pureOk.mp h
    exact .spread (printsOf value hc) (printsEntries rest hcodes)
  | .pair key value :: rest, _, h => by
    simp only [codeEntries, bindOk] at h
    obtain ⟨k, hk, v, hv, codes, hcodes, h⟩ := h
    obtain rfl := pureOk.mp h
    cases literal : key.text? with
    | some t =>
      exact .literal (by simp [literal]) (printsOf key hk) (printsOf value hv)
        (printsEntries rest hcodes)
    | none => exact .computed literal (printsOf key hk) (printsOf value hv) (printsEntries rest hcodes)

theorem printsParts {s : Scope} : (parts : List Expr) → {codes : List Code} →
    codeParts s parts = .ok codes → PrintsParts s parts codes
  | [], _, h => by
    obtain rfl := pureOk.mp h
    exact .nil
  | e :: rest, _, h => by
    have tail {codes} (h : codeParts s rest = .ok codes) := printsParts rest h
    cases e with
    | constant k =>
      cases k with
      | text t marked =>
        obtain ⟨codes, hcodes, h⟩ := bindOk.mp h
        obtain rfl := pureOk.mp h
        exact .text (tail hcodes)
      | _ => contradiction
    | formatted value conversion spec =>
      cases spec with
      | some e => contradiction
      | none =>
        simp only [codeParts, Option.isSome_none, Bool.false_eq_true, if_false, bindOk] at h
        obtain ⟨c, hc, codes, hcodes, h⟩ := h
        obtain rfl := pureOk.mp h
        exact .formatted (printsOf value hc) (tail hcodes)
    | _ => contradiction

theorem printsComprehension {s : Scope} (item : Expr) : (clauses : List Clause) →
    (∀ {s' c}, code s' item = .ok c → Prints s' item c) → {c : Code} →
    codeComprehension s (fun inner => code inner item) clauses = .ok c →
    PrintsComprehension s item clauses c
  | [.mk false target iter conditions], element, _, h => by
    simp only [codeComprehension, bindOk] at h
    obtain ⟨source, hs, ⟨listed, names⟩, binder, filters, hf, result, hr, h⟩ := h
    obtain rfl := pureOk.mp h
    exact .mk binder (printsOf iter hs) (printsAll conditions hf) (element hr)
  | [.mk true _ _ _], _, _, h => nomatch h
  | [], _, _, h => nomatch h
  | .mk false _ _ _ :: _ :: _, _, _, h => nomatch h
  | .mk true _ _ _ :: _ :: _, _, _, h => nomatch h

end

section Converse

variable {s : Scope}

theorem comparisonOf {left right : Expr} {l r part : Code} {op : CompareOp}
    (h : ComparisonForm left right l r op part) : comparison op left right (.ok l) (.ok r) = .ok part := by
  cases h with
  | member => rfl
  | notMember => rfl
  | nullRight identity null =>
    rcases identity with rfl | rfl <;> exact if_pos null
  | nullLeft identity null other =>
    rcases identity with rfl | rfl <;> exact (if_neg (by simp [other])).trans (if_pos null)
  | between plain filled =>
    cases op
    case member => exact absurd rfl plain.1
    case notMember => exact absurd rfl plain.2
    case same | notSame =>
      obtain ⟨nr, nl⟩ := filled (by simp)
      simp [comparison, nr, nl]
      rfl
    all_goals rfl

theorem codeAllCons {e : Expr} {rest : List Expr} {c : Code} {codes : List Code} (h : code s e = .ok c)
    (tail : codeAll s rest = .ok codes) : codeAll s (e :: rest) = .ok (c :: codes) := by
  rw [codeAll, h, tail]
  rfl

theorem codeAllNil : codeAll s [] = .ok [] := by rw [codeAll]

theorem codeChainCons {left right : Expr} {op : CompareOp} {rest : List Comparison} {l r part : Code} {parts : List Code}
    (first : code s left = .ok l) (second : code s right = .ok r) (form : ComparisonForm left right l r op part)
    (tail : codeChain s right (code s right) rest = .ok parts) :
    codeChain s left (code s left) (.mk op right :: rest) = .ok (part :: parts) := by
  rw [codeChain, tail, first, second, comparisonOf form]
  rfl

theorem calleeCode {line : Nat} {func : Expr} {args : List Expr} {codes : List Code}
    (free : ∀ object name, func ≠ .field object name) (h : codeAll s args = .ok codes) :
    code s (.call line func args []) = callCode s func args codes (code s func) := by
  rw [code, h]
  · rfl
  · exact free

theorem methodCode {line : Nat} {object : Expr} {name : String} {args : List Expr} {codes : List Code}
    (h : codeAll s args = .ok codes) :
    code s (.call line (.field object name) args []) = callCode s (.field object name) args codes (code s object) := by
  rw [code, h]
  rfl

theorem textCode {e : Expr} {t : String} (h : e.text? = some t) : ∃ c, code s e = .ok c := by
  unfold Expr.text? at h
  split at h
  · exact ⟨_, rfl⟩
  · cases h

theorem plainCallCode {id : String} {args : List Expr} {codes : List Code} {base : Coded} (other : id ≠ s.tag)
    (unassigned : id ≠ "setattr") (measured : id = "len" → args.length ≠ 1) :
    callCode s (.name id) args codes base =
      match function? id with
      | some f => return .variable id f ++ .arguments codes
      | none => return (← base) ++ .arguments codes := by
  simp only [callCode, beq_iff_eq, if_neg other, if_neg unassigned]
  split
  · next length =>
    split
    · exact absurd rfl (measured length)
    · rfl
  · rfl

theorem methodCallCode {object : Expr} {name : String} {args : List Expr} {codes : List Code} {b : Code}
    (other : name ≠ s.tag) (plain : name = "join" → args.length ≠ 1) :
    callCode s (.field object name) args codes (.ok b) =
      .ok (memberCode s object b name (method name) ++ .arguments codes) := by
  simp only [callCode, beq_iff_eq, if_neg other]
  split
  · next join =>
    split
    · exact absurd rfl (plain join)
    · rfl
  · rfl

theorem chainCode {parts : List Code} (several : parts.length ≠ 1) :
    (do match ← (Except.ok parts : Except Untranslatable (List Code)) with
      | [part] => return part
      | parts => return .separated " && " (parts.map .group)) = Except.ok (.separated " && " (parts.map .group)) := by
  match parts with
  | [] => rfl
  | [_] => exact absurd rfl several
  | _ :: _ :: _ => rfl

mutual

theorem codeOf {s e c} : Prints s e c → code s e = .ok c
  | .constant form => by rw [code, form]
  | .name => by rw [code]
  | .field object => by rw [code, codeOf object]; rfl
  | .starred inner => by rw [code, codeOf inner]; rfl
  | .template tag values => by
    rw [calleeCode (by simp) (codeAllOf values)]
    simp only [callCode, tag, beq_self_eq_true, if_true]
    rfl
  | .assignment other written literal identifier assigned => by
    obtain ⟨v, field⟩ : ∃ v, code s _ = .ok v := textCode literal
    rw [calleeCode (by simp) (codeAllCons (codeOf written) (codeAllCons field (codeAllCons (codeOf assigned) codeAllNil)))]
    simp [callCode, other, literal, identifier]
    rfl
  | .length other object => by
    rw [calleeCode (by simp) (codeAllCons (codeOf object) codeAllNil)]
    simp [callCode, other]
    rfl
  | .mapped other mapping values => by
    rw [calleeCode (by simp) (codeAllOf values),
      plainCallCode other (by rintro rfl; cases mapping) (by rintro rfl; cases mapping), mapping]
    rfl
  | .named other unmapped measured values => by
    rw [calleeCode (by simp) (codeAllOf values), plainCallCode other.1 other.2 measured, unmapped, code]
    rfl
  | .templateMethod tag values => by
    rw [methodCode (codeAllOf values)]
    simp only [callCode, tag, beq_self_eq_true, if_true]
    rfl
  | .joinedBy other separator items => by
    rw [methodCode (codeAllCons (codeOf items) codeAllNil), codeOf separator]
    have unlike : ("join" == s.tag) = false := by simpa using other
    simp only [callCode, unlike]
    rfl
  | .method other plain base values => by
    rw [methodCode (codeAllOf values), codeOf base]
    exact methodCallCode other plain
  | .applied computed free callee values => by
    rw [calleeCode free (codeAllOf values), codeOf callee, callCode]
    · rfl
    · exact computed
    · exact free
  | .floorDiv first second => by rw [code, codeOf first, codeOf second]; rfl
  | @Prints.binary _ _ op _ _ _ _ first second operator => by
    rw [code, codeOf first, codeOf second]
    cases op <;> cases operator <;> rfl
  | .unary inner => by rw [code, codeOf inner]; rfl
  | .boolean all => by rw [code, codeOperandsOf all]; rfl
  | .comparison first second form => by
    rw [code, codeChainCons (codeOf first) (codeOf second) form (by rw [codeChain])]
    rfl
  | .chain several all => by
    rw [code, codeChainOf all]
    exact chainCode several
  | .conditional first second third => by rw [code, codeOf first, codeOf second, codeOf third]; rfl
  | .slice object low high => by rw [code, codeOf object, codeBoundOf low]; simp only [codeOf high]; rfl
  | .sliceRest object low => by rw [code, codeOf object, codeBoundOf low]; rfl
  | .fromEnd counted object inner => by
    rw [code, codeOf object, codeOf inner]
    · simp [counted]
      rfl
    · exact fun _ _ _ same => nomatch same ▸ inner
  | .subscript plain object inner => by
    rw [code, codeOf object, codeOf inner]
    · simp [plain]
      rfl
    · exact fun _ _ _ same => nomatch same ▸ inner
  | .list all => by rw [code, codeAllOf all]; rfl
  | .tuple all => by rw [code, codeAllOf all]; rfl
  | .dict all => by rw [code, codeEntriesOf all]; rfl
  | .joined all => by rw [code, codePartsOf all]; rfl
  | .lambda plain inner => by
    rw [code, codeOf inner]
    simp only [plain]
    rfl
  | .listComp all => by rw [code, codeComprehensionOf all]
  | .generator all => by rw [code, codeComprehensionOf all]
  | .assigned inner => by rw [code, codeOf inner]; rfl

theorem codeAllOf {s es codes} : PrintsAll s es codes → codeAll s es = .ok codes
  | .nil => by rw [codeAll]
  | .cons head tail => by rw [codeAll, codeOf head, codeAllOf tail]; rfl

theorem codeOperandsOf {s es codes} : PrintsOperands s es codes → codeOperands s es = .ok codes
  | .nil => by rw [codeOperands]
  | .cons head tail => by rw [codeOperands, codeOf head, codeOperandsOf tail]; rfl

theorem codeBoundOf {s bound c} : PrintsBound s bound c → codeBound s bound = .ok c
  | .none => by rw [codeBound]
  | .some inner => by rw [codeBound, codeOf inner]

theorem codeChainOf {s left rest parts} : PrintsChain s left rest parts →
    codeChain s left (code s left) rest = .ok parts
  | .nil => by rw [codeChain]
  | .cons first second form tail => by
    exact codeChainCons (codeOf first) (codeOf second) form (codeChainOf tail)

theorem codeEntriesOf {s entries codes} : PrintsEntries s entries codes → codeEntries s entries = .ok codes
  | .nil => by rw [codeEntries]
  | .spread head tail => by rw [codeEntries, codeOf head, codeEntriesOf tail]; rfl
  | .literal text name head tail => by
    rw [codeEntries, codeOf name, codeOf head, codeEntriesOf tail]
    simp [text]
    rfl
  | .computed plain name head tail => by
    rw [codeEntries, codeOf name, codeOf head, codeEntriesOf tail]
    simp [plain]
    rfl

theorem codePartsOf {s parts codes} : PrintsParts s parts codes → codeParts s parts = .ok codes
  | .nil => by rw [codeParts]
  | .text tail => by rw [codeParts, codePartsOf tail]; rfl
  | .formatted head tail => by rw [codeParts, codeOf head, codePartsOf tail]; rfl

theorem codeComprehensionOf {s item clauses c} : PrintsComprehension s item clauses c →
    codeComprehension s (fun inner => code inner item) clauses = .ok c
  | .mk binder outer guards element => by
    simp only [codeComprehension, codeOf outer, binder, codeAllOf guards, codeOf element, bind, Except.bind]
    rfl

end

end Converse

theorem bodyForm {s : Scope} {params : LambdaParams} {body : Expr} {d : Code}
    (h : bodyCode s params body = .ok d) : Prints (s.bind params.names) body d ∨
      ∃ items codes, body = .tuple items ∧ PrintsAll (s.bind params.names) items codes ∧
        d = .separated "; " codes := by
  unfold bodyCode at h
  simp only at h
  split at h
  · cases h
  split at h
  · next items =>
    obtain ⟨codes, coded, h⟩ := bindOk.mp h
    obtain rfl := pureOk.mp h
    exact .inr ⟨items, codes, rfl, printsAll items coded, rfl⟩
  · exact .inl (printsOf body h)

end LiveMarkup.Client
