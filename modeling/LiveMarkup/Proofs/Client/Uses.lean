import LiveMarkup.Proofs.Analysis.Capture
import LiveMarkup.Proofs.Client.Formatted
/-! The names that client code uses: its variables, and the names in the texts between them, such as `Math` in
`Math.floor(`. An expression uses the same names, in the places where they are printed. -/
namespace LiveMarkup.Client
open Syntax Analysis Text Outline TemplateLiteral

abbrev Use := String × Binders

section Reading

def literalWords : List String := ["null", "true", "false"]

def namesAfter (joined : Bool) : List Char → List String
  | [] => []
  | c :: rest =>
    (if !joined && startsWord c then [String.ofList (c :: rest.takeWhile inWord)] else []) ++
      namesAfter (inWord c || c == '.') rest

def namesIn (text : String) : List String :=
  if text.toList.head? = some '"' ∨ text.toList.head? = some '.' then []
  else (namesAfter false text.toList).filter (· ∉ literalWords)

def standing (shown : String) : List String :=
  if shown = "" ∨ shown ∈ literalWords then [] else [leading shown]

inductive Opened where
  | literal
  | brace
  | member
  deriving DecidableEq

def brackets : List String := ["\x60", "\x7b", "\x7d", "."]

def scanText (b : Binders) (opened : List Opened) (t : String) : List Use × List Opened :=
  match opened with
  | .literal :: rest =>
    ([], if t = "\x60" then rest else if t = "$\x7b" then .brace :: .literal :: rest else .literal :: rest)
  | .member :: rest => ([], rest)
  | _ =>
    if t = "\x60" then ([], .literal :: opened)
    else if t = "\x7b" then ([], .brace :: opened)
    else if t = "\x7d" then ([], opened.tail)
    else if t = "." then ([], .member :: opened)
    else ((namesIn t).map (·, b), opened)

namespace Code

def scan (b : Binders) (opened : List Opened) : Code → List Use × List Opened
  | text t => scanText b opened t
  | access _ _ | component => ([], opened)
  | «variable» _ shown => ((standing shown).map (·, b), opened)
  | arrow params _ body => body.scan (params :: b) opened
  | join first second =>
    let before := first.scan b opened
    let behind := second.scan b before.2
    (before.1 ++ behind.1, behind.2)

def names (b : Binders) (c : Code) : List Use := (c.scan b []).1

end Code

end Reading

section Expressions

def nameUses (s : Scope) (b : Binders) (id : String) : List Use :=
  if s.isReceiver id then [] else (standing (spelled id)).map (·, b)

def calleeUses (s : Scope) (b : Binders) (id : String) (count : Nat) : List Use :=
  if id = s.tag then [("html", b)]
  else if id = "setattr" ∨ id = "len" ∧ count = 1 then []
  else
    match function? id with
    | some f => [(leading f, b)]
    | none => nameUses s b id

mutual

def uses (s : Scope) (b : Binders) : Expr → List Use
  | .constant (.real (.infinite _)) => [("Infinity", b)]
  | .constant (.real .undefined) => [("NaN", b)]
  | .name id => nameUses s b id
  | .field base _ => uses s b base
  | .subscript base index => uses s b base ++ uses s b index
  | .slice lower upper _ => usesOption s b lower ++ usesOption s b upper
  | .starred value => uses s b value
  | .call _ (.name id) args _ => calleeUses s b id args.length ++ usesAll s b args
  | .call _ (.field object name) args _ =>
    (if name = s.tag then [("html", b)] else uses s b object) ++ usesAll s b args
  | .call _ func args _ => uses s b func ++ usesAll s b args
  | .unary _ operand => uses s b operand
  | .binary left op right => (if op = .floorDiv then [("Math", b)] else []) ++ (uses s b left ++ uses s b right)
  | .boolean _ operands => usesAll s b operands
  | .compare left rest => usesComparisons s b (uses s b left) rest
  | .conditional test body orelse => uses s b test ++ uses s b body ++ uses s b orelse
  | .lambda params body => uses (s.bind params.names) (params.names :: b) body
  | .list items => usesAll s b items
  | .tuple items => usesAll s b items
  | .dict entries => usesEntries s b entries
  | .listComp item clauses =>
    usesSource s b clauses ++ usesConditions (s.bind (boundNames clauses)) (boundNames clauses :: b) clauses ++
      uses (s.bind (boundNames clauses)) (boundNames clauses :: b) item
  | .generator item clauses =>
    usesSource s b clauses ++ usesConditions (s.bind (boundNames clauses)) (boundNames clauses :: b) clauses ++
      uses (s.bind (boundNames clauses)) (boundNames clauses :: b) item
  | .joined parts => usesAll s b parts
  | .formatted value _ _ => uses s b value
  | .assigned target value => nameUses s b target ++ uses s b value
  | _ => []

def usesAll (s : Scope) (b : Binders) : List Expr → List Use
  | [] => []
  | e :: rest => uses s b e ++ usesAll s b rest

def usesOption (s : Scope) (b : Binders) : Option Expr → List Use
  | none => []
  | some e => uses s b e

def usesComparisons (s : Scope) (b : Binders) (left : List Use) : List Comparison → List Use
  | [] => []
  | .mk _ right :: rest => left ++ uses s b right ++ usesComparisons s b (uses s b right) rest

def usesEntries (s : Scope) (b : Binders) : List Entry → List Use
  | [] => []
  | .pair key value :: rest => uses s b key ++ uses s b value ++ usesEntries s b rest
  | .spread value :: rest => uses s b value ++ usesEntries s b rest

def usesSource (s : Scope) (b : Binders) : List Clause → List Use
  | [] => []
  | .mk _ _ iter _ :: _ => uses s b iter

def usesConditions (s : Scope) (b : Binders) : List Clause → List Use
  | [] => []
  | .mk _ _ _ conditions :: _ => usesAll s b conditions

end

end Expressions

section Texts

variable {t : String} {b : Binders} {us vs : List Use} {c d : Code}

def Coding (opened : List Opened) : Prop := opened.head?.all (· = .brace)

def Refers (b : Binders) (c : Code) (us : List Use) : Prop :=
  ∃ vs, Alike vs us ∧ ∀ opened, Coding opened → c.scan b opened = (vs, opened)

def Silent (t : String) : Prop := t ∉ brackets ∧ namesIn t = []

instance : Decidable (Silent t) := inferInstanceAs (Decidable (_ ∧ _))

theorem Refers.names (h : Refers b c us) : Alike (c.names b) us := by
  obtain ⟨vs, same, scanned⟩ := h
  rw [Code.names, scanned [] rfl]
  exact same

theorem Refers.alike (h : Refers b c us) (same : Alike us vs) : Refers b c vs := by
  obtain ⟨ws, found, scanned⟩ := h
  exact ⟨ws, found.trans same, scanned⟩

theorem refersAppend (h : Refers b c us) (h' : Refers b d vs) : Refers b (c ++ d) (us ++ vs) := by
  obtain ⟨ws, found, scanned⟩ := h
  obtain ⟨ws', found', scanned'⟩ := h'
  refine ⟨ws ++ ws', alikeAppend found found', fun opened code => ?_⟩
  show ((c.scan b opened).1 ++ (d.scan b (c.scan b opened).2).1, (d.scan b (c.scan b opened).2).2) = _
  rw [scanned opened code, scanned' opened code]

theorem refersText (plain : t ∉ brackets) : Refers b (.text t) ((namesIn t).map (·, b)) := by
  refine ⟨_, alikeRefl, fun opened code => ?_⟩
  have other : t ≠ "\x60" ∧ t ≠ "\x7b" ∧ t ≠ "\x7d" ∧ t ≠ "." := by simpa [brackets] using plain
  rw [Code.scan]
  unfold scanText
  split
  · cases code
  · cases code
  · rw [if_neg other.1, if_neg other.2.1, if_neg other.2.2.1, if_neg other.2.2.2]

theorem refersSilent (h : Silent t) : Refers b (.text t) [] := by
  have none := @refersText t b h.1
  rwa [h.2] at none

theorem refersBehind (h : Refers b c us) (silent : Silent t) : Refers b (c ++ Code.text t) us := by
  have both := refersAppend h (refersSilent (b := b) silent)
  rwa [List.append_nil] at both

theorem refersFront (silent : Silent t) (h : Refers b c us) : Refers b (Code.text t ++ c) us :=
  refersAppend (refersSilent silent) h

theorem refersSpaced (h : Refers b c us) (silent : Silent t) (h' : Refers b d vs) :
    Refers b (c ++ ((Code.text " ") ++ Code.text t ++ Code.text " ") ++ d) (us ++ vs) := by
  have sign : Refers b ((Code.text " ") ++ Code.text t ++ Code.text " ") [] :=
    refersBehind (refersFront (by decide) (refersSilent silent)) (by decide)
  have both := refersAppend h sign
  rw [List.append_nil] at both
  exact refersAppend both h'

theorem refersBetween (h : Refers b c us) (silent : Silent t) (h' : Refers b d vs) :
    Refers b (c ++ Code.text t ++ d) (us ++ vs) := refersAppend (refersBehind h silent) h'

end Texts

inductive RefersAll : Binders → List Code → List Use → Prop where
  | nil {b} : RefersAll b [] []
  | cons {b c codes us vs} (head : Refers b c us) (tail : RefersAll b codes vs) : RefersAll b (c :: codes) (us ++ vs)

section Parts

variable {b : Binders} {us vs : List Use} {c d : Code} {codes : List Code}

theorem RefersAll.groups (h : RefersAll b codes us) : RefersAll b (codes.map .group) us := by
  induction h with
  | nil => exact .nil
  | cons head _ ih => exact .cons (refersBehind (refersFront (by decide) head) (by decide)) ih

theorem refersConcat (h : RefersAll b codes us) : Refers b (.concat codes) us := by
  induction h with
  | nil => exact refersSilent (by decide)
  | cons head _ ih => exact refersAppend head ih

theorem refersSeparated {sep : String} (silent : Silent sep) (h : RefersAll b codes us) :
    Refers b (.separated sep codes) us := by
  induction h with
  | nil => exact refersSilent (by decide)
  | @cons c codes us vs head tail ih =>
    cases tail with
    | nil => rwa [List.append_nil]
    | cons _ _ => exact refersBetween head silent ih

theorem refersGroup (h : Refers b c us) : Refers b c.group us :=
  refersBehind (refersFront (by decide) h) (by decide)

theorem refersArguments (h : RefersAll b codes us) : Refers b (.arguments codes) us :=
  refersGroup (refersSeparated (by decide) h)

theorem refersWrapped {e : Expr} (h : Refers b c us) : Refers b (wrapped e c) us := by
  unfold wrapped
  split
  · exact refersGroup h
  · exact h

theorem refersBody {body : Expr} (h : Refers b c us) : Refers b (arrowBody body c) us := by
  unfold arrowBody
  split
  · exact refersGroup h
  · exact h

theorem refersArrow {params : List String} {listed : Bool} (h : Refers (params :: b) c us) :
    Refers b (.arrow params listed c) us := h

theorem refersFilters {names : List String} {listed : Bool} (h : RefersAll (names :: b) codes us) :
    RefersAll b (codes.map fun c => (Code.text ".filter(") ++ .arrow names listed c ++ Code.text ")") us := by
  generalize around : names :: b = inner at h
  induction h with
  | nil => exact .nil
  | cons head _ ih =>
    subst around
    exact .cons (refersBehind (refersFront (by decide) (refersArrow head)) (by decide)) ih

theorem refersVariable {id shown : String} : Refers b (.variable id shown) ((standing shown).map (·, b)) :=
  ⟨_, alikeRefl, fun _ _ => rfl⟩

theorem refersField {name : String} (h : Refers b c us) : Refers b (c ++ ((Code.text ".") ++ Code.text name)) us := by
  obtain ⟨vs, found, scanned⟩ := h
  refine ⟨vs ++ [], (alikeAppend found alikeRefl).trans (by rw [List.append_nil]; exact alikeRefl), fun opened code => ?_⟩
  have member : (Code.text "." ++ Code.text name).scan b opened = ([], opened) := by
    cases opened with
    | nil => rfl
    | cons o rest =>
      cases o with
      | brace => rfl
      | literal => cases code
      | member => cases code
  show ((c.scan b opened).1 ++ (Code.scan b (c.scan b opened).2 _).1, (Code.scan b (c.scan b opened).2 _).2) = _
  rw [scanned opened code, member]

end Parts

section Numbers

variable {cs ds rest : List Char} {joined : Bool}

theorem namesNone (h : ∀ c ∈ cs, startsWord c = false) : namesAfter joined cs = [] := by
  induction cs generalizing joined with
  | nil => rfl
  | cons c rest ih =>
    obtain ⟨here, later⟩ := List.forall_mem_cons.mp h
    rw [namesAfter, here, Bool.and_false, if_neg Bool.false_ne_true, List.nil_append]
    exact ih later

theorem digitStarts {c : Char} (h : c.isDigit) : startsWord c = false := by
  cases starts : startsWord c with
  | false => rfl
  | true => exact absurd h (by rw [(notDigitOfStarts starts).2]; exact Bool.false_ne_true)

theorem decimalStarts {c : Char} (h : c.isDigit ∨ c = '.') : startsWord c = false := by
  rcases h with digit | rfl
  · exact digitStarts digit
  · decide

theorem namesDecimals (h : Decimals ds) : namesAfter true (ds ++ rest) = namesAfter true rest := by
  induction ds with
  | nil => rfl
  | cons c ds ih =>
    obtain ⟨here, later⟩ := List.forall_mem_cons.mp h
    have kept : (inWord c || c == '.') = true := by
      rcases here with digit | rfl
      · rw [digitInWord digit, Bool.true_or]
      · decide
    rw [List.cons_append, namesAfter, kept]
    exact ih later

theorem namesNumeral (h : Numeral cs) : namesAfter joined cs = [] := by
  cases h with
  | decimals _ digits => exact namesNone fun c mem => decimalStarts (digits c mem)
  | @exponent c more sign size digit tail signed power =>
    have marked : startsWord sign = false := by
      rcases signed with rfl | rfl <;> decide
    rw [List.cons_append, namesAfter, digitStarts digit, digitInWord digit, Bool.true_or, namesDecimals tail,
      namesAfter, namesAfter, marked]
    simp only [Bool.and_false, Bool.not_true, Bool.false_and, Bool.false_eq_true, if_false, List.nil_append]
    exact namesNone fun c mem => decimalStarts (power c mem)

theorem silentNumeral {t : String} {negative : Bool} (h : Numeral cs)
    (written : t.toList = (if negative then ['-'] else []) ++ cs) : Silent t := by
  obtain ⟨c, front, digit⟩ : ∃ c, t.toList.head? = some c ∧ (c = '-' ∨ c.isDigit) := by
    obtain ⟨c, more, rfl, digit⟩ := h.first
    cases negative with
    | false => exact ⟨c, by rw [written]; rfl, .inr digit⟩
    | true => exact ⟨'-', by rw [written]; rfl, .inl rfl⟩
  have none : namesAfter false t.toList = [] := by
    rw [written]
    cases negative with
    | false => exact namesNumeral h
    | true => exact (show namesAfter false ('-' :: cs) = namesAfter false cs from rfl).trans (namesNumeral h)
  constructor
  · intro special
    have apart : ∀ t ∈ brackets, t.toList.head?.all (fun c => c != '-' && !c.isDigit) := by decide
    have other := apart t special
    rw [front] at other
    rcases digit with rfl | digit
    · cases other
    · simp [digit] at other
  · rw [namesIn, none]
    split <;> rfl

end Numbers

section Leaves

variable {s : Scope} {b : Binders} {c l r part : Code} {e left right : Expr} {us vs : List Use}

theorem refersConstant {k : Constant} (h : constantCode k = .ok c) : Refers b c (uses s b (.constant k)) := by
  unfold constantCode at h
  split at h <;> cases h
  · exact refersSilent (t := "null") (by decide)
  · next truth =>
    cases truth with
    | false => exact refersSilent (by decide)
    | true => exact refersSilent (by decide)
  · next text marked =>
    have front : (jsString text).toList.head? = some '"' := by
      rw [jsString, String.toList_ofList, guardedHead]
      rfl
    refine refersSilent ⟨fun special => ?_, if_pos (.inl front)⟩
    have apart : ∀ t ∈ brackets, t.toList.head? ≠ some '"' := by decide
    exact apart _ special front
  · exact refersSilent (@silentNumeral _ _ false numeralWhole rfl)
  · next negative =>
    cases negative with
    | false => exact refersText (t := "Infinity") (by decide)
    | true => exact refersText (t := "-Infinity") (by decide)
  · exact refersText (t := "NaN") (by decide)
  · next x finite defined =>
    cases x with
    | undefined => exact absurd rfl defined
    | infinite negative => exact absurd rfl (finite negative)
    | finite negative m e =>
      obtain ⟨cs, numeral, written⟩ := @numeralReal ".0" negative m e (by decide)
      exact refersSilent (silentNumeral numeral written)

theorem refersName {id : String} : Refers b (nameCode s id) (nameUses s b id) := by
  unfold nameCode nameUses
  split
  · exact ⟨[], alikeRefl, fun _ _ => rfl⟩
  · exact refersVariable

theorem usesComponent {object : Expr} (h : isComponent s object) : uses s b object = [] := by
  cases object with
  | name id => exact if_pos h
  | _ => cases h

theorem refersMember {object : Expr} {name shown : String} (h : Refers b c (uses s b object)) :
    Refers b (memberCode s object c name shown) (uses s b object) := by
  unfold memberCode
  split
  · next own =>
    rw [usesComponent own]
    exact ⟨[], alikeRefl, fun _ _ => rfl⟩
  · exact refersField (refersWrapped h)

theorem refersUnwritten {id : String} (h : Refers b c us) : Refers b (.variable id "" ++ c) us :=
  refersAppend (@refersVariable b id "") h

theorem refersMapped {id f : String} (mapping : function? id = some f) :
    Refers b (.variable id f) [(leading f, b)] := by
  have named : standing f = [leading f] := by
    unfold function? at mapping
    split at mapping <;> cases mapping <;> rfl
  have shown := @refersVariable b id f
  rwa [named] at shown

theorem silentOperator {op : BinaryOp} {sign : String} (h : binaryText? op = some sign) : Silent sign := by
  cases op <;> cases h <;> decide

theorem silentCompare {op : CompareOp} : Silent (compareText op) := by
  cases op <;> decide

theorem silentBoolean {op : BooleanOp} : Silent (booleanText op) := by
  cases op <;> decide

theorem silentUnary {op : UnaryOp} : Silent (unaryText op) := by
  cases op <;> decide

theorem usesNull (null : e.isNull) : uses s b e = [] := by
  unfold Expr.isNull at null
  split at null
  · rfl
  · cases null

theorem refersComparison {op : CompareOp} (hl : Refers b l (uses s b left)) (hr : Refers b r (uses s b right))
    (form : ComparisonForm left right l r op part) : Refers b part (uses s b left ++ uses s b right) := by
  cases form with
  | member =>
    exact (refersBehind (refersBetween (refersWrapped hr) (by decide) hl) (by decide)).alike alikeSwap
  | notMember =>
    exact (refersFront (by decide)
      (refersBehind (refersBetween (refersWrapped hr) (by decide) hl) (by decide))).alike alikeSwap
  | nullRight _ null =>
    rw [usesNull null, List.append_nil]
    refine refersBehind (refersWrapped hl) ?_
    split <;> decide
  | nullLeft _ null _ =>
    rw [usesNull null, List.nil_append]
    refine refersBehind (refersWrapped hr) ?_
    split <;> decide
  | between => exact refersSpaced (refersWrapped hl) silentCompare (refersWrapped hr)

end Leaves

section Literals

variable {b : Binders} {us vs : List Use} {c : Code} {codes : List Code}

def Enclosed (b : Binders) (codes : List Code) (us : List Use) : Prop :=
  ∃ vs, Alike vs us ∧ ∀ opened, (Code.concat codes).scan b (.literal :: opened) = (vs, .literal :: opened)

theorem escapedApart {cs : List Char} :
    String.ofList (escapeTemplate cs) ≠ "\x60" ∧ String.ofList (escapeTemplate cs) ≠ "$\x7b" := by
  have written {t : String} (same : String.ofList (escapeTemplate cs) = t) : escapeTemplate cs = t.toList := by
    rw [← same, String.toList_ofList]
  cases cs with
  | nil => exact ⟨by decide, by decide⟩
  | cons c rest =>
    constructor
    · intro same
      have both := written same
      rw [escapedCons, block] at both
      split_ifs at both with special opening closing
      · exact absurd (List.cons.inj both).1 (by decide)
      · exact absurd (List.cons.inj both).1 (by decide)
      · exact absurd (List.cons.inj both).1 (by decide)
      · exact special (.inr (List.cons.inj both).1)
    · intro same
      have both : escapeTemplate (c :: rest) = ['$', '\x7b'] := written same
      rw [escapedCons, block] at both
      split_ifs at both with special opening closing
      · exact absurd (List.cons.inj both).1 (by decide)
      · exact absurd (List.cons.inj both).1 (by decide)
      · exact absurd (List.cons.inj both).1 (by decide)
      · obtain ⟨rfl, more⟩ := List.cons.inj both
        have brace : (escapeTemplate rest ++ []).head? = some '\x7b' := by
          rw [List.append_nil, show escapeTemplate rest = ['\x7b'] from more]
          rfl
        exact opening ⟨rfl, escapedFront (by simp [Beyond]) brace (by decide)⟩

theorem scanEnclosed {o d : String} {entered : Opened} {opened : List Opened}
    (opens : scanText b opened o = ([], entered :: opened))
    (inside : c.scan b (entered :: opened) = (us, entered :: opened))
    (closes : scanText b (entered :: opened) d = ([], opened)) :
    ((Code.text o) ++ c ++ Code.text d).scan b opened = (us, opened) := by
  show (((scanText b opened o).1 ++ (c.scan b (scanText b opened o).2).1) ++
    (scanText b (c.scan b (scanText b opened o).2).2 d).1, (scanText b (c.scan b (scanText b opened o).2).2 d).2) = _
  rw [opens, inside, closes]
  exact congrArg (·, opened) (List.append_nil us)

theorem enclosedText {cs : List Char} (h : Enclosed b codes us) :
    Enclosed b (.text (String.ofList (escapeTemplate cs)) :: codes) us := by
  obtain ⟨vs, same, scanned⟩ := h
  refine ⟨vs, same, fun opened => ?_⟩
  have shown : scanText b (.literal :: opened) (String.ofList (escapeTemplate cs)) = ([], .literal :: opened) := by
    rw [scanText, if_neg escapedApart.1, if_neg escapedApart.2]
  show ((scanText b _ _).1 ++ (Code.scan b (scanText b _ _).2 _).1, (Code.scan b (scanText b _ _).2 _).2) = _
  rw [shown, scanned]
  rfl

theorem enclosedValue (value : Refers b c us) (h : Enclosed b codes vs) :
    Enclosed b (((Code.text "$\x7b") ++ c ++ Code.text "\x7d") :: codes) (us ++ vs) := by
  obtain ⟨ws, found, scanned⟩ := value
  obtain ⟨ws', found', scanned'⟩ := h
  refine ⟨ws ++ ws', alikeAppend found found', fun opened => ?_⟩
  have coding : Coding (.brace :: .literal :: opened) := rfl
  have inside := scanEnclosed (o := "$\x7b") (d := "\x7d") rfl (scanned _ coding) rfl
  show ((Code.scan b _ _).1 ++ (Code.scan b (Code.scan b _ _).2 _).1, (Code.scan b (Code.scan b _ _).2 _).2) = _
  rw [inside, scanned']

theorem refersLiteral (h : Enclosed b codes us) :
    Refers b ((Code.text "\x60") ++ .concat codes ++ Code.text "\x60") us := by
  obtain ⟨vs, same, scanned⟩ := h
  refine ⟨vs, same, fun opened code => scanEnclosed ?_ (scanned opened) rfl⟩
  rcases opened with _ | ⟨_ | _ | _, rest⟩
  · rfl
  · cases code
  · rfl
  · cases code

theorem refersBraces (h : Refers b c us) : Refers b ((Code.text "\x7b") ++ c ++ Code.text "\x7d") us := by
  obtain ⟨vs, same, scanned⟩ := h
  have coding (opened : List Opened) : Coding (.brace :: opened) := rfl
  refine ⟨vs, same, fun opened code => scanEnclosed ?_ (scanned _ (coding opened)) rfl⟩
  rcases opened with _ | ⟨_ | _ | _, rest⟩
  · rfl
  · cases code
  · rfl
  · cases code

end Literals

section Calls

variable {s : Scope} {b : Binders} {id : String} {count : Nat}

theorem usesTag (tag : id = s.tag) : calleeUses s b id count = [("html", b)] := if_pos tag

theorem usesUnwritten (other : id ≠ s.tag) (unwritten : id = "setattr" ∨ id = "len" ∧ count = 1) :
    calleeUses s b id count = [] := by
  rw [calleeUses, if_neg other, if_pos unwritten]

theorem usesMapped {f : String} (other : id ≠ s.tag) (mapping : function? id = some f) :
    calleeUses s b id count = [(leading f, b)] := by
  have free : ¬(id = "setattr" ∨ id = "len" ∧ count = 1) := by
    rintro (rfl | ⟨rfl, _⟩) <;> cases mapping
  rw [calleeUses, if_neg other, if_neg free, mapping]

theorem usesNamed (other : id ≠ s.tag ∧ id ≠ "setattr") (unmapped : function? id = none)
    (measured : id = "len" → count ≠ 1) : calleeUses s b id count = nameUses s b id := by
  have free : ¬(id = "setattr" ∨ id = "len" ∧ count = 1) := by
    rintro (same | ⟨same, one⟩)
    · exact other.2 same
    · exact measured same one
  rw [calleeUses, if_neg other.1, if_neg free, unmapped]

theorem usesApplied {line : Nat} {func : Expr} {args : List Expr} (computed : ∀ id, func ≠ .name id)
    (free : ∀ object name, func ≠ .field object name) :
    uses s b (.call line func args []) = uses s b func ++ usesAll s b args := by
  rw [uses]
  · exact computed
  · exact free

theorem usesText {e : Expr} (text : e.text?.isSome) : uses s b e = [] := by
  unfold Expr.text? at text
  split at text
  · rfl
  · cases text

end Calls

section Expressions

mutual

theorem refersOf {s e c} {b : Binders} : Prints s e c → Refers b c (uses s b e)
  | .constant form => refersConstant form
  | .name => refersName
  | .field object => refersMember (refersOf object)
  | .starred inner => by
    rw [uses]
    exact refersFront (by decide) (refersWrapped (refersOf inner))
  | @Prints.template _ _ id _ _ tag values => by
    rw [uses, usesTag tag]
    exact refersAppend (@refersVariable b id "html") (refersArguments (refersArgs values))
  | .assignment other written literal _ assigned => by
    have silent := @usesText s b _ (Option.isSome_iff_exists.mpr ⟨_, literal⟩)
    rw [uses, usesUnwritten other (.inl rfl), usesAll, usesAll, usesAll, usesAll, silent, List.append_nil,
      List.nil_append]
    exact refersBetween (refersUnwritten (refersMember (refersOf written))) (by decide) (refersOf assigned)
  | .length other object => by
    rw [uses, List.length_singleton, usesUnwritten other (.inr ⟨rfl, rfl⟩), usesAll, usesAll, List.append_nil]
    exact refersBehind (refersUnwritten (refersWrapped (refersOf object))) (by decide)
  | .mapped other mapping values => by
    rw [uses, usesMapped other mapping]
    exact refersAppend (refersMapped mapping) (refersArguments (refersArgs values))
  | .named other unmapped measured values => by
    rw [uses, usesNamed other unmapped measured]
    exact refersAppend refersName (refersArguments (refersArgs values))
  | .templateMethod tag values => by
    rw [uses, if_pos tag]
    exact refersAppend (refersText (t := "html") (by decide)) (refersArguments (refersArgs values))
  | .joinedBy other separator items => by
    rw [uses, if_neg other, usesAll, usesAll, List.append_nil]
    exact (refersAppend (refersBehind (refersWrapped (refersOf items)) (by decide))
      (refersGroup (refersOf separator))).alike alikeSwap
  | .method other _ base values => by
    rw [uses, if_neg other]
    exact refersAppend (refersMember (refersOf base)) (refersArguments (refersArgs values))
  | .applied computed free callee values => by
    rw [usesApplied computed free]
    exact refersAppend (refersWrapped (refersOf callee)) (refersArguments (refersArgs values))
  | .floorDiv first second => by
    rw [uses, if_pos rfl]
    rw [← List.append_assoc]
    exact refersBehind (refersBetween (refersAppend (refersText (t := "Math.floor(") (by decide))
      (refersWrapped (refersOf first))) (by decide) (refersWrapped (refersOf second))) (by decide)
  | @Prints.binary _ _ op _ _ _ _ first second operator => by
    have other : op ≠ .floorDiv := by
      rintro rfl
      cases operator
    rw [uses, if_neg other, List.nil_append]
    exact refersSpaced (refersWrapped (refersOf first)) (silentOperator operator) (refersWrapped (refersOf second))
  | .unary inner => by
    rw [uses]
    exact refersFront silentUnary (refersWrapped (refersOf inner))
  | .boolean all => refersSeparated silentBoolean (refersOperands all)
  | .comparison first second form => by
    rw [uses, usesComparisons, usesComparisons, List.append_nil]
    exact refersComparison (refersOf first) (refersOf second) form
  | .chain _ all => refersSeparated (by decide) (refersChain all).groups
  | .conditional first second third =>
    refersBetween (refersBetween (refersWrapped (refersOf first)) (by decide) (refersWrapped (refersOf second)))
      (by decide) (refersWrapped (refersOf third))
  | .slice object low high => by
    rw [uses, uses, usesOption, ← List.append_assoc]
    exact refersBehind (refersBetween (refersBetween (refersWrapped (refersOf object)) (by decide) (refersBound low))
      (by decide) (refersOf high)) (by decide)
  | .sliceRest object low => by
    rw [uses, uses, usesOption, List.append_nil]
    exact refersBehind (refersBetween (refersWrapped (refersOf object)) (by decide) (refersBound low)) (by decide)
  | .fromEnd _ object inner =>
    refersBehind (refersBetween (refersWrapped (refersOf object)) (by decide) (refersOf inner)) (by decide)
  | .subscript _ object inner =>
    refersBehind (refersBetween (refersWrapped (refersOf object)) (by decide) (refersOf inner)) (by decide)
  | .list all | .tuple all =>
    refersBehind (refersFront (by decide) (refersSeparated (by decide) (refersArgs all))) (by decide)
  | .dict all => refersBraces (refersSeparated (by decide) (refersEntries all))
  | .joined all => refersLiteral (refersParts all)
  | .lambda _ inner => refersArrow (refersBody (refersOf inner))
  | .listComp all => refersComprehension all
  | .generator all => refersComprehension all
  | .assigned inner => refersBetween refersName (by decide) (refersOf inner)

theorem refersArgs {s es codes} {b : Binders} : PrintsAll s es codes → RefersAll b codes (usesAll s b es)
  | .nil => .nil
  | .cons head tail => .cons (refersOf head) (refersArgs tail)

theorem refersOperands {s es codes} {b : Binders} : PrintsOperands s es codes → RefersAll b codes (usesAll s b es)
  | .nil => .nil
  | .cons head tail => .cons (refersWrapped (refersOf head)) (refersOperands tail)

theorem refersBound {s bound c} {b : Binders} : PrintsBound s bound c → Refers b c (usesOption s b bound)
  | .none => refersSilent (by decide)
  | .some inner => refersOf inner

theorem refersChain {s left rest parts} {b : Binders} : PrintsChain s left rest parts →
    RefersAll b parts (usesComparisons s b (uses s b left) rest)
  | .nil => .nil
  | .cons first second form tail => .cons (refersComparison (refersOf first) (refersOf second) form) (refersChain tail)

theorem refersEntries {s entries codes} {b : Binders} : PrintsEntries s entries codes →
    RefersAll b codes (usesEntries s b entries)
  | .nil => .nil
  | .spread head tail => .cons (refersFront (by decide) (refersWrapped (refersOf head))) (refersEntries tail)
  | .literal _ name head tail => .cons (refersBetween (refersOf name) (by decide) (refersOf head)) (refersEntries tail)
  | .computed _ name head tail =>
    .cons (refersBetween (refersBehind (refersFront (by decide) (refersOf name)) (by decide)) (by decide) (refersOf head))
      (refersEntries tail)

theorem refersParts {s parts codes} {b : Binders} : PrintsParts s parts codes → Enclosed b codes (usesAll s b parts)
  | .nil => ⟨[], alikeRefl, fun _ => rfl⟩
  | .text tail => by
    rw [usesAll, uses, List.nil_append]
    · exact enclosedText (refersParts tail)
    all_goals simp
  | .formatted head tail => by
    rw [usesAll, uses]
    exact enclosedValue (refersOf head) (refersParts tail)

theorem refersComprehension {s item clauses c} {b : Binders} : PrintsComprehension s item clauses c →
    Refers b c (usesSource s b clauses ++
      usesConditions (s.bind (boundNames clauses)) (boundNames clauses :: b) clauses ++
      uses (s.bind (boundNames clauses)) (boundNames clauses :: b) item)
  | @PrintsComprehension.mk _ _ _ _ _ listed names _ _ _ binder outer guards element => by
    have filters := refersConcat (@refersFilters _ _ _ names listed (refersArgs (b := names :: b) guards))
    have result := refersOf (b := names :: b) element
    rw [usesSource, usesConditions]
    simp only [boundNames, List.append_nil, targetNames binder]
    exact refersBehind (refersBetween (refersAppend (refersWrapped (refersOf outer)) filters) (by decide)
      (refersArrow result)) (by decide)

end

end Expressions

end LiveMarkup.Client
