import LiveMarkup.Proofs.Client.Outline
/-! Printed code closes what it opens. Inside another expression it stands in parentheses or has no operator
outside of its brackets and texts, unless it ends in an assignment to a field or starts with a negative
number. -/
namespace LiveMarkup.Client
open Syntax Text Outline

section Spelling

def Code.chars (front : List Char) : Code → List Char
  | text s => s.toList
  | access _ shown => front ++ shown.toList
  | component => "this".toList
  | «variable» _ shown => shown.toList
  | arrow params listed body => (paramsText params listed).toList ++ " => ".toList ++ body.chars front
  | join first second => first.chars front ++ second.chars front

variable {front : List Char} {a b c : Code}

theorem charsAppend : (a ++ b).chars front = a.chars front ++ b.chars front := rfl

theorem charsText {s : String} : (Code.text s).chars front = s.toList := rfl

theorem charsWrite : c.chars Mark.receiver = c.write.toList := by
  induction c with
  | access field shown => simp [Code.chars, Code.write, Mark.receiver]
  | arrow params listed body ih => simp [Code.chars, Code.write, ih]
  | join first second ih₁ ih₂ => simp [Code.chars, Code.write, ih₁, ih₂]
  | _ => rfl

theorem charsBare : c.chars [] = c.writeBare.toList := by
  induction c with
  | arrow params listed body ih => simp [Code.chars, Code.writeBare, ih]
  | join first second ih₁ ih₂ => simp [Code.chars, Code.writeBare, ih₁, ih₂]
  | _ => rfl

theorem followsReceiver : Follows Mark.receiver := followsWords (by decide)

theorem followsNothing : Follows [] := followsWords (by decide)

end Spelling

section Expressions

def startsText : List Expr → Bool
  | [] => false
  | e :: _ => e.text?.isSome

def textsApart : List Expr → Bool
  | [] => true
  | e :: rest => !(e.text?.isSome && startsText rest) && textsApart rest

mutual

/-- Is the expression one that can be read? Its names are identifiers, and no two texts of a formatted text
stand next to each other. What has no client form is left open. -/
def formed : Expr → Bool
  | .name id => isName id.toList
  | .field base name => formed base && isName name.toList
  | .starred value => formed value
  | .call _ func args _ => formed func && formedAll args
  | .unary _ operand => formed operand
  | .binary left _ right => formed left && formed right
  | .boolean _ operands => formedAll operands
  | .compare left rest => formed left && formedComparisons rest
  | .conditional test body orelse => formed test && formed body && formed orelse
  | .subscript base index => formed base && formed index
  | .slice lower upper _ => formedOption lower && formedOption upper
  | .list items => formedAll items
  | .tuple items => formedAll items
  | .dict entries => formedEntries entries
  | .listComp item clauses => formed item && formedClauses clauses
  | .generator item clauses => formed item && formedClauses clauses
  | .lambda params body => params.names.all (isName ·.toList) && formed body
  | .joined parts => formedAll parts && textsApart parts
  | .formatted value _ _ => formed value
  | .assigned target value => isName target.toList && formed value
  | _ => true

def formedAll : List Expr → Bool
  | [] => true
  | e :: rest => formed e && formedAll rest

def formedOption : Option Expr → Bool
  | none => true
  | some e => formed e

def formedComparisons : List Comparison → Bool
  | [] => true
  | .mk _ right :: rest => formed right && formedComparisons rest

def formedEntries : List Entry → Bool
  | [] => true
  | .spread value :: rest => formed value && formedEntries rest
  | .pair key value :: rest => formed key && formed value && formedEntries rest

def formedClauses : List Clause → Bool
  | [] => true
  | .mk _ target iter conditions :: rest =>
    formed target && formed iter && formedAll conditions && formedClauses rest

end

mutual

/-- Does the text of the expression inside another one have an operator outside of its brackets? It ends in an
assignment, or it goes on from such a text. -/
def exposed (s : Scope) : Expr → Bool
  | .constant (.real (.finite negative _ _)) => negative
  | .constant (.real (.infinite negative)) => negative
  | .field base _ => exposed s base
  | .starred value => exposed s value
  | .call _ (.name id) args _ =>
    if id = s.tag then false
    else if id = "setattr" then true
    else if id = "len" then exposedOnly s args
    else false
  | .call _ (.field object name) args _ =>
    if name = s.tag then false
    else if name = "join" ∧ args.length = 1 then exposedOnly s args
    else exposed s object
  | .call _ func _ _ => exposed s func
  | .subscript base _ => exposed s base
  | .listComp _ clauses => exposedSource s clauses
  | .generator _ clauses => exposedSource s clauses
  | _ => false

def exposedOnly (s : Scope) : List Expr → Bool
  | [e] => exposed s e
  | _ => false

def exposedSource (s : Scope) : List Clause → Bool
  | .mk _ _ iter _ :: _ => exposed s iter
  | [] => false

end

theorem exposedCompound {s : Scope} {e : Expr} (h : e.isCompound) : exposed s e = false := by
  cases e <;> first | rfl | cases h

theorem exposedApplied {s : Scope} {line : Nat} {func : Expr} {args : List Expr} {keywords : List Keyword}
    (computed : ∀ id, func ≠ .name id) (free : ∀ object name, func ≠ .field object name) :
    exposed s (.call line func args keywords) = exposed s func := by
  rw [exposed]
  · exact computed
  · exact free

end Expressions

section Pieces

variable {front : List Char} {a b c : Code} {codes : List Code} {x y z : Bool}

def Balanced (front : List Char) (c : Code) : Prop := ∃ l, Reads (c.chars front) l

theorem readsBehind (h : Reads (a.chars front) x) (behind : Follows (b.chars front)) :
    Reads ((a ++ b).chars front) x := readsFollowed h behind

theorem readsBetween {t : Code} (first : Reads (a.chars front) x) (between : Parts (t.chars front) z)
    (second : Reads (b.chars front) y) : Reads ((a ++ t ++ b).chars front) (x || z || y) :=
  readsParted first between second

theorem balancedBetween {t : Code} (first : Balanced front a) (between : Parts (t.chars front) z)
    (second : Balanced front b) : Balanced front (a ++ t ++ b) :=
  first.elim fun _ first => second.elim fun _ second => ⟨_, readsBetween first between second⟩

def Encloses (o d : String) : Prop :=
  ∃ closing, Enters o.toList closing ∧ d.toList = [closing] ∧ (closing = ')' ∨ closing = ']' ∨ closing = '\x7d')

theorem followsEnclosed {o d : String} (brackets : Encloses o d) (h : Balanced front c) :
    Follows ((Code.text o ++ c ++ Code.text d).chars front) := by
  obtain ⟨closing, opens, same, closes⟩ := brackets
  obtain ⟨l, inner⟩ := h
  have closed := followsClosed opens closes inner
  rwa [← same] at closed

theorem readsEnclosed {o d : String} (h : Reads (a.chars front) x) (brackets : Encloses o d)
    (inner : Balanced front b) : Reads ((a ++ Code.text o ++ b ++ Code.text d).chars front) x := by
  have behind := readsFollowed h (followsEnclosed brackets inner)
  simpa only [charsAppend, List.append_assoc] using behind

theorem enclosesBracket {o d : String} {closing : Char} (opens : o.toList.length = 1)
    (same : o.toList.head?.bind closing? = some closing) (closes : d.toList = [closing]) : Encloses o d := by
  obtain ⟨c, single⟩ := List.length_eq_one_iff.mp opens
  rw [single] at same
  refine ⟨closing, single ▸ entersBracket same, closes, ?_⟩
  simp only [List.head?_cons, Option.bind_some, closing?] at same
  split_ifs at same
  all_goals
    obtain rfl := Option.some.inj same
    simp

theorem enclosesCall {o : String} (name : List Char) (named : isName name) (same : o.toList = '.' :: name ++ ['(']) :
    Encloses o ")" :=
  ⟨')', same ▸ entersBehind (followsMember (followsName named)) (entersBracket rfl), rfl, .inl rfl⟩

theorem followsGroup (h : Balanced front c) : Follows (c.group.chars front) :=
  followsEnclosed (enclosesBracket rfl rfl rfl) h

theorem balancedSeparated {sep : String} (parts : Parts sep.toList z) (h : ∀ c ∈ codes, Balanced front c) :
    Balanced front (.separated sep codes) := by
  fun_induction Code.separated sep codes with
  | case1 => exact ⟨false, readsNothing⟩
  | case2 c => exact h c List.mem_cons_self
  | case3 c rest _ ih =>
    obtain ⟨first, tail⟩ := List.forall_mem_cons.mp h
    exact balancedBetween first parts (ih tail)

theorem followsArguments (h : ∀ c ∈ codes, Balanced front c) : Follows ((Code.arguments codes).chars front) :=
  followsGroup (balancedSeparated partsComma h)

theorem partsText {s : String} (signs : List Char)
    (h : s.toList = ' ' :: signs ++ [' '] ∧ signs ≠ [] ∧ Signs signs) : Parts s.toList true := by
  rw [h.1]
  exact partsSigns h.2.2 h.2.1

theorem readsCommas {params : List String} (named : ∀ p ∈ params, isName p.toList) :
    Reads (commas params).toList false := by
  match params with
  | [] => exact readsNothing
  | [p] =>
    rw [commas, String.intercalate_singleton]
    exact followsAlone (followsName (named p List.mem_cons_self))
  | p :: q :: rest =>
    obtain ⟨first, tail⟩ := List.forall_mem_cons.mp named
    rw [commas, String.intercalate_cons_cons, String.toList_append, String.toList_append]
    exact readsParted (followsAlone (followsName first)) partsComma (readsCommas tail)

theorem followsParams {params : List String} {listed : Bool} (named : ∀ p ∈ params, isName p.toList) :
    Follows (Code.paramsText params listed).toList := by
  have inner : Balanced [] (.text (if listed then "[" ++ commas params ++ "]" else commas params)) := by
    split
    · refine ⟨false, ?_⟩
      simp only [charsText, String.toList_append]
      exact followsAlone (followsClosed (entersBracket rfl) (.inr (.inl rfl)) (readsCommas named))
    · exact ⟨false, readsCommas named⟩
  have closed := followsGroup inner
  simpa [Code.paramsText, parens, Code.group, charsAppend, charsText] using closed

theorem balancedArrow {params : List String} {listed : Bool} (named : ∀ p ∈ params, isName p.toList)
    (body : Balanced front c) : Balanced front (.arrow params listed c) :=
  body.elim fun _ body =>
    ⟨_, readsParted (followsAlone (followsParams named)) (partsText ['=', '>'] (by decide)) body⟩

end Pieces

section Outlined

variable {front : List Char} {s : Scope} {e : Expr} {c : Code}

def Outlined (front : List Char) (s : Scope) (e : Expr) (c : Code) : Prop :=
  ∃ l, Reads (c.chars front) l ∧ (e.isCompound = false → l = exposed s e)

theorem outlinedCompound (compound : e.isCompound) (h : Balanced front c) : Outlined front s e c :=
  h.elim fun l h => ⟨l, h, fun simple => absurd compound (by simp [simple])⟩

theorem outlinedSimple (h : Reads (c.chars front) (exposed s e)) : Outlined front s e c := ⟨_, h, fun _ => rfl⟩

theorem Outlined.balanced (h : Outlined front s e c) : Balanced front c := h.imp fun _ h => h.1

theorem readsWrapped (h : Outlined front s e c) : Reads ((wrapped e c).chars front) (exposed s e) := by
  unfold wrapped
  split
  · next compound =>
    rw [exposedCompound compound]
    exact followsAlone (followsGroup h.balanced)
  · next simple =>
    obtain ⟨l, reads, exact⟩ := h
    exact exact (by simpa using simple) ▸ reads

theorem readsWords {t : String} (h : Wordy t.toList) :
    Reads ((Code.text t).chars front) false := followsAlone (followsWords h)

theorem readsConstant {k : Constant} (h : constantCode k = .ok c) :
    Reads (c.chars front) (exposed s (.constant k)) := by
  unfold constantCode at h
  split at h <;> cases h
  · exact @readsWords front "null" (by decide)
  · next b => cases b <;> exact readsWords (by decide)
  · exact readsQuoted
  · exact followsAlone (Decimals.follows (decimalsOf digitsWritten))
  · next negative =>
    cases negative with
    | false => exact @readsWords front "Infinity" (by decide)
    | true => exact readsLed (leadsSigns (a := ['-']) (by decide)) (@readsWords front "Infinity" (by decide))
  · exact @readsWords front "NaN" (by decide)
  · next x finite defined =>
    cases x with
    | undefined => exact absurd rfl defined
    | infinite negative => exact absurd rfl (finite negative)
    | finite negative m e => exact readsReal (by decide)

theorem followsSpelled {id : String} (named : isName id.toList) : Follows (spelled id).toList := by
  unfold spelled
  split
  · exact followsWords (by decide)
  · exact followsName named

theorem followsNamed {id : String} (named : isName id.toList) : Follows ((nameCode s id).chars front) := by
  unfold nameCode
  split
  · exact followsWords (a := "this".toList) (by decide)
  · exact followsSpelled named

theorem readsMember {object : Expr} {name shown : String} (receiver : Follows front) (named : Follows shown.toList)
    (h : Outlined front s object c) : Reads ((memberCode s object c name shown).chars front) (exposed s object) := by
  unfold memberCode
  split
  · next own =>
    have plain : exposed s object = false := by
      cases object with
      | name id => rfl
      | _ => cases own
    rw [plain]
    exact followsAlone (followsAppend receiver named)
  · exact readsBehind (readsWrapped h) (followsMember named)

theorem followsMethod {name : String} (named : isName name.toList) : Follows (method name).toList := by
  unfold method
  split
  case h_9 => exact followsName named
  all_goals exact followsWords (by decide)

theorem followsFunction {id f : String} (h : function? id = some f) : Follows f.toList := by
  unfold function? at h
  split at h
  case h_10 => cases h
  all_goals
    obtain rfl := Option.some.inj h
    exact followsWords (by decide)

theorem partsOperator {op : BinaryOp} {sign : String} (h : binaryText? op = some sign) :
    Parts ((Code.text " " ++ Code.text sign ++ Code.text " ").chars front) true := by
  by_cases division : op = .div
  · subst division
    obtain rfl := Option.some.inj h
    exact partsDivision
  · have spaced : ∃ signs, sign.toList = signs ∧ signs ≠ [] ∧ Signs signs := by
      cases op
      case div => contradiction
      all_goals
        first
        | cases h
          exact ⟨_, rfl, by decide⟩
        | cases h
    obtain ⟨signs, same, filled, all⟩ := spaced
    simp only [charsAppend, charsText, same]
    exact partsSigns all filled

theorem partsBoolean {op : BooleanOp} : Parts (booleanText op).toList true := by
  cases op
  · exact partsText ['&', '&'] (by decide)
  · exact partsText ['|', '|'] (by decide)

theorem partsCompare {op : CompareOp} :
    Parts ((Code.text " " ++ Code.text (compareText op) ++ Code.text " ").chars front) true := by
  have spaced : (compareText op).toList ≠ [] ∧ Signs (compareText op).toList := by
    cases op <;> decide
  simp only [charsAppend, charsText]
  exact partsSigns spaced.2 spaced.1

end Outlined

section Induction

theorem balancedBody {front : List Char} {body : Expr} {c : Code} (h : Balanced front c) :
    Balanced front (arrowBody body c) := by
  unfold arrowBody
  split
  · exact ⟨false, followsAlone (followsGroup h)⟩
  · exact h

variable {front : List Char} {s : Scope}

theorem balancedComparison {left right : Expr} {l r part : Code} {op : CompareOp} (hl : Outlined front s left l)
    (hr : Outlined front s right r) (form : ComparisonForm left right l r op part) : Balanced front part := by
  have contained : Reads ((wrapped right r ++ Code.text ".includes(" ++ l ++ Code.text ")").chars front)
      (exposed s right) :=
    readsEnclosed (readsWrapped hr) (enclosesCall "includes".toList (by decide) rfl) hl.balanced
  have missing {c : Code} {x : Bool} {op : CompareOp} (h : Reads (c.chars front) x) :
      Balanced front (c ++ Code.text (if op = .notSame then " != null" else " == null")) := by
    have null {op : List Char} (signs : Signs op) (filled : op ≠ []) :
        Reads (c.chars front ++ (' ' :: op ++ [' ']) ++ "null".toList) (x || true || false) :=
      readsParted h (partsSigns signs filled) (followsAlone (followsWords (by decide)))
    split
    · exact ⟨_, by simpa [charsAppend, charsText] using @null ['!', '='] (by decide) (by decide)⟩
    · exact ⟨_, by simpa [charsAppend, charsText] using @null ['=', '='] (by decide) (by decide)⟩
  cases form with
  | member => exact ⟨_, contained⟩
  | notMember => exact ⟨_, readsLed (leadsSigns (a := ['!']) (by decide)) contained⟩
  | nullRight => exact missing (readsWrapped hl)
  | nullLeft => exact missing (readsWrapped hr)
  | between => exact ⟨_, readsBetween (readsWrapped hl) partsCompare (readsWrapped hr)⟩

theorem readsVariable {id t : String} (h : Follows t.toList) : Reads ((Code.variable id t).chars front) false :=
  followsAlone h

theorem readsUnwritten {id : String} {c : Code} {x : Bool} (h : Reads (c.chars front) x) :
    Reads ((Code.variable id "" ++ c).chars front) x := h

theorem partsEquals : Parts " = ".toList true := partsText ['='] (by decide)

theorem readsAssigned {id : String} {target value : Code} {x : Bool} (h : Reads (target.chars front) x)
    (assigned : Balanced front value) :
    Reads ((Code.variable id "" ++ target ++ Code.text " = " ++ value).chars front) true := by
  obtain ⟨l, assigned⟩ := assigned
  have whole := readsParted h partsEquals assigned
  rwa [Bool.or_true, Bool.true_or] at whole

theorem followsHtml : Follows "html".toList := followsWords (by decide)

theorem readsListed {o d : String} {c : Code} (brackets : Encloses o d) (h : Balanced front c) :
    Reads ((Code.text o ++ c ++ Code.text d).chars front) false :=
  followsAlone (followsEnclosed brackets h)

theorem enclosesSquare : Encloses "[" "]" := enclosesBracket rfl rfl rfl

theorem enclosesFloor : Encloses "Math.floor(" ")" :=
  ⟨')', @entersBehind "Math.floor".toList ['('] ')' (followsWords (by decide)) (entersBracket rfl), rfl, .inl rfl⟩

theorem followsJoin {b : Code} (h : Balanced front b) : Follows ((Code.text ".join" ++ b.group).chars front) :=
  followsAppend (@followsMember "join".toList (followsName (by decide))) (followsGroup h)

theorem exposedPlain {line : Nat} {id : String} {args : List Expr} {keywords : List Keyword} (other : id ≠ s.tag)
    (unassigned : id ≠ "setattr") (measured : id = "len" → args.length ≠ 1) :
    exposed s (.call line (.name id) args keywords) = false := by
  rw [exposed, if_neg other, if_neg unassigned]
  split
  · next length =>
    match args with
    | [] => rfl
    | [e] => exact absurd rfl (measured length)
    | _ :: _ :: _ => rfl
  · rfl

theorem leadsUnary {op : UnaryOp} : Leads (unaryText op).toList true := by
  cases op
  · exact leadsSigns (a := ['!']) (by decide)
  · exact leadsSigns (a := ['-']) (by decide)
  · exact leadsSigns (a := ['+']) (by decide)
  · exact leadsSigns (a := ['~']) (by decide)

theorem enclosesSlice : Encloses ".slice(" ")" := enclosesCall "slice".toList (by decide) rfl

theorem followsConcat {codes : List Code} (h : ∀ c ∈ codes, Follows (c.chars front)) :
    Follows ((Code.concat codes).chars front) := by
  induction codes with
  | nil => exact followsNothing
  | cons c rest ih =>
    obtain ⟨first, tail⟩ := List.forall_mem_cons.mp h
    exact followsAppend first (ih tail)

theorem namesListed {items : List Expr} {names : List String}
    (h : (items.mapM fun | .name id => some id | _ => none) = some names) (ok : formedAll items) :
    ∀ n ∈ names, isName n.toList := by
  induction items generalizing names with
  | nil =>
    cases h
    simp
  | cons e rest ih =>
    obtain ⟨first, tail⟩ := Bool.and_eq_true_iff.mp ok
    rw [List.mapM_cons] at h
    cases e with
    | name id =>
      obtain ⟨_, named, h⟩ := Option.bind_eq_some_iff.mp h
      cases named
      obtain ⟨others, found, h⟩ := Option.bind_eq_some_iff.mp h
      cases h
      exact List.forall_mem_cons.mpr ⟨first, ih found tail⟩
    | _ => cases h

theorem targetNamed {target : Expr} {listed : Bool} {names : List String}
    (h : comprehensionTarget target = .ok (listed, names)) (ok : formed target) : ∀ n ∈ names, isName n.toList := by
  unfold comprehensionTarget at h
  split at h
  · cases h
    exact List.forall_mem_singleton.mpr ok
  · next items =>
    split at h
    · next found =>
      cases h
      exact namesListed found ok
    · cases h
  · cases h

-- The induction is on the printed form. Each case puts pieces together that are known to be read, operands as
-- they are written inside other code.
mutual

theorem outlinedOf (receiver : Follows front) {s e c} : Prints s e c → formed e → Outlined front s e c
  | .constant form, _ => outlinedSimple (readsConstant form)
  | .name, named => outlinedSimple (followsAlone (followsNamed named))
  | .field object, ok => by
    obtain ⟨base, named⟩ := Bool.and_eq_true_iff.mp ok
    exact outlinedSimple (readsMember receiver (followsName named) (outlinedOf receiver object base))
  | .starred inner, ok => outlinedSimple (readsLed leadsDots (readsWrapped (outlinedOf receiver inner ok)))
  | .template tag values, ok => by
    obtain ⟨_, args⟩ := Bool.and_eq_true_iff.mp ok
    refine outlinedSimple ?_
    rw [exposed, if_pos tag]
    exact readsBehind (readsVariable followsHtml) (followsArguments (balancedAll receiver values args))
  | .assignment other written literal identifier assigned, ok => by
    obtain ⟨_, args⟩ := Bool.and_eq_true_iff.mp ok
    simp only [formedAll, Bool.and_true, Bool.and_eq_true] at args
    refine outlinedSimple ?_
    rw [exposed, if_neg other, if_pos rfl]
    exact readsAssigned (readsMember receiver (followsName identifier) (outlinedOf receiver written args.1))
      (outlinedOf receiver assigned args.2.2).balanced
  | .length other object, ok => by
    obtain ⟨_, args⟩ := Bool.and_eq_true_iff.mp ok
    simp only [formedAll, Bool.and_true] at args
    refine outlinedSimple ?_
    rw [exposed, if_neg other, if_neg (by decide), if_pos rfl]
    exact readsBehind (readsUnwritten (readsWrapped (outlinedOf receiver object args)))
      (@followsMember "length".toList (followsName (by decide)))
  | .mapped other mapping values, ok => by
    obtain ⟨_, args⟩ := Bool.and_eq_true_iff.mp ok
    refine outlinedSimple ?_
    rw [exposedPlain other (by rintro rfl; cases mapping) (by rintro rfl; cases mapping)]
    exact readsBehind (readsVariable (followsFunction mapping)) (followsArguments (balancedAll receiver values args))
  | .named other unmapped measured values, ok => by
    obtain ⟨named, args⟩ := Bool.and_eq_true_iff.mp ok
    refine outlinedSimple ?_
    rw [exposedPlain other.1 other.2 measured]
    exact readsBehind (followsAlone (followsNamed named)) (followsArguments (balancedAll receiver values args))
  | .templateMethod tag values, ok => by
    obtain ⟨_, args⟩ := Bool.and_eq_true_iff.mp ok
    refine outlinedSimple ?_
    rw [exposed, if_pos tag]
    exact readsBehind (followsAlone followsHtml) (followsArguments (balancedAll receiver values args))
  | .joinedBy other separator items, ok => by
    obtain ⟨func, args⟩ := Bool.and_eq_true_iff.mp ok
    obtain ⟨base, _⟩ := Bool.and_eq_true_iff.mp func
    simp only [formedAll, Bool.and_true] at args
    refine outlinedSimple ?_
    rw [exposed, if_neg other, if_pos ⟨rfl, rfl⟩]
    have behind := readsBehind (readsWrapped (outlinedOf receiver items args))
      (followsJoin (outlinedOf receiver separator base).balanced)
    simpa only [charsAppend, List.append_assoc, exposedOnly] using behind
  | .method other plain base values, ok => by
    obtain ⟨func, args⟩ := Bool.and_eq_true_iff.mp ok
    obtain ⟨object, named⟩ := Bool.and_eq_true_iff.mp func
    refine outlinedSimple ?_
    rw [exposed, if_neg other, if_neg (fun joined => plain joined.1 joined.2)]
    exact readsBehind (readsMember receiver (followsMethod named) (outlinedOf receiver base object))
      (followsArguments (balancedAll receiver values args))
  | .applied computed free callee values, ok => by
    obtain ⟨func, args⟩ := Bool.and_eq_true_iff.mp ok
    refine outlinedSimple ?_
    rw [exposedApplied computed free]
    exact readsBehind (readsWrapped (outlinedOf receiver callee func))
      (followsArguments (balancedAll receiver values args))
  | .floorDiv first second, ok => by
    obtain ⟨left, right⟩ := Bool.and_eq_true_iff.mp ok
    have quotient := readsBetween (t := .text " / ") (readsWrapped (outlinedOf receiver first left)) partsDivision
      (readsWrapped (outlinedOf receiver second right))
    have whole := readsListed enclosesFloor ⟨_, quotient⟩
    exact outlinedCompound rfl ⟨_, by simpa only [charsAppend, List.append_assoc] using whole⟩
  | .binary first second operator, ok => by
    obtain ⟨left, right⟩ := Bool.and_eq_true_iff.mp ok
    exact outlinedCompound rfl ⟨_, readsBetween (readsWrapped (outlinedOf receiver first left)) (partsOperator operator)
      (readsWrapped (outlinedOf receiver second right))⟩
  | .unary inner, ok => outlinedCompound rfl ⟨_, readsLed leadsUnary (readsWrapped (outlinedOf receiver inner ok))⟩
  | .boolean all, ok => outlinedCompound rfl (balancedSeparated partsBoolean (balancedOperands receiver all ok))
  | .comparison first second form, ok => by
    obtain ⟨left, right⟩ := Bool.and_eq_true_iff.mp ok
    obtain ⟨right, _⟩ := Bool.and_eq_true_iff.mp right
    exact outlinedCompound rfl
      (balancedComparison (outlinedOf receiver first left) (outlinedOf receiver second right) form)
  | .chain several all, ok => by
    obtain ⟨left, rest⟩ := Bool.and_eq_true_iff.mp ok
    refine outlinedCompound rfl (balancedSeparated (partsText ['&', '&'] (by decide)) fun c mem => ?_)
    obtain ⟨part, known, rfl⟩ := List.mem_map.mp mem
    exact ⟨false, followsAlone (followsGroup (balancedChain receiver all left rest part known))⟩
  | .conditional first second third, ok => by
    obtain ⟨both, orelse⟩ := Bool.and_eq_true_iff.mp ok
    obtain ⟨test, body⟩ := Bool.and_eq_true_iff.mp both
    have choice := readsBetween (t := .text " ? ") (readsWrapped (outlinedOf receiver first test))
      (partsText ['?'] (by decide)) (readsWrapped (outlinedOf receiver second body))
    exact outlinedCompound rfl ⟨_, readsBetween (t := .text " : ") choice (partsText [':'] (by decide))
      (readsWrapped (outlinedOf receiver third orelse))⟩
  | .slice object low high, ok => by
    obtain ⟨base, range⟩ := Bool.and_eq_true_iff.mp ok
    obtain ⟨lower, upper⟩ := Bool.and_eq_true_iff.mp range
    have bounds := balancedBetween (t := .text ", ") (balancedBound receiver low lower) partsComma
      (outlinedOf receiver high upper).balanced
    have whole := readsEnclosed (readsWrapped (outlinedOf receiver object base)) enclosesSlice bounds
    exact outlinedSimple (by simpa only [charsAppend, List.append_assoc, exposed] using whole)
  | .sliceRest object low, ok => by
    obtain ⟨base, range⟩ := Bool.and_eq_true_iff.mp ok
    obtain ⟨lower, _⟩ := Bool.and_eq_true_iff.mp range
    exact outlinedSimple (readsEnclosed (readsWrapped (outlinedOf receiver object base)) enclosesSlice
      (balancedBound receiver low lower))
  | .fromEnd counted object inner, ok => by
    obtain ⟨base, index⟩ := Bool.and_eq_true_iff.mp ok
    exact outlinedSimple (readsEnclosed (readsWrapped (outlinedOf receiver object base))
      (enclosesCall "at".toList (by decide) rfl) (outlinedOf receiver inner index).balanced)
  | .subscript plain object inner, ok => by
    obtain ⟨base, index⟩ := Bool.and_eq_true_iff.mp ok
    exact outlinedSimple (readsEnclosed (readsWrapped (outlinedOf receiver object base)) enclosesSquare
      (outlinedOf receiver inner index).balanced)
  | .list all, ok =>
    outlinedSimple (readsListed enclosesSquare (balancedSeparated partsComma (balancedAll receiver all ok)))
  | .tuple all, ok =>
    outlinedSimple (readsListed enclosesSquare (balancedSeparated partsComma (balancedAll receiver all ok)))
  | .dict all, ok =>
    outlinedSimple (readsListed (enclosesBracket rfl rfl rfl) (balancedSeparated partsComma (balancedEntries receiver all ok)))
  | .joined all, ok => by
    obtain ⟨parts, apart⟩ := Bool.and_eq_true_iff.mp ok
    exact outlinedSimple (followsAlone (followsTemplate (fillsParts receiver all parts apart)))
  | .lambda plain inner, ok => by
    obtain ⟨params, body⟩ := Bool.and_eq_true_iff.mp ok
    exact outlinedCompound rfl (balancedArrow (List.all_eq_true.mp params)
      (balancedBody (outlinedOf receiver inner body).balanced))
  | .listComp all, ok => by
    obtain ⟨item, clauses⟩ := Bool.and_eq_true_iff.mp ok
    exact outlinedSimple (readsComprehension receiver all item clauses)
  | .generator all, ok => by
    obtain ⟨item, clauses⟩ := Bool.and_eq_true_iff.mp ok
    exact outlinedSimple (readsComprehension receiver all item clauses)
  | .assigned inner, ok => by
    obtain ⟨named, value⟩ := Bool.and_eq_true_iff.mp ok
    exact outlinedCompound rfl (balancedBetween ⟨false, followsAlone (followsNamed named)⟩ (t := .text " = ") partsEquals
      (outlinedOf receiver inner value).balanced)

theorem balancedAll (receiver : Follows front) {s es codes} : PrintsAll s es codes → formedAll es →
    ∀ c ∈ codes, Balanced front c
  | .nil, _ => by simp
  | .cons head tail, ok => by
    obtain ⟨first, rest⟩ := Bool.and_eq_true_iff.mp ok
    exact List.forall_mem_cons.mpr ⟨(outlinedOf receiver head first).balanced, balancedAll receiver tail rest⟩

theorem balancedOperands (receiver : Follows front) {s es codes} : PrintsOperands s es codes → formedAll es →
    ∀ c ∈ codes, Balanced front c
  | .nil, _ => by simp
  | .cons head tail, ok => by
    obtain ⟨first, rest⟩ := Bool.and_eq_true_iff.mp ok
    exact List.forall_mem_cons.mpr
      ⟨⟨_, readsWrapped (outlinedOf receiver head first)⟩, balancedOperands receiver tail rest⟩

theorem balancedBound (receiver : Follows front) {s bound c} : PrintsBound s bound c → formedOption bound →
    Balanced front c
  | .none, _ => ⟨false, followsAlone (followsWords (a := "0".toList) (by decide))⟩
  | .some inner, ok => (outlinedOf receiver inner ok).balanced

theorem balancedChain (receiver : Follows front) {s left rest parts} : PrintsChain s left rest parts →
    formed left → formedComparisons rest → ∀ c ∈ parts, Balanced front c
  | .nil, _, _ => by simp
  | .cons first second form tail, left, ok => by
    obtain ⟨right, rest⟩ := Bool.and_eq_true_iff.mp ok
    exact List.forall_mem_cons.mpr
      ⟨balancedComparison (outlinedOf receiver first left) (outlinedOf receiver second right) form,
        balancedChain receiver tail right rest⟩

theorem balancedEntries (receiver : Follows front) {s entries codes} : PrintsEntries s entries codes →
    formedEntries entries → ∀ c ∈ codes, Balanced front c
  | .nil, _ => by simp
  | .spread head tail, ok => by
    obtain ⟨first, rest⟩ := Bool.and_eq_true_iff.mp ok
    exact List.forall_mem_cons.mpr
      ⟨⟨_, readsLed leadsDots (readsWrapped (outlinedOf receiver head first))⟩, balancedEntries receiver tail rest⟩
  | .literal text name head tail, ok => by
    obtain ⟨pair, rest⟩ := Bool.and_eq_true_iff.mp ok
    obtain ⟨key, value⟩ := Bool.and_eq_true_iff.mp pair
    exact List.forall_mem_cons.mpr ⟨balancedBetween (t := .text ": ") (outlinedOf receiver name key).balanced partsColon
      (outlinedOf receiver head value).balanced, balancedEntries receiver tail rest⟩
  | .computed code name head tail, ok => by
    obtain ⟨pair, rest⟩ := Bool.and_eq_true_iff.mp ok
    obtain ⟨key, value⟩ := Bool.and_eq_true_iff.mp pair
    have listed := readsListed enclosesSquare (outlinedOf receiver name key).balanced
    exact List.forall_mem_cons.mpr ⟨balancedBetween (t := .text ": ") ⟨_, listed⟩ partsColon
      (outlinedOf receiver head value).balanced, balancedEntries receiver tail rest⟩

theorem fillsParts (receiver : Follows front) {s parts codes} : PrintsParts s parts codes → formedAll parts →
    textsApart parts → Fills ((Code.concat codes).chars front) (startsText parts)
  | .nil, _, _ => fillsNothing
  | .text tail, ok, apart => by
    obtain ⟨_, rest⟩ := Bool.and_eq_true_iff.mp ok
    obtain ⟨next, apart⟩ := Bool.and_eq_true_iff.mp apart
    simp only [Expr.text?, Option.isSome_some, Bool.true_and, Bool.not_eq_true'] at next
    have behind := fillsParts receiver tail rest apart
    rw [next] at behind
    rw [Code.concat, charsAppend, charsText, String.toList_ofList]
    exact fillsText behind
  | .formatted head tail, ok, apart => by
    obtain ⟨value, rest⟩ := Bool.and_eq_true_iff.mp ok
    obtain ⟨_, apart⟩ := Bool.and_eq_true_iff.mp apart
    obtain ⟨_, inner⟩ := (outlinedOf receiver head value).balanced
    exact fillsValue inner (fillsParts receiver tail rest apart)

theorem readsComprehension (receiver : Follows front) {s item clauses c} : PrintsComprehension s item clauses c →
    formed item → formedClauses clauses → Reads (c.chars front) (exposedSource s clauses)
  | .mk binder outer guards element, ok, all => by
    simp only [formedClauses, Bool.and_true, Bool.and_eq_true] at all
    obtain ⟨⟨target, iter⟩, conditions⟩ := all
    have named := targetNamed binder target
    have filters := balancedAll receiver guards conditions
    refine readsEnclosed (readsBehind (readsWrapped (outlinedOf receiver outer iter)) (followsConcat fun c mem => ?_))
      (enclosesCall "map".toList (by decide) rfl) (balancedArrow named (outlinedOf receiver element ok).balanced)
    obtain ⟨f, known, rfl⟩ := List.mem_map.mp mem
    exact followsEnclosed (enclosesCall "filter".toList (by decide) rfl) (balancedArrow named (filters f known))

end

end Induction

end LiveMarkup.Client
