import LiveMarkup.Proofs.Client.Balanced
/-! Functions in printed code. A body that starts with a brace is read as a block, not as an expression; only a
dictionary that is the whole body of a lambda is kept from that by parentheses. -/
namespace LiveMarkup.Client
open Syntax Text Outline

section Lead

def lead? (text : String) : Option Char := text.toList.head?

def StartsBlock (text : String) : Prop := lead? text = some '\x7b'

instance {text : String} : Decidable (StartsBlock text) := inferInstanceAs (Decidable (_ = _))

variable {a b c : Code} {s : Scope} {e : Expr}

theorem leadAppend {t u : String} : lead? (t ++ u) = (lead? t).or (lead? u) := by
  rw [lead?, lead?, lead?, String.toList_append, List.head?_append]

theorem leadJoin : lead? (a ++ b).write = (lead? a.write).or (lead? b.write) := leadAppend

theorem leadText {t : String} : lead? (Code.text t).write = lead? t := rfl

theorem leadFront {t u : String} {d : Char} (front : lead? t = some d) : lead? (t ++ u) = some d := by
  rw [leadAppend, front, Option.some_or]

theorem leadFirst {d : Char} (first : lead? a.write = some d) : lead? (a ++ b).write = some d := leadFront first

theorem leadArrow {params : List String} {listed : Bool} : lead? (Code.arrow params listed c).write = some '(' := by
  have opened : lead? "(" = some '(' := rfl
  rw [Code.write, Code.paramsText, parens]
  exact leadFront (leadFront (leadFront (leadFront opened)))

theorem leadVariable {id t : String} : lead? (Code.variable id t).write = lead? t := rfl

theorem leadGroup : lead? c.group.write = some '(' := by
  simp only [Code.group, leadJoin]
  rfl

theorem leadName {name : String} (named : isName name.toList) : lead? name ≠ some '\x7b' := by
  unfold lead?
  cases h : name.toList with
  | nil => simp
  | cons first rest =>
    rw [h, isName, Bool.and_eq_true] at named
    rintro starts
    obtain rfl := Option.some.inj starts
    exact absurd named.1 (by decide)

theorem leadSpelled {id : String} (named : isName id.toList) : lead? (spelled id) ≠ some '\x7b' := by
  unfold spelled
  split
  · decide
  · exact leadName named

theorem leadNamed {id : String} (named : isName id.toList) : lead? (nameCode s id).write ≠ some '\x7b' := by
  unfold nameCode
  split
  · decide
  · exact leadSpelled named

theorem leadNumeral {text : String} {negative : Bool} {cs : List Char} (h : Numeral cs)
    (written : text.toList = (if negative then ['-'] else []) ++ cs) : lead? text ≠ some '\x7b' := by
  obtain ⟨c, more, rfl, digit⟩ := h.first
  rw [lead?, written]
  cases negative with
  | false =>
    rintro ⟨⟩
    exact absurd digit (by decide)
  | true => exact fun brace => absurd (Option.some.inj brace) (by decide)

theorem leadReal {x : Binary64} : lead? x.write ≠ some '\x7b' := by
  cases x with
  | undefined => decide
  | infinite negative => cases negative <;> decide
  | finite negative m e =>
    obtain ⟨cs, numeral, written⟩ := @numeralReal ".0" negative m e (by decide)
    exact leadNumeral numeral written

theorem leadQuoted {t : String} : lead? (jsString t) = some '"' := by
  rw [lead?, jsString, String.toList_ofList, guardedHead]
  rfl

theorem leadConstant {k : Constant} (h : constantCode k = .ok c) : lead? c.write ≠ some '\x7b' := by
  unfold constantCode at h
  split at h <;> cases h
  · decide
  · next b => cases b <;> decide
  · rw [leadText, leadQuoted]
    decide
  · exact @leadNumeral _ false _ numeralWhole rfl
  · next negative => cases negative <;> decide
  · decide
  · exact leadReal

def Braced (c : Code) (x : Bool) : Prop := lead? c.write = some '\x7b' ↔ x

def Leading (c : Code) (x : Bool) : Prop := ∃ d, lead? c.write = some d ∧ (d = '\x7b' ↔ x)

variable {x : Bool} {d : Char}

theorem Leading.led (h : Leading a x) : Leading (a ++ b) x := by
  obtain ⟨d, first, brace⟩ := h
  exact ⟨d, leadFirst first, brace⟩

theorem Leading.braced (h : Leading c x) : Braced c x := by
  obtain ⟨d, first, brace⟩ := h
  rw [Braced, first, Option.some_inj, brace]

theorem leadingApart (first : lead? c.write = some d) (other : d ≠ '\x7b') : Leading c false :=
  ⟨d, first, by simp [other]⟩

theorem bracedApart (other : lead? c.write ≠ some '\x7b') : Braced c false := by simp [Braced, other]

theorem Braced.behind (h : Braced a x) (next : lead? b.write = some d) (other : d ≠ '\x7b') : Leading (a ++ b) x := by
  cases first : lead? a.write with
  | none =>
    refine ⟨d, by rw [leadJoin, first, next, Option.none_or], ?_⟩
    exact ⟨fun same => absurd same other, fun starts => absurd (h.mpr starts) (by simp [first])⟩
  | some e =>
    refine ⟨e, leadFirst first, ?_⟩
    rw [← Option.some_inj, ← first]
    exact h

theorem Braced.kept (h : Braced a x) (next : lead? b.write ≠ some '\x7b') : Braced (a ++ b) x := by
  refine .trans ?_ h
  rw [leadJoin, Option.or_eq_some_iff]
  exact ⟨fun starts => starts.elim id fun late => absurd late.2 next, .inl⟩

theorem Braced.unwritten {id : String} (h : Braced a x) : Braced (.variable id "" ++ a) x := by
  rwa [Braced, leadJoin, leadVariable]

theorem Braced.separated {sep : String} {codes : List Code} (h : Braced a x) (next : lead? sep = some ' ') :
    Braced (.separated sep (a :: codes)) x := by
  cases codes with
  | nil => exact h
  | cons b rest => exact (h.behind (b := .text sep) next (by decide)).led.braced

theorem Braced.wrapped (h : Braced c x) : Braced (wrapped e c) (!e.isCompound && x) := by
  unfold Client.wrapped
  split
  · next compound =>
    rw [compound]
    exact (leadingApart leadGroup (by decide)).braced
  · next simple => simpa [simple] using h

end Lead

section Leftmost

mutual

def startsBrace (s : Scope) : Expr → Bool
  | .dict _ => true
  | .field base _ => !base.isCompound && startsBrace s base
  | .call _ (.name id) args _ =>
    if id = s.tag then false
    else if id = "setattr" ∨ id = "len" ∧ args.length = 1 then startsFirst s args
    else false
  | .call _ (.field object name) args _ =>
    if name = s.tag then false
    else if name = "join" ∧ args.length = 1 then startsFirst s args
    else !object.isCompound && startsBrace s object
  | .call _ func _ _ => !func.isCompound && startsBrace s func
  | .binary left op _ => op != .floorDiv && !left.isCompound && startsBrace s left
  | .boolean _ operands => startsFirst s operands
  | .compare left rest => startsComparison s (!left.isCompound && startsBrace s left) left.isNull rest
  | .conditional test _ _ => !test.isCompound && startsBrace s test
  | .subscript base _ => !base.isCompound && startsBrace s base
  | .listComp _ clauses => startsSource s clauses
  | .generator _ clauses => startsSource s clauses
  | _ => false

def startsFirst (s : Scope) : List Expr → Bool
  | e :: _ => !e.isCompound && startsBrace s e
  | [] => false

def startsComparison (s : Scope) (left null : Bool) : List Comparison → Bool
  | [.mk op right] =>
    if op = .notMember then false
    else if op = .member ∨ (op = .same ∨ op = .notSame) ∧ null then !right.isCompound && startsBrace s right
    else left
  | _ => false

def startsSource (s : Scope) : List Clause → Bool
  | .mk _ _ iter _ :: _ => !iter.isCompound && startsBrace s iter
  | [] => false

end

variable {s : Scope} {e : Expr} {c : Code}

theorem bracedMember {object : Expr} {name shown : String} (h : Braced c (startsBrace s object)) :
    Leading (memberCode s object c name shown) (!object.isCompound && startsBrace s object) := by
  unfold memberCode
  split
  · next own =>
    have plain : startsBrace s object = false := by
      cases object with
      | name id => rfl
      | _ => cases own
    rw [plain, Bool.and_false]
    exact leadingApart (d := 't') (leadFront rfl) (by decide)
  · exact h.wrapped.behind (d := '.') (leadFront rfl) (by decide)

theorem leadFunction {id f : String} (h : function? id = some f) : lead? f ≠ some '\x7b' := by
  unfold function? at h
  split at h <;> cases h <;> decide

theorem startsPlain {id : String} {args : List Expr} {keywords : List Keyword} {line : Nat} (other : id ≠ s.tag)
    (unassigned : id ≠ "setattr") (measured : id = "len" → args.length ≠ 1) :
    startsBrace s (.call line (.name id) args keywords) = false := by
  rw [startsBrace, if_neg other, if_neg]
  rintro (assigned | ⟨length, one⟩)
  · exact unassigned assigned
  · exact measured length one

theorem startsApplied {line : Nat} {func : Expr} {args : List Expr} {keywords : List Keyword}
    (computed : ∀ id, func ≠ .name id) (free : ∀ object name, func ≠ .field object name) :
    startsBrace s (.call line func args keywords) = (!func.isCompound && startsBrace s func) := by
  rw [startsBrace]
  · exact computed
  · exact free

theorem startsBinary {left right : Expr} {op : BinaryOp} {text : String} (h : binaryText? op = some text) :
    startsBrace s (.binary left op right) = (!left.isCompound && startsBrace s left) := by
  have other : (op != .floorDiv) = true := by cases op <;> cases h <;> rfl
  rw [startsBrace, other, Bool.true_and]

theorem startsNull (h : e.isNull) : startsBrace s e = false := by
  cases e with
  | constant k => rfl
  | _ => cases h

theorem leadNull {op : CompareOp} :
    lead? (Code.text (if op = .notSame then " != null" else " == null")).write = some ' ' := by
  rw [leadText]
  split <;> rfl

theorem bracedComparison {left right : Expr} {l r part : Code} {op : CompareOp}
    (form : ComparisonForm left right l r op part) (first : Braced l (startsBrace s left))
    (second : Braced r (startsBrace s right)) : Braced part (startsBrace s (.compare left [.mk op right])) := by
  rw [startsBrace, startsComparison]
  cases form with
  | member =>
    rw [if_neg (by decide), if_pos (.inl rfl)]
    exact (second.wrapped.behind (d := '.') (by rfl) (by decide)).led.led.braced
  | notMember =>
    rw [if_pos rfl]
    exact (leadingApart (d := '!') (leadFirst (by rfl)) (by decide)).braced
  | nullRight identity null =>
    have other : op ≠ .notMember ∧ op ≠ .member := by rcases identity with rfl | rfl <;> decide
    have plain : (if op = .member ∨ (op = .same ∨ op = .notSame) ∧ left.isNull then
        !right.isCompound && startsBrace s right else !left.isCompound && startsBrace s left) =
        (!left.isCompound && startsBrace s left) := by
      split
      · next chosen =>
        have empty : left.isNull := (chosen.resolve_left other.2).2
        rw [startsNull null, startsNull empty, Bool.and_false, Bool.and_false]
      · rfl
    rw [if_neg other.1, plain]
    exact (first.wrapped.behind leadNull (by decide)).braced
  | nullLeft identity null other =>
    have plain : op ≠ .notMember := by rcases identity with rfl | rfl <;> decide
    rw [if_neg plain, if_pos (Or.inr ⟨identity, null⟩)]
    exact (second.wrapped.behind leadNull (by decide)).braced
  | between plain filled =>
    have apart : ¬(op = .member ∨ (op = .same ∨ op = .notSame) ∧ left.isNull) := by
      rintro (member | ⟨identity, null⟩)
      · exact plain.1 member
      · exact absurd null (by simp [filled identity])
    rw [if_neg plain.2, if_neg apart]
    have space : lead? (Code.text " ").write = some ' ' := rfl
    exact (first.wrapped.behind (leadFirst (leadFirst space)) (by decide)).led.braced

theorem bracedChain {left : Expr} {rest : List Comparison} {parts : List Code} (several : parts.length ≠ 1)
    (all : PrintsChain s left rest parts) :
    Braced (.separated " && " (parts.map .group)) (startsBrace s (.compare left rest)) := by
  rw [startsBrace]
  cases all with
  | nil => exact bracedApart nofun
  | cons _ _ _ tail =>
    cases tail with
    | nil => exact absurd rfl several
    | cons => exact (leadingApart leadGroup (by decide)).braced.separated rfl

theorem leadFilters {names : List String} {listed : Bool} {filters : List Code} :
    lead? (Code.concat (filters.map fun f => ".filter(" ++ .arrow names listed f ++ ")")).write ≠ some '\x7b' := by
  cases filters with
  | nil => nofun
  | cons f rest =>
    have filter : lead? (Code.text ".filter(").write = some '.' := rfl
    exact (leadFirst (leadFirst (leadFirst filter))).trans_ne (by decide)

-- The induction is on the printed form; only the leftmost piece of each form is followed.
mutual

theorem bracedOf {s e c} : Prints s e c → formed e → Braced c (startsBrace s e)
  | .constant form, _ => bracedApart (leadConstant form)
  | .name, named => bracedApart (leadNamed named)
  | .field object, ok => by
    obtain ⟨base, named⟩ := Bool.and_eq_true_iff.mp ok
    rw [startsBrace]
    exact (bracedMember (bracedOf object base)).braced
  | .starred inner, ok => (leadingApart (d := '.') (leadFirst rfl) (by decide)).braced
  | .template tag values, ok => by
    rw [startsBrace, if_pos tag]
    exact (leadingApart (d := 'h') (leadFirst (leadVariable.trans (by rfl))) (by decide)).braced
  | .assignment other written literal identifier assigned, ok => by
    obtain ⟨_, args⟩ := Bool.and_eq_true_iff.mp ok
    obtain ⟨target, _⟩ := Bool.and_eq_true_iff.mp args
    rw [startsBrace, if_neg other, if_pos (.inl rfl), startsFirst]
    exact (bracedMember (bracedOf written target)).led.led.braced
  | .length other object, ok => by
    obtain ⟨_, args⟩ := Bool.and_eq_true_iff.mp ok
    obtain ⟨arg, _⟩ := Bool.and_eq_true_iff.mp args
    rw [startsBrace, if_neg other, if_pos (.inr ⟨rfl, rfl⟩), startsFirst]
    exact ((bracedOf object arg).wrapped.unwritten.behind (d := '.') (by rfl) (by decide)).braced
  | .mapped other mapping values, ok => by
    rw [startsPlain other (by rintro rfl; cases mapping) (by rintro rfl; cases mapping)]
    exact ((bracedApart (leadFunction mapping)).behind leadGroup (by decide)).braced
  | .named other unmapped measured values, ok => by
    obtain ⟨named, args⟩ := Bool.and_eq_true_iff.mp ok
    rw [startsPlain other.1 other.2 measured]
    exact ((bracedApart (leadNamed named)).behind leadGroup (by decide)).braced
  | .templateMethod tag values, ok => by
    rw [startsBrace, if_pos tag]
    exact (leadingApart (d := 'h') (leadFirst (by rfl)) (by decide)).braced
  | .joinedBy other separator items, ok => by
    obtain ⟨_, args⟩ := Bool.and_eq_true_iff.mp ok
    obtain ⟨arg, _⟩ := Bool.and_eq_true_iff.mp args
    rw [startsBrace, if_neg other, if_pos ⟨rfl, rfl⟩, startsFirst]
    exact ((bracedOf items arg).wrapped.behind (d := '.') (by rfl) (by decide)).led.braced
  | .method other plain base values, ok => by
    obtain ⟨func, args⟩ := Bool.and_eq_true_iff.mp ok
    obtain ⟨object, named⟩ := Bool.and_eq_true_iff.mp func
    rw [startsBrace, if_neg other, if_neg (fun joined => plain joined.1 joined.2)]
    exact (bracedMember (bracedOf base object)).led.braced
  | .applied computed free callee values, ok => by
    obtain ⟨func, args⟩ := Bool.and_eq_true_iff.mp ok
    rw [startsApplied computed free]
    exact ((bracedOf callee func).wrapped.behind leadGroup (by decide)).braced
  | .floorDiv first second, ok =>
    (leadingApart (d := 'M') (leadFirst (leadFirst (leadFirst (leadFirst (by rfl))))) (by decide)).braced
  | .binary first second operator, ok => by
    obtain ⟨left, right⟩ := Bool.and_eq_true_iff.mp ok
    rw [startsBinary operator]
    exact ((bracedOf first left).wrapped.behind (d := ' ') (leadFirst (leadFirst (by rfl))) (by decide)).led.braced
  | @Prints.unary _ op _ _ inner, ok => by
    obtain ⟨d, sign, other⟩ : ∃ d, lead? (unaryText op) = some d ∧ d ≠ '\x7b' := by
      cases op
      exacts [⟨'!', rfl, by decide⟩, ⟨'-', rfl, by decide⟩, ⟨'+', rfl, by decide⟩, ⟨'~', rfl, by decide⟩]
    exact (leadingApart (leadFirst (leadText.trans sign)) other).braced
  | @Prints.boolean _ op _ _ all, ok => by
    rw [startsBrace]
    exact bracedOperands all ok (by cases op <;> decide)
  | .comparison first second form, ok => by
    obtain ⟨left, right⟩ := Bool.and_eq_true_iff.mp ok
    obtain ⟨right, _⟩ := Bool.and_eq_true_iff.mp right
    exact bracedComparison form (bracedOf first left) (bracedOf second right)
  | .chain several all, _ => bracedChain several all
  | .conditional first second third, ok => by
    obtain ⟨both, orelse⟩ := Bool.and_eq_true_iff.mp ok
    obtain ⟨test, body⟩ := Bool.and_eq_true_iff.mp both
    rw [startsBrace]
    exact ((bracedOf first test).wrapped.behind (d := ' ') (by rfl) (by decide)).led.led.led.braced
  | .slice object low high, ok => by
    obtain ⟨base, range⟩ := Bool.and_eq_true_iff.mp ok
    rw [startsBrace]
    exact ((bracedOf object base).wrapped.behind (d := '.') (by rfl) (by decide)).led.led.led.led.braced
  | .sliceRest object low, ok => by
    obtain ⟨base, range⟩ := Bool.and_eq_true_iff.mp ok
    rw [startsBrace]
    exact ((bracedOf object base).wrapped.behind (d := '.') (by rfl) (by decide)).led.led.braced
  | .fromEnd counted object inner, ok => by
    obtain ⟨base, index⟩ := Bool.and_eq_true_iff.mp ok
    rw [startsBrace]
    exact ((bracedOf object base).wrapped.behind (d := '.') (by rfl) (by decide)).led.led.braced
  | .subscript plain object inner, ok => by
    obtain ⟨base, index⟩ := Bool.and_eq_true_iff.mp ok
    rw [startsBrace]
    exact ((bracedOf object base).wrapped.behind (d := '[') (by rfl) (by decide)).led.led.braced
  | .list all, ok => (leadingApart (d := '[') (leadFirst (leadFirst (by rfl))) (by decide)).braced
  | .tuple all, ok => (leadingApart (d := '[') (leadFirst (leadFirst (by rfl))) (by decide)).braced
  | .dict all, ok => (show Leading _ true from ⟨'\x7b', leadFirst (leadFirst (by rfl)), by simp⟩).braced
  | .joined all, ok => (leadingApart (d := '\x60') (leadFirst (leadFirst (by rfl))) (by decide)).braced
  | .lambda plain inner, ok => (leadingApart leadArrow (by decide)).braced
  | .listComp all, ok => by
    obtain ⟨item, clauses⟩ := Bool.and_eq_true_iff.mp ok
    rw [startsBrace]
    exact bracedComprehension all clauses
  | .generator all, ok => by
    obtain ⟨item, clauses⟩ := Bool.and_eq_true_iff.mp ok
    rw [startsBrace]
    exact bracedComprehension all clauses
  | .assigned inner, ok => by
    obtain ⟨named, value⟩ := Bool.and_eq_true_iff.mp ok
    exact ((bracedApart (leadNamed named)).behind (d := ' ') (by rfl) (by decide)).led.braced

theorem bracedOperands {s es codes sep} : PrintsOperands s es codes → formedAll es →
    lead? sep = some ' ' → Braced (Code.separated sep codes) (startsFirst s es)
  | .nil, _, _ => bracedApart nofun
  | .cons head tail, ok, apart => by
    obtain ⟨first, _⟩ := Bool.and_eq_true_iff.mp ok
    rw [startsFirst]
    exact (bracedOf head first).wrapped.separated apart

theorem bracedComprehension {s item clauses c} : PrintsComprehension s item clauses c → formedClauses clauses →
    Braced c (startsSource s clauses)
  | .mk binder outer guards element, all => by
    simp only [formedClauses, Bool.and_true, Bool.and_eq_true] at all
    rw [startsSource]
    exact (((bracedOf outer all.1.2).wrapped.kept leadFilters).behind (d := '.') (by rfl) (by decide)).led.led.braced

end

end Leftmost

section Functions

def functionText (params : List String) (listed : Bool) (body : String) : String :=
  Code.paramsText params listed ++ " => " ++ body

def comprehensionText (source : String) (params : List String) (listed : Bool) (filters : List String)
    (result : String) : String :=
  source ++ String.join (filters.map fun f => ".filter(" ++ functionText params listed f ++ ")") ++
    ".map(" ++ functionText params listed result ++ ")"

def guardedText (body : Expr) (t : String) : String :=
  match body with
  | .dict _ => parens t
  | _ => t

variable {s : Scope} {e : Expr} {c : Code}

theorem bodyWritten {body : Expr} : (arrowBody body c).write = guardedText body c.write := by
  cases body <;> rfl

theorem bodyStarts {body : Expr} (h : Braced c (startsBrace s body)) :
    StartsBlock (guardedText body c.write) ↔ startsBrace s body ∧ ∀ entries, body ≠ .dict entries := by
  unfold guardedText
  split
  · next entries =>
    have opened : lead? (parens c.write) = some '(' := leadFront (leadFront rfl)
    simp [StartsBlock, opened]
  · next other => exact h.trans ⟨fun starts => ⟨starts, other⟩, And.left⟩

theorem concatWritten {α : Type} {xs : List α} {f : α → Code} :
    (Code.concat (xs.map f)).write = String.join (xs.map fun x => (f x).write) := by
  induction xs with
  | nil => rfl
  | cons x rest ih =>
    rw [List.map_cons, List.map_cons, Code.concat, String.join_cons, ← ih]
    rfl

theorem filtersStart {s conditions codes} (h : PrintsAll s conditions codes) (ok : formedAll conditions) :
    List.Forall₂ (fun condition f => print s condition = .ok f ∧ (StartsBlock f ↔ startsBrace s condition)) conditions
      (codes.map Code.write) := by
  induction conditions generalizing codes with
  | nil =>
    cases h
    exact .nil
  | cons condition rest ih =>
    cases h with
    | cons head tail =>
      obtain ⟨first, others⟩ := Bool.and_eq_true_iff.mp ok
      exact .cons ⟨mapOk.mpr ⟨_, codeOf head, rfl⟩, bracedOf head first⟩ (ih tail others)

/-- Every function written for a lambda or a comprehension has a body that starts with a brace if and only if
a dictionary stands at the left end of its expression. A lambda whose body is a dictionary itself is the only one
that is kept from it. -/
theorem functionBodies {text : String} (ok : formed e) (printed : print s e = .ok text) :
    (∀ params body, e = .lambda params body →
      ∃ t, print (s.bind params.names) body = .ok t ∧ text = functionText params.names false (guardedText body t) ∧
        (StartsBlock (guardedText body t) ↔
          startsBrace (s.bind params.names) body ∧ ∀ entries, body ≠ .dict entries)) ∧
    (∀ item clauses, e = .listComp item clauses ∨ e = .generator item clauses →
      ∃ target iter conditions listed names, clauses = [.mk false target iter conditions] ∧
        comprehensionTarget target = .ok (listed, names) ∧
        ∃ source filters result, text = comprehensionText source names listed filters result ∧
          List.Forall₂ (fun condition f => print (s.bind names) condition = .ok f ∧
            (StartsBlock f ↔ startsBrace (s.bind names) condition)) conditions filters ∧
          print (s.bind names) item = .ok result ∧ (StartsBlock result ↔ startsBrace (s.bind names) item)) := by
  obtain ⟨c, coded, rfl⟩ := mapOk.mp printed
  have form := printsOf e coded
  constructor
  · rintro params body rfl
    obtain ⟨_, inner⟩ := Bool.and_eq_true_iff.mp ok
    cases form with
    | @lambda _ _ _ d plain body =>
      refine ⟨d.write, mapOk.mpr ⟨d, codeOf body, rfl⟩, ?_, bodyStarts (bracedOf body inner)⟩
      rw [← bodyWritten]
      rfl
  · intro item clauses kind
    have all : PrintsComprehension s item clauses c ∧ formed item ∧ formedClauses clauses := by
      rcases kind with rfl | rfl
      · cases form with
        | listComp all => exact ⟨all, Bool.and_eq_true_iff.mp ok⟩
      · cases form with
        | generator all => exact ⟨all, Bool.and_eq_true_iff.mp ok⟩
    obtain ⟨all, element, clause⟩ := all
    cases all with
    | @mk _ _ target iter conditions listed names source filters result binder outer guards last =>
      simp only [formedClauses, Bool.and_true, Bool.and_eq_true] at clause
      refine ⟨target, iter, conditions, listed, names, rfl, binder, (wrapped iter source).write,
        filters.map Code.write, result.write, ?_, filtersStart guards clause.2, mapOk.mpr ⟨_, codeOf last, rfl⟩,
        bracedOf last element⟩
      have whole : (wrapped iter source ++ Code.concat (filters.map fun f => ".filter(" ++ .arrow names listed f ++ ")") ++
          ".map(" ++ .arrow names listed result ++ ")").write = (wrapped iter source).write ++
          (Code.concat (filters.map fun f => ".filter(" ++ .arrow names listed f ++ ")")).write ++ ".map(" ++
          functionText names listed result.write ++ ")" := rfl
      rw [whole, concatWritten, comprehensionText, List.map_map]
      rfl

def entryA : Expr := .dict [.pair (.constant (.text "a" false)) (.name "x")]

def pickA : Expr := .subscript entryA (.constant (.text "a" false))

def lambdaX (body : Expr) : Expr := .lambda (.mk [] ["x"] none [] [] none []) body

def eachX (item : Expr) : Expr := .listComp item [.mk false (.name "x") (.name "xs") [.name "x"]]

theorem entryInParens : print {} (lambdaX entryA) = .ok "(x) => (\x7b\"a\": x\x7d)" ∧
    ∃ t, print {} entryA = .ok t ∧ "(x) => (\x7b\"a\": x\x7d)" = functionText ["x"] false (guardedText entryA t) ∧
      ¬StartsBlock (guardedText entryA t) := by
  have printed : print {} (lambdaX entryA) = .ok "(x) => (\x7b\"a\": x\x7d)" := by decide +kernel
  obtain ⟨t, body, whole, starts⟩ := (functionBodies (by decide) printed).1 _ _ rfl
  exact ⟨printed, t, body, whole, fun block => (starts.mp block).2 _ rfl⟩

theorem bodiesBlocks :
    print {} (lambdaX pickA) = .ok (functionText ["x"] false "\x7b\"a\": x\x7d[\"a\"]") ∧
      StartsBlock "\x7b\"a\": x\x7d[\"a\"]" ∧
      print {} (eachX entryA) = .ok (comprehensionText "xs" ["x"] false ["x"] "\x7b\"a\": x\x7d") ∧
      StartsBlock "\x7b\"a\": x\x7d" :=
  ⟨by decide +kernel, by decide, by decide +kernel, by decide⟩

end Functions

end LiveMarkup.Client
