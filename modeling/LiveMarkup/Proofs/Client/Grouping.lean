import LiveMarkup.Proofs.Client.Balanced
import LiveMarkup.Proofs.Client.Words
/-! How printed operands are grouped. Every operand stands in parentheses or has no operator outside of its
brackets and texts, unless the expression is an assignment to a field or goes on from one. -/
namespace LiveMarkup.Client
open Syntax Analysis Outline

section Operands

abbrev Placed := Scope × Expr

def compared (s : Scope) (left : Expr) (op : CompareOp) (right : Expr) : List Placed :=
  match op with
  | .member | .notMember => [(s, right)]
  | .same | .notSame =>
    if right.isNull then [(s, left)] else if left.isNull then [(s, right)] else [(s, left), (s, right)]
  | _ => [(s, left), (s, right)]

def objectOf (s : Scope) (object : Expr) : List Placed := if isComponent s object then [] else [(s, object)]

mutual

def operands (s : Scope) : Expr → List Placed
  | .field base _ => objectOf s base ++ operands s base
  | .starred value => (s, value) :: operands s value
  | .call _ (.name id) args _ =>
    if id = s.tag then operandsAll s args
    else if id = "setattr" then operandsAssigned s args
    else if id = "len" ∧ args.length = 1 then operandsJoined s args
    else operandsAll s args
  | .call _ (.field object name) args _ =>
    if name = s.tag then operandsAll s args
    else if name = "join" ∧ args.length = 1 then operandsJoined s args ++ operands s object
    else objectOf s object ++ operands s object ++ operandsAll s args
  | .call _ func args _ => (s, func) :: operands s func ++ operandsAll s args
  | .unary _ operand => (s, operand) :: operands s operand
  | .binary left _ right => (s, left) :: operands s left ++ (s, right) :: operands s right
  | .boolean _ all => operandsJoined s all
  | .compare _ [] => []
  | .compare left (first :: rest) => operands s left ++ operandsCompared s left (first :: rest)
  | .conditional test body orelse =>
    (s, test) :: operands s test ++ (s, body) :: operands s body ++ (s, orelse) :: operands s orelse
  | .subscript base index => (s, base) :: operands s base ++ operands s index
  | .slice lower upper _ => operandsOption s lower ++ operandsOption s upper
  | .list items => operandsAll s items
  | .tuple items => operandsAll s items
  | .dict entries => operandsEntries s entries
  | .joined parts => operandsAll s parts
  | .formatted value _ _ => operands s value
  | .lambda params body => operands (s.bind params.names) body
  | .listComp item clauses => operandsClauses s clauses ++ operands (s.bind (boundNames clauses)) item
  | .generator item clauses => operandsClauses s clauses ++ operands (s.bind (boundNames clauses)) item
  | .assigned _ value => operands s value
  | _ => []

def operandsAll (s : Scope) : List Expr → List Placed
  | [] => []
  | e :: rest => operands s e ++ operandsAll s rest

def operandsJoined (s : Scope) : List Expr → List Placed
  | [] => []
  | e :: rest => (s, e) :: operands s e ++ operandsJoined s rest

def operandsAssigned (s : Scope) : List Expr → List Placed
  | [] => []
  | target :: rest => objectOf s target ++ operands s target ++ operandsAll s rest

def operandsOption (s : Scope) : Option Expr → List Placed
  | none => []
  | some e => operands s e

def operandsCompared (s : Scope) (left : Expr) : List Comparison → List Placed
  | [] => []
  | .mk op right :: rest => compared s left op right ++ operands s right ++ operandsCompared s right rest

def operandsEntries (s : Scope) : List Entry → List Placed
  | [] => []
  | .spread value :: rest => (s, value) :: operands s value ++ operandsEntries s rest
  | .pair key value :: rest => operands s key ++ operands s value ++ operandsEntries s rest

def operandsClauses (s : Scope) : List Clause → List Placed
  | [] => []
  | .mk _ target iter conditions :: _ =>
    (s, iter) :: operands s iter ++ operandsAll (s.bind (mentioned target)) conditions

end

end Operands

section Holding

inductive Code.Holds : Code → Code → Prop where
  | whole {c} : Holds c c
  | first {a b d} (h : Holds a d) : Holds (a ++ b) d
  | second {a b d} (h : Holds b d) : Holds (a ++ b) d
  | body {params listed c d} (h : Holds c d) : Holds (.arrow params listed c) d

variable {a b c d : Code} {s : Scope} {e : Expr} {ps qs : List Placed} {codes : List Code}

theorem Code.Holds.written (h : c.Holds d) : ∃ before after, c.write = before ++ d.write ++ after := by
  induction h with
  | whole => exact ⟨"", "", by simp⟩
  | @first a b d _ ih =>
    obtain ⟨before, after, same⟩ := ih
    have joined : (a ++ b).write = a.write ++ b.write := rfl
    exact ⟨before, after ++ b.write, by rw [joined, same]; simp only [String.append_assoc]⟩
  | @second a b d _ ih =>
    obtain ⟨before, after, same⟩ := ih
    have joined : (a ++ b).write = a.write ++ b.write := rfl
    exact ⟨a.write ++ before, after, by rw [joined, same]; simp only [String.append_assoc]⟩
  | @body params listed c d _ ih =>
    obtain ⟨before, after, same⟩ := ih
    exact ⟨paramsText params listed ++ " => " ++ before, after, by
      rw [write, same]
      simp only [String.append_assoc]⟩

def Covers (c : Code) (ps : List Placed) : Prop :=
  ∀ p ∈ ps, formed p.2 ∧ ∃ d, Prints p.1 p.2 d ∧ c.Holds (wrapped p.2 d)

theorem coversNil : Covers c [] := fun _ h => absurd h List.not_mem_nil

theorem coversAppend (hp : Covers c ps) (hq : Covers c qs) : Covers c (ps ++ qs) :=
  fun p mem => (List.mem_append.mp mem).elim (hp p) (hq p)

theorem Covers.within (h : Covers a ps) (path : ∀ {d}, a.Holds d → c.Holds d) : Covers c ps := fun p mem => by
  obtain ⟨ok, d, printed, held⟩ := h p mem
  exact ⟨ok, d, printed, path held⟩

theorem Covers.first (h : Covers a ps) : Covers (a ++ b) ps := h.within .first

theorem Covers.second (h : Covers b ps) : Covers (a ++ b) ps := h.within .second

theorem Covers.group (h : Covers c ps) : Covers c.group ps := h.second.first

theorem coversWrapped (printed : Prints s e c) (ok : formed e) (h : Covers c ps) :
    Covers (wrapped e c) ((s, e) :: ps) := by
  have inner : Covers (wrapped e c) ps := by
    unfold wrapped
    split
    · exact h.group
    · exact h
  exact List.forall_mem_cons.mpr ⟨⟨ok, c, printed, .whole⟩, inner⟩

def Gathers (c : Code) (codes : List Code) : Prop := ∀ part ∈ codes, ∀ {d}, part.Holds d → c.Holds d

theorem Gathers.first (h : Gathers a codes) : Gathers (a ++ b) codes := fun part mem _ held => (h part mem held).first

theorem Gathers.second (h : Gathers b codes) : Gathers (a ++ b) codes := fun part mem _ held => (h part mem held).second

theorem Gathers.tail (h : Gathers c (a :: codes)) : Gathers c codes :=
  fun part mem => h part (List.mem_cons_of_mem a mem)

theorem gathersSeparated {sep : String} : Gathers (.separated sep codes) codes := by
  fun_induction Code.separated sep codes with
  | case1 => simp [Gathers]
  | case2 c =>
    intro part mem d held
    rwa [List.mem_singleton.mp mem] at held
  | case3 c rest _ ih =>
    intro part mem d held
    rcases List.mem_cons.mp mem with rfl | mem
    · exact held.first.first
    · exact (ih part mem held).second

theorem gathersConcat : Gathers (.concat codes) codes := by
  induction codes with
  | nil => simp [Gathers]
  | cons c rest ih =>
    intro part mem d held
    rcases List.mem_cons.mp mem with rfl | mem
    · exact held.first
    · exact (ih part mem held).second

theorem gathersArguments : Gathers (.arguments codes) codes := gathersSeparated.second.first

theorem Covers.gathered (h : Covers a ps) (mem : a ∈ codes) (all : Gathers c codes) : Covers c ps := h.within (all a mem)

theorem coversMember {object : Expr} {name shown : String} (printed : Prints s object c) (ok : formed object)
    (h : Covers c (operands s object)) :
    Covers (memberCode s object c name shown) (objectOf s object ++ operands s object) := by
  unfold memberCode objectOf
  split
  · next own =>
    have bare : operands s object = [] := by
      cases object with
      | name id => rfl
      | _ => cases own
    rw [bare]
    exact coversNil
  · exact (coversWrapped printed ok h).first

end Holding

section Induction

variable {s : Scope}

theorem operandsNull {e : Expr} (null : e.isNull) : operands s e = [] := by
  cases e with
  | constant k => rfl
  | _ => cases null

theorem comparedSubset {left right : Expr} {op : CompareOp} : ∀ p ∈ compared s left op right, p ∈ [(s, left), (s, right)] := by
  intro p mem
  unfold compared at mem
  split at mem
  · simp_all
  · simp_all
  · split_ifs at mem <;> simp_all
  · split_ifs at mem <;> simp_all
  · exact mem

theorem coversComparison {left right : Expr} {l r part : Code} {op : CompareOp} (first : Prints s left l)
    (second : Prints s right r) (okl : formed left) (okr : formed right) (hl : Covers l (operands s left))
    (hr : Covers r (operands s right)) (form : ComparisonForm left right l r op part) :
    Covers part (compared s left op right) ∧ Covers part (operands s left) ∧ Covers part (operands s right) := by
  have alone {p : Placed} {ps : List Placed} {c : Code} (h : Covers c (p :: ps)) : Covers c [p] ∧ Covers c ps :=
    ⟨fun q mem => h q (by simp_all), fun q mem => h q (List.mem_cons_of_mem p mem)⟩
  have leftAlone := alone (coversWrapped first okl hl)
  have rightAlone := alone (coversWrapped second okr hr)
  cases form with
  | member => exact ⟨rightAlone.1.first.first.first, hl.second.first, rightAlone.2.first.first.first⟩
  | notMember => exact ⟨rightAlone.1.first.first.first.second, hl.second.first.second, rightAlone.2.first.first.first.second⟩
  | nullRight identity null =>
    have only : compared s left op right = [(s, left)] := by
      rcases identity with rfl | rfl <;> exact if_pos null
    rw [only, operandsNull null]
    exact ⟨leftAlone.1.first, leftAlone.2.first, coversNil⟩
  | nullLeft identity null other =>
    have only : compared s left op right = [(s, right)] := by
      rcases identity with rfl | rfl <;> simp [compared, null, other]
    rw [only, operandsNull null]
    exact ⟨rightAlone.1.first, coversNil, rightAlone.2.first⟩
  | between plain =>
    refine ⟨fun p mem => ?_, leftAlone.2.first.first, rightAlone.2.second⟩
    exact coversAppend leftAlone.1.first.first rightAlone.1.second p (comparedSubset p mem)

theorem operandsPlain {line : Nat} {id : String} {args : List Expr} {keywords : List Keyword}
    (unassigned : id ≠ "setattr") (measured : id = "len" → args.length ≠ 1) :
    operands s (.call line (.name id) args keywords) = operandsAll s args := by
  rw [operands]
  by_cases tag : id = s.tag
  · rw [if_pos tag]
  · rw [if_neg tag, if_neg unassigned, if_neg fun both => measured both.1 both.2]

theorem operandsApplied {line : Nat} {func : Expr} {args : List Expr} {keywords : List Keyword}
    (computed : ∀ id, func ≠ .name id) (free : ∀ object name, func ≠ .field object name) :
    operands s (.call line func args keywords) = (s, func) :: operands s func ++ operandsAll s args := by
  rw [operands]
  · exact computed
  · exact free

theorem textExpression {e : Expr} {t : String} (h : e.text? = some t) : ∃ marked, e = .constant (.text t marked) := by
  unfold Expr.text? at h
  split at h
  · cases h
    exact ⟨_, rfl⟩
  · cases h

theorem gathersGroups {parts : List Code} {sep : String} : Gathers (.separated sep (parts.map .group)) parts :=
  fun part mem _ held => gathersSeparated part.group (List.mem_map_of_mem mem) held.second.first

theorem gathersFilters {names : List String} {listed : Bool} {filters : List Code} :
    Gathers (.concat (filters.map fun f => Code.text ".filter(" ++ .arrow names listed f ++ Code.text ")")) filters :=
  fun _ mem _ held => gathersConcat _ (List.mem_map_of_mem mem) held.body.second.first

theorem coversBody {body : Expr} {c : Code} {ps : List Placed} (h : Covers c ps) : Covers (arrowBody body c) ps := by
  unfold arrowBody
  split
  · exact h.group
  · exact h

mutual

-- The induction is on the printed form. Its pieces cover the operands that the form has of its own, and those of the
-- forms inside are covered there.
theorem coversOf {s e c} : Prints s e c → formed e → Covers c (operands s e)
  | .constant _, _ => coversNil
  | .name, _ => coversNil
  | .field object, ok => by
    obtain ⟨base, _⟩ := Bool.and_eq_true_iff.mp ok
    exact coversMember object base (coversOf object base)
  | .starred inner, ok => (coversWrapped inner ok (coversOf inner ok)).second
  | .template tag values, ok => by
    obtain ⟨_, args⟩ := Bool.and_eq_true_iff.mp ok
    rw [operands, if_pos tag]
    exact coversAll values args gathersArguments.second
  | .assignment other written literal identifier assigned, ok => by
    obtain ⟨_, args⟩ := Bool.and_eq_true_iff.mp ok
    simp only [formedAll, Bool.and_true, Bool.and_eq_true] at args
    rw [operands, if_neg other, if_pos rfl]
    obtain ⟨t, rfl⟩ := textExpression literal
    exact coversAppend (coversMember written args.1 (coversOf written args.1)).second.first.first
      (coversAppend coversNil (coversAppend (coversOf assigned args.2.2).second coversNil))
  | .length other object, ok => by
    obtain ⟨_, args⟩ := Bool.and_eq_true_iff.mp ok
    simp only [formedAll, Bool.and_true] at args
    rw [operands, if_neg other, if_neg (by decide), if_pos ⟨rfl, rfl⟩]
    have arg := coversWrapped object args (coversOf object args)
    exact coversAppend arg.second.first coversNil
  | .mapped other mapping values, ok => by
    obtain ⟨_, args⟩ := Bool.and_eq_true_iff.mp ok
    rw [operandsPlain (by rintro rfl; cases mapping) (by rintro rfl; cases mapping)]
    exact coversAll values args gathersArguments.second
  | .named other unmapped measured values, ok => by
    obtain ⟨_, args⟩ := Bool.and_eq_true_iff.mp ok
    rw [operandsPlain other.2 measured]
    exact coversAll values args gathersArguments.second
  | .templateMethod tag values, ok => by
    obtain ⟨_, args⟩ := Bool.and_eq_true_iff.mp ok
    rw [operands, if_pos tag]
    exact coversAll values args gathersArguments.second
  | .joinedBy other separator items, ok => by
    obtain ⟨func, args⟩ := Bool.and_eq_true_iff.mp ok
    obtain ⟨base, _⟩ := Bool.and_eq_true_iff.mp func
    simp only [formedAll, Bool.and_true] at args
    rw [operands, if_neg other, if_pos ⟨rfl, rfl⟩]
    have arg := coversWrapped items args (coversOf items args)
    exact coversAppend (coversAppend arg.first.first coversNil) (coversOf separator base).group.second
  | .method other plain base values, ok => by
    obtain ⟨func, args⟩ := Bool.and_eq_true_iff.mp ok
    obtain ⟨object, _⟩ := Bool.and_eq_true_iff.mp func
    rw [operands, if_neg other, if_neg (fun joined => plain joined.1 joined.2)]
    exact coversAppend (coversMember base object (coversOf base object)).first
      (coversAll values args gathersArguments.second)
  | .applied computed free callee values, ok => by
    obtain ⟨func, args⟩ := Bool.and_eq_true_iff.mp ok
    rw [operandsApplied computed free]
    exact coversAppend (coversWrapped callee func (coversOf callee func)).first
      (coversAll values args gathersArguments.second)
  | .floorDiv first second, ok => by
    obtain ⟨left, right⟩ := Bool.and_eq_true_iff.mp ok
    exact coversAppend (coversWrapped first left (coversOf first left)).second.first.first.first
      (coversWrapped second right (coversOf second right)).second.first
  | .binary first second operator, ok => by
    obtain ⟨left, right⟩ := Bool.and_eq_true_iff.mp ok
    exact coversAppend (coversWrapped first left (coversOf first left)).first.first
      (coversWrapped second right (coversOf second right)).second
  | .unary inner, ok => (coversWrapped inner ok (coversOf inner ok)).second
  | .boolean all, ok => coversOperands all ok gathersSeparated
  | .comparison first second form, ok => by
    obtain ⟨left, right⟩ := Bool.and_eq_true_iff.mp ok
    obtain ⟨right, _⟩ := Bool.and_eq_true_iff.mp right
    obtain ⟨pair, before, after⟩ := coversComparison first second left right (coversOf first left) (coversOf second right) form
    exact coversAppend before (coversAppend (coversAppend pair after) coversNil)
  | .chain several all, ok => by
    obtain ⟨left, rest⟩ := Bool.and_eq_true_iff.mp ok
    obtain ⟨links, before⟩ := coversChain all left rest gathersGroups
    cases all with
    | nil => exact coversNil
    | cons _ _ _ _ => exact coversAppend (before (by simp)) links
  | .conditional first second third, ok => by
    obtain ⟨both, orelse⟩ := Bool.and_eq_true_iff.mp ok
    obtain ⟨test, body⟩ := Bool.and_eq_true_iff.mp both
    exact coversAppend
      (coversAppend (coversWrapped first test (coversOf first test)).first.first.first.first
        (coversWrapped second body (coversOf second body)).second.first.first)
      (coversWrapped third orelse (coversOf third orelse)).second
  | .slice object low high, ok => by
    obtain ⟨base, range⟩ := Bool.and_eq_true_iff.mp ok
    obtain ⟨lower, upper⟩ := Bool.and_eq_true_iff.mp range
    exact coversAppend (coversWrapped object base (coversOf object base)).first.first.first.first.first
      (coversAppend (coversBound low lower).second.first.first.first (coversOf high upper).second.first)
  | .sliceRest object low, ok => by
    obtain ⟨base, range⟩ := Bool.and_eq_true_iff.mp ok
    obtain ⟨lower, _⟩ := Bool.and_eq_true_iff.mp range
    exact coversAppend (coversWrapped object base (coversOf object base)).first.first.first
      (coversAppend (coversBound low lower).second.first coversNil)
  | .fromEnd counted object inner, ok => by
    obtain ⟨base, index⟩ := Bool.and_eq_true_iff.mp ok
    exact coversAppend (coversWrapped object base (coversOf object base)).first.first.first
      (coversOf inner index).second.first
  | .subscript plain object inner, ok => by
    obtain ⟨base, index⟩ := Bool.and_eq_true_iff.mp ok
    exact coversAppend (coversWrapped object base (coversOf object base)).first.first.first
      (coversOf inner index).second.first
  | .list all, ok => coversAll all ok gathersSeparated.second.first
  | .tuple all, ok => coversAll all ok gathersSeparated.second.first
  | .dict all, ok => coversEntries all ok gathersSeparated.second.first
  | .joined all, ok => by
    obtain ⟨parts, _⟩ := Bool.and_eq_true_iff.mp ok
    exact coversParts all parts gathersConcat.second.first
  | .lambda plain inner, ok => by
    obtain ⟨_, body⟩ := Bool.and_eq_true_iff.mp ok
    exact (coversBody (coversOf inner body)).within .body
  | .listComp all, ok => by
    obtain ⟨item, clauses⟩ := Bool.and_eq_true_iff.mp ok
    exact coversComprehension all item clauses
  | .generator all, ok => by
    obtain ⟨item, clauses⟩ := Bool.and_eq_true_iff.mp ok
    exact coversComprehension all item clauses
  | .assigned inner, ok => by
    obtain ⟨_, value⟩ := Bool.and_eq_true_iff.mp ok
    exact (coversOf inner value).second

theorem coversAll {s es codes c} : PrintsAll s es codes → formedAll es → Gathers c codes → Covers c (operandsAll s es)
  | .nil, _, _ => coversNil
  | .cons head tail, ok, all => by
    obtain ⟨first, rest⟩ := Bool.and_eq_true_iff.mp ok
    exact coversAppend ((coversOf head first).gathered List.mem_cons_self all) (coversAll tail rest all.tail)

theorem coversOperands {s es codes c} : PrintsOperands s es codes → formedAll es → Gathers c codes →
    Covers c (operandsJoined s es)
  | .nil, _, _ => coversNil
  | .cons head tail, ok, all => by
    obtain ⟨first, rest⟩ := Bool.and_eq_true_iff.mp ok
    exact coversAppend ((coversWrapped head first (coversOf head first)).gathered List.mem_cons_self all)
      (coversOperands tail rest all.tail)

theorem coversBound {s bound c} : PrintsBound s bound c → formedOption bound → Covers c (operandsOption s bound)
  | .none, _ => coversNil
  | .some inner, ok => coversOf inner ok

theorem coversChain {s left rest parts c} : PrintsChain s left rest parts → formed left → formedComparisons rest →
    Gathers c parts → Covers c (operandsCompared s left rest) ∧ (rest ≠ [] → Covers c (operands s left))
  | .nil, _, _, _ => ⟨coversNil, absurd rfl⟩
  | .cons first second form tail, left, ok, all => by
    obtain ⟨right, rest⟩ := Bool.and_eq_true_iff.mp ok
    obtain ⟨pair, before, after⟩ := coversComparison first second left right (coversOf first left) (coversOf second right) form
    have held {ps : List Placed} (h : Covers _ ps) := h.gathered List.mem_cons_self all
    exact ⟨coversAppend (coversAppend (held pair) (held after)) (coversChain tail right rest all.tail).1,
      fun _ => held before⟩

theorem coversEntries {s entries codes c} : PrintsEntries s entries codes → formedEntries entries → Gathers c codes →
    Covers c (operandsEntries s entries)
  | .nil, _, _ => coversNil
  | .spread head tail, ok, all => by
    obtain ⟨first, rest⟩ := Bool.and_eq_true_iff.mp ok
    exact coversAppend ((coversWrapped head first (coversOf head first)).second.gathered List.mem_cons_self all)
      (coversEntries tail rest all.tail)
  | .literal text name head tail, ok, all => by
    obtain ⟨pair, rest⟩ := Bool.and_eq_true_iff.mp ok
    obtain ⟨key, value⟩ := Bool.and_eq_true_iff.mp pair
    exact coversAppend (coversAppend ((coversOf name key).first.first.gathered List.mem_cons_self all)
      ((coversOf head value).second.gathered List.mem_cons_self all)) (coversEntries tail rest all.tail)
  | .computed code name head tail, ok, all => by
    obtain ⟨pair, rest⟩ := Bool.and_eq_true_iff.mp ok
    obtain ⟨key, value⟩ := Bool.and_eq_true_iff.mp pair
    exact coversAppend (coversAppend ((coversOf name key).second.first.first.first.gathered List.mem_cons_self all)
      ((coversOf head value).second.gathered List.mem_cons_self all)) (coversEntries tail rest all.tail)

theorem coversParts {s parts codes c} : PrintsParts s parts codes → formedAll parts → Gathers c codes →
    Covers c (operandsAll s parts)
  | .nil, _, _ => coversNil
  | .text tail, ok, all => by
    obtain ⟨_, rest⟩ := Bool.and_eq_true_iff.mp ok
    exact coversAppend coversNil (coversParts tail rest all.tail)
  | .formatted head tail, ok, all => by
    obtain ⟨value, rest⟩ := Bool.and_eq_true_iff.mp ok
    exact coversAppend ((coversOf head value).second.first.gathered List.mem_cons_self all)
      (coversParts tail rest all.tail)

theorem coversComprehension {s item clauses c} : PrintsComprehension s item clauses c → formed item →
    formedClauses clauses → Covers c (operandsClauses s clauses ++ operands (s.bind (boundNames clauses)) item)
  | .mk binder outer guards element, ok, all => by
    simp only [formedClauses, Bool.and_true, Bool.and_eq_true] at all
    obtain ⟨⟨_, iter⟩, conditions⟩ := all
    rw [boundNames, boundNames, List.append_nil, operandsClauses, targetNames binder]
    exact coversAppend
      (coversAppend (coversWrapped outer iter (coversOf outer iter)).first.first.first.first
        (coversAll guards conditions gathersFilters.second.first.first.first))
      ((coversOf element ok).within .body).second.first

end

end Induction

def insideText (e : Expr) (t : String) : String := if e.isCompound then parens t else t

theorem insideWritten {e : Expr} {c : Code} : (wrapped e c).write = insideText e c.write := by
  unfold wrapped insideText
  split <;> rfl

/-- Every operand in printed code is written in parentheses or has no operator outside of its brackets and texts, if
and only if it is not exposed. -/
theorem operandsGrouped {s : Scope} {e : Expr} {text : String} (ok : formed e) (printed : print s e = .ok text) :
    ∀ o ∈ operands s e, ∃ t before after, print o.1 o.2 = .ok t ∧ text = before ++ insideText o.2 t ++ after ∧
      operatorOutside? (insideText o.2 t) = some (exposed o.1 o.2) := by
  intro o mem
  obtain ⟨c, coded, rfl⟩ := mapOk.mp printed
  obtain ⟨formed, d, operand, held⟩ := coversOf (printsOf e coded) ok o mem
  obtain ⟨before, after, written⟩ := held.written
  have reads := readsWrapped (outlinedOf followsReceiver operand formed)
  rw [charsWrite] at reads
  rw [insideWritten] at written reads
  exact ⟨d.write, before, after, mapOk.mpr ⟨d, codeOf operand, rfl⟩, written, readsOutside reads⟩

def setOne : Expr := .call 1 (.name "setattr") [.name "self", .constant (.text "n" false), .constant (.whole 1)] []

def setOneOr : Expr := .boolean .or [setOne, .constant (.whole 2)]

theorem setterOperands : print {} setOneOr = .ok "this.n = 1 || 2" ∧ formed setOneOr ∧
    ∀ o ∈ operands {} setOneOr, ∃ t before after, print o.1 o.2 = .ok t ∧
      "this.n = 1 || 2" = before ++ insideText o.2 t ++ after ∧
      operatorOutside? (insideText o.2 t) = some (exposed o.1 o.2) := by
  have printed : print {} setOneOr = .ok "this.n = 1 || 2" := by decide +kernel
  exact ⟨printed, by decide, operandsGrouped (by decide) printed⟩

theorem setterUngrouped : ({}, setOne) ∈ operands {} setOneOr ∧ print {} setOne = .ok "this.n = 1" ∧
    print {} setOneOr = .ok (insideText setOne "this.n = 1" ++ " || 2") ∧
    operatorOutside? (insideText setOne "this.n = 1") = some true :=
  ⟨List.mem_cons_self, by decide +kernel, by decide +kernel, by decide +kernel⟩

end LiveMarkup.Client
