import LiveMarkup.Client.Print
import LiveMarkup.Proofs.Analysis.Rename
/-! The component under another name. Its name decides nothing but which variable is the component: called by a
name that is free, it is printed alike, and the same fields are touched in the same order. -/
namespace LiveMarkup.Client
open Syntax Analysis

def Unspecial (tag name : String) : Prop :=
  name ≠ tag ∧ name ≠ "setattr" ∧ name ≠ "len" ∧ function? name = none

instance {tag name : String} : Decidable (Unspecial tag name) := inferInstanceAs (Decidable (_ ∧ _))

def swap (old new id : String) : String := if id = old then new else id

structure Swappable (old new : String) (bound occurring : List String) : Prop where
  kept : old ∉ bound
  unbound : new ∉ bound
  absent : new ∉ occurring

section Names

variable {old new id : String} {b b' m m' names : List String}

theorem apartAppend (h : Swappable old new (b ++ b') (m ++ m')) : Swappable old new b m ∧ Swappable old new b' m' := by
  obtain ⟨kept, unbound, absent⟩ := h
  simp only [List.mem_append, not_or] at kept unbound absent
  exact ⟨⟨kept.1, unbound.1, absent.1⟩, kept.2, unbound.2, absent.2⟩

theorem apartTail {id : String} (h : Swappable old new b (id :: m)) : Swappable old new b m :=
  ⟨h.kept, h.unbound, fun mem => h.absent (List.mem_cons_of_mem _ mem)⟩

theorem apartBound (h : Swappable old new (names ++ b) m) : (old ∉ names ∧ new ∉ names) ∧ Swappable old new b m := by
  obtain ⟨kept, unbound, absent⟩ := h
  simp only [List.mem_append, not_or] at kept unbound
  exact ⟨⟨kept.1, unbound.1⟩, kept.2, unbound.2, absent⟩

theorem swapOld : swap old new old = new := if_pos rfl

theorem swapOther (other : id ≠ old) : swap old new id = id := if_neg other

theorem swapNames (kept : old ∉ names) : names.map (swap old new) = names := by
  have other : ∀ id ∈ names, swap old new id = id := by
    rintro id mem
    refine swapOther ?_
    rintro rfl
    exact kept mem
  rw [List.map_congr_left other, List.map_id']

theorem swapContains (absent : new ∉ names) : (names.map (swap old new)).contains new = names.contains old := by
  rw [Bool.eq_iff_iff, List.contains_iff_mem, List.contains_iff_mem, List.mem_map]
  constructor
  · rintro ⟨id, mem, is⟩
    unfold swap at is
    split at is
    · next same => exact same ▸ mem
    · exact absurd (is ▸ mem) absent
  · exact fun mem => ⟨old, mem, swapOld⟩

end Names

section Printing

variable {s : Scope} {new : String} {e : Expr} {c : Code}

theorem renamedWrapped {f : String → String} : wrapped (rename f e) c = wrapped e c := by
  rw [wrapped, wrapped, renamedCompound]

theorem renamedBody {f : String → String} : arrowBody (rename f e) c = arrowBody e c := by cases e <;> rfl

theorem renamedCounts {f : String → String} : countsFromEnd (rename f e) = countsFromEnd e := by
  cases e with
  | unary op operand => cases op <;> cases operand <;> rfl
  | _ => rfl

theorem renamedReceiver {id : String} (absent : id ≠ new) :
    Scope.isReceiver { s with receiver := new } (swap s.receiver new id) = s.isReceiver id := by
  unfold Scope.isReceiver swap
  split
  · next same => simp [same]
  · next other => rw [beq_false_of_ne absent, beq_false_of_ne other]

theorem renamedComponent (absent : new ∉ mentioned e) :
    isComponent { s with receiver := new } (rename (swap s.receiver new) e) = isComponent s e := by
  cases e with
  | name id => exact renamedReceiver fun same => absent (same ▸ List.mem_singleton_self id)
  | _ => rfl

theorem renamedMember {name shown : String} (absent : new ∉ mentioned e) :
    memberCode { s with receiver := new } (rename (swap s.receiver new) e) c name shown =
      memberCode s e c name shown := by
  rw [memberCode, memberCode, renamedComponent absent, renamedWrapped]

theorem renamedName {id : String} (open' : s.hidden = false) (absent : id ≠ new) :
    nameCode { s with receiver := new } (swap s.receiver new id) = nameCode s id := by
  rw [nameCode, nameCode, renamedReceiver absent]
  split
  · rfl
  · next other =>
    have apart : id ≠ s.receiver := by
      rintro rfl
      exact other (by simp [Scope.isReceiver, open'])
    rw [swapOther apart]

theorem renamedComparison {f : String → String} {op : CompareOp} {left right : Expr} {l r : Coded} :
    comparison op (rename f left) (rename f right) l r = comparison op left right l r := by
  simp only [comparison, renamedWrapped, renamedNull]

theorem renamedItems {f : String → String} {g : Expr → Option String} {items : List Expr}
    (kept : ∀ e ∈ items, g (rename f e) = g e) : (renameAll f items).mapM g = items.mapM g := by
  induction items with
  | nil => rfl
  | cons e rest ih =>
    obtain ⟨first, tail⟩ := List.forall_mem_cons.mp kept
    rw [renameAll, List.mapM_cons, List.mapM_cons, first, ih tail]

theorem storedMember {items : List Expr} {id : String} (h : .name id ∈ items) : id ∈ storedAll items := by
  induction items with
  | nil => cases h
  | cons e rest ih =>
    rcases List.mem_cons.mp h with rfl | h
    · exact List.mem_append_left _ (List.mem_singleton_self id)
    · exact List.mem_append_right _ (ih h)

theorem renamedTarget {f : String → String} {target : Expr} (kept : ∀ id ∈ stored target, f id = id) :
    comprehensionTarget (rename f target) = comprehensionTarget target := by
  cases target with
  | name id =>
    rw [rename, kept id (List.mem_singleton_self id)]
  | tuple items =>
    rw [rename, comprehensionTarget, comprehensionTarget, renamedItems]
    intro e mem
    cases e with
    | name id => exact congrArg some (kept id (storedMember mem))
    | _ => rfl
  | _ => rfl

theorem namesStored {items : List Expr} {names : List String}
    (h : (items.mapM fun | .name id => some id | _ => none) = some names) : storedAll items = names := by
  induction items generalizing names with
  | nil =>
    cases h
    rfl
  | cons e rest ih =>
    rw [List.mapM_cons] at h
    cases e with
    | name id =>
      obtain ⟨_, named, h⟩ := Option.bind_eq_some_iff.mp h
      cases named
      obtain ⟨others, found, h⟩ := Option.bind_eq_some_iff.mp h
      cases h
      rw [storedAll, ih found]
      rfl
    | _ => cases h

theorem targetStored {target : Expr} {listed : Bool} {names : List String}
    (h : comprehensionTarget target = .ok (listed, names)) : stored target = names := by
  unfold comprehensionTarget at h
  split at h
  · cases h
    rfl
  · split at h
    · next found =>
      cases h
      exact namesStored found
    · cases h
  · cases h

theorem bindOther {names : List String} (open' : s.hidden = false) (kept : s.receiver ∉ names) : s.bind names = s := by
  obtain ⟨receiver, tag, hidden⟩ := s
  cases open'
  simp [Scope.bind, kept]

theorem renamedCall {func : Expr} {args : List Expr} {codes : List Code} {base : Coded}
    (plain : Unspecial s.tag s.receiver ∧ Unspecial s.tag new) (callee : new ∉ mentioned func)
    (values : new ∉ mentionedAll args) :
    callCode { s with receiver := new } (rename (swap s.receiver new) func) (renameAll (swap s.receiver new) args)
      codes base = callCode s func args codes base := by
  cases func with
  | name id =>
    by_cases same : id = s.receiver
    · subst same
      obtain ⟨⟨tag, assigned, measured, mapped⟩, tag', assigned', measured', mapped'⟩ := plain
      simp [rename, swapOld, callCode, tag, assigned, measured, mapped, tag', assigned', measured', mapped']
    · rw [rename, swapOther same]
      rcases args with _ | ⟨target, rest⟩
      · rfl
      have written : new ∉ mentioned target := fun mem => values (List.mem_append_left _ mem)
      rcases rest with _ | ⟨field, _ | ⟨third, _ | ⟨_, _⟩⟩⟩ <;>
        rcases codes with _ | ⟨_, _ | ⟨_, _ | ⟨_, _ | ⟨_, _⟩⟩⟩⟩ <;>
        simp only [callCode, renameAll, renamedText, renamedWrapped, renamedMember written]
  | field object name =>
    rcases args with _ | ⟨a, _ | ⟨b, rest⟩⟩ <;> rcases codes with _ | ⟨x, _ | ⟨y, more⟩⟩ <;>
      simp only [rename, callCode, renameAll, renamedWrapped, renamedMember (e := object) callee]
  | _ => rfl

theorem apartNames {params : LambdaParams} {old : String} (h : old ∉ params.allNames) : old ∉ params.names := by
  obtain ⟨⟩ := params
  simp only [LambdaParams.allNames, LambdaParams.names, LambdaParams.positionalOnly, LambdaParams.positional,
    List.mem_append, not_or] at h ⊢
  exact h.1.1.1

theorem callCoded {line : Nat} {func : Expr} {args : List Expr} {keywords : List Keyword}
    (free : ∀ object name, func ≠ .field object name) :
    code s (.call line func args keywords) = (do
      if !keywords.isEmpty then throw .keywordArguments
      let codes ← codeAll s args
      callCode s func args codes (code s func)) := by
  rw [code]
  exact free

theorem indexCoded {base index : Expr} (free : ∀ lower upper step, index ≠ .slice lower upper step) :
    code s (.subscript base index) = (do
      let value := wrapped base (← code s base)
      let i ← code s index
      return if countsFromEnd index then value ++ ".at(" ++ i ++ ")" else value ++ "[" ++ i ++ "]") := by
  rw [code]
  exact free

-- The induction is on the expression. A function or a comprehension leaves the scope as it is, since it binds
-- neither name.
section Expressions

set_option linter.unusedSectionVars false

variable (plain : Unspecial s.tag s.receiver ∧ Unspecial s.tag new) (unhidden : s.hidden = false)
include plain unhidden

mutual

theorem codeRenamed : (e : Expr) → Swappable s.receiver new (rebound e) (mentioned e) →
    code { s with receiver := new } (rename (swap s.receiver new) e) = code s e
  | .constant _, _ => rfl
  | .name id, h => by
    have absent : id ≠ new := fun same => h.absent (same ▸ List.mem_singleton_self id)
    rw [rename, code, code, renamedName unhidden absent]
  | .field base name, h => by
    simp only [rename, code, codeRenamed base h, renamedMember (e := base) h.absent]
  | .starred value, h => by simp only [rename, code, codeRenamed value h, renamedWrapped]
  | .call line func args keywords, h => by
    obtain ⟨front, _⟩ := apartAppend h
    obtain ⟨callee, values⟩ := apartAppend front
    have applied := codeRenamed func callee
    have given := codesRenamed args values
    cases func with
    | field object name =>
      have called (codes : List Code) :=
        @renamedCall s new (.field object name) args codes (code s object) plain callee.absent values.absent
      simp only [rename] at called
      simp only [rename, code, given, codeRenamed object callee, renamedKeywords, called]
    | _ =>
      rw [rename, callCoded (by simp [rename]), callCoded (by simp), given, applied, renamedKeywords]
      simp only [renamedCall plain callee.absent values.absent]
  | .binary left op right, h => by
    obtain ⟨first, second⟩ := apartAppend h
    simp only [rename, code, codeRenamed left first, codeRenamed right second, renamedWrapped]
  | .unary op operand, h => by simp only [rename, code, codeRenamed operand h, renamedWrapped]
  | .boolean op operands, h => by simp only [rename, code, operandsRenamed operands h]
  | .compare left rest, h => by
    obtain ⟨first, others⟩ := apartAppend h
    simp only [rename, code, codeRenamed left first, chainRenamed left rest others]
  | .conditional test body orelse, h => by
    obtain ⟨both, third⟩ := apartAppend h
    obtain ⟨first, second⟩ := apartAppend both
    simp only [rename, code, codeRenamed test first, codeRenamed body second, codeRenamed orelse third, renamedWrapped]
  | .subscript base index, h => by
    obtain ⟨first, second⟩ := apartAppend h
    have object := codeRenamed base first
    have inner := codeRenamed index second
    cases index with
    | slice lower upper step =>
      obtain ⟨bounds, _⟩ := apartAppend second
      obtain ⟨low, high⟩ := apartAppend bounds
      cases upper with
      | none => simp only [rename, code, object, boundCoded lower low, renamedWrapped, renamedSome, renameOption]
      | some upper =>
        simp only [rename, code, object, boundCoded lower low, codeRenamed upper high, renamedWrapped, renamedSome,
          renameOption]
    | _ =>
      rw [rename, indexCoded (by simp [rename]), indexCoded (by simp), object, inner, renamedCounts]
      simp only [renamedWrapped]
  | .list items, h => by simp only [rename, code, codesRenamed items h]
  | .tuple items, h => by simp only [rename, code, codesRenamed items h]
  | .dict entries, h => by simp only [rename, code, entriesCoded entries h]
  | .joined parts, h => by simp only [rename, code, partsCoded parts h]
  | .lambda params body, h => by
    obtain ⟨⟨kept, unbound⟩, inside⟩ := apartBound h
    obtain ⟨_, inner⟩ := apartAppend inside
    have outer := apartNames kept
    have names : (renameParams (swap s.receiver new) params).names = params.names := by
      rw [renamedNames, swapNames outer]
    have same : Scope.bind { s with receiver := new } params.names = { s with receiver := new } :=
      bindOther unhidden (apartNames unbound)
    simp only [rename, code, renamedPlain, names, same, bindOther unhidden outer, codeRenamed body inner, renamedBody]
  | .listComp item clauses, h | .generator item clauses, h => by
    obtain ⟨element, sources⟩ := apartAppend h
    rw [rename, code, code]
    exact comprehensionCoded clauses sources (codeRenamed item element)
  | .assigned target value, h => by
    obtain ⟨⟨kept, unbound⟩, inner⟩ := apartBound h
    have absent : target ≠ new := fun same => unbound (same ▸ List.mem_singleton_self target)
    simp only [rename, code, renamedName unhidden absent, codeRenamed value (apartTail inner)]
  | .slice _ _ _, _ | .set _, _ | .setComp _ _, _ | .dictComp _ _ _, _ | .formatted _ _ _, _ | .await _, _
  | .yield _, _ | .yieldFrom _, _ => rfl

theorem codesRenamed : (es : List Expr) → Swappable s.receiver new (reboundAll es) (mentionedAll es) →
    codeAll { s with receiver := new } (renameAll (swap s.receiver new) es) = codeAll s es
  | [], _ => rfl
  | e :: rest, h => by
    obtain ⟨first, others⟩ := apartAppend h
    simp only [renameAll, codeAll, codeRenamed e first, codesRenamed rest others]

theorem operandsRenamed : (es : List Expr) → Swappable s.receiver new (reboundAll es) (mentionedAll es) →
    codeOperands { s with receiver := new } (renameAll (swap s.receiver new) es) = codeOperands s es
  | [], _ => rfl
  | e :: rest, h => by
    obtain ⟨first, others⟩ := apartAppend h
    simp only [renameAll, codeOperands, codeRenamed e first, operandsRenamed rest others, renamedWrapped]

theorem boundCoded : (e : Option Expr) → Swappable s.receiver new (reboundOption e) (mentionedOption e) →
    codeBound { s with receiver := new } (renameOption (swap s.receiver new) e) = codeBound s e
  | none, _ => rfl
  | some e, h => codeRenamed e h

theorem chainRenamed (left : Expr) : (rest : List Comparison) → {l : Coded} →
    Swappable s.receiver new (reboundComparisons rest) (mentionedComparisons rest) →
    codeChain { s with receiver := new } (rename (swap s.receiver new) left) l
      (renameComparisons (swap s.receiver new) rest) = codeChain s left l rest
  | [], _, _ => rfl
  | .mk op right :: rest, _, h => by
    obtain ⟨first, others⟩ := apartAppend h
    simp only [renameComparisons, codeChain, codeRenamed right first, chainRenamed right rest others, renamedComparison]

theorem entriesCoded : (es : List Entry) → Swappable s.receiver new (reboundEntries es) (mentionedEntries es) →
    codeEntries { s with receiver := new } (renameEntries (swap s.receiver new) es) = codeEntries s es
  | [], _ => rfl
  | .spread value :: rest, h => by
    obtain ⟨first, others⟩ := apartAppend h
    simp only [renameEntries, codeEntries, codeRenamed value first, entriesCoded rest others, renamedWrapped]
  | .pair key value :: rest, h => by
    obtain ⟨both, others⟩ := apartAppend h
    obtain ⟨first, second⟩ := apartAppend both
    simp only [renameEntries, codeEntries, codeRenamed key first, codeRenamed value second, entriesCoded rest others,
      renamedText]

theorem partsCoded : (es : List Expr) → Swappable s.receiver new (reboundAll es) (mentionedAll es) →
    codeParts { s with receiver := new } (renameAll (swap s.receiver new) es) = codeParts s es
  | [], _ => rfl
  | e :: rest, h => by
    obtain ⟨first, others⟩ := apartAppend h
    cases e with
    | constant k => cases k <;> simp only [renameAll, rename, codeParts, partsCoded rest others]
    | formatted value conversion spec =>
      obtain ⟨inner, _⟩ := apartAppend first
      simp only [renameAll, rename, renamedSome, codeParts, codeRenamed value inner, partsCoded rest others]
    | _ => simp only [renameAll, rename, codeParts, Expr.kind]

theorem comprehensionCoded : (clauses : List Clause) → {inside outside : Scope → Coded} →
    Swappable s.receiver new (reboundClauses clauses) (mentionedClauses clauses) →
    (inside { s with receiver := new } = outside s) →
    codeComprehension { s with receiver := new } inside (renameClauses (swap s.receiver new) clauses) =
      codeComprehension s outside clauses
  | [.mk false target iter conditions], _, _, h, element => by
    obtain ⟨⟨kept, unbound⟩, inside⟩ := apartBound h
    obtain ⟨front, _⟩ := apartAppend inside
    obtain ⟨sources, guards⟩ := apartAppend front
    obtain ⟨_, source⟩ := apartAppend sources
    have same : ∀ id ∈ stored target, swap s.receiver new id = id := by
      rintro id mem
      refine swapOther ?_
      rintro rfl
      exact kept mem
    simp only [renameClauses, codeComprehension, codeRenamed iter source, renamedWrapped, renamedTarget same]
    cases found : comprehensionTarget target with
    | error _ => rfl
    | ok shape =>
      obtain ⟨listed, names⟩ := shape
      rw [targetStored found] at kept unbound
      have scope : Scope.bind { s with receiver := new } names = { s with receiver := new } :=
        bindOther unhidden unbound
      simp only [bind, Except.bind, scope, bindOther unhidden kept, codesRenamed conditions guards, element]
  | .mk true _ _ _ :: rest, _, _, _, _ => by cases rest with | nil => rfl | cons c _ => cases c; rfl
  | .mk false _ _ _ :: .mk _ _ _ _ :: _, _, _, _, _ | [], _, _, _, _ => rfl

end

end Expressions

theorem bodyRenamed {params : LambdaParams} {body : Expr} (plain : Unspecial s.tag s.receiver ∧ Unspecial s.tag new)
    (unhidden : s.hidden = false) (h : Swappable s.receiver new (rebound (.lambda params body)) (mentioned (.lambda params body))) :
    bodyCode { s with receiver := new } (renameParams (swap s.receiver new) params) (rename (swap s.receiver new) body) =
      bodyCode s params body := by
  obtain ⟨⟨kept, unbound⟩, inside⟩ := apartBound h
  obtain ⟨_, inner⟩ := apartAppend inside
  have outer := apartNames kept
  have names : (renameParams (swap s.receiver new) params).names = params.names := by
    rw [renamedNames, swapNames outer]
  have same : Scope.bind { s with receiver := new } params.names = { s with receiver := new } :=
    bindOther unhidden (apartNames unbound)
  have whole := codeRenamed plain unhidden body inner
  simp only [bodyCode, renamedPlain, names, same, bindOther unhidden outer]
  cases body with
  | tuple items => simp only [rename, codesRenamed plain unhidden items inner]
  | _ =>
    simp only [rename] at whole ⊢
    rw [whole]

end Printing

section Touching

variable {old new tag : String} {hidden : Bool}

theorem renamedTouched {e : Expr} (absent : new ∉ mentioned e) :
    Analysis.isReceiver ⟨new, tag, hidden⟩ (rename (swap old new) e) = Analysis.isReceiver ⟨old, tag, hidden⟩ e := by
  cases e with
  | name id =>
    have apart : id ≠ new := fun same => absent (same ▸ List.mem_singleton_self id)
    exact renamedReceiver (s := ⟨old, tag, hidden⟩) apart
  | _ => rfl

theorem plainWritten {s : Scope} {id : String} {args : List Expr} (other : id ≠ "setattr") : writtenBy? s (.name id) args = none := by
  unfold writtenBy?
  split <;> simp_all

theorem renamedWritten {func : Expr} {args : List Expr} (plain : old ≠ "setattr" ∧ new ≠ "setattr")
    (callee : new ∉ mentioned func) (values : new ∉ mentionedAll args) :
    writtenBy? ⟨new, tag, hidden⟩ (rename (swap old new) func) (renameAll (swap old new) args) =
      writtenBy? ⟨old, tag, hidden⟩ func args := by
  cases func with
  | name id =>
    by_cases assigns : id = "setattr"
    · subst assigns
      rw [rename, swapOther plain.1.symm]
      rcases args with _ | ⟨target, _ | ⟨field, rest⟩⟩
      · rfl
      · rfl
      · have written : new ∉ mentioned target := fun mem => values (List.mem_append_left _ mem)
        simp only [writtenBy?, renameAll, renamedTouched written, renamedText]
    · have other : swap old new id ≠ "setattr" := by
        unfold swap
        split
        · exact plain.2
        · exact assigns
      rw [rename, plainWritten assigns, plainWritten other]
  | field object method =>
    cases object with
    | field target name =>
      simp only [rename, writtenBy?, renamedTouched (e := target) callee]
    | _ => rfl
  | _ => rfl

theorem bindSwapped {names : List String} (absent : new ∉ names) :
    Scope.bind ⟨new, tag, hidden⟩ (names.map (swap old new)) = ⟨new, tag, hidden || names.contains old⟩ := by
  rw [Scope.bind, swapContains absent]

theorem bindOld {names : List String} : Scope.bind ⟨old, tag, hidden⟩ names = ⟨old, tag, hidden || names.contains old⟩ :=
  rfl

theorem boundMentioned {clauses : List Clause} (absent : new ∉ mentionedClauses clauses) : new ∉ boundNames clauses := by
  induction clauses with
  | nil => exact absent
  | cons c rest ih =>
    obtain ⟨_, target, iter, conditions⟩ := c
    simp only [mentionedClauses, boundNames, List.mem_append, not_or] at absent ⊢
    exact ⟨absent.1.1.1, ih absent.2⟩

section Expressions

set_option linter.unusedSectionVars false

variable (plain : old ≠ "setattr" ∧ new ≠ "setattr")
include plain

-- The induction is on the expression, for every scope: a function or a comprehension may hide the component under
-- both names.
mutual

theorem touchRenamed : (e : Expr) → {hidden : Bool} → {t : Touched} →
    Swappable old new (rebound e) (mentioned e) →
    touch ⟨new, tag, hidden⟩ t (rename (swap old new) e) = touch ⟨old, tag, hidden⟩ t e
  | .constant _, _, _, _ | .name _, _, _, _ => rfl
  | .field base name, _, _, h => by
    simp only [rename, touch, renamedTouched (e := base) h.absent, touchRenamed base h]
  | .starred value, _, _, h | .unary _ value, _, _, h | .await value, _, _, h
  | .yieldFrom value, _, _, h => touchRenamed value h
  | .assigned _ value, _, _, h => touchRenamed value (apartTail (apartBound h).2)
  | .call line func args keywords, _, _, h => by
    obtain ⟨front, options⟩ := apartAppend h
    obtain ⟨callee, values⟩ := apartAppend front
    simp only [rename, touch, renamedWritten plain callee.absent values.absent, touchRenamed func callee,
      allTouched args values, keywordsTouched keywords options]
  | .binary left _ right, _, _, h | .subscript left right, _, _, h => by
    obtain ⟨first, second⟩ := apartAppend h
    simp only [rename, touch, touchRenamed left first, touchRenamed right second]
  | .slice lower upper step, _, _, h => by
    obtain ⟨both, third⟩ := apartAppend h
    obtain ⟨first, second⟩ := apartAppend both
    simp only [rename, touch, optionTouched lower first, optionTouched upper second, optionTouched step third]
  | .boolean _ items, _, _, h | .list items, _, _, h | .tuple items, _, _, h | .set items, _, _, h
  | .joined items, _, _, h => allTouched items h
  | .compare left rest, _, _, h => by
    obtain ⟨first, others⟩ := apartAppend h
    simp only [rename, touch, touchRenamed left first, comparisonsTouched rest others]
  | .conditional test body orelse, _, _, h => by
    obtain ⟨both, third⟩ := apartAppend h
    obtain ⟨first, second⟩ := apartAppend both
    simp only [rename, touch, touchRenamed test first, touchRenamed body second, touchRenamed orelse third]
  | .lambda params body, _, _, h => by
    obtain ⟨⟨_, unbound⟩, inside⟩ := apartBound h
    obtain ⟨defaults, inner⟩ := apartAppend inside
    simp only [rename, touch, renamedNames, bindOld, bindSwapped (apartNames unbound)]
    rw [paramsTouched params defaults, touchRenamed body inner]
  | .dict entries, _, _, h => by
    simp only [rename, touch, keysTouched entries h, valuesTouched entries h]
  | .listComp item clauses, _, _, h | .setComp item clauses, _, _, h
  | .generator item clauses, _, _, h => by
    obtain ⟨element, sources⟩ := apartAppend h
    simp only [rename, touch, boundRenamed, bindOld, bindSwapped (boundMentioned sources.absent)]
    rw [sourceTouched clauses sources, touchRenamed item element, clausesTouched clauses sources]
  | .dictComp key value clauses, _, _, h => by
    obtain ⟨elements, sources⟩ := apartAppend h
    obtain ⟨first, second⟩ := apartAppend elements
    simp only [rename, touch, boundRenamed, bindOld, bindSwapped (boundMentioned sources.absent)]
    rw [sourceTouched clauses sources, touchRenamed key first, touchRenamed value second,
      clausesTouched clauses sources]
  | .formatted value _ spec, _, _, h => by
    obtain ⟨first, second⟩ := apartAppend h
    simp only [rename, touch, touchRenamed value first, optionTouched spec second]
  | .yield value, _, _, h => optionTouched value h

theorem allTouched : (es : List Expr) → {hidden : Bool} → {t : Touched} →
    Swappable old new (reboundAll es) (mentionedAll es) →
    touchAll ⟨new, tag, hidden⟩ t (renameAll (swap old new) es) = touchAll ⟨old, tag, hidden⟩ t es
  | [], _, _, _ => rfl
  | e :: rest, _, _, h => by
    obtain ⟨first, others⟩ := apartAppend h
    simp only [renameAll, touchAll, touchRenamed e first, allTouched rest others]

theorem optionTouched : (e : Option Expr) → {hidden : Bool} → {t : Touched} →
    Swappable old new (reboundOption e) (mentionedOption e) →
    touchOption ⟨new, tag, hidden⟩ t (renameOption (swap old new) e) = touchOption ⟨old, tag, hidden⟩ t e
  | none, _, _, _ => rfl
  | some e, _, _, h => touchRenamed e h

theorem optionsTouched : (es : List (Option Expr)) → {hidden : Bool} → {t : Touched} →
    Swappable old new (reboundOptions es) (mentionedOptions es) →
    touchOptions ⟨new, tag, hidden⟩ t (renameOptions (swap old new) es) = touchOptions ⟨old, tag, hidden⟩ t es
  | [], _, _, _ => rfl
  | e :: rest, _, _, h => by
    obtain ⟨first, others⟩ := apartAppend h
    simp only [renameOptions, touchOptions, optionTouched e first, optionsTouched rest others]

theorem keywordsTouched : (ks : List Keyword) → {hidden : Bool} → {t : Touched} →
    Swappable old new (reboundKeywords ks) (mentionedKeywords ks) →
    touchKeywords ⟨new, tag, hidden⟩ t (renameKeywords (swap old new) ks) = touchKeywords ⟨old, tag, hidden⟩ t ks
  | [], _, _, _ => rfl
  | .named _ value :: rest, _, _, h | .spread value :: rest, _, _, h => by
    obtain ⟨first, others⟩ := apartAppend h
    simp only [renameKeywords, touchKeywords, touchRenamed value first, keywordsTouched rest others]

theorem comparisonsTouched : (cs : List Comparison) → {hidden : Bool} → {t : Touched} →
    Swappable old new (reboundComparisons cs) (mentionedComparisons cs) →
    touchComparisons ⟨new, tag, hidden⟩ t (renameComparisons (swap old new) cs) = touchComparisons ⟨old, tag, hidden⟩ t cs
  | [], _, _, _ => rfl
  | .mk _ right :: rest, _, _, h => by
    obtain ⟨first, others⟩ := apartAppend h
    simp only [renameComparisons, touchComparisons, touchRenamed right first, comparisonsTouched rest others]

theorem keysTouched : (es : List Entry) → {hidden : Bool} → {t : Touched} →
    Swappable old new (reboundEntries es) (mentionedEntries es) →
    touchKeys ⟨new, tag, hidden⟩ t (renameEntries (swap old new) es) = touchKeys ⟨old, tag, hidden⟩ t es
  | [], _, _, _ => rfl
  | .pair key _ :: rest, _, _, h => by
    obtain ⟨both, others⟩ := apartAppend h
    obtain ⟨first, _⟩ := apartAppend both
    simp only [renameEntries, touchKeys, touchRenamed key first, keysTouched rest others]
  | .spread _ :: rest, _, _, h => keysTouched rest (apartAppend h).2

theorem valuesTouched : (es : List Entry) → {hidden : Bool} → {t : Touched} →
    Swappable old new (reboundEntries es) (mentionedEntries es) →
    touchValues ⟨new, tag, hidden⟩ t (renameEntries (swap old new) es) = touchValues ⟨old, tag, hidden⟩ t es
  | [], _, _, _ => rfl
  | .pair _ value :: rest, _, _, h => by
    obtain ⟨both, others⟩ := apartAppend h
    obtain ⟨_, second⟩ := apartAppend both
    simp only [renameEntries, touchValues, touchRenamed value second, valuesTouched rest others]
  | .spread value :: rest, _, _, h => by
    obtain ⟨first, others⟩ := apartAppend h
    simp only [renameEntries, touchValues, touchRenamed value first, valuesTouched rest others]

theorem sourceTouched : (clauses : List Clause) → {hidden : Bool} → {t : Touched} →
    Swappable old new (reboundClauses clauses) (mentionedClauses clauses) →
    touchSource ⟨new, tag, hidden⟩ t (renameClauses (swap old new) clauses) = touchSource ⟨old, tag, hidden⟩ t clauses
  | [], _, _, _ => rfl
  | .mk _ _ iter _ :: _, _, _, h => by
    obtain ⟨front, _⟩ := apartAppend (apartBound h).2
    obtain ⟨sources, _⟩ := apartAppend front
    exact touchRenamed iter (apartAppend sources).2

theorem clausesTouched : (clauses : List Clause) → {hidden : Bool} → {t : Touched} → {first : Bool} →
    Swappable old new (reboundClauses clauses) (mentionedClauses clauses) →
    touchClauses ⟨new, tag, hidden⟩ t first (renameClauses (swap old new) clauses) =
      touchClauses ⟨old, tag, hidden⟩ t first clauses
  | [], _, _, _, _ => rfl
  | .mk _ _ iter conditions :: rest, _, _, _, h => by
    obtain ⟨front, others⟩ := apartAppend (apartBound h).2
    obtain ⟨sources, guards⟩ := apartAppend front
    obtain ⟨_, source⟩ := apartAppend sources
    simp only [renameClauses, touchClauses, touchRenamed iter source, allTouched conditions guards,
      clausesTouched rest others]

theorem paramsTouched : (p : LambdaParams) → {hidden : Bool} → {t : Touched} →
    Swappable old new (reboundParams p) (mentionedParams p) →
    touchParams ⟨new, tag, hidden⟩ t (renameParams (swap old new) p) = touchParams ⟨old, tag, hidden⟩ t p
  | .mk _ _ _ _ keywordDefaults _ defaults, _, _, h => by
    obtain ⟨first, others⟩ := apartAppend h
    simp only [renameParams, touchParams, optionsTouched keywordDefaults first, allTouched defaults others]

end

end Expressions

end Touching

/-- An expression whose receiver is called by a free name, where nothing binds the old one, is printed as it was or
refused as it was, as are the statements of a function; and it touches the same fields in the same order. -/
theorem receiverRenamed {tag old new : String} {e : Expr} (plain : Unspecial tag old ∧ Unspecial tag new)
    (kept : old ∉ rebound e) (unbound : new ∉ rebound e) (absent : new ∉ mentioned e) :
    print { receiver := new, tag } (rename (swap old new) e) = print { receiver := old, tag } e ∧
      (∀ params body, e = .lambda params body →
        printBody { receiver := new, tag } (renameParams (swap old new) params) (rename (swap old new) body) =
          printBody { receiver := old, tag } params body) ∧
      fieldsOf { receiver := new, tag } (rename (swap old new) e) = fieldsOf { receiver := old, tag } e := by
  have apart : Swappable old new (rebound e) (mentioned e) := ⟨kept, unbound, absent⟩
  refine ⟨?_, ?_, ?_⟩
  · exact congrArg (Except.map Code.write) (codeRenamed (s := { receiver := old, tag }) plain rfl e apart)
  · rintro params body rfl
    exact congrArg (Except.map Code.write) (bodyRenamed (s := { receiver := old, tag }) plain rfl apart)
  · exact touchRenamed ⟨plain.1.2.1, plain.2.2.1⟩ e apart

def handler : Expr :=
  .lambda (.mk [] ["x"] none [] [] none [])
    (.tuple [.call 1 (.name "setattr") [.name "self", .constant (.text "count" false),
        .binary (.call 1 (.name "len") [.name "this"] []) .add (.name "x")] [],
      .call 1 (.field (.field (.name "self") "items") "append") [.name "this"] []])

theorem handlerRenamed :
    print { receiver := "that", tag := "html" } (rename (swap "self" "that") handler) =
        print { receiver := "self", tag := "html" } handler ∧
      (∀ params body, handler = .lambda params body →
        printBody { receiver := "that", tag := "html" } (renameParams (swap "self" "that") params)
            (rename (swap "self" "that") body) =
          printBody { receiver := "self", tag := "html" } params body) ∧
      fieldsOf { receiver := "that", tag := "html" } (rename (swap "self" "that") handler) =
        fieldsOf { receiver := "self", tag := "html" } handler :=
  receiverRenamed (by decide) (by decide) (by decide) (by decide)

end LiveMarkup.Client
