import LiveMarkup.Proofs.Client.Evaluate
import LiveMarkup.Proofs.Render.Passes
import LiveMarkup.Proofs.Render.Provenance
/-! What the client makes of composed code against what the markup shows. Texts of several parts and
attributes read the same on either side, as long as each expression has its value on the client. -/
namespace LiveMarkup.Render
open Analysis Client Markup

def scalar? : Value → Option Scalar
  | .none => some .null
  | .truth b => some (.truth b)
  | .whole n => if n.natAbs ≤ 9007199254740992 then some (.number n) else none
  | .text s => some (.text (unitsOf s))
  | _ => none

def reactiveAt (s : State) (piece : Piece) : Option Live :=
  (piece.key?.bind s.live?).filter fun live => s.isReactive live.slot

def reactiveIn (number : Nat) (s : State) (text : String) : List Live :=
  (Piece.split number text).filterMap (reactiveAt s)

def givenBy (live : Live) : Option (String × Scalar) := (scalar? live.value).map (live.slot.source, ·)

def givenIn (number : Nat) (s : State) (text : String) : Given :=
  (reactiveIn number s text).filterMap givenBy

def partsIn (number : Nat) (s : State) (text : String) : List Part :=
  (Piece.split number text).filterMap (partOf s)

variable {number : Nat} {s : State} {text : String}

theorem scalarShown {v : Value} {c : Scalar} (h : scalar? v = some c) : c.shown = unitsOf (clientText v) := by
  cases v with
  | none | text _ =>
    cases h
    rfl
  | truth b =>
    cases h
    cases b <;> rfl
  | whole n =>
    rw [scalar?] at h
    split at h
    · cases h
      rfl
    · cases h
  | _ => cases h

theorem unitsJoin {texts : List String} : unitsOf (String.join texts) = texts.flatMap unitsOf := by
  rw [unitsOf, String.toList_join, List.flatMap_assoc]
  rfl

section Operands

inductive OperandOf (s : State) (piece : Piece) : Part → Operand → Prop where
  | fixed {literal} (still : reactiveAt s piece = none) :
      OperandOf s piece ⟨literal, Text.jsString literal, none⟩
        ⟨Text.jsString literal, [], .text (unitsOf literal)⟩
  | bracketed {live v} (found : reactiveAt s piece = some live) (known : scalar? live.value = some v) :
      OperandOf s piece ⟨clientText live.value, "(" ++ live.slot.source ++ ")", some live.slot⟩
        ⟨"(" ++ live.slot.source ++ ")", [(live.slot.source, v)], v⟩

theorem operandPart {piece : Piece} {part : Part} (made : partOf s piece = some part)
    (known : ∀ live, reactiveAt s piece = some live → (scalar? live.value).isSome) :
    ∃ o, OperandOf s piece part o := by
  unfold partOf at made
  split at made
  · next none =>
    split at made
    · cases made
    · cases made
      exact ⟨_, .fixed (by rw [reactiveAt, none]; rfl)⟩
  · next live found =>
    split at made
    · next reactive =>
      cases made
      have kept : reactiveAt s piece = some live := by
        rw [reactiveAt, found, Option.filter_some, if_pos reactive]
      obtain ⟨v, same⟩ := Option.isSome_iff_exists.mp (known live kept)
      exact ⟨_, .bracketed kept same⟩
    · next inert =>
      cases made
      exact ⟨_, .fixed (by rw [reactiveAt, found, Option.filter_some, if_neg inert])⟩

theorem stillNone {piece : Piece} (made : partOf s piece = none) : reactiveAt s piece = none := by
  unfold partOf at made
  split at made
  · next none =>
    rw [reactiveAt, none]
    rfl
  · split at made
    · cases made
    · cases made

structure OperandsOf (parts : List Part) (given : Given) (operands : List Operand) : Prop where
  reads : ∀ o ∈ operands, o.Reads
  sources : operands.map (·.source) = parts.map (·.source)
  given : givenOf operands = given
  shown : operands.flatMap (·.value.shown) = parts.flatMap fun p => unitsOf p.literal
  plain : ∀ o ∈ operands, o.Plain

theorem literalQuoted {s : String} : (Text.jsString s).toList.head? = some '"' := by
  obtain ⟨body, written, _⟩ := @literalRead s
  rw [written, List.head?_cons]

theorem operandsIn (known : ∀ live ∈ reactiveIn number s text, (scalar? live.value).isSome) :
    ∃ operands, OperandsOf (partsIn number s text) (givenIn number s text) operands := by
  unfold givenIn partsIn reactiveIn at *
  generalize Piece.split number text = pieces at *
  -- Every piece but an empty text gives one operand.
  induction pieces with
  | nil => exact ⟨[], fun _ h => absurd h List.not_mem_nil, rfl, rfl, rfl, fun _ h => absurd h List.not_mem_nil⟩
  | cons piece rest ih =>
    have tail : ∀ live ∈ rest.filterMap (reactiveAt s), live ∈ (piece :: rest).filterMap (reactiveAt s) :=
      (List.sublist_cons_self piece rest |>.filterMap (reactiveAt s)).subset
    obtain ⟨operands, later⟩ := ih fun live h => known live (tail live h)
    cases made : partOf s piece with
    | none =>
      rw [List.filterMap_cons_none made, List.filterMap_cons_none (stillNone made)]
      exact ⟨operands, later⟩
    | some part =>
      have head (live : Live) (found : reactiveAt s piece = some live) : (scalar? live.value).isSome :=
        known live (List.mem_filterMap.mpr ⟨piece, List.mem_cons_self, found⟩)
      obtain ⟨o, is⟩ := operandPart made head
      rw [List.filterMap_cons_some made]
      refine ⟨o :: operands, ?_⟩
      cases is with
      | fixed still =>
        rw [List.filterMap_cons_none still]
        exact {
          reads := List.forall_mem_cons.mpr ⟨readsLiteral, later.reads⟩
          sources := by rw [List.map_cons, List.map_cons, later.sources]
          given := later.given
          shown := by
            rw [List.flatMap_cons, List.flatMap_cons, later.shown]
            rfl
          plain := List.forall_mem_cons.mpr ⟨.literal literalQuoted, later.plain⟩ }
      | @bracketed live v found same =>
        have here : givenBy live = some (live.slot.source, v) := by rw [givenBy, same, Option.map_some]
        rw [List.filterMap_cons_some found, List.filterMap_cons_some here]
        exact {
          reads := List.forall_mem_cons.mpr ⟨readsBracketed, later.reads⟩
          sources := by rw [List.map_cons, List.map_cons, later.sources]
          given := by
            rw [givenOf, List.flatMap_cons, ← givenOf, later.given]
            rfl
          shown := by
            rw [List.flatMap_cons, List.flatMap_cons, later.shown]
            exact congrArg (· ++ _) (scalarShown same)
          plain := List.forall_mem_cons.mpr ⟨.bracketed, later.plain⟩ }

theorem joinedReads {operands : List Operand} (reads : ∀ o ∈ operands, o.Reads)
    (plain : ∀ o ∈ operands, o.Plain) (filled : operands ≠ []) :
    ∃ front content rest, (joinSources (operands.map (·.source))).toList = front.toList ++ moreOf rest ∧
      Operand.Reads ⟨front, [], .text content⟩ ∧ (∀ o ∈ rest, o ∈ operands) ∧
      givenOf rest = givenOf operands ∧
      content ++ rest.flatMap (·.value.shown) = operands.flatMap (·.value.shown) := by
  obtain ⟨o, rest, rfl⟩ := List.exists_cons_of_ne_nil filled
  cases plain o List.mem_cons_self with
  | @literal content source quoted =>
    refine ⟨source, content, rest, ?_, reads _ List.mem_cons_self, fun _ h => List.mem_cons_of_mem _ h, rfl, rfl⟩
    have first : (((⟨source, [], .text content⟩ : Operand) :: rest).map (·.source)).head? = some source := rfl
    rw [joinSources, first, Option.bind_some, quoted]
    exact separatedRead
  | @bracketed e v =>
    refine ⟨Text.jsString "", [], _, ?_, readsLiteral, fun _ h => h, rfl, rfl⟩
    have first : (((⟨"(" ++ e ++ ")", [(e, v)], v⟩ : Operand) :: rest).map (·.source)).head? =
        some ("(" ++ e ++ ")") := rfl
    have bracket : ("(" ++ e ++ ")").toList.head? = some '(' := by simp
    have empty : (Text.jsString "").toList = ['"', '"'] := by decide
    rw [joinSources, first, Option.bind_some, bracket, if_neg (by decide), String.toList_append, separatedRead, empty]
    simp [moreOf, plus]

theorem sumJoined {operands : List Operand} (reads : ∀ o ∈ operands, o.Reads)
    (plain : ∀ o ∈ operands, o.Plain) (filled : operands ≠ []) :
    (readOperand (givenOf operands) (joinSources (operands.map (·.source))).toList).bind
      (fun (v, given, rest) => sumFrom v given rest) = some (.text (operands.flatMap (·.value.shown))) := by
  obtain ⟨front, content, rest, written, first, within, given, shown⟩ := joinedReads reads plain filled
  have read := first (givenOf rest) (moreOf rest)
  rw [List.nil_append] at read
  have rest := @sumRead rest (fun o h => reads o (within o h)) (.text content)
  rw [sumTexts, shown] at rest
  rw [written, ← given, read]
  exact rest

theorem valueJoined {operands : List Operand} (reads : ∀ o ∈ operands, o.Reads)
    (plain : ∀ o ∈ operands, o.Plain) (filled : operands ≠ []) :
    sourceValue (givenOf operands) (joinSources (operands.map (·.source))) =
      some (.text (operands.flatMap (·.value.shown))) := by
  obtain ⟨front, content, rest, written, first, within, given, shown⟩ := joinedReads reads plain filled
  have sum := sumJoined reads plain filled
  -- The joined code is longer than any expression in it, so it is not one that is given.
  have longer (e : String) (v : Scalar) (only : givenOf operands = [(e, v)]) :
      e ≠ joinSources (operands.map (·.source)) := by
    rintro rfl
    have mem := List.mem_singleton_self (joinSources (operands.map (·.source)), v)
    rw [← only, ← given] at mem
    obtain ⟨o, ho, mem⟩ := List.mem_flatMap.mp mem
    have inside := sourceWithin ho
    have whole := congrArg List.length written
    cases plain o (within o ho) with
    | literal quoted => exact absurd mem List.not_mem_nil
    | bracketed =>
      cases List.mem_singleton.mp mem
      simp only [String.length_append, String.length_toList, List.length_append] at inside whole
      omega
  unfold sourceValue
  simp only
  split
  · next e v only => rw [if_neg (longer e v only), sum]
  · exact sum

end Operands

section Forms

theorem composedForms {source : String} (composed : (compose number s text).source? = some source) :
    (∃ p r, partsIn number s text = [p] ∧ p.reactive? = some r ∧ source = r.source) ∨
      1 < (partsIn number s text).length ∧ source = joinSources ((partsIn number s text).map (·.source)) := by
  unfold compose at composed
  rw [← partsIn] at composed
  generalize partsIn number s text = parts at composed
  simp only at composed
  split at composed
  · cases composed
  · next first rest found =>
    split at composed
    · next one =>
      cases composed
      obtain ⟨p, rfl⟩ := List.length_eq_one_iff.mp one
      refine .inl ⟨p, first, rfl, ?_, rfl⟩
      cases reactive : p.reactive? with
      | none => simp [reactive] at found
      | some r =>
        simp only [List.filterMap_cons, reactive, List.filterMap_nil, List.cons.injEq] at found
        rw [found.1]
    · next several =>
      cases composed
      refine .inr ⟨?_, rfl⟩
      have some : parts ≠ [] := fun empty => by simp [empty] at found
      have positive := List.length_pos_iff.mpr some
      omega

theorem composedLiteral : (compose number s text).literal = String.join ((partsIn number s text).map (·.literal)) := by
  unfold compose
  rw [← partsIn]
  simp only
  split
  · rfl
  · split <;> rfl

theorem partReactive {piece : Piece} {p : Part} {r : Slot} (made : partOf s piece = some p)
    (reactive : p.reactive? = some r) :
    ∃ key live, piece = .placeholder key ∧ s.live? key = some live ∧ reactiveAt s piece = some live ∧
      live.slot = r ∧ p.literal = clientText live.value := by
  unfold partOf at made
  split at made
  · split at made
    · cases made
    · cases made
      cases reactive
  · next live found =>
    split at made
    · next changes =>
      cases made
      cases reactive
      cases piece with
      | plain text => cases found
      | placeholder key =>
        exact ⟨key, live, rfl, found, by rw [reactiveAt, found, Option.filter_some, if_pos changes], rfl, rfl⟩
    · cases made
      cases reactive

theorem partNone {piece : Piece} (made : partOf s piece = none) : piece.text = "" := by
  unfold partOf at made
  split at made
  · split at made
    · next empty => exact String.isEmpty_iff.mp empty
    · cases made
  · split at made
    · cases made
    · cases made

theorem joinEmpty {pieces : List Piece} (h : ∀ p ∈ pieces, p.text = "") :
    String.join (pieces.map (·.text)) = "" := by
  induction pieces with
  | nil => rfl
  | cons p rest ih =>
    rw [List.map_cons, String.join_cons, h p List.mem_cons_self, ih fun p hp => h p (List.mem_cons_of_mem _ hp),
      String.empty_append]

theorem loneLive {p : Part} {r : Slot} (one : partsIn number s text = [p]) (reactive : p.reactive? = some r) :
    ∃ live, s.live? text = some live ∧ reactiveIn number s text = [live] ∧ live.slot = r ∧
      p.literal = clientText live.value := by
  obtain ⟨before, piece, after, split, none, made, none'⟩ := List.filterMap_eq_cons_iff.mp one
  rw [List.filterMap_eq_nil_iff] at none'
  obtain ⟨key, live, rfl, found, changes, slot, literal⟩ := partReactive made reactive
  have whole := @joinSplit number text
  rw [split, List.map_append, List.map_cons, String.join_append, String.join_cons,
    joinEmpty fun p hp => partNone (none p hp), joinEmpty fun p hp => partNone (none' p hp), String.empty_append,
    String.append_empty] at whole
  refine ⟨live, whole ▸ found, ?_, slot, literal⟩
  rw [reactiveIn, split, List.filterMap_append, List.filterMap_cons_some changes,
    List.filterMap_eq_nil_iff.mpr fun p hp => stillNone (none p hp),
    List.filterMap_eq_nil_iff.mpr fun p hp => stillNone (none' p hp), List.nil_append]

theorem severalNone {f : Factory} (keyed : Keyed f s) (several : 1 < (partsIn f.number s text).length) :
    s.live? text = none := by
  cases found : s.live? text with
  | none => rfl
  | some live =>
    obtain ⟨l, mem, _⟩ := Option.map_eq_some_iff.mp found
    have key : l.1 = text := by simpa using List.find?_some mem
    obtain ⟨n, _, is⟩ := keyed.live l (List.mem_of_find?_eq_some mem)
    have front : Front f.number text.toList := by
      rw [← key, is]
      exact textFront
    have none : partOf s (.plain "") = none := rfl
    rw [partsIn, splitFront front, List.filterMap_cons_none none, List.filterMap_cons] at several
    cases made : partOf s (.placeholder text) with
    | none =>
      rw [made] at several
      cases several
    | some p =>
      rw [made] at several
      exact absurd several (Nat.lt_irrefl 1)

theorem composedLive {source : String} (composed : (compose number s text).source? = some source) :
    ∃ key ∈ placeholders number text, (s.live? key).isSome := by
  have reactive : ∃ p ∈ partsIn number s text, ∃ r, p.reactive? = some r := by
    unfold compose at composed
    rw [← partsIn] at composed
    simp only at composed
    split at composed
    · cases composed
    · next first rest found =>
      obtain ⟨p, mem, reactive⟩ := List.mem_filterMap.mp (found ▸ List.mem_cons_self)
      exact ⟨p, mem, first, reactive⟩
  obtain ⟨p, mem, r, reactive⟩ := reactive
  obtain ⟨piece, mem, made⟩ := List.mem_filterMap.mp mem
  obtain ⟨key, live, rfl, found, _⟩ := partReactive made reactive
  exact ⟨key, List.mem_filterMap.mpr ⟨_, mem, rfl⟩, by rw [found]; rfl⟩

theorem composedDynamic {source : String} (composed : (compose number s text).source? = some source) :
    (placeholders number text).isEmpty = false := by
  obtain ⟨key, mem, _⟩ := composedLive composed
  exact List.isEmpty_eq_false_iff.mpr (List.ne_nil_of_mem mem)

end Forms

section Bound

variable {f : Factory} {source : String}

theorem outBound {attributes : List Attribute} {name : String} {written? : Option String}
    (other : name ≠ idAttribute) (composed : (compose f.number s text).source? = some source) :
    ∃ id attributes' s', out (bindAttribute attributes ⟨name, text, written?⟩) f s = (.ok attributes', s') ∧
      s'.records.bindings = s.records.bindings ++
        [{ id, signals := (compose f.number s text).signals, source, attribute? := some name }] ∧
      Attribute.get? attributes' name = Attribute.get?
        (showAttribute (s.live? text) name (compose f.number s text).literal attributes) name := by
  have dynamic : ¬(name == idAttribute || (placeholders f.number text).isEmpty) = true := by
    rw [composedDynamic composed, Bool.or_false, beq_iff_eq]
    exact other
  generalize shown : showAttribute (s.live? text) name (compose f.number s text).literal attributes = changed
  obtain ⟨id, given, page, identified, kept⟩ : ∃ id given page,
      out (identify changed) f s = (.ok (id, given), { s with page }) ∧
        Attribute.get? given name = Attribute.get? changed name := by
    rw [identify, outBind, outRead]
    simp only
    split
    · next id own => exact ⟨id, changed, s.page, rfl, rfl⟩
    · exact ⟨_, _, _, rfl, getPutOther fun same => other same.symm⟩
  have ran : out (bindAttribute attributes ⟨name, text, written?⟩) f s = (.ok given, { s with
      page
      records := { s.records with
        bindings := s.records.bindings ++
          [{ id, signals := (compose f.number s text).signals, source, attribute? := some name }] } }) := by
    rw [bindAttribute, outBind, outRead]
    simp only [if_neg dynamic]
    rw [outBind, outGet]
    simp only [composed, shown]
    rw [outBind, identified]
    rfl
  exact ⟨id, given, _, ran, rfl, kept⟩

theorem shownScalar {live : Live} {v : Scalar} {name : String} {attributes : List Attribute}
    (same : scalar? live.value = some v) :
    (Attribute.get? (showAttribute (some live) name (clientText live.value) attributes) name).map unitsOf =
      v.attribute? := by
  obtain ⟨value, slot⟩ := live
  have removed : (Attribute.get? (Attribute.erase name attributes) name).map unitsOf = none := by
    rw [getErase, if_pos rfl, Option.map_none]
  have put : (Attribute.get? (Attribute.put name (clientText value) attributes) name).map unitsOf =
      some v.shown := by
    rw [getPut, Option.map_some, scalarShown same]
  cases value with
  | none =>
    cases same
    exact removed
  | truth b =>
    cases same
    cases b
    · exact removed
    · show (Attribute.get? (Attribute.put name "" attributes) name).map unitsOf = some []
      rw [getPut]
      rfl
  | text content =>
    cases same
    exact put
  | whole n =>
    rw [scalar?] at same
    split at same
    · cases same
      exact put
    · cases same
  | _ => cases same

/-- The markup and the client agree on composed texts. If the client has the value of every expression in a
text, then the code for a text of several parts gives the text that is shown; and the code that an
attribute is bound to makes the attribute what it is in the markup, also whether it is there. -/
theorem composedAgrees (keyed : Keyed f s) (composed : (compose f.number s text).source? = some source)
    (known : ∀ live ∈ reactiveIn f.number s text, (scalar? live.value).isSome) :
    (1 < (partsIn f.number s text).length →
      sourceValue (givenIn f.number s text) source =
        some (.text (unitsOf (compose f.number s text).literal))) ∧
      ∀ name written? attributes, name ≠ idAttribute → ∃ id v attributes' s',
        out (bindAttribute attributes ⟨name, text, written?⟩) f s = (.ok attributes', s') ∧
        s'.records.bindings = s.records.bindings ++
          [{ id, signals := (compose f.number s text).signals, source, attribute? := some name }] ∧
        sourceValue (givenIn f.number s text) source = some v ∧
        (Attribute.get? attributes' name).map unitsOf = v.attribute? := by
  have literal := @composedLiteral f.number s text
  rcases composedForms composed with ⟨p, r, one, reactive, rfl⟩ | ⟨several, rfl⟩
  · obtain ⟨live, found, alone, rfl, shows⟩ := loneLive one reactive
    obtain ⟨v, same⟩ := Option.isSome_iff_exists.mp (known live (alone ▸ List.mem_cons_self))
    have given : givenIn f.number s text = [(live.slot.source, v)] := by
      rw [givenIn, alone, List.filterMap_cons, givenBy, same]
      rfl
    refine ⟨fun several => ?_, fun name written? attributes other => ?_⟩
    · rw [one] at several
      exact absurd several (Nat.lt_irrefl 1)
    · obtain ⟨id, attributes', s', ran, bound, kept⟩ := outBound other composed
      refine ⟨id, v, attributes', s', ran, bound, ?_, ?_⟩
      · rw [given, sourceValue]
        simp only [if_true]
      · have text : (compose f.number s text).literal = clientText live.value := by
          rw [literal, one, List.map_singleton, String.join_cons, String.join_nil, String.append_empty, shows]
        rw [kept, found, text]
        exact shownScalar same
  · obtain ⟨operands, all⟩ := operandsIn known
    have filled : operands ≠ [] := by
      rintro rfl
      have sources := congrArg List.length all.sources
      rw [List.length_map, List.length_map, List.length_nil] at sources
      omega
    have value : sourceValue (givenIn f.number s text)
        (joinSources ((partsIn f.number s text).map (·.source))) =
          some (.text (unitsOf (compose f.number s text).literal)) := by
      rw [← all.given, ← all.sources, valueJoined all.reads all.plain filled, literal, unitsJoin, List.flatMap_map,
        all.shown]
    refine ⟨fun _ => value, fun name written? attributes other => ?_⟩
    obtain ⟨id, attributes', s', ran, bound, kept⟩ := outBound other composed
    refine ⟨id, _, attributes', s', ran, bound, value, ?_⟩
    rw [kept, severalNone keyed several, showAttribute, getPut]
    rfl

end Bound

def doubleTemplate : String := "<b onclick=\x7b\x7d></b><p title=\"\x7b\x7d\x7b\x7d\"></p>"

def double : Component :=
  .mk "Double" [("n", .whole 1)]
    (some ("def render(self, ctx):\n    return ctx.html('" ++ doubleTemplate ++
      "', lambda: setattr(self, 'n', 2), self.n, self.n)\n"))
    1 "double.py" [] none

def doubleSlots : List Slot :=
  [{ signals := ["n"], writes := ["n"], isFunction := true, isEvent := true, eventName := some "onclick",
     source := "() => this.n = 2", bodySource := some "this.n = 2",
     expression := "lambda: setattr(self, 'n', 2)", template := doubleTemplate, line := 2 },
   { signals := ["n"], source := "this.n", expression := "self.n", template := doubleTemplate, slot := 1,
     line := 2 },
   { signals := ["n"], source := "this.n", expression := "self.n", template := doubleTemplate, slot := 2,
     line := 2 }]

abbrev doubleFactory : Factory := factoryOf double doubleSlots

abbrev doubleState : State := startOf double doubleSlots

def doubleFilled : Rendering String :=
  filled doubleTemplate [.object "function", .whole 1, .whole 1] 2

theorem doubleAgrees :
    ∃ f s₀ markup s text, Reached f s₀ ∧ out doubleFilled f s₀ = (.ok markup, s) ∧ Keyed f s ∧
      (compose f.number s text).source? = some "\"\" + (this.n) + (this.n)" ∧
      (∀ live ∈ reactiveIn f.number s text, (scalar? live.value).isSome) ∧
      sourceValue [("this.n", .number 1), ("this.n", .number 1)] "\"\" + (this.n) + (this.n)" =
        some (.text (unitsOf "11")) ∧
      ∃ id attributes' s', out (bindAttribute [⟨"title", text, none⟩] ⟨"title", text, none⟩) f s =
          (.ok attributes', s') ∧
        s'.records.bindings = s.records.bindings ++
          [{ id, signals := ["n"], source := "\"\" + (this.n) + (this.n)", attribute? := some "title" }] ∧
        (Attribute.get? attributes' "title").map unitsOf = some (unitsOf "11") := by
  have started : Reached doubleFactory doubleState :=
    startedOf (slotsListed rfl (listedAppend (listedAppend (listedText rfl) rfl) rfl) rfl (by decide +kernel))
  obtain ⟨markup, filled⟩ : ∃ markup, (out doubleFilled doubleFactory doubleState).1 = .ok markup :=
    okValue (by decide +kernel)
  let text := Placeholder.text 0 1 ++ Placeholder.text 0 2
  have composed : compose 0 (out doubleFilled doubleFactory doubleState).2 text =
      ⟨"11", some "\"\" + (this.n) + (this.n)", ["n"]⟩ := by decide +kernel
  have given : givenIn 0 (out doubleFilled doubleFactory doubleState).2 text =
      [("this.n", .number 1), ("this.n", .number 1)] := by decide +kernel
  have known : (reactiveIn 0 (out doubleFilled doubleFactory doubleState).2 text).all
      (fun live => (scalar? live.value).isSome) = true := by decide +kernel
  have several : 1 < (partsIn 0 (out doubleFilled doubleFactory doubleState).2 text).length := by decide +kernel
  have sound : Sound doubleFactory (out doubleFilled doubleFactory doubleState).2 :=
    soundFilled doubleState (soundReached started)
  -- The state gets a name of its own, so that no later step unfolds the run.
  obtain ⟨s, ended⟩ : ∃ s, (out doubleFilled doubleFactory doubleState).2 = s := ⟨_, rfl⟩
  rw [ended] at composed given known several sound
  have source : (compose doubleFactory.number s text).source? = some "\"\" + (this.n) + (this.n)" :=
    congrArg Composed.source? composed
  obtain ⟨value, bound⟩ := composedAgrees sound.keyed source (List.all_eq_true.mp known)
  obtain ⟨id, v, attributes', s', ran, appended, result, same⟩ :=
    bound "title" none [⟨"title", text, none⟩] (by decide)
  have sum := value several
  rw [result, show (compose doubleFactory.number s text).literal = _ from congrArg Composed.literal composed] at sum
  cases sum
  rw [show givenIn doubleFactory.number s text = _ from given] at result
  rw [show (compose doubleFactory.number s text).signals = _ from congrArg Composed.signals composed] at appended
  exact ⟨doubleFactory, doubleState, markup, s, text, started, Prod.ext filled ended, sound.keyed, source,
    List.all_eq_true.mp known, result, id, attributes', s', ran, appended, same⟩

end LiveMarkup.Render
