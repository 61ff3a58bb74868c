import LiveMarkup.Proofs.Render.Placed
/-! The four passes over a tree, one after the other: what each appends to the records, and where the new
identifiers go. -/
namespace LiveMarkup.Render
open Analysis Client Markup

variable {f : Factory} {s s₁ s' : State}

section Walk

inductive Alike (R : List Attribute → List Attribute → Prop) : List Node → List Node → Prop where
  | nil : Alike R [] []
  | text {kind text rest rest'} (tail : Alike R rest rest') :
      Alike R (.text kind text :: rest) (.text kind text :: rest')
  | element {name a a' c c' rest rest'} (here : R a a') (inner : Alike R c c') (tail : Alike R rest rest') :
      Alike R (.element name a c :: rest) (.element name a' c' :: rest')

structure ElementPass (f : Factory) (change : List Attribute → Rendering (List Attribute)) where
  clean : State → List Attribute → Prop
  gains : State → List Attribute → Records
  turns : State → List Attribute → List Attribute → Prop
  stable : ∀ {s s'}, Still s s' → clean s' = clean s ∧ gains s' = gains s ∧ turns s' = turns s
  step : ∀ {s s' attributes attributes'}, Ready f s → out (change attributes) f s = (.ok attributes', s') →
    Settles (clean s attributes) s s' (ownId? f attributes).toList (ownId? f attributes').toList
      (gains s attributes) ∧ turns s attributes attributes'

def gather (g : List Attribute → Records) (nodes : List Node) : Records :=
  (elements nodes).foldr (fun e r => g e.1 ++ r) {}

theorem elementsCons {name : String} {attributes : List Attribute} {children rest : List Node} :
    elements (.element name attributes children :: rest) =
      (attributes, children) :: (elements children ++ elements rest) := by
  rw [elements, elementsIn, List.cons_append]

theorem idsCons {name : String} {attributes : List Attribute} {children rest : List Node} :
    idsOf f (.element name attributes children :: rest) =
      (ownId? f attributes).toList ++ (idsOf f children ++ idsOf f rest) := by
  rw [← List.singleton_append, idsAppend, idsElement, List.append_assoc]

theorem gatherCons {g : List Attribute → Records} {name : String} {attributes : List Attribute}
    {children rest : List Node} : gather g (.element name attributes children :: rest) =
      g attributes ++ (gather g children ++ gather g rest) := by
  have split (as bs : List Element) : (as ++ bs).foldr (fun e r => g e.1 ++ r) {} =
      as.foldr (fun e r => g e.1 ++ r) {} ++ bs.foldr (fun e r => g e.1 ++ r) {} := by
    induction as with
    | nil => exact Records.noneAppend.symm
    | cons a rest ih => rw [List.cons_append, List.foldr_cons, ih, List.foldr_cons, Records.appendAssoc]
  rw [gather, elementsCons, List.foldr_cons, split, gather, gather]

theorem walk {change : List Attribute → Rendering (List Attribute)} (pass : ElementPass f change) :
    {nodes nodes' : List Node} → {s s' : State} → Ready f s →
    out (onAllElements change nodes) f s = (.ok nodes', s') →
    Settles (∀ e ∈ elements nodes, pass.clean s e.1) s s' (idsOf f nodes) (idsOf f nodes')
        (gather (pass.gains s) nodes) ∧ Alike (pass.turns s) nodes nodes'
  | [], _, _, _, _, h => by
    cases h
    exact ⟨settlesSame, .nil⟩
  | .text kind text :: rest, nodes', s, s', ready, h => by
    simp only [onAllElements, onElements, outOk] at h
    obtain ⟨_, _, same, rest', s₁, tail, h⟩ := h
    cases same
    cases h
    obtain ⟨settles, alike⟩ := walk pass ready tail
    exact ⟨settles, .text alike⟩
  | .element name attributes children :: rest, nodes', s, s', ready, h => by
    simp only [onAllElements, onElements, outOk] at h
    obtain ⟨_, s₁, ⟨changed, s₂, first, children', s₃, inner, same⟩, rest', s₄, tail, h⟩ := h
    cases same
    cases h
    obtain ⟨settles, turns⟩ := pass.step ready first
    have still := settlesStill settles
    obtain ⟨settles', alike⟩ := walk pass (readyStill still ready) inner
    have still' := stillTrans still (settlesStill settles')
    obtain ⟨settles'', alike'⟩ := walk pass (readyStill still' ready) tail
    rw [(pass.stable still).1, (pass.stable still).2.1] at settles'
    rw [(pass.stable still).2.2] at alike
    rw [(pass.stable still').1, (pass.stable still').2.1] at settles''
    rw [(pass.stable still').2.2] at alike'
    refine ⟨?_, .element turns alike alike'⟩
    rw [idsCons, idsCons, gatherCons, elementsCons]
    refine settlesWhen (settlesAppend settles (settlesAppend settles' settles'')) fun clean => ?_
    obtain ⟨here, later⟩ := List.forall_mem_cons.mp clean
    exact ⟨here, List.forall_mem_append.mp later⟩

def eventPass (f : Factory) : ElementPass f (eachAttribute bindEvent) where
  clean := Clean
  gains s attributes := { handlers := attributes.filterMap (handlerAt s) }
  turns s attributes attributes' :=
    Marks s (attributes.any fun a => (eventAt s a).isSome) attributes attributes' ∧
      others attributes' = others (unhandled s attributes)
  stable h := by
    obtain ⟨page, records, rfl⟩ := h
    exact ⟨rfl, rfl, rfl⟩
  step ready h := ⟨(eachEvent ready h).settles, (eachEvent ready h).marks, (eachEvent ready h).kept⟩

def attributePass (f : Factory) : ElementPass f (eachAttribute bindAttribute) where
  clean _ _ := True
  gains s attributes := { bindings := attributes.filterMap (bindingAt f s) }
  turns s attributes attributes' := Marks s (attributes.any fun a => (bindingAt f s a).isSome) attributes attributes'
  stable h := by
    obtain ⟨page, records, rfl⟩ := h
    exact ⟨rfl, rfl, rfl⟩
  step ready h := ⟨(eachBound ready h).settles, (eachBound ready h).marks⟩

def anchorPass (f : Factory) : ElementPass f bindAnchor where
  clean _ _ := True
  gains s attributes := { asyncBindings := ((liveAt s attributes).map fun live => chainOf live.slot).toList }
  turns _ _ _ := True
  stable h := by
    obtain ⟨page, records, rfl⟩ := h
    exact ⟨rfl, rfl, rfl⟩
  step ready h := ⟨anchorMade ready h, trivial⟩

variable {nodes nodes' : List Node}

theorem gatherBindings {g : List Attribute → List Binding} :
    gather (fun attributes => { bindings := g attributes }) nodes =
      { bindings := (elements nodes).flatMap fun e => g e.1 } := by
  rw [gather]
  generalize elements nodes = es
  induction es with
  | nil => rfl
  | cons e rest ih =>
    rw [List.foldr_cons, ih]
    rfl

theorem gatherHandlers {g : List Attribute → List Handler} :
    gather (fun attributes => { handlers := g attributes }) nodes =
      { handlers := (elements nodes).flatMap fun e => g e.1 } := by
  rw [gather]
  generalize elements nodes = es
  induction es with
  | nil => rfl
  | cons e rest ih =>
    rw [List.foldr_cons, ih]
    rfl

theorem gatherChains {g : List Attribute → Option AsyncBinding} :
    gather (fun attributes => { asyncBindings := (g attributes).toList }) nodes =
      { asyncBindings := (elements nodes).filterMap fun e => g e.1 } := by
  rw [gather]
  generalize elements nodes = es
  induction es with
  | nil => rfl
  | cons e rest ih =>
    rw [List.foldr_cons, ih, List.filterMap_cons]
    cases g e.1 <;> rfl

theorem alikeTexts {R : List Attribute → List Attribute → Prop} (h : Alike R nodes nodes') :
    texts nodes' = texts nodes := by
  induction h with
  | nil => rfl
  | text tail ih => rw [texts, texts, ih]
  | element here inner tail ih ih' => rw [texts, texts, textsIn, textsIn, ih, ih']

theorem alikeBound {R : List Attribute → List Attribute → Prop} (h : Alike R nodes nodes') :
    textBound f s nodes' = textBound f s nodes := by
  cases h with
  | nil => rfl
  | @text kind text rest rest' tail =>
    cases tail with
    | nil => rfl
    | text tail => cases kind <;> rfl
    | element here inner tail => cases kind <;> rfl
  | element here inner tail => rfl

end Walk

section Texts

variable {chunk name : String} {attributes : List Attribute} {n : Node} {nodes nodes' : List Node}

theorem outSettled : ∃ c, out (settle chunk) f s = (.ok c, s) ∧
    (c.source?.map fun source => ({ id := "", signals := c.signals, source } : Binding)) =
      bindingOf f s none chunk := by
  rw [settle, outBind, outRead]
  simp only
  rw [outBind, outGet]
  simp only
  split
  · exact ⟨_, rfl, rfl⟩
  · next dead =>
    refine ⟨⟨chunk, none, []⟩, rfl, ?_⟩
    rw [bindingOf, eq_comm, Option.map_none, Option.map_eq_none_iff]
    cases composed : (compose f.number s chunk).source? with
    | none => rfl
    | some source =>
      obtain ⟨key, mem, live⟩ := composedLive composed
      exact absurd (List.any_eq_true.mpr ⟨key, mem, live⟩) dead

def anchorsIn (s : State) (nodes : List Node) : List Live := (elements nodes).filterMap fun e => liveAt s e.1

structure TextsBound (f : Factory) (s s' : State) (before : List String) (after : List Node)
    (bound : List Binding) (anchors : List Live) : Prop where
  settles : Settles True s s' before (idsOf f after) { bindings := bound }
  anchors : anchorsIn s after = anchors

theorem textsAppend {before before' : List String} {after after' : List Node} {bound bound' : List Binding}
    {anchors anchors' : List Live} (h : TextsBound f s s₁ before after bound anchors)
    (h' : TextsBound f s₁ s' before' after' bound' anchors') :
    TextsBound f s s' (before ++ before') (after ++ after') (bound ++ bound') (anchors ++ anchors') where
  settles := by
    rw [idsAppend]
    exact settlesWhen (settlesAppend h.settles h'.settles) fun _ => ⟨trivial, trivial⟩
  anchors := by
    obtain ⟨page, records, rfl⟩ := settlesStill h.settles
    rw [anchorsIn, elementsAppend, List.filterMap_append]
    exact congr (congrArg (· ++ ·) h.anchors) h'.anchors

theorem anchorsElement {text : String} :
    anchorsIn s [.element name attributes [.text .plain text]] = (liveAt s attributes).toList := by
  rw [anchorsIn, elementsCons, List.filterMap_cons]
  cases liveAt s attributes <;> rfl

theorem textNamed {id literal source : String} {signals : List String} {given : List Attribute} {page : Page}
    (ready : Ready f s) (is : Identified f s attributes id given page) :
    TextsBound f s { s with page, records := { s.records with
        bindings := s.records.bindings ++ [{ id, signals, source }] } } (ownId? f attributes).toList
      [.element name given [.text .plain literal]] [{ id := "", signals, source }] [] := by
  have record : Settles True s
      { s with page, records := s.records ++ { bindings := [{ id, signals, source }] } } (ownId? f attributes).toList
      [id] { bindings := [{ id := "", signals, source }] } := settlesRecord is rfl
  have marked : liveAt s given = none := @marksOwn f s attributes given id ready.keyed is.own
  rw [← Records.addBindings] at record
  refine ⟨?_, ?_⟩
  · rw [idsElement, is.own]
    exact record
  · rw [anchorsElement, marked]
    rfl

theorem chunkWrapped (ready : Ready f s) (h : out (wrapChunk chunk) f s = (.ok n, s')) :
    TextsBound f s s' [] [n] (bindingOf f s none chunk).toList [] := by
  obtain ⟨c, settled, binding⟩ := @outSettled f s chunk
  rw [wrapChunk, outBind, settled] at h
  simp only at h
  rw [← binding]
  split at h
  · next none =>
    cases h
    rw [none]
    exact ⟨settlesSame, rfl⟩
  · next source composed =>
    obtain ⟨id, given, page, is⟩ := @identified f s []
    rw [outBind, is.ran] at h
    cases h
    rw [composed]
    exact textNamed ready is

theorem onlyBound (ready : Ready f s) (h : out (bindOnlyText name attributes chunk) f s = (.ok n, s')) :
    TextsBound f s s' (ownId? f attributes).toList [n] (bindingOf f s none chunk).toList
      (if (bindingOf f s none chunk).isSome then none else liveAt s attributes).toList := by
  obtain ⟨c, settled, binding⟩ := @outSettled f s chunk
  rw [bindOnlyText, outBind, settled] at h
  simp only at h
  rw [← binding]
  split at h
  · next none =>
    cases h
    rw [none]
    refine ⟨?_, anchorsElement⟩
    rw [idsElement, idsText, List.append_nil]
    exact settlesSame
  · next source composed =>
    obtain ⟨id, given, page, is⟩ := @identified f s attributes
    rw [outBind, is.ran] at h
    cases h
    rw [composed]
    exact textNamed ready is

theorem chunksWrapped {parts : List String} (ready : Ready f s)
    (h : out (parts.mapM wrapChunk) f s = (.ok nodes, s')) :
    TextsBound f s s' [] nodes (parts.filterMap (bindingOf f s none)) [] := by
  induction parts generalizing s nodes with
  | nil =>
    cases h
    exact ⟨settlesSame, rfl⟩
  | cons chunk rest ih =>
    simp only [List.mapM_cons, outOk] at h
    obtain ⟨n, s₁, first, others, s₂, tail, h⟩ := h
    cases h
    have here := chunkWrapped ready first
    have still := settlesStill here.settles
    have later := ih (readyStill still ready) tail
    obtain ⟨page, records, rfl⟩ := still
    have both := textsAppend here later
    cases made : bindingOf f s none chunk with
    | none =>
      rw [made] at both
      rw [List.filterMap_cons_none made]
      exact both
    | some b =>
      rw [made] at both
      rw [List.filterMap_cons_some made]
      exact both

theorem textsInside {after : List Node} {before : List String} {bound : List Binding} {anchors : List Live}
    (h : TextsBound f s s' before after bound anchors) :
    TextsBound f s s' ((ownId? f attributes).toList ++ before) [.element name attributes after] bound
      ((liveAt s attributes).toList ++ anchors) where
  settles := by
    rw [idsElement]
    have same : Settles True s s (ownId? f attributes).toList (ownId? f attributes).toList {} := settlesSame
    exact settlesWhen (settlesAppend same h.settles) fun _ => ⟨trivial, trivial⟩
  anchors := by
    rw [← h.anchors, anchorsIn, elementsCons, elements, List.append_nil, List.filterMap_cons, anchorsIn]
    cases liveAt s attributes <;> rfl

theorem filterMapOne {α β : Type} {g : α → Option β} {a : α} : [a].filterMap g = (g a).toList := by
  rw [List.filterMap_cons]
  cases g a <;> rfl

def unboundAnchor (f : Factory) (s : State) (e : Element) : Option Live :=
  if textBound f s e.2 then none else liveAt s e.1

mutual

theorem elementTextsBound : {n : Node} → {nodes : List Node} → {s s' : State} → Ready f s →
    out (bindElementTexts n) f s = (.ok nodes, s') →
    TextsBound f s s' (idsOf f [n]) nodes ((textsIn n).flatMap (textBindings f s))
      ((elementsIn n).filterMap (unboundAnchor f s))
  | .text kind text, nodes, s, s', ready, h => by
    cases bindsTexts h with
    | plain wrapped =>
      have all := chunksWrapped ready wrapped
      rwa [← textBindings, ← List.flatMap_singleton (textBindings f s)] at all
    | still other =>
      cases kind with
      | plain => exact absurd rfl other
      | hidden | aside => exact ⟨settlesSame, rfl⟩
  | .element name attributes children, nodes, s, s', ready, h => by
    have inner {nodes : List Node} {s' : State} (h : out (bindTexts children) f s = (.ok nodes, s')) :=
      textsBound ready h
    rw [idsElement, textsIn, elementsIn]
    have one {text : String} : (texts [.text .plain text]).flatMap (textBindings f s) = textBindings f s text := by
      simp [texts, textsIn]
    -- An element is bound itself only where its one child is a text of one chunk.
    cases bindsTexts h with
    | @only _ _ text chunk _ _ single bound =>
      have only := onlyBound ready bound
      have taken : textBound f s [.text .plain text] = (bindingOf f s none chunk).isSome := by
        rw [textBound, single]
      rw [one, textBindings, idsText, List.append_nil, elements, elementsIn, elements, List.nil_append, filterMapOne,
        unboundAnchor, taken, single, filterMapOne]
      exact only
    | @several _ _ text _ _ several wrapped =>
      have inside := @textsInside f s _ name attributes _ _ _ _ (chunksWrapped ready wrapped)
      have unbound : textBound f s [.text .plain text] = false := by
        rw [textBound]
        split
        · next chunk single => exact absurd single (several chunk)
        · rfl
      rw [List.append_nil, List.append_nil] at inside
      rw [one, textBindings, idsText, List.append_nil, elements, elementsIn, elements, List.nil_append, filterMapOne,
        unboundAnchor, unbound]
      exact inside
    | mixed mixed bound =>
      have inside := @textsInside f s _ name attributes _ _ _ _ (inner bound)
      have unbound : textBound f s children = false := by
        rw [textBound]
        exact mixed
      have here : unboundAnchor f s (attributes, children) = liveAt s attributes := by
        rw [unboundAnchor, unbound]
        rfl
      rw [List.filterMap_cons, here]
      cases at' : liveAt s attributes with
      | none | some =>
        rw [at'] at inside
        exact inside

theorem textsBound : {nodes nodes' : List Node} → {s s' : State} → Ready f s →
    out (bindTexts nodes) f s = (.ok nodes', s') →
    TextsBound f s s' (idsOf f nodes) nodes' ((texts nodes).flatMap (textBindings f s))
      ((elements nodes).filterMap (unboundAnchor f s))
  | [], _, _, _, _, h => by
    cases h
    exact ⟨settlesSame, rfl⟩
  | n :: rest, nodes', s, s', ready, h => by
    simp only [bindTexts, outOk] at h
    obtain ⟨first, s₁, head, others, s₂, tail, h⟩ := h
    cases h
    have here := elementTextsBound ready head
    have still := settlesStill here.settles
    have later := textsBound (readyStill still ready) tail
    obtain ⟨page, records, rfl⟩ := still
    rw [← List.singleton_append, idsAppend, List.singleton_append, texts, List.flatMap_append, elements,
      List.filterMap_append]
    exact textsAppend here later

end

end Texts

section Tree

variable {attributes attributes' attributes'' : List Attribute} {tree first second final : List Node}

theorem boundOthers : (others attributes).filterMap (bindingAt f s) = attributes.filterMap (bindingAt f s) := by
  induction attributes with
  | nil => rfl
  | cons a rest ih =>
    cases named : a.name != idAttribute with
    | true =>
      have kept : others (a :: rest) = a :: others rest := List.filter_cons_of_pos named
      rw [kept, List.filterMap_cons, ih, List.filterMap_cons]
    | false =>
      have lost : others (a :: rest) = others rest := List.filter_cons_of_neg (by simp [named])
      have none : bindingAt f s a = none := by rw [bindingAt, if_pos (by simpa using named)]
      rw [lost, ih, List.filterMap_cons_none none]

theorem anyOthers : (others attributes).any (fun a => (bindingAt f s a).isSome) =
    attributes.any fun a => (bindingAt f s a).isSome := by
  rw [others, List.any_filter]
  refine congrArg (List.any attributes) (funext fun a => ?_)
  cases named : a.name != idAttribute with
  | true => rfl
  | false =>
    rw [bindingAt, if_pos (by simpa using named)]
    rfl

structure Turned (f : Factory) (s : State) (attributes attributes'' : List Attribute) : Prop where
  turned : ∃ attributes', (Marks s (attributes.any fun a => (eventAt s a).isSome) attributes attributes' ∧
      others attributes' = others (unhandled s attributes)) ∧
    Marks s (attributes'.any fun a => (bindingAt f s a).isSome) attributes' attributes''

theorem turnedAnchor (h : Turned f s attributes attributes'') : liveAt s attributes'' =
    if attributes.any (fun a => (eventAt s a).isSome) ||
      (unhandled s attributes).any (fun a => (bindingAt f s a).isSome) then none else liveAt s attributes := by
  obtain ⟨attributes', ⟨events, kept⟩, bound⟩ := h.turned
  rw [← @anyOthers f s attributes', kept, anyOthers] at bound
  have marks := marksTrans events bound
  unfold Marks at marks
  split at marks
  · next named => rw [if_pos named, marks]
  · next other => rw [if_neg other, liveAt, marks, liveAt]

theorem alikeTrans {R R' R'' : List Attribute → List Attribute → Prop} (h : Alike R tree first)
    (h' : Alike R' first second) (join : ∀ {a b c}, R a b → R' b c → R'' a c) : Alike R'' tree second := by
  induction h generalizing second with
  | nil =>
    cases h'
    exact .nil
  | text _ ih =>
    cases h' with
    | text tail => exact .text (ih tail)
  | element here _ _ ih ih' =>
    cases h' with
    | element here' inner tail => exact .element (join here here') (ih inner) (ih' tail)

theorem boundAlike {R : List Attribute → List Attribute → Prop}
    (kept : ∀ {a a'}, R a a' → others a' = others (unhandled s a)) (h : Alike R tree first) :
    (elements first).flatMap (fun e => e.1.filterMap (bindingAt f s)) =
      (elements tree).flatMap fun e => (unhandled s e.1).filterMap (bindingAt f s) := by
  induction h with
  | nil => rfl
  | text _ ih => exact ih
  | element here _ _ ih ih' =>
    rw [elementsCons, elementsCons, List.flatMap_cons, List.flatMap_cons, List.flatMap_append, List.flatMap_append,
      ih, ih', ← boundOthers, kept here, boundOthers]

theorem anchorsAlike (h : Alike (Turned f s) tree second) :
    (elements second).filterMap (unboundAnchor f s) =
      (elements tree).filterMap fun e => if claimed f s e then none else liveAt s e.1 := by
  induction h with
  | nil => rfl
  | text _ ih => exact ih
  | @element _ a a' c c' _ _ here inner _ ih ih' =>
    have same : unboundAnchor f s (a', c') = if claimed f s (a, c) then none else liveAt s a := by
      rw [unboundAnchor, alikeBound inner, turnedAnchor here, claimed]
      cases textBound f s c with
      | true => simp
      | false => simp
    rw [elementsCons, elementsCons, List.filterMap_cons, List.filterMap_cons, List.filterMap_append,
      List.filterMap_append, ih, ih', same]

structure Chained (s s' : State) : Prop where
  later : s.page.nextId ≤ s'.page.nextId
  ids : s'.records.asyncBindings.map (·.id) = s.records.asyncBindings.map (·.id) ++ freshIds s s'

theorem keepsAnchor (attributes : List Attribute) : Keeps (Chained s) f (bindAnchor attributes) := by
  refine keepsGet fun s₁ chained => ?_
  split
  · exact chained
  · let page : Page := { s₁.page with nextId := s₁.page.nextId + 1 }
    have one : freshIds s₁ { s₁ with page } = [idText s₁.page.nextId] := by
      rw [freshIds, Nat.add_sub_cancel_left]
      rfl
    have whole : freshIds s { s₁ with page } = freshIds s s₁ ++ [idText s₁.page.nextId] := by
      rw [← one]
      exact freshAppend chained.later (Nat.le_succ _)
    refine ⟨Nat.le_succ_of_le chained.later, ?_⟩
    refine (List.map_append ..).trans ?_
    rw [chained.ids, List.append_assoc]
    exact congrArg _ whole.symm

theorem outChained {nodes : List Node} (h : out (onAllElements bindAnchor nodes) f s = (.ok final, s')) :
    Chained s s' := by
  have start : Chained s s := ⟨Nat.le_refl _, by rw [freshSame rfl, List.append_nil]⟩
  have kept := keepsAllElements (f := f) keepsAnchor nodes s start
  rwa [h] at kept

structure Stages (f : Factory) (s s₁ s₂ s₃ s' : State) (tree first second third final : List Node) : Prop where
  events : Settles (∀ e ∈ elements tree, Clean s e.1) s s₁ (idsOf f tree) (idsOf f first)
    { handlers := (placed f s tree).handlers }
  attributes : Settles True s₁ s₂ (idsOf f first) (idsOf f second)
    { bindings := (elements tree).flatMap fun e => (unhandled s e.1).filterMap (bindingAt f s) }
  texts : Settles True s₂ s₃ (idsOf f second) (idsOf f third)
    { bindings := (texts tree).flatMap (textBindings f s) }
  anchors : Settles True s₃ s' (idsOf f third) (idsOf f final)
    { asyncBindings := (placed f s tree).asyncBindings }
  chained : Chained s₃ s'

theorem treeStages (ready : Ready f s) (h : out (settleTree tree) f s = (.ok final, s')) :
    ∃ s₁ s₂ s₃ first second third, Stages f s s₁ s₂ s₃ s' tree first second third final := by
  -- Each of the four passes leaves to the others what they look for in the tree.
  simp only [settleTree, outOk] at h
  obtain ⟨first, s₁, events, second, s₂, attributes, third, s₃, bound, anchors⟩ := h
  obtain ⟨settles₁, alike₁⟩ := walk (eventPass f) ready events
  have still₁ := settlesStill settles₁
  obtain ⟨settles₂, alike₂⟩ := walk (attributePass f) (readyStill still₁ ready) attributes
  have still₂ := stillTrans still₁ (settlesStill settles₂)
  have three := textsBound (readyStill still₂ ready) bound
  have still₃ := stillTrans still₂ (settlesStill three.settles)
  obtain ⟨settles₄, _⟩ := walk (anchorPass f) (readyStill still₃ ready) anchors
  have turned : Alike (Turned f s) tree second := by
    rw [((attributePass f).stable still₁).2.2] at alike₂
    have join {a b c : List Attribute} (here : (eventPass f).turns s a b)
        (later : (attributePass f).turns s b c) : Turned f s a c := ⟨⟨b, here, later⟩⟩
    exact alikeTrans alike₁ alike₂ join
  refine ⟨s₁, s₂, s₃, first, second, third, ?_, ?_, ?_, ?_, outChained anchors⟩
  · have gained : gather ((eventPass f).gains s) tree = { handlers := (placed f s tree).handlers } := gatherHandlers
    rwa [gained] at settles₁
  · have gained : gather ((attributePass f).gains s₁) first =
        { bindings := (elements tree).flatMap fun e => (unhandled s e.1).filterMap (bindingAt f s) } := by
      rw [((attributePass f).stable still₁).2.1, ← boundAlike And.right alike₁]
      exact gatherBindings
    rw [gained] at settles₂
    exact settlesWhen settles₂ fun _ _ _ => trivial
  · have same := three.settles
    obtain ⟨page, records, rfl⟩ := still₂
    rwa [alikeTexts alike₂, alikeTexts alike₁] at same
  · have gained : gather ((anchorPass f).gains s₃) third = { asyncBindings := (placed f s tree).asyncBindings } := by
      have left : anchorsIn s third = (elements second).filterMap (unboundAnchor f s) := by
        have anchors := three.anchors
        obtain ⟨page, records, rfl⟩ := still₂
        exact anchors
      rw [anchorsAlike turned] at left
      rw [((anchorPass f).stable still₃).2.1]
      have chains (nodes : List Node) (l : Element → Option Live) :
          (elements nodes).filterMap (fun e => (l e).map fun live => chainOf live.slot) =
            ((elements nodes).filterMap l).map fun live => chainOf live.slot := List.map_filterMap.symm
      have placedChains : (placed f s tree).asyncBindings =
          ((elements tree).filterMap fun e => if claimed f s e then none else liveAt s e.1).map
            fun live => chainOf live.slot := by
        rw [← chains]
        refine congrArg (List.filterMap · (elements tree)) (funext fun e => ?_)
        rw [chainAt]
        split <;> rfl
      rw [placedChains, ← left]
      exact gatherChains.trans (congrArg (Records.mk [] [] ·) (chains third fun e => liveAt s e.1))
    rw [gained] at settles₄
    exact settlesWhen settles₄ fun _ _ _ => trivial

theorem treePlaced (ready : Ready f s) (h : out (settleTree tree) f s = (.ok final, s')) :
    ∃ new, Change s s' new (placed f s tree) := by
  obtain ⟨s₁, s₂, s₃, first, second, third, stages⟩ := treeStages ready h
  obtain ⟨handlers, one, _⟩ := stages.events
  obtain ⟨static, two, _⟩ := stages.attributes
  obtain ⟨dynamic, three, _⟩ := stages.texts
  obtain ⟨chains, four, _⟩ := stages.anchors
  have whole := changeTrans one (changeTrans two (changeTrans three four))
  exact ⟨_, whole.same, whole.gained.trans Records.joinPasses, whole.later⟩

end Tree

end LiveMarkup.Render
