import LiveMarkup.Proofs.Client.Script
import LiveMarkup.Proofs.Render.Agree
import LiveMarkup.Proofs.Render.Settled
/-! The places in a tree where placeholders of live slots are recognized, and what settling the attributes
of one element appends to the records. -/
namespace LiveMarkup.Render
open Analysis Client Markup

variable {f : Factory} {s s₁ s' : State}

section Places

def eventAt (s : State) (a : Attribute) : Option Live := (s.live? a.value).filter (·.slot.isEvent)

def handlerOf (name : String) (r : Slot) : Handler :=
  { id := "", event := name, source := r.bodySource.getD "", writes := r.writes, params := r.params,
    signals := r.signals }

def handlerAt (s : State) (a : Attribute) : Option Handler :=
  (eventAt s a).map fun live => handlerOf a.name live.slot

def unhandled (s : State) (attributes : List Attribute) : List Attribute :=
  attributes.filter fun b => attributes.all fun a => (eventAt s a).isNone || b.name != a.name

def bindingOf (f : Factory) (s : State) (name? : Option String) (text : String) : Option Binding :=
  (compose f.number s text).source?.map fun source =>
    { id := "", signals := (compose f.number s text).signals, source, attribute? := name? }

def bindingAt (f : Factory) (s : State) (a : Attribute) : Option Binding :=
  if a.name == idAttribute then none else bindingOf f s (some a.name) a.value

def textBindings (f : Factory) (s : State) (text : String) : List Binding :=
  (chunksIn f s text).filterMap (bindingOf f s none)

def textBound (f : Factory) (s : State) : List Node → Bool
  | [.text .plain text] =>
    match chunksIn f s text with
    | [chunk] => (bindingOf f s none chunk).isSome
    | _ => false
  | _ => false

def claimed (f : Factory) (s : State) (e : Element) : Bool :=
  e.1.any (fun a => (eventAt s a).isSome) || (unhandled s e.1).any (fun a => (bindingAt f s a).isSome) ||
    textBound f s e.2

def liveAt (s : State) (attributes : List Attribute) : Option Live :=
  s.live? ((Attribute.get? attributes idAttribute).getD "")

def chainOf (r : Slot) : AsyncBinding :=
  { id := "", promise := r.promiseSource.getD "", thenCallback := r.thenCallback.getD "",
    catchCallback? := r.catchCallback, fields := r.reads }

def chainAt (f : Factory) (s : State) (e : Element) : Option AsyncBinding :=
  if claimed f s e then none else (liveAt s e.1).map fun live => chainOf live.slot

mutual

def textsIn : Node → List String
  | .text .plain text => [text]
  | .text _ _ => []
  | .element _ _ children => texts children

def texts : List Node → List String
  | [] => []
  | n :: rest => textsIn n ++ texts rest

end

def placed (f : Factory) (s : State) (tree : List Node) : Records where
  handlers := (elements tree).flatMap fun e => e.1.filterMap (handlerAt s)
  bindings := (elements tree).flatMap (fun e => (unhandled s e.1).filterMap (bindingAt f s)) ++
    (texts tree).flatMap (textBindings f s)
  asyncBindings := (elements tree).filterMap (chainAt f s)

end Places

structure Ready (f : Factory) (s : State) : Prop where
  known : Known f s
  keyed : Keyed f s
  complete : s.written = distinct (f.slots.flatMap (·.writes))

theorem readyStill (h : Still s s') (ready : Ready f s) : Ready f s' := by
  obtain ⟨page, records, rfl⟩ := h
  exact ⟨ready.known, keyedStill ⟨page, records, rfl⟩ ready.keyed, ready.complete⟩

theorem writtenKnown {live : Live} {key : String} (ready : Ready f s) (found : s.live? key = some live) :
    distinct (s.written ++ live.slot.writes) = s.written := by
  rw [ready.complete]
  refine distinctKnown fun field written => ?_
  exact List.mem_flatMap.mpr ⟨_, (liveKnown ready.known found).1, written⟩

section Elements

variable {attributes attributes' : List Attribute}

def Marks (s : State) (named : Bool) (attributes attributes' : List Attribute) : Prop :=
  if named then liveAt s attributes' = none
  else Attribute.get? attributes' idAttribute = Attribute.get? attributes idAttribute

theorem marksSame : Marks s false attributes attributes := rfl

theorem marksTrans {named named' : Bool} {attributes'' : List Attribute} (h : Marks s named attributes attributes')
    (h' : Marks s named' attributes' attributes'') : Marks s (named || named') attributes attributes'' := by
  unfold Marks at *
  cases named' with
  | true => simpa using h'
  | false =>
    cases named with
    | true =>
      have same : liveAt s attributes'' = liveAt s attributes' := by
        rw [liveAt, show Attribute.get? attributes'' idAttribute = _ from h', liveAt]
      exact same.trans h
    | false => exact Eq.trans h' h

theorem marksOwn {id : String} (keyed : Keyed f s) (own : ownId? f attributes' = some id) :
    Marks s true attributes attributes' := by
  obtain ⟨got, plain⟩ := Option.filter_eq_some_iff.mp own
  show s.live? _ = none
  rw [got, Option.getD_some]
  cases live : s.live? id with
  | none => rfl
  | some l =>
    rw [keysApart keyed id (by rw [live]; rfl)] at plain
    simp at plain

theorem marksNone (keyed : Keyed f s) (none : Attribute.get? attributes' idAttribute = none) :
    Marks s true attributes attributes' := by
  show s.live? _ = .none
  rw [none, Option.getD_none]
  cases live : s.live? "" with
  | none => rfl
  | some l =>
    have key := keysApart keyed "" (by rw [live]; rfl)
    rw [isPlaceholder, show Placeholder.atFront? f.number "".toList = .none from rfl] at key
    cases key

def keepsName (s : State) (b a : Attribute) : Bool := (eventAt s a).isNone || b.name != a.name

theorem stepEvent {a : Attribute} (ready : Ready f s)
    (h : out (bindEvent attributes a) f s = (.ok attributes', s')) :
    Settles (a.name = idAttribute → eventAt s a = none) s s' (ownId? f attributes).toList
        (ownId? f attributes').toList { handlers := (handlerAt s a).toList } ∧
      Marks s (eventAt s a).isSome attributes attributes' ∧
      others attributes' = (others attributes).filter (keepsName s · a) := by
  have still (none : eventAt s a = none) : Settles (a.name = idAttribute → eventAt s a = .none) s s
      (ownId? f attributes).toList (ownId? f attributes).toList { handlers := (handlerAt s a).toList } ∧
      Marks s (eventAt s a).isSome attributes attributes ∧
      others attributes = (others attributes).filter (keepsName s · a) := by
    rw [handlerAt, none]
    refine ⟨settlesSame, marksSame, (List.filter_eq_self.mpr fun b _ => ?_).symm⟩
    rw [keepsName, none]
    rfl
  rw [bindEvent, outBind, outGet] at h
  simp only at h
  split at h
  · next dead =>
    cases h
    exact still (by rw [eventAt, dead]; rfl)
  · next live found =>
    split at h
    · next other =>
      cases h
      exact still (by rw [eventAt, found, Option.filter_some, if_neg (by simpa using other)])
    · next event =>
      have at' : eventAt s a = some live := by
        rw [eventAt, found, Option.filter_some, if_pos (by simpa using event)]
      obtain ⟨id, given, page, is⟩ := @identified f s attributes
      rw [outBind, is.ran] at h
      cases h
      have record : Settles True s
          { s with page, records := s.records ++ { handlers := [{ handlerOf a.name live.slot with id }] } }
          (ownId? f attributes).toList [id] { handlers := [handlerOf a.name live.slot] } := settlesRecord is rfl
      have same : ({ s with
          page
          written := distinct (s.written ++ live.slot.writes)
          records := { s.records with
            handlers := s.records.handlers ++ [{ handlerOf a.name live.slot with id }] } } : State) =
          { s with page, records := s.records ++ { handlers := [{ handlerOf a.name live.slot with id }] } } := by
        rw [writtenKnown ready found, Records.addHandlers]
      refine ⟨?_, ?_, ?_⟩
      · obtain ⟨new, change, stamps⟩ := record
        refine ⟨new, ?_, fun clean => ?_⟩
        · rw [handlerAt, at']
          exact ⟨same.trans change.same, change.gained, change.later⟩
        · have other : a.name ≠ idAttribute := fun named => Option.some_ne_none live (at'.symm.trans (clean named))
          rw [ownEraseOther other, is.own]
          exact ⟨(stamps trivial).mixes, (stamps trivial).named, (stamps trivial).within⟩
      · rw [at']
        -- An event may stand in the place of the identifier, which is gone then.
        by_cases named : a.name = idAttribute
        · exact marksNone ready.keyed (by rw [getErase, if_pos named])
        · exact marksOwn ready.keyed ((ownEraseOther named).trans is.own)
      · rw [othersErase, is.kept]
        refine List.filter_congr fun b _ => ?_
        rw [keepsName, at']
        rfl

def Clean (s : State) (attributes : List Attribute) : Prop :=
  ∀ a ∈ attributes, a.name = idAttribute → eventAt s a = none

structure Handled (f : Factory) (s s' : State) (attributes attributes' : List Attribute) : Prop where
  settles : Settles (Clean s attributes) s s' (ownId? f attributes).toList (ownId? f attributes').toList
    { handlers := attributes.filterMap (handlerAt s) }
  marks : Marks s (attributes.any fun a => (eventAt s a).isSome) attributes attributes'
  kept : others attributes' = others (unhandled s attributes)

theorem othersUnhandled : others (unhandled s attributes) =
    (others attributes).filter fun b => attributes.all (keepsName s b) := by
  rw [others, unhandled, List.filter_filter, others, List.filter_filter]
  exact List.filter_congr fun a _ => Bool.and_comm ..

theorem eachEvent (ready : Ready f s)
    (h : out (eachAttribute bindEvent attributes) f s = (.ok attributes', s')) :
    Handled f s s' attributes attributes' := by
  have each (items attributes : List Attribute) (s : State) (ready : Ready f s)
      (h : out (items.foldlM bindEvent attributes) f s = (.ok attributes', s')) :
      Settles (Clean s items) s s' (ownId? f attributes).toList (ownId? f attributes').toList
          { handlers := items.filterMap (handlerAt s) } ∧
        Marks s (items.any fun a => (eventAt s a).isSome) attributes attributes' ∧
        others attributes' = (others attributes).filter fun b => items.all (keepsName s b) := by
    induction items generalizing attributes s with
    | nil =>
      cases h
      exact ⟨settlesSame, marksSame, (List.filter_eq_self.mpr fun b _ => rfl).symm⟩
    | cons a rest ih =>
      rw [List.foldlM_cons] at h
      obtain ⟨changed, s₁, first, h⟩ := outOk.mp h
      obtain ⟨settles, marks, kept⟩ := stepEvent ready first
      have still := settlesStill settles
      obtain ⟨settles', marks', kept'⟩ := ih changed s₁ (readyStill still ready) h
      obtain ⟨page, records, rfl⟩ := still
      refine ⟨?_, marksTrans marks marks', ?_⟩
      · have both : Settles (Clean s (a :: rest)) _ _ _ _ _ := settlesWhen (settlesStep settles settles')
          fun clean => ⟨clean a List.mem_cons_self, fun b hb => clean b (List.mem_cons_of_mem _ hb)⟩
        cases at' : handlerAt s a with
        | none =>
          rw [at'] at both
          rw [List.filterMap_cons_none at']
          exact both
        | some handler =>
          rw [at'] at both
          rw [List.filterMap_cons_some at']
          exact both
      · rw [kept', kept, List.filter_filter]
        exact List.filter_congr fun b _ => Bool.and_comm ..
  obtain ⟨settles, marks, kept⟩ := each attributes attributes s ready h
  exact ⟨settles, marks, kept.trans othersUnhandled.symm⟩

theorem getShow {live? : Option Live} {name literal : String} (other : name ≠ idAttribute) :
    Attribute.get? (showAttribute live? name literal attributes) idAttribute =
      Attribute.get? attributes idAttribute := by
  have erased : Attribute.get? (Attribute.erase name attributes) idAttribute =
      Attribute.get? attributes idAttribute := by rw [getErase, if_neg other]
  unfold showAttribute
  split
  · exact getPutOther other
  · split
    · exact erased
    · exact erased
    · exact getPutOther other
    · exact getPutOther other

theorem stepAttribute {a : Attribute} (ready : Ready f s)
    (h : out (bindAttribute attributes a) f s = (.ok attributes', s')) :
    Settles True s s' (ownId? f attributes).toList (ownId? f attributes').toList
        { bindings := (bindingAt f s a).toList } ∧
      Marks s (bindingAt f s a).isSome attributes attributes' := by
  rw [bindAttribute, outBind, outRead] at h
  simp only at h
  split at h
  · next inert =>
    cases h
    have none : bindingAt f s a = none := by
      rw [bindingAt]
      split
      · rfl
      · next other =>
        rw [bindingOf, Option.map_eq_none_iff]
        cases composed : (compose f.number s a.value).source? with
        | none => rfl
        | some source =>
          rw [composedDynamic composed] at inert
          simp [other] at inert
    rw [none]
    exact ⟨settlesSame, marksSame⟩
  · next dynamic =>
    have other : a.name ≠ idAttribute := by
      intro same
      exact dynamic (by rw [same]; rfl)
    have binding : bindingAt f s a = bindingOf f s (some a.name) a.value := by
      rw [bindingAt, if_neg (by simpa using other)]
    rw [outBind, outGet] at h
    simp only at h
    have own := @ownShow f (s.live? a.value) a.name (compose f.number s a.value).literal attributes other
    have got := @getShow attributes (s.live? a.value) a.name (compose f.number s a.value).literal other
    generalize showAttribute (s.live? a.value) a.name (compose f.number s a.value).literal attributes =
      changed at h own got
    rw [binding, bindingOf, ← own]
    split at h
    · next none =>
      cases h
      rw [none]
      exact ⟨settlesSame, got⟩
    · next source composed =>
      obtain ⟨id, given, page, is⟩ := @identified f s changed
      rw [outBind, is.ran] at h
      cases h
      rw [composed]
      let new : Binding :=
        { id, signals := (compose f.number s a.value).signals, source, attribute? := some a.name }
      have record : Settles True s { s with page, records := s.records ++ { bindings := [new] } }
          (ownId? f changed).toList [id] { bindings := [{ new with id := "" }] } := settlesRecord is rfl
      rw [← Records.addBindings] at record
      rw [is.own]
      exact ⟨record, marksOwn ready.keyed is.own⟩

structure AttributesBound (f : Factory) (s s' : State) (attributes attributes' : List Attribute) : Prop where
  settles : Settles True s s' (ownId? f attributes).toList (ownId? f attributes').toList
    { bindings := attributes.filterMap (bindingAt f s) }
  marks : Marks s (attributes.any fun a => (bindingAt f s a).isSome) attributes attributes'

theorem eachBound (ready : Ready f s)
    (h : out (eachAttribute bindAttribute attributes) f s = (.ok attributes', s')) :
    AttributesBound f s s' attributes attributes' := by
  have each (items attributes : List Attribute) (s : State) (ready : Ready f s)
      (h : out (items.foldlM bindAttribute attributes) f s = (.ok attributes', s')) :
      Settles True s s' (ownId? f attributes).toList (ownId? f attributes').toList
          { bindings := items.filterMap (bindingAt f s) } ∧
        Marks s (items.any fun a => (bindingAt f s a).isSome) attributes attributes' := by
    induction items generalizing attributes s with
    | nil =>
      cases h
      exact ⟨settlesSame, marksSame⟩
    | cons a rest ih =>
      rw [List.foldlM_cons] at h
      obtain ⟨changed, s₁, first, h⟩ := outOk.mp h
      obtain ⟨settles, marks⟩ := stepAttribute ready first
      have still := settlesStill settles
      obtain ⟨settles', marks'⟩ := ih changed s₁ (readyStill still ready) h
      obtain ⟨page, records, rfl⟩ := still
      refine ⟨?_, marksTrans marks marks'⟩
      have both : Settles True _ _ _ _ _ :=
        settlesWhen (settlesStep settles settles') fun _ => ⟨trivial, trivial⟩
      cases at' : bindingAt f s a with
      | none =>
        rw [at'] at both
        rw [List.filterMap_cons_none at']
        exact both
      | some binding =>
        rw [at'] at both
        rw [List.filterMap_cons_some at']
        exact both
  obtain ⟨settles, marks⟩ := each attributes attributes s ready h
  exact ⟨settles, marks⟩

theorem anchorMade (ready : Ready f s) (h : out (bindAnchor attributes) f s = (.ok attributes', s')) :
    Settles True s s' (ownId? f attributes).toList (ownId? f attributes').toList
      { asyncBindings := ((liveAt s attributes).map fun live => chainOf live.slot).toList } := by
  rw [bindAnchor, outBind, outGet] at h
  simp only at h
  split at h
  · next dead =>
    cases h
    rw [liveAt, dead]
    exact settlesSame
  · next live found =>
    have none : ownId? f attributes = none := by
      cases own : ownId? f attributes with
      | none => rfl
      | some id =>
        have marked : s.live? _ = none := @marksOwn f s attributes attributes id ready.keyed own
        rw [found] at marked
        cases marked
    cases h
    let new : AsyncBinding := { chainOf live.slot with id := idText s.page.nextId }
    have fresh : freshIds s { s with page := { s.page with nextId := s.page.nextId + 1 } } =
        [idText s.page.nextId] := by
      rw [freshIds, Nat.add_sub_cancel_left]
      rfl
    rw [none, ownPut, liveAt, found]
    refine ⟨{ asyncBindings := [new] }, ⟨?_, rfl, Nat.le_succ _⟩, fun _ => ⟨?_, fun x mem => ?_, fun x mem => ?_⟩⟩
    · rw [← Records.addChains]
      rfl
    · exact fresh.symm ▸ .new .none
    · show x ∈ [idText s.page.nextId]
      exact fresh ▸ mem
    · exact mem

end Elements

end LiveMarkup.Render
