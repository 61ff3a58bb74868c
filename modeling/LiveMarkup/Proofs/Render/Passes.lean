import LiveMarkup.Proofs.Render.Elements
import LiveMarkup.Proofs.Render.Walk
/-! The passes over a tree whose live slots are settled. Each gives every new identifier to one element,
and only the one over the texts binds texts. -/
namespace LiveMarkup.Render
open Client Markup

variable {f : Factory} {s s₁ s' : State}

def Aside (s s' : State) : Prop := ∃ page records written, s' = { s with page, records, written }

theorem asideTrans (h : Aside s s₁) (h' : Aside s₁ s') : Aside s s' := by
  obtain ⟨_, _, _, rfl⟩ := h
  obtain ⟨page, records, written, rfl⟩ := h'
  exact ⟨page, records, written, rfl⟩

structure Pass (s s' : State) (before after : List String) : Prop where
  allots : Allots s s' before after
  aside : Aside s s'
  bindings : ∃ new, s'.records.bindings = s.records.bindings ++ new ∧ ∀ b ∈ new, b.attribute? ≠ none

theorem newBindings {p : Binding → Prop}
    (h : ∃ new, s₁.records.bindings = s.records.bindings ++ new ∧ ∀ b ∈ new, p b)
    (h' : ∃ new, s'.records.bindings = s₁.records.bindings ++ new ∧ ∀ b ∈ new, p b) :
    ∃ new, s'.records.bindings = s.records.bindings ++ new ∧ ∀ b ∈ new, p b := by
  obtain ⟨first, same, all⟩ := h
  obtain ⟨second, same', all'⟩ := h'
  refine ⟨first ++ second, by rw [same', same, List.append_assoc], fun b hb => ?_⟩
  rcases List.mem_append.mp hb with hb | hb
  · exact all b hb
  · exact all' b hb

theorem passSame {a : List String} : Pass s s a a :=
  ⟨allotsSame rfl, ⟨_, _, _, rfl⟩, [], (List.append_nil _).symm, fun _ h => absurd h List.not_mem_nil⟩

theorem passTrans {a b c : List String} (h : Pass s s₁ a b) (h' : Pass s₁ s' b c) : Pass s s' a c :=
  ⟨allotsTrans h.allots h'.allots, asideTrans h.aside h'.aside, newBindings h.bindings h'.bindings⟩

theorem passAppend {a a' b b' : List String} (h : Pass s s₁ a a') (h' : Pass s₁ s' b b') :
    Pass s s' (a ++ b) (a' ++ b') :=
  ⟨allotsAppend h.allots h'.allots, asideTrans h.aside h'.aside, newBindings h.bindings h'.bindings⟩

theorem outIdentify {attributes : List Attribute} :
    ∃ id attributes' page, out (identify attributes) f s = (.ok (id, attributes'), { s with page }) ∧
      ownId? f attributes' = some id ∧ Allots s { s with page } (ownId? f attributes).toList [id] := by
  cases own : ownId? f attributes with
  | some id =>
    refine ⟨id, attributes, s.page, ?_, own, allotsSame rfl⟩
    unfold ownId? at own
    rw [identify, outBind, outRead]
    simp only [own]
    rfl
  | none =>
    refine ⟨idText s.page.nextId, Attribute.put idAttribute (idText s.page.nextId) attributes,
      { s.page with nextId := s.page.nextId + 1 }, ?_, ownPut, allotsNew rfl⟩
    unfold ownId? at own
    rw [identify, outBind, outRead]
    simp only [own]
    rfl

theorem ownPutOther {attributes : List Attribute} {name value : String} (h : name ≠ idAttribute) :
    ownId? f (Attribute.put name value attributes) = ownId? f attributes := by
  rw [ownId?, getPutOther h, ownId?]

theorem ownErase {attributes : List Attribute} {name : String} :
    ownId? f (Attribute.erase name attributes) = ownId? f attributes ∨
      ownId? f (Attribute.erase name attributes) = none := by
  rw [ownId?, getErase, ownId?]
  split
  · exact .inr rfl
  · exact .inl rfl

theorem ownEraseOther {attributes : List Attribute} {name : String} (h : name ≠ idAttribute) :
    ownId? f (Attribute.erase name attributes) = ownId? f attributes := by
  rw [ownId?, getErase, if_neg h, ownId?]

theorem passEvent {attributes attributes' : List Attribute} {a : Attribute}
    (h : out (bindEvent attributes a) f s = (.ok attributes', s')) :
    Pass s s' (ownId? f attributes).toList (ownId? f attributes').toList := by
  rw [bindEvent, outBind, outGet] at h
  simp only at h
  split at h
  · cases h
    exact passSame
  · next live found =>
    split at h
    · cases h
      exact passSame
    · obtain ⟨id, given, page, identified, own, allots⟩ := @outIdentify f s attributes
      rw [outBind, identified] at h
      cases h
      refine ⟨allotsFewer ⟨allots.later, allots.counted⟩ fun other => ?_, ⟨page, _, _, rfl⟩, [],
        (List.append_nil _).symm, fun _ h => absurd h List.not_mem_nil⟩
      rcases @ownErase f given a.name with kept | lost
      · rw [kept, own]
        exact Nat.le_refl _
      · rw [lost]
        exact Nat.zero_le _

theorem ownShow {live? : Option Live} {name literal : String} {attributes : List Attribute}
    (h : name ≠ idAttribute) :
    ownId? f (showAttribute live? name literal attributes) = ownId? f attributes := by
  unfold showAttribute
  split
  · exact ownPutOther h
  · split
    · exact ownEraseOther h
    · exact ownEraseOther h
    · exact ownPutOther h
    · exact ownPutOther h

theorem passAttribute {attributes attributes' : List Attribute} {a : Attribute}
    (h : out (bindAttribute attributes a) f s = (.ok attributes', s')) :
    Pass s s' (ownId? f attributes).toList (ownId? f attributes').toList := by
  rw [bindAttribute, outBind, outRead] at h
  simp only at h
  split at h
  · cases h
    exact passSame
  · next dynamic =>
    have other : a.name ≠ idAttribute := by
      intro same
      exact dynamic (by rw [same]; rfl)
    rw [outBind, outGet] at h
    simp only at h
    have same := @ownShow f (s.live? a.value) a.name (compose f.number s a.value).literal attributes other
    generalize showAttribute (s.live? a.value) a.name (compose f.number s a.value).literal attributes =
      changed at h same
    rw [← same]
    split at h
    · cases h
      exact passSame
    · next source composed =>
      obtain ⟨id, given, page, identified, own, allots⟩ := @outIdentify f s changed
      rw [outBind, identified] at h
      cases h
      rw [own]
      exact ⟨⟨allots.later, allots.counted⟩, ⟨page, _, _, rfl⟩, [_], rfl,
        List.forall_mem_singleton.mpr (by simp)⟩

theorem passAnchor {attributes attributes' : List Attribute}
    (h : out (bindAnchor attributes) f s = (.ok attributes', s')) :
    Pass s s' (ownId? f attributes).toList (ownId? f attributes').toList := by
  rw [bindAnchor, outBind, outGet] at h
  simp only at h
  split at h
  · cases h
    exact passSame
  · cases h
    rw [ownPut]
    exact ⟨allotsNew rfl, ⟨_, _, _, rfl⟩, [], (List.append_nil _).symm, fun _ h => absurd h List.not_mem_nil⟩

theorem passEach {bind : List Attribute → Attribute → Rendering (List Attribute)}
    (step : ∀ {attributes a s attributes' s'}, out (bind attributes a) f s = (.ok attributes', s') →
      Pass s s' (ownId? f attributes).toList (ownId? f attributes').toList)
    {attributes attributes' : List Attribute}
    (h : out (eachAttribute bind attributes) f s = (.ok attributes', s')) :
    Pass s s' (ownId? f attributes).toList (ownId? f attributes').toList := by
  have each (items attributes : List Attribute) (s : State)
      (h : out (items.foldlM bind attributes) f s = (.ok attributes', s')) :
      Pass s s' (ownId? f attributes).toList (ownId? f attributes').toList := by
    induction items generalizing attributes s with
    | nil =>
      cases h
      exact passSame
    | cons a rest ih =>
      rw [List.foldlM_cons] at h
      obtain ⟨changed, s₁, first, h⟩ := outOk.mp h
      exact passTrans (step first) (ih changed s₁ h)
  exact each attributes attributes s h

mutual

theorem passElement {change : List Attribute → Rendering (List Attribute)}
    (step : ∀ {attributes s attributes' s'}, out (change attributes) f s = (.ok attributes', s') →
      Pass s s' (ownId? f attributes).toList (ownId? f attributes').toList) :
    {n n' : Node} → {s s' : State} → out (onElements change n) f s = (.ok n', s') →
    Pass s s' (idsOf f [n]) (idsOf f [n'])
  | .text _ _, _, _, _, h => by
    cases h
    exact passSame
  | .element name attributes children, n', s, s', h => by
    simp only [onElements, outOk] at h
    obtain ⟨changed, s₁, first, children', s₂, inner, h⟩ := h
    cases h
    rw [idsElement, idsElement]
    exact passAppend (step first) (passElements step inner)

theorem passElements {change : List Attribute → Rendering (List Attribute)}
    (step : ∀ {attributes s attributes' s'}, out (change attributes) f s = (.ok attributes', s') →
      Pass s s' (ownId? f attributes).toList (ownId? f attributes').toList) :
    {nodes nodes' : List Node} → {s s' : State} →
    out (onAllElements change nodes) f s = (.ok nodes', s') → Pass s s' (idsOf f nodes) (idsOf f nodes')
  | [], _, _, _, h => by
    cases h
    exact passSame
  | n :: rest, nodes', s, s', h => by
    simp only [onAllElements, outOk] at h
    obtain ⟨n', s₁, first, rest', s₂, tail, h⟩ := h
    cases h
    rw [← List.singleton_append, idsAppend, ← @List.singleton_append _ n' rest', idsAppend]
    exact passAppend (passElement step first) (passElements step tail)

end

end LiveMarkup.Render
