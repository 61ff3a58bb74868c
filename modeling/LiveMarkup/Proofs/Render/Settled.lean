import LiveMarkup.Proofs.Render.Alone
/-! Steps that append records and hand out identifiers. New identifiers go to elements in increasing order,
and each is that of a new record. -/
namespace LiveMarkup.Client

instance : Append Records where
  append r r' := ⟨r.bindings ++ r'.bindings, r.handlers ++ r'.handlers, r.asyncBindings ++ r'.asyncBindings⟩

namespace Records

variable {r r' r'' : Records}

theorem appendNone : r ++ ({} : Records) = r := by
  show Records.mk _ _ _ = r
  simp

theorem noneAppend : ({} : Records) ++ r = r := rfl

theorem appendAssoc : r ++ r' ++ r'' = r ++ (r' ++ r'') := by
  show Records.mk _ _ _ = Records.mk _ _ _
  simp only [Records.mk.injEq]
  exact ⟨List.append_assoc .., List.append_assoc .., List.append_assoc ..⟩

theorem addBindings {new : List Binding} : { r with bindings := r.bindings ++ new } = r ++ { bindings := new } := by
  show _ = Records.mk _ _ _
  simp

theorem addHandlers {new : List Handler} : { r with handlers := r.handlers ++ new } = r ++ { handlers := new } := by
  show _ = Records.mk _ _ _
  simp

theorem addChains {new : List AsyncBinding} :
    { r with asyncBindings := r.asyncBindings ++ new } = r ++ { asyncBindings := new } := by
  show _ = Records.mk _ _ _
  simp

theorem joinPasses {handlers : List Handler} {first second : List Binding} {chains : List AsyncBinding} :
    ({ handlers } : Records) ++ ({ bindings := first } ++ ({ bindings := second } ++ { asyncBindings := chains })) =
      ⟨first ++ second, handlers, chains⟩ := by
  show Records.mk ([] ++ (first ++ (second ++ []))) (handlers ++ []) ([] ++ ([] ++ ([] ++ chains))) = _
  simp only [List.nil_append, List.append_nil]

def unnamed (r : Records) : Records where
  bindings := r.bindings.map fun b => { b with id := "" }
  handlers := r.handlers.map fun h => { h with id := "" }
  asyncBindings := r.asyncBindings.map fun a => { a with id := "" }

theorem unnamedAppend : (r ++ r').unnamed = r.unnamed ++ r'.unnamed := by
  show Records.mk _ _ _ = Records.mk _ _ _
  simp only [Records.mk.injEq]
  exact ⟨List.map_append, List.map_append, List.map_append⟩

theorem memIds {id : String} : id ∈ (r ++ r').ids ↔ id ∈ r.ids ∨ id ∈ r'.ids := by
  have parts : (r ++ r').ids = (r.bindings ++ r'.bindings).map (·.id) ++ (r.handlers ++ r'.handlers).map (·.id) ++
      (r.asyncBindings ++ r'.asyncBindings).map (·.id) := rfl
  rw [parts]
  simp only [ids, List.map_append, List.mem_append]
  grind

end Records

end LiveMarkup.Client

namespace LiveMarkup.Render
open Client Markup

variable {f : Factory} {s s₁ s' : State}

section Changes

inductive Mixes {α : Type} : List α → List α → List α → Prop where
  | none : Mixes [] [] []
  | old {a as bs cs} (rest : Mixes as bs cs) : Mixes (a :: as) bs (a :: cs)
  | new {b as bs cs} (rest : Mixes as bs cs) : Mixes as (b :: bs) (b :: cs)

namespace Mixes

variable {α : Type} {as bs cs as' bs' cs' : List α}

theorem same : (as : List α) → Mixes as [] as
  | [] => .none
  | _ :: rest => .old (same rest)

theorem append (h : Mixes as bs cs) (h' : Mixes as' bs' cs') : Mixes (as ++ as') (bs ++ bs') (cs ++ cs') := by
  induction h with
  | none => exact h'
  | old _ ih => exact .old ih
  | new _ ih => exact .new ih

theorem perm (h : Mixes as bs cs) : cs.Perm (as ++ bs) := by
  induction h with
  | none => exact .nil
  | old _ ih => exact ih.cons _
  | @new b as bs cs _ ih => exact (ih.cons b).trans List.perm_middle.symm

theorem sublists (h : Mixes as bs cs) : as.Sublist cs ∧ bs.Sublist cs := by
  induction h with
  | none => exact ⟨.slnil, .slnil⟩
  | old _ ih => exact ⟨ih.1.cons_cons _, ih.2.cons _⟩
  | new _ ih => exact ⟨ih.1.cons _, ih.2.cons_cons _⟩

theorem step {a b c : Option α} (h : Mixes a.toList bs b.toList) (h' : Mixes b.toList bs' c.toList) :
    Mixes a.toList (bs ++ bs') c.toList := by
  have total := h.perm.length_eq
  have total' := h'.perm.length_eq
  cases a with
  | none =>
    cases b with
    | none =>
      obtain rfl : bs = [] := List.eq_nil_of_length_eq_zero (by simpa using total.symm)
      exact h'
    | some x =>
      cases c with
      | none => simp at total'
      | some y =>
        obtain rfl : bs' = [] := List.eq_nil_of_length_eq_zero (by simpa using total'.symm)
        obtain rfl : x = y := by simpa using h'.sublists.1
        rw [List.append_nil]
        exact h
  | some x =>
    cases b with
    | none => simp at total
    | some y =>
      obtain rfl : bs = [] := List.eq_nil_of_length_eq_zero (by simpa using total.symm)
      obtain rfl : x = y := by simpa using h.sublists.1
      exact h'

end Mixes

theorem freshSame (h : s'.page = s.page) : freshIds s s' = [] := by
  rw [freshIds, h, Nat.sub_self]
  rfl

structure Change (s s' : State) (new gained : Records) : Prop where
  same : s' = { s with page := s'.page, records := s.records ++ new }
  gained : new.unnamed = gained
  later : s.page.nextId ≤ s'.page.nextId

structure Stamps (s s' : State) (before after : List String) (new : Records) : Prop where
  mixes : Mixes before (freshIds s s') after
  named : ∀ id ∈ freshIds s s', id ∈ new.ids
  within : ∀ id ∈ new.ids, id ∈ after

def Settles (clean : Prop) (s s' : State) (before after : List String) (gained : Records) : Prop :=
  ∃ new, Change s s' new gained ∧ (clean → Stamps s s' before after new)

variable {clean clean' : Prop} {gained gained' : Records}

theorem settlesStill {before after : List String} (h : Settles clean s s' before after gained) : Still s s' := by
  obtain ⟨new, change, _⟩ := h
  exact ⟨_, _, change.same⟩

theorem settlesSame {a : List String} : Settles clean s s a a {} := by
  refine ⟨{}, ⟨?_, rfl, Nat.le_refl _⟩, fun _ => ⟨?_, ?_, fun id h => absurd h List.not_mem_nil⟩⟩
  · rw [Records.appendNone]
  · rw [freshSame rfl]
    exact .same a
  · rw [freshSame rfl]
    exact fun id h => absurd h List.not_mem_nil

theorem settlesWhen {before after : List String} (h : Settles clean s s' before after gained)
    (when : clean' → clean) : Settles clean' s s' before after gained := by
  obtain ⟨new, change, stamps⟩ := h
  exact ⟨new, change, fun c => stamps (when c)⟩

theorem changeTrans {new new' : Records} (h : Change s s₁ new gained) (h' : Change s₁ s' new' gained') :
    Change s s' (new ++ new') (gained ++ gained') where
  same := by
    have first := h.same
    have second := h'.same
    rw [first] at second
    rw [second]
    simp only [Records.appendAssoc]
  gained := by rw [Records.unnamedAppend, h.gained, h'.gained]
  later := Nat.le_trans h.later h'.later

theorem namedAppend {new new' : Records} (h : Change s s₁ new gained) (h' : Change s₁ s' new' gained')
    (named : ∀ id ∈ freshIds s s₁, id ∈ new.ids) (named' : ∀ id ∈ freshIds s₁ s', id ∈ new'.ids) :
    ∀ id ∈ freshIds s s', id ∈ (new ++ new').ids := by
  intro id mem
  rw [freshAppend h.later h'.later] at mem
  rcases List.mem_append.mp mem with mem | mem
  · exact Records.memIds.mpr (.inl (named id mem))
  · exact Records.memIds.mpr (.inr (named' id mem))

theorem settlesAppend {a a' b b' : List String} (h : Settles clean s s₁ a a' gained)
    (h' : Settles clean' s₁ s' b b' gained') :
    Settles (clean ∧ clean') s s' (a ++ b) (a' ++ b') (gained ++ gained') := by
  obtain ⟨new, change, stamps⟩ := h
  obtain ⟨new', change', stamps'⟩ := h'
  refine ⟨new ++ new', changeTrans change change', fun ⟨c, c'⟩ => ⟨?_, ?_, fun id mem => ?_⟩⟩
  · rw [freshAppend change.later change'.later]
    exact (stamps c).mixes.append (stamps' c').mixes
  · exact namedAppend change change' (stamps c).named (stamps' c').named
  · rcases Records.memIds.mp mem with mem | mem
    · exact List.mem_append_left _ ((stamps c).within id mem)
    · exact List.mem_append_right _ ((stamps' c').within id mem)

theorem settlesStep {a b c : Option String} (h : Settles clean s s₁ a.toList b.toList gained)
    (h' : Settles clean' s₁ s' b.toList c.toList gained') :
    Settles (clean ∧ clean') s s' a.toList c.toList (gained ++ gained') := by
  obtain ⟨new, change, stamps⟩ := h
  obtain ⟨new', change', stamps'⟩ := h'
  refine ⟨new ++ new', changeTrans change change', fun ⟨c, c'⟩ => ⟨?_, ?_, fun id mem => ?_⟩⟩
  · rw [freshAppend change.later change'.later]
    exact (stamps c).mixes.step (stamps' c').mixes
  · exact namedAppend change change' (stamps c).named (stamps' c').named
  · rcases Records.memIds.mp mem with mem | mem
    · exact (stamps' c').mixes.sublists.1.subset ((stamps c).within id mem)
    · exact (stamps' c').within id mem

end Changes

section Attributes

def others (attributes : List Attribute) : List Attribute := attributes.filter (·.name != idAttribute)

variable {attributes attributes' : List Attribute}

theorem othersPut {value : String} : others (Attribute.put idAttribute value attributes) = others attributes := by
  induction attributes with
  | nil => rfl
  | cons a rest ih =>
    rw [Attribute.put]
    split
    · next same =>
      have is : (a.name != idAttribute) = false := by simpa using same
      rw [others, others, List.filter_cons_of_neg (by simp), List.filter_cons_of_neg (by simp [is])]
    · unfold others at ih ⊢
      rw [List.filter_cons, List.filter_cons, ih]

theorem othersErase {name : String} :
    others (Attribute.erase name attributes) = (others attributes).filter (·.name != name) := by
  rw [others, Attribute.erase, List.filter_filter, others, List.filter_filter]
  exact List.filter_congr fun a _ => Bool.and_comm ..

structure Identified (f : Factory) (s : State) (attributes : List Attribute) (id : String)
    (attributes' : List Attribute) (page : Page) : Prop where
  ran : out (identify attributes) f s = (.ok (id, attributes'), { s with page })
  own : ownId? f attributes' = some id
  later : s.page.nextId ≤ page.nextId
  mixes : Mixes (ownId? f attributes).toList (freshIds s { s with page }) [id]
  kept : others attributes' = others attributes

theorem identified : ∃ id attributes' page, Identified f s attributes id attributes' page := by
  cases own : ownId? f attributes with
  | some id =>
    refine ⟨id, attributes, s.page, ?_, own, Nat.le_refl _, ?_, rfl⟩
    · unfold ownId? at own
      rw [identify, outBind, outRead]
      simp only [own]
      rfl
    · rw [own, freshSame rfl]
      exact .same [id]
  | none =>
    refine ⟨idText s.page.nextId, Attribute.put idAttribute (idText s.page.nextId) attributes,
      { s.page with nextId := s.page.nextId + 1 }, ?_, ownPut, Nat.le_succ _, ?_, othersPut⟩
    · unfold ownId? at own
      rw [identify, outBind, outRead]
      simp only [own]
      rfl
    · have one : freshIds s { s with page := { s.page with nextId := s.page.nextId + 1 } } = [idText s.page.nextId] := by
        rw [freshIds, Nat.add_sub_cancel_left]
        rfl
      rw [own, one]
      exact .new .none

theorem settlesRecord {id : String} {page : Page} {new : Records}
    (given : Identified f s attributes id attributes' page) (one : new.ids = [id]) :
    Settles clean s { s with page, records := s.records ++ new } (ownId? f attributes).toList [id] new.unnamed := by
  have fresh : freshIds s { s with page, records := s.records ++ new } = freshIds s { s with page } := rfl
  refine ⟨new, ⟨rfl, rfl, given.later⟩, fun _ => ⟨given.mixes, fun x mem => ?_, fun x mem => ?_⟩⟩
  · rw [one]
    exact given.mixes.sublists.2.subset (fresh ▸ mem)
  · rwa [one] at mem

end Attributes

end LiveMarkup.Render
