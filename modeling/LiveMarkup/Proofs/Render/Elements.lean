import LiveMarkup.Proofs.Render.Pieces
import LiveMarkup.Proofs.Render.Run
/-! The elements of a tree and their identifiers. An identifier that is handed out goes to one element, so
it is counted once among the identifiers of a tree. -/
namespace LiveMarkup.Render
open Client Markup

abbrev Element := List Attribute × List Node

mutual

def elementsIn : Node → List Element
  | .text _ _ => []
  | .element _ attributes children => (attributes, children) :: elements children

def elements : List Node → List Element
  | [] => []
  | n :: rest => elementsIn n ++ elements rest

end

def ownId? (f : Factory) (attributes : List Attribute) : Option String :=
  (Attribute.get? attributes idAttribute).filter fun id => !id.isEmpty && !isPlaceholder f.number id

def idsOf (f : Factory) (nodes : List Node) : List String := (elements nodes).filterMap fun e => ownId? f e.1

def named (id : String) (nodes : List Node) : List Element :=
  (elements nodes).filter fun e => Attribute.get? e.1 idAttribute == some id

variable {f : Factory}

theorem elementsAppend {a b : List Node} : elements (a ++ b) = elements a ++ elements b := by
  induction a with
  | nil => rfl
  | cons n rest ih => rw [List.cons_append, elements, elements, ih, List.append_assoc]

theorem idsAppend {a b : List Node} : idsOf f (a ++ b) = idsOf f a ++ idsOf f b := by
  rw [idsOf, elementsAppend, List.filterMap_append]
  rfl

theorem idsElement {name : String} {attributes : List Attribute} {children : List Node} :
    idsOf f [.element name attributes children] = (ownId? f attributes).toList ++ idsOf f children := by
  have listed : elements [.element name attributes children] = (attributes, children) :: elements children := by
    rw [elements, elementsIn, elements, List.append_nil]
  rw [idsOf, listed, List.filterMap_cons]
  cases ownId? f attributes <;> rfl

theorem idsText {kind : TextKind} {text : String} : idsOf f [.text kind text] = [] := rfl

section Attributes

variable {attributes : List Attribute} {name other value : String}

theorem getPut : Attribute.get? (Attribute.put name value attributes) name = some value := by
  induction attributes with
  | nil => simp [Attribute.put, Attribute.get?]
  | cons a rest ih =>
    rw [Attribute.put]
    split
    · simp [Attribute.get?]
    · next differs =>
      rw [Attribute.get?, List.find?_cons_of_neg (by simpa using differs)]
      exact ih

theorem getPutOther (h : other ≠ name) :
    Attribute.get? (Attribute.put other value attributes) name = Attribute.get? attributes name := by
  induction attributes with
  | nil => simp [Attribute.put, Attribute.get?, h]
  | cons a rest ih =>
    rw [Attribute.put]
    split
    · next same =>
      have differs : a.name ≠ name := fun is => h ((beq_iff_eq.mp same).symm.trans is)
      simp [Attribute.get?, h, differs]
    · unfold Attribute.get? at ih ⊢
      rw [List.find?_cons, List.find?_cons]
      split
      · rfl
      · exact ih

theorem getErase :
    Attribute.get? (Attribute.erase other attributes) name =
      if other = name then none else Attribute.get? attributes name := by
  induction attributes with
  | nil => simp [Attribute.erase, Attribute.get?]
  | cons a rest ih =>
    unfold Attribute.erase Attribute.get? at ih ⊢
    rw [List.filter_cons, List.find?_cons]
    split
    · next kept =>
      rw [List.find?_cons]
      split
      · next found =>
        have differs : other ≠ name := fun same => by simp_all
        rw [if_neg differs]
      · exact ih
    · next erased =>
      rw [ih]
      split
      · rfl
      · next differs =>
        have is : a.name = other := by simpa using erased
        rw [beq_false_of_ne (is ▸ differs)]

end Attributes

section Fresh

variable {s s₁ s' : State} {a b c a' b' : List String}

def freshIds (s s' : State) : List String :=
  (List.range' s.page.nextId (s'.page.nextId - s.page.nextId)).map idText

structure Allots (s s' : State) (before after : List String) : Prop where
  later : s.page.nextId ≤ s'.page.nextId
  counted : ∀ id, after.count id ≤ before.count id + (freshIds s s').count id

theorem freshNodup : (freshIds s s').Nodup :=
  List.Pairwise.map idText (fun _ _ differ same => differ (idInjective same)) List.nodup_range'

theorem freshNumbered {id : String} (later : s.page.nextId ≤ s'.page.nextId) (mem : id ∈ freshIds s s') :
    ∃ n, s.page.nextId ≤ n ∧ n < s'.page.nextId ∧ id = idText n := by
  obtain ⟨n, within, rfl⟩ := List.mem_map.mp mem
  have bounds := List.mem_range'_1.mp within
  exact ⟨n, bounds.1, by omega, rfl⟩

theorem freshAppend (h : s.page.nextId ≤ s₁.page.nextId) (h' : s₁.page.nextId ≤ s'.page.nextId) :
    freshIds s s' = freshIds s s₁ ++ freshIds s₁ s' := by
  have total : s'.page.nextId - s.page.nextId =
      (s₁.page.nextId - s.page.nextId) + (s'.page.nextId - s₁.page.nextId) := by omega
  have middle : s.page.nextId + (s₁.page.nextId - s.page.nextId) = s₁.page.nextId := by omega
  rw [freshIds, freshIds, freshIds, ← List.map_append, total, ← List.range'_append_1, middle]

theorem allotsSame (h : s'.page = s.page) : Allots s s' a a :=
  ⟨Nat.le_of_eq (by rw [h]), fun _ => Nat.le_add_right _ _⟩

theorem allotsAppend (h : Allots s s₁ a a') (h' : Allots s₁ s' b b') : Allots s s' (a ++ b) (a' ++ b') := by
  refine ⟨Nat.le_trans h.later h'.later, fun id => ?_⟩
  have first := h.counted id
  have second := h'.counted id
  rw [freshAppend h.later h'.later]
  simp only [List.count_append]
  omega

theorem allotsTrans (h : Allots s s₁ a b) (h' : Allots s₁ s' b c) : Allots s s' a c := by
  refine ⟨Nat.le_trans h.later h'.later, fun id => ?_⟩
  have first := h.counted id
  have second := h'.counted id
  rw [freshAppend h.later h'.later]
  simp only [List.count_append]
  omega

theorem allotsNew (h : s'.page.nextId = s.page.nextId + 1) : Allots s s' a [idText s.page.nextId] := by
  have one : freshIds s s' = [idText s.page.nextId] := by
    rw [freshIds, h, Nat.add_sub_cancel_left]
    rfl
  refine ⟨by omega, fun id => ?_⟩
  rw [one]
  exact Nat.le_add_left _ _

theorem allotsFewer (h : Allots s s' a b) (fewer : ∀ id, c.count id ≤ b.count id) : Allots s s' a c :=
  ⟨h.later, fun id => Nat.le_trans (fewer id) (h.counted id)⟩

theorem allotsNodup (h : Allots s s' [] a) : a.Nodup := by
  refine List.nodup_iff_count.mpr fun id => Nat.le_trans (h.counted id) ?_
  rw [List.count_nil, Nat.zero_add]
  exact List.nodup_iff_count.mp freshNodup id

end Fresh

theorem ownGet {attributes : List Attribute} {id : String} (h : ownId? f attributes = some id) :
    Attribute.get? attributes idAttribute = some id := (Option.filter_eq_some_iff.mp h).1

theorem ownPut {attributes : List Attribute} {n : Nat} :
    ownId? f (Attribute.put idAttribute (idText n) attributes) = some (idText n) := by
  rw [ownId?, getPut]
  refine Option.filter_eq_some_iff.mpr ⟨rfl, ?_⟩
  have filled : (idText n).isEmpty = false := by
    refine Bool.eq_false_iff.mpr fun empty => ?_
    have lists := congrArg String.toList (String.isEmpty_iff.mp empty)
    rw [idText, String.toList_append] at lists
    exact absurd lists (by simp)
  rw [filled, idPlain]
  rfl

theorem namedOnce {nodes : List Node} {e : Element} {id : String} (nodup : (idsOf f nodes).Nodup)
    (mem : e ∈ elements nodes) (own : ownId? f e.1 = some id) : named id nodes = [e] := by
  unfold named
  unfold idsOf at nodup
  generalize elements nodes = es at nodup mem
  have owned {e' : Element} (h : Attribute.get? e'.1 idAttribute = some id) : ownId? f e'.1 = some id := by
    rw [ownId?, ownGet own] at own
    rw [ownId?, h]
    exact own
  induction es with
  | nil => exact absurd mem List.not_mem_nil
  | cons first rest ih =>
    rcases List.mem_cons.mp mem with rfl | mem
    · rw [List.filterMap_cons, own] at nodup
      have none : rest.filter (fun e => Attribute.get? e.1 idAttribute == some id) = [] := by
        refine List.filter_eq_nil_iff.mpr fun e' he' found => ?_
        exact (List.nodup_cons.mp nodup).1
          (List.mem_filterMap.mpr ⟨e', he', owned (beq_iff_eq.mp found)⟩)
      rw [List.filter_cons, ownGet own, none]
      simp
    · have inner : (rest.filterMap fun e => ownId? f e.1).Nodup :=
        nodup.sublist (List.Sublist.filterMap _ (List.sublist_cons_self first rest))
      have other : ¬(Attribute.get? first.1 idAttribute == some id) = true := by
        intro found
        rw [List.filterMap_cons, owned (beq_iff_eq.mp found)] at nodup
        exact (List.nodup_cons.mp nodup).1 (List.mem_filterMap.mpr ⟨e, mem, own⟩)
      rw [List.filter_cons, if_neg other]
      exact ih inner mem

end LiveMarkup.Render
