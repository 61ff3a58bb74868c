import LiveMarkup.Proofs.Render.Stages
import LiveMarkup.Proofs.Render.Twins
/-! Settling one tree in two runs: the passes see the same and give the same elements identifiers, in one run
behind those of the other. -/
namespace LiveMarkup.Render
open Analysis Client Markup

def Anonymous (f : Factory) (tree : List Node) : Prop :=
  ∀ e ∈ elements tree, ∀ a ∈ e.1, a.name = idAttribute → a.value = "" ∨ isPlaceholder f.number a.value = true

instance {f : Factory} {tree : List Node} : Decidable (Anonymous f tree) :=
  inferInstanceAs (Decidable (∀ e ∈ elements tree, ∀ a ∈ e.1, a.name = idAttribute → _))

inductive Tagged (k : Nat) (f : Factory) : Attribute → Attribute → Prop where
  | same {a} (plain : a.name = idAttribute → a.value = "" ∨ isPlaceholder f.number a.value = true) : Tagged k f a a
  | id {id id'} (later : Later k id id') :
      Tagged k f { name := idAttribute, value := id } { name := idAttribute, value := id' }

abbrev Stamped (k : Nat) (f : Factory) : List Node → List Node → Prop := Alike (List.Forall₂ (Tagged k f))

variable {k : Nat} {f f' : Factory} {s s' : State} {a a' : Attribute} {as as' : List Attribute}
  {nodes nodes' tree : List Node}

section Attributes

theorem taggedName (h : Tagged k f a a') : a'.name = a.name := by
  cases h with
  | same => rfl
  | id => rfl

theorem getTagged (h : List.Forall₂ (Tagged k f) as as') :
    Option.Rel (fun v v' => (v' = v ∧ (v = "" ∨ isPlaceholder f.number v = true)) ∨ Later k v v')
      (Attribute.get? as idAttribute) (Attribute.get? as' idAttribute) := by
  induction h with
  | nil => exact .none
  | @cons a a' as as' first _ ih =>
    unfold Attribute.get? at ih ⊢
    rw [List.find?_cons, List.find?_cons, taggedName first]
    cases named : a.name == idAttribute with
    | false => exact ih
    | true =>
      refine .some ?_
      cases first with
      | same plain => exact .inl ⟨rfl, plain (eq_of_beq named)⟩
      | id later => exact .inr later

theorem putTagged {name value : String} (other : name ≠ idAttribute) (h : List.Forall₂ (Tagged k f) as as') :
    List.Forall₂ (Tagged k f) (Attribute.put name value as) (Attribute.put name value as') := by
  have new : Tagged k f { name, value } { name, value } := .same fun named => absurd named other
  induction h with
  | nil => exact .cons new .nil
  | cons first rest ih =>
    rw [Attribute.put, Attribute.put, taggedName first]
    split
    · exact .cons new rest
    · exact .cons first ih

theorem putStamp {id id' : String} (later : Later k id id') (h : List.Forall₂ (Tagged k f) as as') :
    List.Forall₂ (Tagged k f) (Attribute.put idAttribute id as) (Attribute.put idAttribute id' as') := by
  induction h with
  | nil => exact .cons (.id later) .nil
  | cons first rest ih =>
    rw [Attribute.put, Attribute.put, taggedName first]
    split
    · exact .cons (.id later) rest
    · exact .cons first ih

theorem eraseTagged {name : String} (h : List.Forall₂ (Tagged k f) as as') :
    List.Forall₂ (Tagged k f) (Attribute.erase name as) (Attribute.erase name as') := by
  induction h with
  | nil => exact .nil
  | @cons a a' as as' first _ ih =>
    unfold Attribute.erase at ih ⊢
    rw [List.filter_cons, List.filter_cons, taggedName first]
    split
    · exact .cons first ih
    · exact ih

theorem showTagged {name literal : String} {live? : Option Live} (other : name ≠ idAttribute)
    (h : List.Forall₂ (Tagged k f) as as') :
    List.Forall₂ (Tagged k f) (showAttribute live? name literal as) (showAttribute live? name literal as') := by
  cases live? with
  | none => exact putTagged other h
  | some live =>
    unfold showAttribute
    simp only
    split
    · exact eraseTagged h
    · exact eraseTagged h
    · exact putTagged other h
    · exact putTagged other h

end Attributes

section Shifts

theorem liveShifted (shifted : Shifted k f s s') (key : String) : Option.Rel Shown (s.live? key) (s'.live? key) := by
  have live := shifted.live
  unfold State.live?
  generalize s.live = ls, s'.live = ls' at live
  induction live with
  | nil => exact .none
  | @cons l l' rest rest' first _ ih =>
    obtain ⟨same, shows⟩ := first
    rw [List.find?_cons, List.find?_cons, same]
    cases l.1 == key with
    | true => exact .some shows
    | false => exact ih

theorem reactiveShifted {slot : Slot} (shifted : Shifted k f s s') : s'.isReactive slot = s.isReactive slot := by
  rw [State.isReactive, State.isReactive, shifted.written]

theorem partShifted (shifted : Shifted k f s s') (piece : Piece) : partOf s' piece = partOf s piece := by
  have found : Option.Rel Shown (piece.key?.bind s.live?) (piece.key?.bind s'.live?) := by
    cases piece.key? with
    | none => exact .none
    | some key => exact liveShifted shifted key
  unfold partOf
  revert found
  generalize piece.key?.bind s.live? = live?, piece.key?.bind s'.live? = live'?
  rintro (⟨slot, now, shown, _⟩ | _)
  · simp only [slot, reactiveShifted shifted, now, shown]
  · rfl

theorem composeShifted (shifted : Shifted k f s s') (text : String) :
    compose f.number s' text = compose f.number s text := by
  rw [compose, compose, funext (partShifted shifted)]

theorem deferredShifted (shifted : Shifted k f s s') (key : String) :
    s'.deferred.any (·.1 == key) = s.deferred.any (·.1 == key) := by
  have deferred := shifted.deferred
  generalize s.deferred = ds, s'.deferred = ds' at deferred
  induction deferred with
  | nil => rfl
  | cons first _ ih =>
    rw [List.any_cons, List.any_cons, ih]
    cases first with
    | markup => rfl
    | component => rfl

theorem idUnknown {id id' : String} (shifted : Shifted k f s s') (later : Later k id id') :
    s.live? id = none ∧ s'.live? id' = none := by
  have other (n : Nat) : s.live? (idText n) = none := by
    rw [State.live?, Option.map_eq_none_iff, List.find?_eq_none]
    intro l hl same
    have placeholder := shifted.keyed l hl
    rw [eq_of_beq same, idPlain] at placeholder
    cases placeholder
  obtain ⟨n, rfl, rfl⟩ := later
  have both := liveShifted shifted (idText (n + k))
  refine ⟨other n, ?_⟩
  revert both
  rw [other (n + k)]
  generalize s'.live? (idText (n + k)) = live?
  rintro ⟨⟩
  rfl

end Shifts

section Passes

theorem twinsNewId : Twins k f f' (Later k) newId newId := by
  intro s s' shifted
  obtain ⟨page, written, next, records, live, deferred, keyed⟩ := shifted
  refine ⟨.ok ⟨s.page.nextId, rfl, ?_⟩, ?_, written, next, records, live, deferred, keyed⟩
  · rw [page]
  · show (⟨s'.page.nextId + 1, s'.page.nextFactory⟩ : Page) = ⟨s.page.nextId + 1 + k, s.page.nextFactory⟩
    rw [page, Nat.add_right_comm]

theorem twinsBinding {b b' : Binding} (later : Later k b.id b'.id) (same : b' = { b with id := b'.id }) :
    Twins k f f' (fun _ _ => True) (addBinding b) (addBinding b') := by
  refine twinsModify fun s s' shifted => ?_
  obtain ⟨bindings, handlers, chains⟩ := shifted.records
  exact { shifted with records := ⟨List.rel_append bindings (.cons ⟨later, same⟩ .nil), handlers, chains⟩ }

variable (twin : Twin f f')

include twin

theorem twinsIdentify (h : List.Forall₂ (Tagged k f) as as') :
    Twins k f f' (fun p p' => Later k p.1 p'.1 ∧ List.Forall₂ (Tagged k f) p.2 p'.2) (identify as) (identify as') := by
  have given := getTagged h
  have fresh : Twins k f f' (fun p p' => Later k p.1 p'.1 ∧ List.Forall₂ (Tagged k f) p.2 p'.2)
      (do
        let id ← newId
        return (id, Attribute.put idAttribute id as))
      (do
        let id ← newId
        return (id, Attribute.put idAttribute id as')) :=
    twinsBind twinsNewId fun _ _ later => twinsPure ⟨later, putStamp later h⟩
  refine twinsRead ?_
  rw [twin.number]
  revert given
  generalize Attribute.get? as idAttribute = v?, Attribute.get? as' idAttribute = v'?
  rintro ((⟨rfl, plain⟩ | ⟨n, rfl, rfl⟩) | _)
  · rw [Option.filter_some, if_neg]
    · exact fresh
    · rcases plain with rfl | placeholder
      · simp
      · simp [placeholder]
  · have own (n : Nat) :
        ((some (idText n)).filter fun id => !id.isEmpty && !isPlaceholder f.number id) = some (idText n) := by
      rw [Option.filter_some, if_pos]
      rw [idPlain]
      simp [idText]
    rw [own, own]
    exact twinsPure ⟨⟨n, rfl, rfl⟩, h⟩
  · exact fresh

theorem twinsEvent (tagged : Tagged k f a a') (h : List.Forall₂ (Tagged k f) as as') :
    Twins k f f' (List.Forall₂ (Tagged k f)) (bindEvent as a) (bindEvent as' a') := by
  refine twinsGet fun s s' shifted => ?_
  cases tagged with
  | id later =>
    obtain ⟨none, none'⟩ := idUnknown shifted later
    simp only [none, none']
    exact endsPure h shifted
  | same _ =>
    have live := liveShifted shifted a.value
    revert live
    generalize s.live? a.value = live?, s'.live? a.value = live'?
    rintro (⟨slot, _, _, _⟩ | _)
    · simp only [slot]
      split
      · exact endsPure h shifted
      refine twinsBind (twinsIdentify twin h) (fun p p' ⟨later, stamped⟩ => ?_) s s' shifted
      refine twinsBind (twinsModify fun s s' shifted => ?_) fun _ _ _ => twinsPure (eraseTagged stamped)
      obtain ⟨bindings, handlers, chains⟩ := shifted.records
      exact { shifted with
        written := by rw [shifted.written]
        records := ⟨bindings, List.rel_append handlers (.cons ⟨later, rfl⟩ .nil), chains⟩ }
    · exact endsPure h shifted

theorem twinsAttribute (tagged : Tagged k f a a') (h : List.Forall₂ (Tagged k f) as as') :
    Twins k f f' (List.Forall₂ (Tagged k f)) (bindAttribute as a) (bindAttribute as' a') := by
  refine twinsRead ?_
  rw [twin.number]
  cases tagged with
  | id later =>
    simp only [BEq.rfl, Bool.true_or, if_true]
    exact twinsPure h
  | same _ =>
    split
    · exact twinsPure h
    next bound =>
    have other : a.name ≠ idAttribute := fun named => bound (by simp [named])
    refine twinsGet fun s s' shifted => ?_
    have composed := composeShifted shifted a.value
    have shown : List.Forall₂ (Tagged k f)
        (showAttribute (s.live? a.value) a.name (compose f.number s a.value).literal as)
        (showAttribute (s'.live? a.value) a.name (compose f.number s a.value).literal as') := by
      have live := liveShifted shifted a.value
      revert live
      generalize s.live? a.value = live?, s'.live? a.value = live'?
      rintro (shown | _)
      · rw [shown.drawn]
        exact showTagged other h
      · exact showTagged other h
    simp only [composed]
    split
    · exact endsPure shown shifted
    · refine twinsBind (twinsIdentify twin shown) (fun p p' ⟨later, stamped⟩ => ?_) s s' shifted
      exact twinsBind (twinsBinding later rfl) fun _ _ _ => twinsPure stamped

omit twin in
theorem twinsAnchor (h : List.Forall₂ (Tagged k f) as as') :
    Twins k f f' (List.Forall₂ (Tagged k f)) (bindAnchor as) (bindAnchor as') := by
  refine twinsGet fun s s' shifted => ?_
  have live : Option.Rel Shown (s.live? ((Attribute.get? as idAttribute).getD ""))
      (s'.live? ((Attribute.get? as' idAttribute).getD "")) := by
    have given := getTagged h
    revert given
    generalize Attribute.get? as idAttribute = v?, Attribute.get? as' idAttribute = v'?
    rintro ((⟨rfl, _⟩ | later) | _)
    · exact liveShifted shifted _
    · obtain ⟨none, none'⟩ := idUnknown shifted later
      rw [Option.getD_some, Option.getD_some, none, none']
      exact .none
    · exact liveShifted shifted _
  revert live
  generalize s.live? ((Attribute.get? as idAttribute).getD "") = live?,
    s'.live? ((Attribute.get? as' idAttribute).getD "") = live'?
  rintro (⟨slot, _, _, _⟩ | _)
  · simp only [slot]
    refine twinsBind twinsNewId (fun id id' later => ?_) s s' shifted
    refine twinsBind (twinsModify fun s s' shifted => ?_) fun _ _ _ => twinsPure (putStamp later h)
    obtain ⟨bindings, handlers, chains⟩ := shifted.records
    exact { shifted with
      records := ⟨bindings, handlers, List.rel_append chains (.cons ⟨later, rfl⟩ .nil)⟩ }
  · exact endsPure h shifted

theorem twinsSettle (chunk : String) : Twins k f f' Eq (settle chunk) (settle chunk) := by
  refine twinsRead (twinsGet fun s s' shifted => ?_)
  have composed := composeShifted shifted chunk
  have live (key : String) : (s'.live? key).isSome = (s.live? key).isSome := by
    have both := liveShifted shifted key
    revert both
    generalize s.live? key = live?, s'.live? key = live'?
    rintro (_ | _) <;> rfl
  simp only [composed, twin.number, live]
  split
  · exact endsPure rfl shifted
  · exact endsPure rfl shifted

theorem twinsWrap (chunk : String) :
    Twins k f f' (fun n n' => Stamped k f [n] [n']) (wrapChunk chunk) (wrapChunk chunk) := by
  refine twinsBind (twinsSettle twin chunk) fun c _ same => ?_
  subst same
  simp only
  split
  · exact twinsPure (.text .nil)
  · refine twinsBind (twinsIdentify twin .nil) fun p p' ⟨later, stamped⟩ => ?_
    exact twinsBind (twinsBinding later rfl) fun _ _ _ => twinsPure (.element stamped (.text .nil) .nil)

theorem twinsOnly {name : String} (chunk : String) (h : List.Forall₂ (Tagged k f) as as') :
    Twins k f f' (fun n n' => Stamped k f [n] [n']) (bindOnlyText name as chunk) (bindOnlyText name as' chunk) := by
  refine twinsBind (twinsSettle twin chunk) fun c _ same => ?_
  subst same
  simp only
  split
  · exact twinsPure (.element h (.text .nil) .nil)
  · refine twinsBind (twinsIdentify twin h) fun p p' ⟨later, stamped⟩ => ?_
    exact twinsBind (twinsBinding later rfl) fun _ _ _ => twinsPure (.element stamped (.text .nil) .nil)

theorem twinsChunks (text : String) : Twins k f f' Eq (chunksOf text) (chunksOf text) := by
  intro s s' shifted
  have same : chunksIn f' s' text = chunksIn f s text := by
    rw [chunksIn, chunksIn, splitDeferred, splitDeferred, twin.number, funext (deferredShifted shifted)]
  rw [outChunks, outChunks, same]
  exact endsPure rfl shifted

omit twin

theorem stampedCons {n n' : Node} (here : Stamped k f [n] [n']) (rest : Stamped k f nodes nodes') :
    Stamped k f (n :: nodes) (n' :: nodes') := by
  cases here with
  | text _ => exact .text rest
  | element attributes inner _ => exact .element attributes inner rest

theorem stampedAppend {more more' : List Node} (h : Stamped k f nodes nodes') (h' : Stamped k f more more') :
    Stamped k f (nodes ++ more) (nodes' ++ more') := by
  induction h with
  | nil => exact h'
  | text _ ih => exact .text ih
  | element attributes inner _ _ ih => exact .element attributes inner ih

theorem twinsElements {change : List Attribute → Rendering (List Attribute)}
    (step : ∀ as as', List.Forall₂ (Tagged k f) as as' →
      Twins k f f' (List.Forall₂ (Tagged k f)) (change as) (change as'))
    (h : Stamped k f nodes nodes') :
    Twins k f f' (Stamped k f) (onAllElements change nodes) (onAllElements change nodes') := by
  induction h with
  | nil => exact twinsPure .nil
  | @text kind text _ _ _ ih =>
    have node : Twins k f f' (fun n n' => Stamped k f [n] [n']) (onElements change (.text kind text))
        (onElements change (.text kind text)) := twinsPure (.text .nil)
    exact twinsBind node fun _ _ here => twinsBind ih fun _ _ rest => twinsPure (stampedCons here rest)
  | @element name as as' children children' _ _ here _ _ ih ih' =>
    have node : Twins k f f' (fun n n' => Stamped k f [n] [n']) (onElements change (.element name as children))
        (onElements change (.element name as' children')) :=
      twinsBind (step as as' here) fun _ _ changed => twinsBind ih fun _ _ inner =>
        twinsPure (.element changed inner .nil)
    exact twinsBind node fun _ _ here => twinsBind ih' fun _ _ rest => twinsPure (stampedCons here rest)

theorem stampedMixed (h : Stamped k f nodes nodes') (mixed : Mixed nodes) : Mixed nodes' := by
  rintro text rfl
  cases h with
  | text rest =>
    cases rest
    exact mixed text rfl

include twin

theorem twinsTexts (h : Stamped k f nodes nodes') :
    Twins k f f' (Stamped k f) (bindTexts nodes) (bindTexts nodes') := by
  have wrapped (parts : List String) : Twins k f f' (Stamped k f) (parts.mapM wrapChunk) (parts.mapM wrapChunk) := by
    induction parts with
    | nil => exact twinsPure .nil
    | cons part parts ih =>
      rw [List.mapM_cons]
      exact twinsBind (twinsWrap twin part) fun _ _ here => twinsBind ih fun _ _ rest =>
        twinsPure (stampedCons here rest)
  induction h with
  | nil => exact twinsPure .nil
  | @text kind text _ _ _ ih =>
    have node : Twins k f f' (Stamped k f) (bindElementTexts (.text kind text))
        (bindElementTexts (.text kind text)) := by
      cases kind with
      | plain => exact twinsBind (twinsChunks twin text) fun parts _ same => same ▸ wrapped parts
      | hidden => exact twinsPure (.text .nil)
      | aside kind => exact twinsPure (.text .nil)
    exact twinsBind node fun _ _ here => twinsBind ih fun _ _ rest => twinsPure (stampedAppend here rest)
  | @element name as as' children children' _ _ here inner _ ih ih' =>
    have node : Twins k f f' (Stamped k f) (bindElementTexts (.element name as children))
        (bindElementTexts (.element name as' children')) := by
      rcases onlyOrMixed children with ⟨text, rfl⟩ | mixed
      · cases inner with
        | text rest =>
        cases rest
        rw [onlyText, onlyText]
        refine twinsBind (twinsChunks twin text) fun parts _ same => ?_
        subst same
        split
        · exact twinsBind (twinsOnly twin _ here) fun _ _ only => twinsPure only
        · exact twinsBind (wrapped _) fun _ _ parts => twinsPure (.element here parts .nil)
      · rw [mixedTexts mixed, mixedTexts (stampedMixed inner mixed)]
        exact twinsBind ih fun _ _ parts => twinsPure (.element here parts .nil)
    exact twinsBind node fun _ _ here => twinsBind ih' fun _ _ rest => twinsPure (stampedAppend here rest)

omit twin

theorem stampedSelf : (nodes : List Node) → Anonymous f nodes → Stamped k f nodes nodes
  | [], _ => .nil
  | .text _ _ :: rest, anonymous => .text (stampedSelf rest anonymous)
  | .element name as children :: rest, anonymous => by
    have whole := anonymous
    unfold Anonymous at whole
    rw [elementsCons] at whole
    obtain ⟨here, others⟩ := List.forall_mem_cons.mp whole
    obtain ⟨inner, later⟩ := List.forall_mem_append.mp others
    exact .element (List.forall₂_same.mpr fun a ha => .same (here a ha)) (stampedSelf children inner)
      (stampedSelf rest later)

theorem twinsEach {bind : List Attribute → Attribute → Rendering (List Attribute)}
    (step : ∀ as as' a a', List.Forall₂ (Tagged k f) as as' → Tagged k f a a' →
      Twins k f f' (List.Forall₂ (Tagged k f)) (bind as a) (bind as' a'))
    (as as' : List Attribute) (h : List.Forall₂ (Tagged k f) as as') :
    Twins k f f' (List.Forall₂ (Tagged k f)) (eachAttribute bind as) (eachAttribute bind as') :=
  twinsFold step h h

theorem twinsTree (twin : Twin f f') (anonymous : Anonymous f tree) :
    Twins k f f' (Stamped k f) (settleTree tree) (settleTree tree) := by
  have events := @twinsEach k f f' bindEvent fun _ _ _ _ h tagged => twinsEvent twin tagged h
  have bound := @twinsEach k f f' bindAttribute fun _ _ _ _ h tagged => twinsAttribute twin tagged h
  refine twinsBind (twinsElements events (stampedSelf tree anonymous)) fun _ _ h => ?_
  refine twinsBind (twinsElements bound h) fun _ _ h => ?_
  exact twinsBind (twinsTexts twin h) fun _ _ h => twinsElements (fun _ _ => twinsAnchor) h

end Passes

end LiveMarkup.Render
