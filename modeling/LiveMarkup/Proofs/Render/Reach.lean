import LiveMarkup.Proofs.Render.Direct
import LiveMarkup.Proofs.Render.Kept
import LiveMarkup.Proofs.Render.Starts
/-! Live slots within reach. Settling a tree leaves no placeholder of those that stand in texts of the page or in values
of attributes. Those in texts out of reach are left, and the first of them fails the call. -/
namespace LiveMarkup.Render
open Analysis Client Markup

variable {f : Factory} {s s' s'' : State}

def Spent (f : Factory) (s : State) (text : String) : Prop := ∀ key ∈ placeholders f.number text, s.live? key = none

section Attributes

variable {a b : Attribute} {attributes attributes' items : List Attribute} {name value text : String}

structure Ahead (f : Factory) (s : State) (a : Attribute) : Prop where
  named : Spent f s a.name
  shows : a.name ≠ idAttribute → Spent f s (compose f.number s a.value).literal
  own : a.name = idAttribute → (s.live? a.value).isSome ∨ Spent f s a.value

def Past (f : Factory) (s : State) (a : Attribute) : Prop :=
  Spent f s a.name ∧ (Spent f s (shownText a) ∨ a.name = idAttribute ∧ (s.live? a.value).isSome)

structure AllAhead (f : Factory) (s : State) (attributes : List Attribute) : Prop where
  formed : Formed f.number attributes
  ahead : ∀ a ∈ attributes, Ahead f s a

structure AllPast (f : Factory) (s : State) (attributes : List Attribute) : Prop where
  once : (attributes.map (·.name)).Nodup
  past : ∀ a ∈ attributes, Past f s a

theorem spentPlain (plain : '_' ∉ text.toList) : Spent f s text := by
  have none := @scanPlain f.number _ plain
  rw [String.ofList_toList] at none
  rw [Spent, none]
  exact fun _ mem => absurd mem List.not_mem_nil

theorem spentId {n : Nat} : Spent f s (idText n) := by
  have digits : ∀ c ∈ (toString n).toList, c ≠ '_' := by
    rintro c mem rfl
    exact absurd (digitOf _ mem) (by decide)
  have missed : Placeholder.atFront? f.number ('_' :: (toString n).toList) = none := by
    refine Option.eq_none_iff_forall_ne_some.mpr fun p found => ?_
    obtain ⟨behind, same⟩ := foundLead found
    exact digits '_' ((List.cons.inj same).2 ▸ List.mem_cons_self) rfl
  have chars : idText n = String.ofList ('_' :: (toString n).toList) := by
    rw [← String.toList_inj, String.toList_ofList, idText, String.toList_append]
    rfl
  rw [Spent, chars, scanMissed missed, scanPlain fun mem => digits _ mem rfl]
  exact fun _ mem => absurd mem List.not_mem_nil

theorem spentName : Spent f s idAttribute := spentPlain (by decide)

theorem putApart (once : (attributes.map (·.name)).Nodup) (mem : b ∈ Attribute.put name value attributes) :
    b = { name, value } ∨ b ∈ attributes ∧ b.name ≠ name := by
  induction attributes with
  | nil => exact .inl (List.mem_singleton.mp mem)
  | cons a rest ih =>
    obtain ⟨new, once⟩ := List.nodup_cons.mp once
    rw [Attribute.put] at mem
    split at mem
    · next same =>
      refine (List.mem_cons.mp mem).imp_right fun mem => ⟨List.mem_cons_of_mem _ mem, fun named => new ?_⟩
      exact List.mem_map.mpr ⟨b, mem, named.trans (beq_iff_eq.mp same).symm⟩
    · next other =>
      rcases List.mem_cons.mp mem with rfl | mem
      · exact .inr ⟨List.mem_cons_self, by simpa using other⟩
      · exact (ih once mem).imp_right (And.imp_left (List.mem_cons_of_mem _))

theorem eraseOnce (once : (attributes.map (·.name)).Nodup) : ((Attribute.erase name attributes).map (·.name)).Nodup :=
  once.sublist (List.filter_sublist.map _)

theorem identifyForm {id : String} (h : out (identify attributes) f s' = (.ok (id, attributes'), s'')) :
    attributes' = attributes ∨ ∃ n, attributes' = Attribute.put idAttribute (idText n) attributes := by
  rw [identify, outBind, outRead] at h
  simp only at h
  split at h
  · cases h
    exact .inl rfl
  · cases h
    exact .inr ⟨_, rfl⟩

theorem aheadId {n : Nat} (all : AllAhead f s attributes) :
    AllAhead f s (Attribute.put idAttribute (idText n) attributes) where
  formed.once := putOnce all.formed.once
  formed.written a mem := by
    rcases putMem mem with rfl | mem
    · exact nofun
    · exact all.formed.written a mem
  ahead a mem := by
    rcases putMem mem with rfl | mem
    · exact ⟨spentName, fun other => absurd rfl other, fun _ => .inr spentId⟩
    · exact all.ahead a mem

theorem aheadErase (all : AllAhead f s attributes) : AllAhead f s (Attribute.erase name attributes) where
  formed.once := eraseOnce all.formed.once
  formed.written a mem := all.formed.written a (List.mem_filter.mp mem).1
  ahead a mem := all.ahead a (List.mem_filter.mp mem).1

theorem pastId {n : Nat} (all : AllPast f s attributes) :
    AllPast f s (Attribute.put idAttribute (idText n) attributes) where
  once := putOnce all.once
  past a mem := by
    rcases putMem mem with rfl | mem
    · exact ⟨spentName, .inl spentId⟩
    · exact all.past a mem

theorem aheadEvent (all : AllAhead f s attributes) (h : out (bindEvent attributes a) f s' = (.ok attributes', s'')) :
    AllAhead f s attributes' := by
  rw [bindEvent, outBind, outGet] at h
  simp only at h
  split at h
  · cases h
    exact all
  split at h
  · cases h
    exact all
  · obtain ⟨⟨id, given⟩, s₁, identified, h⟩ := outOk.mp h
    obtain ⟨_, s₂, modified, h⟩ := outOk.mp h
    cases h
    rcases identifyForm identified with rfl | ⟨n, rfl⟩
    · exact aheadErase all
    · exact aheadErase (aheadId all)

theorem aheadEvents (all : AllAhead f s attributes)
    (h : out (items.foldlM bindEvent attributes) f s' = (.ok attributes', s'')) :
    AllAhead f s attributes' := by
  induction items generalizing attributes s' with
  | nil =>
    cases h
    exact all
  | cons a rest ih =>
    rw [List.foldlM_cons] at h
    obtain ⟨changed, s₁, first, h⟩ := outOk.mp h
    exact ih (aheadEvent all first) h

theorem pastShow {live? : Option Live} {literal : String} (once : (attributes.map (·.name)).Nodup)
    (named : Spent f s name)
    (shown : Spent f s literal) :
    ((showAttribute live? name literal attributes).map (·.name)).Nodup ∧
      ∀ b ∈ showAttribute live? name literal attributes, Past f s b ∨ b ∈ attributes ∧ b.name ≠ name := by
  have put {text : String} (spent : Spent f s text) : ((Attribute.put name text attributes).map (·.name)).Nodup ∧
      ∀ b ∈ Attribute.put name text attributes, Past f s b ∨ b ∈ attributes ∧ b.name ≠ name := by
    refine ⟨putOnce once, fun b mem => (putApart once mem).imp_left ?_⟩
    rintro rfl
    exact ⟨named, .inl spent⟩
  have erased : ((Attribute.erase name attributes).map (·.name)).Nodup ∧
      ∀ b ∈ Attribute.erase name attributes, Past f s b ∨ b ∈ attributes ∧ b.name ≠ name := by
    refine ⟨eraseOnce once, fun b mem => .inr ?_⟩
    obtain ⟨mem, other⟩ := List.mem_filter.mp mem
    exact ⟨mem, by simpa using other⟩
  unfold showAttribute
  split
  · exact put shown
  · split
    · exact erased
    · exact erased
    · exact put (spentPlain (by decide))
    · exact put shown

theorem pastInert (ahead : Ahead f s a) (written : ∀ text ∈ a.written?,
      a.name ≠ idAttribute ∧ ∀ key ∈ placeholders f.number text, key ∈ placeholders f.number a.value)
    (inert : a.name = idAttribute ∨ placeholders f.number a.value = []) : Past f s a := by
  refine ⟨ahead.named, ?_⟩
  unfold shownText
  rcases inert with own | none
  · cases given : a.written? with
    | none => exact (ahead.own own).symm.imp_right fun live => ⟨own, live⟩
    | some text => exact absurd own (written text given).1
  · refine .inl fun key mem => ?_
    cases given : a.written? with
    | none =>
      rw [given, Option.getD_none, none] at mem
      cases mem
    | some text =>
      rw [given, Option.getD_some] at mem
      have inside := (written text given).2 key mem
      rw [none] at inside
      cases inside

theorem pastAttribute (still : Still s s') (ahead : Ahead f s a) (written : ∀ text ∈ a.written?,
      a.name ≠ idAttribute ∧ ∀ key ∈ placeholders f.number text, key ∈ placeholders f.number a.value)
    (once : (attributes.map (·.name)).Nodup) (h : out (bindAttribute attributes a) f s' = (.ok attributes', s'')) :
    (attributes'.map (·.name)).Nodup ∧ ∀ b ∈ attributes', Past f s b ∨ b ∈ attributes ∧ b ≠ a := by
  rw [bindAttribute, outBind, outRead] at h
  simp only at h
  split at h
  · next inert =>
    cases h
    have own : a.name = idAttribute ∨ placeholders f.number a.value = [] := by simpa using inert
    refine ⟨once, fun b mem => ?_⟩
    by_cases same : b = a
    · exact .inl (same ▸ pastInert ahead written own)
    · exact .inr ⟨mem, same⟩
  · next dynamic =>
    have other : a.name ≠ idAttribute := fun same => dynamic (by rw [same]; rfl)
    obtain ⟨page, records, rfl⟩ := still
    rw [outBind, outGet] at h
    simp only at h
    obtain ⟨once', shown⟩ := @pastShow f s attributes a.name (State.live? { s with page, records } a.value)
      _ once ahead.named
      (ahead.shows other)
    have apart (b : Attribute) (mem : b ∈ showAttribute (State.live? { s with page, records } a.value) a.name
        (compose f.number s a.value).literal attributes) : Past f s b ∨ b ∈ attributes ∧ b ≠ a :=
      (shown b mem).imp_right fun both => ⟨both.1, fun same => both.2 (same ▸ rfl)⟩
    split at h
    · cases h
      exact ⟨once', apart⟩
    · obtain ⟨⟨id, given⟩, s₁, identified, h⟩ := outOk.mp h
      obtain ⟨_, s₂, bound, h⟩ := outOk.mp h
      cases h
      rcases identifyForm identified with rfl | ⟨n, rfl⟩
      · exact ⟨once', apart⟩
      · refine ⟨putOnce once', fun b mem => ?_⟩
        rcases putMem mem with rfl | mem
        · exact .inl ⟨spentName, .inl spentId⟩
        · exact apart b mem

theorem pastAttributes (ready : Ready f s') (still : Still s s') (all : AllAhead f s attributes)
    (h : out (eachAttribute bindAttribute attributes) f s' = (.ok attributes', s'')) : AllPast f s attributes' := by
  -- The attributes to come are the only ones that may still be unsettled.
  have each (items done : List Attribute) (s' : State) (ready : Ready f s') (still : Still s s')
    (within : ∀ a ∈ items, a ∈ attributes)
      (once : (done.map (·.name)).Nodup) (left : ∀ b ∈ done, Past f s b ∨ b ∈ items)
      (h : out (items.foldlM bindAttribute done) f s' = (.ok attributes', s'')) : AllPast f s attributes' := by
    induction items generalizing done s' with
    | nil =>
      cases h
      exact ⟨once, fun b mem => (left b mem).resolve_right List.not_mem_nil⟩
    | cons a rest ih =>
      rw [List.foldlM_cons] at h
      obtain ⟨changed, s₁, first, h⟩ := outOk.mp h
      obtain ⟨here, later⟩ := List.forall_mem_cons.mp within
      obtain ⟨once', apart⟩ := pastAttribute still (all.ahead a here) (all.formed.written a here) once first
      have still' := settlesStill (stepAttribute ready first).1
      refine ih changed s₁ (readyStill still' ready) (stillTrans still still') later once' (fun b mem => ?_) h
      rcases apart b mem with past | ⟨mem, other⟩
      · exact .inl past
      · exact (left b mem).imp_right fun mem => (List.mem_cons.mp mem).resolve_left other
  exact each attributes attributes s' ready still (fun _ mem => mem) all.formed.once (fun _ mem => .inr mem) h

theorem pastAnchor (still : Still s s') (all : AllPast f s attributes)
    (h : out (bindAnchor attributes) f s' = (.ok attributes', s'')) :
    ∀ a ∈ attributes', Spent f s a.name ∧ Spent f s (shownText a) := by
  obtain ⟨page, records, rfl⟩ := still
  rw [bindAnchor, outBind, outGet] at h
  simp only at h
  split at h
  · next dead =>
    cases h
    intro a mem
    obtain ⟨named, shown⟩ := all.past a mem
    refine ⟨named, shown.resolve_right ?_⟩
    rintro ⟨own, live⟩
    rw [(getMember all.once).mpr ⟨a, mem, own, rfl⟩, Option.getD_some] at dead
    have none : s.live? a.value = .none := dead
    rw [none] at live
    cases live
  · obtain ⟨id, s₁, given, h⟩ := outOk.mp h
    obtain ⟨_, s₂, modified, h⟩ := outOk.mp h
    cases given
    cases h
    intro a mem
    rcases putApart all.once mem with rfl | ⟨mem, other⟩
    · exact ⟨spentName, spentId⟩
    · obtain ⟨named, shown⟩ := all.past a mem
      exact ⟨named, shown.resolve_right fun own => other own.1⟩

end Attributes

section Trees

variable {tree final nodes : List Node} {chunk : String}

theorem startsWalked {change : List Attribute → Rendering (List Attribute)} (pass : ElementPass f change)
    {P Q : List Attribute → Prop} (step : ∀ {s' s'' attributes attributes'}, Ready f s' → Still s s' → P attributes →
      out (change attributes) f s' = (.ok attributes', s'') → Q attributes') :
    {nodes nodes' : List Node} → {s' s'' : State} → Ready f s' → Still s s' →
    out (onAllElements change nodes) f s' = (.ok nodes', s'') → (∀ t ∈ starts nodes, Spent f s t.1 ∧ P t.2) →
    ∀ t ∈ starts nodes', Spent f s t.1 ∧ Q t.2
  | [], _, _, _, _, _, h, _ => by
    cases h
    exact fun _ mem => absurd mem List.not_mem_nil
  | .text kind text :: rest, nodes', s', s'', ready, still, h, given => by
    simp only [onAllElements, onElements, outOk] at h
    obtain ⟨_, _, same, rest', s₁, tail, h⟩ := h
    cases same
    cases h
    have later : ∀ t ∈ starts rest', Spent f s t.1 ∧ Q t.2 := startsWalked pass step ready still tail given
    exact later
  | .element name attributes children :: rest, nodes', s', s'', ready, still, h, given => by
    simp only [onAllElements, onElements, outOk] at h
    obtain ⟨_, s₁, ⟨changed, s₂, first, children', s₃, inner, same⟩, rest', s₄, tail, h⟩ := h
    cases same
    cases h
    obtain ⟨own, given⟩ := List.forall_mem_cons.mp given
    obtain ⟨inside, others⟩ := List.forall_mem_append.mp given
    have still₁ := settlesStill (pass.step ready first).1
    have ready₁ := readyStill still₁ ready
    obtain ⟨settles, -⟩ := walk pass ready₁ inner
    have still₂ := settlesStill settles
    refine List.forall_mem_cons.mpr ⟨⟨own.1, step ready still own.2 first⟩, List.forall_mem_append.mpr ⟨?_, ?_⟩⟩
    · exact startsWalked pass step ready₁ (stillTrans still still₁) inner inside
    · exact startsWalked pass step (readyStill still₂ ready₁) (stillTrans (stillTrans still still₁) still₂) tail others

def StartsPast (f : Factory) (s : State) (nodes : List Node) : Prop :=
  ∀ t ∈ starts nodes, Spent f s t.1 ∧ AllPast f s t.2

theorem wrapPast {n : Node} (h : out (wrapChunk chunk) f s' = (.ok n, s'')) : StartsPast f s [n] := by
  obtain ⟨c, s₁, settled, h⟩ := outOk.mp h
  simp only at h
  split at h
  · cases h
    exact nofun
  · obtain ⟨⟨id, given⟩, s₂, identified, h⟩ := outOk.mp h
    obtain ⟨_, s₃, bound, h⟩ := outOk.mp h
    cases h
    have none : AllPast f s [] := ⟨List.nodup_nil, nofun⟩
    have named : Spent f s "span" := spentPlain (by decide)
    refine List.forall_mem_singleton.mpr ⟨named, ?_⟩
    rcases identifyForm identified with rfl | ⟨n, rfl⟩
    · exact none
    · exact pastId none

theorem wrapsPast {parts : List String} (h : out (parts.mapM wrapChunk) f s' = (.ok nodes, s'')) :
    StartsPast f s nodes := by
  induction parts generalizing s' nodes with
  | nil =>
    cases h
    exact nofun
  | cons chunk rest ih =>
    simp only [List.mapM_cons, outOk] at h
    obtain ⟨n, s₁, first, others, s₂, tail, h⟩ := h
    cases h
    have here : StartsPast f s [n] := wrapPast first
    rw [StartsPast, startsOne] at here
    exact List.forall_mem_append.mpr ⟨here, ih tail⟩

theorem onlyPast {name : String} {attributes : List Attribute} {n : Node} (named : Spent f s name)
    (all : AllPast f s attributes)
    (h : out (bindOnlyText name attributes chunk) f s' = (.ok n, s'')) : StartsPast f s [n] := by
  obtain ⟨c, s₁, settled, h⟩ := outOk.mp h
  simp only at h
  split at h
  · cases h
    exact List.forall_mem_singleton.mpr ⟨named, all⟩
  · obtain ⟨⟨id, given⟩, s₂, identified, h⟩ := outOk.mp h
    obtain ⟨_, s₃, bound, h⟩ := outOk.mp h
    cases h
    refine List.forall_mem_singleton.mpr ⟨named, ?_⟩
    rcases identifyForm identified with rfl | ⟨n, rfl⟩
    · exact all
    · exact pastId all

mutual

theorem elementPast : {n : Node} → {nodes : List Node} → {s' s'' : State} →
    out (bindElementTexts n) f s' = (.ok nodes, s'') → StartsPast f s [n] → StartsPast f s nodes
  | .text kind text, nodes, s', s'', h, _ => by
    cases bindsTexts h with
    | plain wrapped => exact wrapsPast wrapped
    | still other =>
      cases kind with
      | plain => exact absurd rfl other
      | hidden | aside => exact nofun
  | .element name attributes children, nodes, s', s'', h, given => by
    have inner {nodes : List Node} {s'' : State} (h : out (bindTexts children) f s' = (.ok nodes, s''))
        (given : StartsPast f s children) : StartsPast f s nodes := textsPast h given
    rw [StartsPast, startsOne] at given
    obtain ⟨own, inside⟩ := List.forall_mem_cons.mp given
    have wrapped {nodes : List Node} (past : StartsPast f s nodes) :
      StartsPast f s [.element name attributes nodes] := by
      rw [StartsPast, startsOne]
      exact List.forall_mem_cons.mpr ⟨own, past⟩
    cases bindsTexts h with
    | only _ bound => exact onlyPast own.1 own.2 bound
    | several _ bound => exact wrapped (wrapsPast bound)
    | mixed _ bound => exact wrapped (inner bound inside)

theorem textsPast : {nodes nodes' : List Node} → {s' s'' : State} →
    out (bindTexts nodes) f s' = (.ok nodes', s'') → StartsPast f s nodes → StartsPast f s nodes'
  | [], _, _, _, h, _ => by
    cases h
    exact nofun
  | n :: rest, nodes', s', s'', h, given => by
    simp only [bindTexts, outOk] at h
    obtain ⟨first, s₁, head, others, s₂, tail, h⟩ := h
    cases h
    obtain ⟨own, later⟩ := List.forall_mem_append.mp given
    rw [StartsPast, startsAppend]
    refine List.forall_mem_append.mpr ⟨elementPast head ?_, textsPast tail later⟩
    rw [StartsPast, startsOne]
    exact own

end

end Trees

section Reach

mutual

def unreachedIn (hides : Bool) : Node → List String
  | .text (.aside _) text => [text]
  | .text .plain text | .text .hidden text => if hides then [text] else []
  | .element name _ children => unreached (hides || hidesText name) children

def unreached (hides : Bool) : List Node → List String
  | [] => []
  | n :: rest => unreachedIn hides n ++ unreached hides rest

end

/-- The live slots that stand in texts out of reach, in their order. -/
def outOfReach (f : Factory) (s : State) (tree : List Node) : List Live :=
  ((unreached false tree).flatMap (placeholders f.number)).filterMap s.live?

/-- In start tags live slots stand in values of attributes only, and one in an identifier is the whole of it. -/
structure InValues (f : Factory) (s : State) (tree : List Node) : Prop where
  tags : ∀ t ∈ starts tree, Spent f s t.1 ∧ ∀ a ∈ t.2, Spent f s a.name
  identifiers : ∀ t ∈ starts tree, ∀ a ∈ t.2, a.name = idAttribute → (s.live? a.value).isSome ∨ Spent f s a.value

/-- Nothing that is shown reads as the placeholder of a live slot, and no placeholder is made where texts are written
again. -/
structure Unread (f : Factory) (s : State) (tree final : List Node) : Prop where
  texts : ∀ text ∈ texts tree, ∀ shown ∈ shownChunks f s text, Spent f s shown
  attributes : ∀ t ∈ starts tree, ∀ a ∈ t.2, a.name ≠ idAttribute → Spent f s (compose f.number s a.value).literal
  rejoined : placeholders f.number (writeTree final) =
    (cells false final).flatMap fun c => placeholders f.number c.written

variable {s₁ s₂ : State} {tree final : List Node} {markup template : String} {values : List Value}
  {line : Int} {nested : Nested} {g : String → List String}

theorem spentLeft {text : String} : Spent f s text ↔ leftIn f s text = [] := List.filterMap_eq_nil_iff.symm

mutual

theorem leftShownIn {hides : Bool} : (n : Node) → FitIn f.number hides n →
    (∀ plain ∈ textsIn n, ∀ text ∈ g plain, Spent f s text) →
    (shownIn g n).flatMap (leftIn f s) = (unreachedIn hides n).flatMap (leftIn f s)
  | .text .plain plain, fit, spent => by
    have seen : hides = false := fit
    rw [shownIn, unreachedIn, seen, if_neg Bool.false_ne_true, List.flatMap_nil, List.flatMap_eq_nil_iff]
    exact fun text mem => spentLeft.mp (spent plain List.mem_cons_self text mem)
  | .text .hidden hidden, fit, _ => by
    have closed : hides = true := fit
    rw [shownIn, unreachedIn, closed, if_pos rfl]
  | .text (.aside _) _, _, _ => rfl
  | .element name attributes children, fit, spent => by
    rw [shownIn, unreachedIn]
    rw [textsIn] at spent
    exact leftShown children fit.2 spent

theorem leftShown {hides : Bool} : (nodes : List Node) → Fit f.number hides nodes →
    (∀ plain ∈ texts nodes, ∀ text ∈ g plain, Spent f s text) →
    (shown g nodes).flatMap (leftIn f s) = (unreached hides nodes).flatMap (leftIn f s)
  | [], _, _ => rfl
  | n :: rest, fit, spent => by
    obtain ⟨own, later⟩ := List.forall_mem_append.mp spent
    rw [shown, unreached, List.flatMap_append, List.flatMap_append, leftShownIn n fit.1 own, leftShown rest fit.2 later]

end

theorem leftCells {cs : List Cell} (tags : ∀ tag ∈ tagsOf cs, Spent f s tag) :
    cs.flatMap (fun c => leftIn f s c.written) = (textsOf cs).flatMap (leftIn f s) := by
  induction cs with
  | nil => rfl
  | cons c rest ih =>
    cases c with
    | tag text =>
      obtain ⟨own, later⟩ := List.forall_mem_cons.mp tags
      rw [List.flatMap_cons, show (Cell.tag text).written = text from rfl, spentLeft.mp own, List.nil_append]
      exact ih later
    | text text =>
      rw [List.flatMap_cons, ih tags]
      rfl

theorem startsSettled (ready : Ready f s) (fit : Fit f.number false tree) (within : InValues f s tree)
    (unread : Unread f s tree final) (h : out (settleTree tree) f s = (.ok final, s')) :
    ∀ t ∈ starts final, Spent f s t.1 ∧ ∀ a ∈ t.2, Spent f s a.name ∧ Spent f s (shownText a) := by
  simp only [settleTree, outOk] at h
  obtain ⟨first, s₁, events, second, s₂, attributes, third, s₃, bound, anchors⟩ := h
  have still₁ := settlesStill (walk (eventPass f) ready events).1
  have ready₁ := readyStill still₁ ready
  have still₂ := settlesStill (walk (attributePass f) ready₁ attributes).1
  have ready₂ := readyStill still₂ ready₁
  have still₃ := settlesStill (textsBound ready₂ bound).settles
  have given : ∀ t ∈ starts tree, Spent f s t.1 ∧ AllAhead f s t.2 := by
    intro t mem
    obtain ⟨named, tags⟩ := within.tags t mem
    exact ⟨named, formedStarts tree fit t mem, fun a inside =>
      ⟨tags a inside, unread.attributes t mem a inside, within.identifiers t mem a inside⟩⟩
  have ahead := startsWalked (eventPass f) (fun _ _ all h => aheadEvents all h) ready stillRefl events given
  have past := startsWalked (attributePass f) (fun ready still all h => pastAttributes ready still all h) ready₁ still₁
    attributes ahead
  exact startsWalked (anchorPass f) (fun _ still all h => pastAnchor still all h) (readyStill still₃ ready₂)
    (stillTrans (stillTrans still₁ still₂) still₃) anchors (textsPast bound past)

theorem leftOver (ready : Ready f s) (fit : Fit f.number false tree) (within : InValues f s tree)
    (unread : Unread f s tree final) (h : out (settleTree tree) f s = (.ok final, s')) :
    leftIn f s (writeTree final) = outOfReach f s tree := by
  have starts := startsSettled ready fit within unread h
  have tags : ∀ tag ∈ tagsOf (cells false final), Spent f s tag := by
    intro tag mem key held
    obtain ⟨t, inside, held⟩ := cellsStarts final (List.mem_flatMap.mpr ⟨tag, mem, held⟩)
    obtain ⟨named, attributes⟩ := starts t inside
    rcases List.mem_append.mp held with held | held
    · exact named key held
    · obtain ⟨a, own, held⟩ := List.mem_flatMap.mp held
      rcases List.mem_append.mp held with held | held
      · exact (attributes a own).1 key held
      · exact (attributes a own).2 key held
  have apart {texts : List String} :
      (texts.flatMap (placeholders f.number)).filterMap s.live? = texts.flatMap (leftIn f s) := List.filterMap_flatMap
  calc leftIn f s (writeTree final)
    _ = (cells false final).flatMap fun c => leftIn f s c.written := by
      rw [leftIn, unread.rejoined, List.filterMap_flatMap]
      rfl
    _ = (textsOf (cells false final)).flatMap (leftIn f s) := leftCells tags
    _ = (strings final).flatMap (leftIn f s) := by rw [← apart, cellsKeys, textKeys, apart]
    _ = (unreached false tree).flatMap (leftIn f s) := by
      rw [settledShown ready h]
      exact leftShown tree fit unread.texts
    _ = outOfReach f s tree := apart.symm

section Behind

variable {α β : Type} {P : RenderError → Prop}

def FailsOnly (P : RenderError → Prop) (f : Factory) (m : Rendering α) : Prop :=
  ∀ s e s', out m f s = (.error e, s') → P e

theorem onlyPure {a : α} : FailsOnly P f (pure a) := nofun

theorem onlyBind {m : Rendering α} {k : α → Rendering β} (hm : FailsOnly P f m) (hk : ∀ a, FailsOnly P f (k a)) :
    FailsOnly P f (m >>= k) := by
  intro s e s' h
  rw [outBind] at h
  split at h
  · exact hk _ _ _ _ h
  · next failed =>
    cases h
    exact hm _ _ _ failed

theorem onlyMap {k : α → Rendering β} (h : ∀ a, FailsOnly P f (k a)) (as : List α) : FailsOnly P f (as.mapM k) := by
  induction as with
  | nil => exact onlyPure
  | cons a rest ih =>
    rw [List.mapM_cons]
    exact onlyBind (h a) fun _ => onlyBind ih fun _ => onlyPure

def Behind (nested : Nested) (e : RenderError) : Prop :=
  (∃ c page, ((nested c).run page).1 = .error e) ∨ ∃ problem, e = .script problem

theorem nestedFails {c : Component} : FailsOnly (Behind nested) f (renderNested nested c) := by
  intro s e s' h
  rw [renderNested, outBind, outGet] at h
  simp only at h
  rcases ran : (nested c).run s.page with ⟨problem | output, page⟩
  · rw [ran] at h
    cases h
    exact .inl ⟨c, s.page, congrArg Prod.fst ran⟩
  · rw [ran] at h
    cases h

theorem takeFails {key : String} : FailsOnly P f (takeDeferred? key) := by
  intro s e s' h
  rw [takeDeferred?, outBind, outGet] at h
  simp only at h
  split at h
  · cases h
  · cases h

theorem finishedFails : FailsOnly (Behind nested) f (finished nested markup) := by
  have piece (p : Piece) : FailsOnly (Behind nested) f (spliced nested p) := by
    cases p with
    | plain text => exact onlyPure
    | placeholder key =>
      refine onlyBind takeFails fun content => ?_
      split
      · exact onlyPure
      · exact onlyPure
      · exact nestedFails
  intro s e s' h
  cases splicing : out (splice nested markup) f s with
  | mk result s₁ =>
    cases result with
    | ok body =>
      rw [outFinished splicing, scripted] at h
      split at h
      · cases h
      · split at h
        · cases h
        · cases h
          exact .inr ⟨_, rfl⟩
    | error problem =>
      rw [finished, outBind, outRead] at h
      simp only at h
      rw [outBind, splicing] at h
      cases h
      rw [splice, outBind, outRead] at splicing
      exact onlyBind (onlyMap piece _) (fun _ => onlyPure) _ _ _ splicing

end Behind

theorem callSettled (filling : out (filled template values line) f s = (.ok markup, s₁))
    (settling : Settling f s₁ markup tree final s₂) :
    out (call nested template values line) f s = match leftIn f s₂ (writeTree final) with
      | [] => out (finished nested (writeTree final)) f { s₂ with live := [] }
      | live :: _ =>
        (.error (.template (.unreachable f.component.className live.slot.expression live.slot.line)),
          { s₂ with live := [] }) := by
  have waits : ¬s₁.live.isEmpty = true := fun none => settling.pending (List.isEmpty_iff.mp none)
  rw [call, outBind, filling]
  simp only
  rw [outBind, outGet]
  simp only
  rw [if_neg waits, outBind, outSettling settling]
  cases leftIn f s₂ (writeTree final) <;> rfl

/-- The markup of a call is settled without failure. If start tags have live slots in values of attributes only, and
nothing reads as a live slot by chance, the slots that are left are those in texts out of reach. The first of them fails
the call. If there is none, nothing fails it any more but a component inside it or the script. -/
theorem liveBound (reached : Reached f s) (filling : out (filled template values line) f s = (.ok markup, s₁))
    (read : readTree markup = .ok tree) :
    ∃ final s₂ new, out (settleTree tree) f s₁ = (.ok final, s₂) ∧ Change s₁ s₂ new (placed f s₁ tree) ∧
      (InValues f s₁ tree → Unread f s₁ tree final →
        (s₁.live ≠ [] → out (call nested template values line) f s = match outOfReach f s₁ tree with
          | [] => out (finished nested (writeTree final)) f { s₂ with live := [] }
          | live :: _ =>
            (.error (.template (.unreachable f.component.className live.slot.expression live.slot.line)),
              { s₂ with live := [] })) ∧
        (outOfReach f s₁ tree = [] →
          ∀ e s', out (call nested template values line) f s = (.error e, s') → Behind nested e)) := by
  obtain ⟨final, s₂, settled⟩ := @goesTree f tree s₁
  obtain ⟨ready, -, -⟩ := readyFilled reached filling
  obtain ⟨new, change⟩ := treePlaced ready settled
  refine ⟨final, s₂, new, settled, change, fun within unread => ?_⟩
  have left : leftIn f s₂ (writeTree final) = outOfReach f s₁ tree := by
    rw [← leftOver ready (fitTree read) within unread settled, change.same]
    rfl
  refine ⟨fun pending => left ▸ callSettled filling ⟨read, settled, pending⟩, fun none e s' failed => ?_⟩
  by_cases pending : s₁.live = []
  · rw [call, outBind, filling] at failed
    simp only at failed
    rw [outBind, outGet] at failed
    simp only at failed
    rw [pending] at failed
    exact finishedFails _ _ _ failed
  · rw [callSettled filling ⟨read, settled, pending⟩, left, none] at failed
    exact finishedFails _ _ _ failed

end Reach

section Glossed

instance (f s text) : Decidable (Spent f s text) := by unfold Spent; infer_instance

instance (f s tree) : Decidable (InValues f s tree) :=
  decidable_of_iff ((∀ t ∈ starts tree, Spent f s t.1 ∧ ∀ a ∈ t.2, Spent f s a.name) ∧
      ∀ t ∈ starts tree, ∀ a ∈ t.2, a.name = idAttribute → (s.live? a.value).isSome ∨ Spent f s a.value)
    ⟨fun ⟨tags, identifiers⟩ => ⟨tags, identifiers⟩, fun h => ⟨h.tags, h.identifiers⟩⟩

instance (f s tree final) : Decidable (Unread f s tree final) :=
  decidable_of_iff ((∀ text ∈ texts tree, ∀ shown ∈ shownChunks f s text, Spent f s shown) ∧
      (∀ t ∈ starts tree, ∀ a ∈ t.2, a.name ≠ idAttribute → Spent f s (compose f.number s a.value).literal) ∧
      placeholders f.number (writeTree final) = (cells false final).flatMap fun c => placeholders f.number c.written)
    ⟨fun ⟨texts, attributes, rejoined⟩ => ⟨texts, attributes, rejoined⟩, fun h => ⟨h.texts, h.attributes, h.rejoined⟩⟩

theorem courseGiven {template markup : String} {values : List Value} {line : Int} {f : Factory} {s s₁ : State}
    {tokens : List Token} {final : List Node}
    (h : course? template values line f s = some (markup, s₁, tokens, final)) :
    ∃ s₂, Course template values line f s markup s₁ tokens final s₂ := by
  unfold course? at h
  split at h
  · cases h
  · next markup' s₁' filling =>
    split at h
    · cases h
    · next tokens' read =>
      split at h
      · cases h
      · next final' s₂ settled =>
        cases h
        exact ⟨s₂, filling, read, settled⟩

def noteTemplate : String := "<p title=\"\x7b\x7d\">\x7b\x7d<i></i></p>"

def codeTemplate : String := "<script>\x7b\x7d</script>"

def rubyTemplate : String := "<ruby>a<rt>\x7b\x7d</rt></ruby>"

def gloss : Component :=
  .mk "Gloss" [("n", .whole 1)]
    (some ("def render(self, ctx):\n    ctx.html('<b onclick=\x7b\x7d></b>', lambda: setattr(self, 'n', 2))\n" ++
      "    ctx.html('" ++ noteTemplate ++ "', self.n, self.n)\n    ctx.html('" ++ codeTemplate ++
      "', self.n)\n    return ctx.html('" ++ rubyTemplate ++ "', self.n)\n"))
    1 "gloss.py" [] none

def glossSlots : List Slot :=
  [{ signals := ["n"], writes := ["n"], isFunction := true, isEvent := true, eventName := some "onclick",
     source := "() => this.n = 2", bodySource := some "this.n = 2", expression := "lambda: setattr(self, 'n', 2)",
     template := "<b onclick=\x7b\x7d></b>", line := 2 },
   { signals := ["n"], source := "this.n", expression := "self.n", template := noteTemplate, line := 3 },
   { signals := ["n"], source := "this.n", expression := "self.n", template := noteTemplate, slot := 1, line := 3 },
   { signals := ["n"], source := "this.n", expression := "self.n", template := codeTemplate, line := 4 },
   { signals := ["n"], source := "this.n", expression := "self.n", template := rubyTemplate, line := 5 }]

abbrev glossFactory : Factory := factoryOf gloss glossSlots

abbrev glossState : State := startOf gloss glossSlots

theorem glossStarted : Reached glossFactory glossState :=
  startedOf (slotsListed rfl
    (listedAppend (listedAppend (listedAppend (listedAppend (listedAppend (listedAppend
      (listedAppend (listedText rfl) rfl) rfl) rfl) rfl) rfl) rfl) rfl)
    rfl (by decide +kernel))

def Checked (template : String) (values : List Value) (line : Int) (refused : List String) : Prop :=
  (course? template values line glossFactory glossState).any (fun c =>
    let tree := Tree.ofTokens c.2.2.1
    !c.2.1.live.isEmpty && decide (InValues glossFactory c.2.1 tree) &&
      decide (Unread glossFactory c.2.1 tree c.2.2.2) &&
      (outOfReach glossFactory c.2.1 tree).map (·.slot.expression) == refused) = true

theorem checkedCourse {template : String} {values : List Value} {line : Int} {refused : List String}
    (h : Checked template values line refused) : ∃ markup s₁ tree final s₂,
      out (filled template values line) glossFactory glossState = (.ok markup, s₁) ∧ readTree markup = .ok tree ∧
      out (settleTree tree) glossFactory s₁ = (.ok final, s₂) ∧ s₁.live ≠ [] ∧ InValues glossFactory s₁ tree ∧
      Unread glossFactory s₁ tree final ∧ (outOfReach glossFactory s₁ tree).map (·.slot.expression) = refused := by
  obtain ⟨⟨markup, s₁, tokens, final⟩, taken, holds⟩ := (Option.any_eq_true _ _).mp h
  obtain ⟨s₂, course⟩ := courseGiven taken
  simp only [Bool.and_eq_true, decide_eq_true_eq, beq_iff_eq, Bool.not_eq_true', List.isEmpty_eq_false_iff] at holds
  obtain ⟨⟨⟨live, within⟩, unread⟩, left⟩ := holds
  refine ⟨markup, s₁, _, final, s₂, course.filling, ?_, course.settled, live, within, unread, left⟩
  rw [readTree, course.read]
  rfl

theorem glossBound :
    (∃ markup s₁ tree final s₂, Reached glossFactory glossState ∧
        out (filled noteTemplate [.whole 1, .whole 1] 3) glossFactory glossState = (.ok markup, s₁) ∧
        readTree markup = .ok tree ∧ out (settleTree tree) glossFactory s₁ = (.ok final, s₂) ∧
        s₁.live ≠ [] ∧ InValues glossFactory s₁ tree ∧ Unread glossFactory s₁ tree final ∧
        outOfReach glossFactory s₁ tree = [] ∧
        out (call (fun _ => return "") noteTemplate [.whole 1, .whole 1] 3) glossFactory glossState =
          out (finished (fun _ => return "") (writeTree final)) glossFactory { s₂ with live := [] }) ∧
      ∃ markup s₁ tree final s₂ live, Reached glossFactory glossState ∧
        out (filled codeTemplate [.whole 1] 4) glossFactory glossState = (.ok markup, s₁) ∧
        readTree markup = .ok tree ∧ out (settleTree tree) glossFactory s₁ = (.ok final, s₂) ∧
        s₁.live ≠ [] ∧ InValues glossFactory s₁ tree ∧ Unread glossFactory s₁ tree final ∧
        outOfReach glossFactory s₁ tree = [live] ∧
        out (call (fun _ => return "") codeTemplate [.whole 1] 4) glossFactory glossState =
          (.error (.template (.unreachable "Gloss" "self.n" live.slot.line)), { s₂ with live := [] }) := by
  obtain ⟨note, code⟩ : Checked noteTemplate [.whole 1, .whole 1] 3 [] ∧
    Checked codeTemplate [.whole 1] 4 ["self.n"] := by
    unfold Checked
    decide +kernel
  constructor
  · obtain ⟨markup, s₁, tree, final, s₂, filling, read, settled, live, within, unread, left⟩ := checkedCourse note
    obtain ⟨_, _, _, settled', -, bound⟩ := @liveBound _ _ _ _ _ _ _ _ (fun _ => return "") glossStarted filling read
    cases settled.symm.trans settled'
    have none := List.map_eq_nil_iff.mp left
    have course := (bound within unread).1 live
    rw [none] at course
    exact ⟨markup, s₁, tree, final, s₂, glossStarted, filling, read, settled, live, within, unread, none, course⟩
  · obtain ⟨markup, s₁, tree, final, s₂, filling, read, settled, live, within, unread, left⟩ := checkedCourse code
    obtain ⟨_, _, _, settled', -, bound⟩ := @liveBound _ _ _ _ _ _ _ _ (fun _ => return "") glossStarted filling read
    cases settled.symm.trans settled'
    obtain ⟨first, one, shows⟩ := List.map_eq_singleton_iff.mp left
    have course := (bound within unread).1 live
    rw [one] at course
    simp only [shows] at course
    exact ⟨markup, s₁, tree, final, s₂, first, glossStarted, filling, read, settled, live, within, unread, one, course⟩

def problemOf? : Except RenderError Value → Option RenderError
  | .error e => some e
  | .ok _ => none

theorem problemRaised {r : Except RenderError Value} {e : RenderError} (h : problemOf? r = some e) : r = .error e := by
  cases r with
  | error raised => exact congrArg _ (Option.some.inj h)
  | ok v => cases h

theorem rubyRefused :
    ∃ f s s₁ s' live, Reached f s ∧
      out (filled rubyTemplate [.whole 1] 5) f s = (.ok "<ruby>a<rt>__zinc_00000000_0__</rt></ruby>", s₁) ∧
      s₁.live = [("__zinc_00000000_0__", live)] ∧ live.slot.isEvent = false ∧ live.slot.isAsync = false ∧
      readTree "<ruby>a<rt>__zinc_00000000_0__</rt></ruby>" =
        .ok [.element "ruby" [] [.text .plain "a", .element "rt" [] [.text .hidden "__zinc_00000000_0__"]]] ∧
      out (call (fun _ => return "") rubyTemplate [.whole 1] 5) f s =
        (.error (.template (.unreachable "Gloss" "self.n" 5)), s') := by
  obtain ⟨written, pending, tokens, failed⟩ :
      (out (filled rubyTemplate [.whole 1] 5) glossFactory glossState).1.toOption =
        some "<ruby>a<rt>__zinc_00000000_0__</rt></ruby>" ∧
      (out (filled rubyTemplate [.whole 1] 5) glossFactory glossState).2.live.map (fun l => (l.1, l.2.slot)) =
        [("__zinc_00000000_0__", glossSlots[4])] ∧
      (readTokens "<ruby>a<rt>__zinc_00000000_0__</rt></ruby>".toList).toOption =
        some [.opening "ruby" [] false, .text "a",
        .opening "rt" [] false, .text "__zinc_00000000_0__", .closing "rt", .closing "ruby"] ∧
      problemOf? (out (call (fun _ => return "") rubyTemplate [.whole 1] 5) glossFactory glossState).1 =
        some (.template (.unreachable "Gloss" "self.n" 5)) := by decide +kernel
  obtain ⟨s₁, filling⟩ : ∃ s₁, out (filled rubyTemplate [.whole 1] 5) glossFactory glossState =
      (.ok "<ruby>a<rt>__zinc_00000000_0__</rt></ruby>", s₁) := ⟨_, Prod.ext (optionValue written) rfl⟩
  rw [filling] at pending
  obtain ⟨⟨key, live⟩, one, same⟩ := List.map_eq_singleton_iff.mp pending
  obtain ⟨rfl, slot⟩ := Prod.mk.inj same
  have plain : live.slot.isEvent = false ∧ live.slot.isAsync = false := by
    rw [slot]
    exact ⟨rfl, rfl⟩
  have read : readTree "<ruby>a<rt>__zinc_00000000_0__</rt></ruby>" =
      .ok [.element "ruby" [] [.text .plain "a", .element "rt" [] [.text .hidden "__zinc_00000000_0__"]]] := by
    have tree : Tree.ofTokens [.opening "ruby" [] false, .text "a", .opening "rt" [] false,
        .text "__zinc_00000000_0__", .closing "rt", .closing "ruby"] =
          [.element "ruby" [] [.text .plain "a", .element "rt" [] [.text .hidden "__zinc_00000000_0__"]]] := by cbv
    rw [readTree, optionValue tokens, ← tree]
    rfl
  have called := problemRaised failed
  obtain ⟨s', ended⟩ : ∃ s',
    (out (call (fun _ => return "") rubyTemplate [.whole 1] 5) glossFactory glossState).2 = s' := ⟨_, rfl⟩
  exact ⟨glossFactory, glossState, s₁, s', live, glossStarted, filling, one, plain.1, plain.2, read,
    Prod.ext called ended⟩

end Glossed

end LiveMarkup.Render
