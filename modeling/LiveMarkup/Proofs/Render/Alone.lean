import LiveMarkup.Proofs.Render.Passes
import LiveMarkup.Proofs.Render.Provenance
/-! Bound texts stand alone: each is the only child of the one element that its binding names, so an update
of the element wipes nothing else. -/
namespace LiveMarkup.Render
open Analysis Client Markup

variable {f : Factory} {s s₁ s' : State}

def Undeferred (f : Factory) (s : State) (text : String) : Prop :=
  ∀ key ∈ placeholders f.number text, s.deferred.any (·.1 == key) = false

def Unforged (f : Factory) (chunk literal : String) : Prop :=
  ∀ key ∈ placeholders f.number literal, key ∈ placeholders f.number chunk

/-- An element that the binding names, with nothing in it but the binding's text. -/
structure Home (f : Factory) (s : State) (b : Binding) (e : Element) : Prop where
  own : ownId? f e.1 = some b.id
  alone : ∃ literal chunk, e.2 = [.text .plain literal] ∧
    compose f.number s chunk = ⟨literal, some b.source, b.signals⟩ ∧ Undeferred f s chunk ∧
    (Unforged f chunk literal → Undeferred f s literal)

def Still (s s' : State) : Prop := ∃ page records, s' = { s with page, records }

theorem stillRefl : Still s s := ⟨_, _, rfl⟩

theorem stillTrans (h : Still s s₁) (h' : Still s₁ s') : Still s s' := by
  obtain ⟨_, _, rfl⟩ := h
  obtain ⟨page, records, rfl⟩ := h'
  exact ⟨page, records, rfl⟩

theorem homeStill {b : Binding} {e : Element} (h : Still s s') : Home f s' b e ↔ Home f s b e := by
  obtain ⟨page, records, rfl⟩ := h
  exact ⟨fun home => ⟨home.own, home.alone⟩, fun home => ⟨home.own, home.alone⟩⟩

def Separate (f : Factory) (s : State) (chunk : String) : Prop :=
  (∃ key ∈ placeholders f.number chunk, (s.live? key).isSome) → Undeferred f s chunk

theorem separateStill {chunk : String} (h : Still s s') (apart : Separate f s chunk) :
    Separate f s' chunk := by
  obtain ⟨page, records, rfl⟩ := h
  exact apart

theorem placeholdersFront {key : String} (h : Front f.number key.toList) :
    placeholders f.number key = [key] := by
  rw [placeholders, splitFront h]
  rfl

theorem deferredFront (keyed : Keyed f s) {key : String} (h : s.deferred.any (·.1 == key) = true) :
    Front f.number key.toList := by
  obtain ⟨d, hd, same⟩ := List.any_eq_true.mp h
  obtain ⟨n, _, given⟩ := keyed.deferred d hd
  rw [← beq_iff_eq.mp same, given]
  exact textFront

theorem liveKey {key : String} (h : (s.live? key).isSome) : ∃ l ∈ s.live, l.1 = key := by
  obtain ⟨live, found⟩ := Option.isSome_iff_exists.mp h
  obtain ⟨l, hl, _⟩ := Option.map_eq_some_iff.mp found
  exact ⟨l, List.mem_of_find?_eq_some hl, by simpa using List.find?_some hl⟩

theorem separateChunks {text : String} (keyed : Keyed f s) :
    ∀ chunk ∈ chunksIn f s text, Separate f s chunk := by
  have parts (chunk : String) (mem : chunk ∈ splitDeferred f.number s text) : Separate f s chunk := by
    rintro ⟨key, hk, live⟩
    rcases chunkApart (fun key => deferredFront keyed) (@splitPieces f.number text)
      (fun p hp => absurd hp List.not_mem_nil) mem with off | clear
    · rw [placeholdersFront (deferredFront keyed off)] at hk
      obtain rfl := List.mem_singleton.mp hk
      obtain ⟨l, hl, is⟩ := liveKey live
      obtain ⟨d, hd, same⟩ := List.any_eq_true.mp off
      exact absurd (is.trans (beq_iff_eq.mp same).symm) (keyed.apart l hl d hd)
    · exact clear
  intro chunk mem
  unfold chunksIn at mem
  split at mem
  · next none =>
    obtain rfl := List.mem_singleton.mp mem
    rintro ⟨key, hk, _⟩
    rw [List.isEmpty_iff.mp none] at hk
    exact absurd hk List.not_mem_nil
  split at mem
  · next few =>
    obtain rfl := List.mem_singleton.mp mem
    have whole : String.join (splitDeferred f.number s chunk) = chunk := by
      rw [splitDeferred, joinChunks, joinSplit, String.empty_append]
    generalize splitDeferred f.number s chunk = found at few whole parts
    rcases found with _ | ⟨first, _ | ⟨second, rest⟩⟩
    · rintro ⟨key, hk, _⟩
      rw [← whole] at hk
      exact absurd hk List.not_mem_nil
    · rw [String.join_cons, String.join_nil, String.append_empty] at whole
      exact parts chunk (whole ▸ List.mem_cons_self)
    · simp at few
  · exact parts chunk mem

structure TextPass (f : Factory) (s s' : State) (before : List String) (after : List Node) : Prop where
  allots : Allots s s' before (idsOf f after)
  still : Still s s'
  homes : ∃ new, s'.records.bindings = s.records.bindings ++ new ∧
    (new.map (·.id)).Sublist (idsOf f after) ∧ ∀ b ∈ new, ∃ e ∈ elements after, Home f s b e

theorem textSame {a : List Node} : TextPass f s s (idsOf f a) a :=
  ⟨allotsSame rfl, stillRefl, [], (List.append_nil _).symm, List.nil_sublist _,
    fun _ h => absurd h List.not_mem_nil⟩

theorem textAppend {before before' : List String} {after after' : List Node}
    (h : TextPass f s s₁ before after) (h' : TextPass f s₁ s' before' after') :
    TextPass f s s' (before ++ before') (after ++ after') := by
  refine ⟨idsAppend ▸ allotsAppend h.allots h'.allots, stillTrans h.still h'.still, ?_⟩
  have widen {p : List Element} {b : Binding} (sub : ∀ e ∈ p, e ∈ elements (after ++ after'))
      (home : ∃ e ∈ p, Home f s b e) : ∃ e ∈ elements (after ++ after'), Home f s b e := by
    obtain ⟨e, he, home⟩ := home
    exact ⟨e, sub e he, home⟩
  obtain ⟨first, same, ids, homes⟩ := h.homes
  obtain ⟨second, same', ids', homes'⟩ := h'.homes
  refine ⟨first ++ second, by rw [same', same, List.append_assoc], ?_, fun b hb => ?_⟩
  · rw [List.map_append, idsAppend]
    exact List.Sublist.append ids ids'
  rcases List.mem_append.mp hb with hb | hb
  · exact widen (fun e he => elementsAppend ▸ List.mem_append_left _ he) (homes b hb)
  · obtain ⟨e, he, home⟩ := homes' b hb
    exact ⟨e, elementsAppend ▸ List.mem_append_right _ he, (homeStill h.still).mp home⟩

theorem outSeparate {chunk : String} (h : Separate f s chunk) :
    ∃ c, out (settle chunk) f s = (.ok c, s) ∧ ∀ source, c.source? = some source →
      compose f.number s chunk = ⟨c.literal, some source, c.signals⟩ ∧ Undeferred f s chunk := by
  rcases @outSettle f s chunk with ⟨settled, live⟩ | settled
  · refine ⟨_, settled, fun source composed => ⟨?_, h live⟩⟩
    rw [← composed]
  · exact ⟨_, settled, fun source none => nomatch none⟩

theorem boundPass {id source literal chunk name : String} {signals : List String} {page : Page}
    {attributes attributes' : List Attribute} (own : ownId? f attributes' = some id)
    (allots : Allots s { s with page } (ownId? f attributes).toList [id])
    (composed : compose f.number s chunk = ⟨literal, some source, signals⟩) (clear : Undeferred f s chunk) :
    TextPass f s
      { s with page, records := { s.records with
        bindings := s.records.bindings ++ [{ id, signals, source }] } }
      (ownId? f attributes).toList [.element name attributes' [.text .plain literal]] := by
  have ids : idsOf f [.element name attributes' [.text .plain literal]] = [id] := by
    rw [idsElement, own, idsText]
    rfl
  refine ⟨?_, ⟨page, _, rfl⟩, _, rfl, ?_, List.forall_mem_singleton.mpr ?_⟩
  · rw [ids]
    exact ⟨allots.later, allots.counted⟩
  · rw [ids]
    exact List.Sublist.refl _
  · exact ⟨(attributes', [.text .plain literal]), List.mem_cons_self, own, literal, chunk, rfl, composed,
      clear, fun unforged key hk => clear key (unforged key hk)⟩

theorem wrapPass {chunk : String} {n : Node} (apart : Separate f s chunk)
    (h : out (wrapChunk chunk) f s = (.ok n, s')) : TextPass f s s' [] [n] := by
  obtain ⟨c, settled, bound⟩ := outSeparate apart
  rw [wrapChunk, outBind, settled] at h
  simp only at h
  split at h
  · cases h
    exact @textSame f s [.text .plain c.literal]
  · next source composed =>
    obtain ⟨written, clear⟩ := bound source composed
    obtain ⟨id, given, page, identified, own, allots⟩ := @outIdentify f s []
    rw [outBind, identified] at h
    cases h
    exact boundPass own allots written clear

theorem onlyPass {name chunk : String} {attributes : List Attribute} {n : Node}
    (apart : Separate f s chunk) (h : out (bindOnlyText name attributes chunk) f s = (.ok n, s')) :
    TextPass f s s' (ownId? f attributes).toList [n] := by
  obtain ⟨c, settled, bound⟩ := outSeparate apart
  rw [bindOnlyText, outBind, settled] at h
  simp only at h
  split at h
  · cases h
    have same := @textSame f s [.element name attributes [.text .plain c.literal]]
    rwa [idsElement, idsText, List.append_nil] at same
  · next source composed =>
    obtain ⟨written, clear⟩ := bound source composed
    obtain ⟨id, given, page, identified, own, allots⟩ := @outIdentify f s attributes
    rw [outBind, identified] at h
    cases h
    exact boundPass own allots written clear

theorem wrapAll {parts : List String} {nodes : List Node} (apart : ∀ chunk ∈ parts, Separate f s chunk)
    (h : out (parts.mapM wrapChunk) f s = (.ok nodes, s')) : TextPass f s s' [] nodes := by
  induction parts generalizing s nodes with
  | nil =>
    cases h
    exact @textSame f _ []
  | cons chunk rest ih =>
    simp only [List.mapM_cons, outOk] at h
    obtain ⟨n, s₁, first, others, s₂, tail, h⟩ := h
    cases h
    have wrapped := wrapPass (apart chunk List.mem_cons_self) first
    exact textAppend wrapped
      (ih (fun c hc => separateStill wrapped.still (apart c (List.mem_cons_of_mem _ hc))) tail)

theorem textInside {name : String} {attributes : List Attribute} {before : List String}
    {after : List Node} (h : TextPass f s s' before after) :
    TextPass f s s' ((ownId? f attributes).toList ++ before) [.element name attributes after] := by
  refine ⟨?_, h.still, ?_⟩
  · rw [idsElement]
    exact allotsAppend (allotsSame rfl) h.allots
  · obtain ⟨new, same, ids, homes⟩ := h.homes
    refine ⟨new, same, ?_, fun b hb => ?_⟩
    · rw [idsElement]
      exact ids.trans (List.sublist_append_right _ _)
    obtain ⟨e, he, home⟩ := homes b hb
    rw [elements, elementsIn, elements, List.append_nil]
    exact ⟨e, List.mem_cons_of_mem _ he, home⟩

theorem keyedStill (h : Still s s') (keyed : Keyed f s) : Keyed f s' := by
  obtain ⟨page, records, rfl⟩ := h
  exact ⟨keyed.live, keyed.deferred, keyed.apart⟩

mutual

theorem elementTextPass : {n : Node} → {nodes : List Node} → {s s' : State} → Keyed f s →
    out (bindElementTexts n) f s = (.ok nodes, s') → TextPass f s s' (idsOf f [n]) nodes
  | .text kind text, nodes, s, s', keyed, h => by
    cases bindsTexts h with
    | plain wrapped => exact wrapAll (separateChunks keyed) wrapped
    | still _ => exact textSame
  | .element name attributes children, nodes, s, s', keyed, h => by
    have inner {nodes : List Node} {s' : State} (h : out (bindTexts children) f s = (.ok nodes, s')) :=
      textPass keyed h
    rw [idsElement]
    cases bindsTexts h with
    | only single bound =>
      rw [idsText, List.append_nil]
      exact onlyPass (separateChunks keyed _ (single ▸ List.mem_cons_self)) bound
    | several _ wrapped => exact textInside (wrapAll (separateChunks keyed) wrapped)
    | mixed _ bound => exact textInside (inner bound)

theorem textPass : {nodes nodes' : List Node} → {s s' : State} → Keyed f s →
    out (bindTexts nodes) f s = (.ok nodes', s') → TextPass f s s' (idsOf f nodes) nodes'
  | [], _, _, _, _, h => by
    cases h
    exact textSame
  | n :: rest, nodes', s, s', keyed, h => by
    simp only [bindTexts, outOk] at h
    obtain ⟨first, s₁, head, others, s₂, tail, h⟩ := h
    cases h
    have step := elementTextPass keyed head
    rw [← List.singleton_append, idsAppend]
    exact textAppend step (textPass (keyedStill step.still keyed) tail)

end

def KeysApart (f : Factory) (s : State) : Prop := ∀ key, (s.live? key).isSome → isPlaceholder f.number key = true

theorem keysApart (keyed : Keyed f s) : KeysApart f s := by
  intro key live
  obtain ⟨l, hl, rfl⟩ := liveKey live
  obtain ⟨n, _, given⟩ := keyed.live l hl
  rw [given]
  exact placeholderFront textFront

theorem keysAside (h : Aside s s') (keys : KeysApart f s) : KeysApart f s' := by
  obtain ⟨page, records, written, rfl⟩ := h
  exact keys

theorem anchorOwn {attributes attributes' : List Attribute} {id : String} (keys : KeysApart f s)
    (own : ownId? f attributes = some id)
    (h : out (bindAnchor attributes) f s = (.ok attributes', s')) : attributes' = attributes := by
  obtain ⟨got, plain⟩ := Option.filter_eq_some_iff.mp own
  have dead : s.live? id = none := by
    cases live : s.live? id with
    | none => rfl
    | some l =>
      rw [keys id (by rw [live]; rfl)] at plain
      simp at plain
  rw [bindAnchor, outBind, outGet] at h
  simp only [got, Option.getD_some, dead] at h
  cases h
  rfl

def Single (e : Element) : Prop := ∃ literal, e.2 = [.text .plain literal]

mutual

theorem anchorKeepsIn : {n n' : Node} → {s s' : State} → KeysApart f s →
    out (onElements bindAnchor n) f s = (.ok n', s') →
    ∀ e ∈ elementsIn n, ∀ id, ownId? f e.1 = some id → Single e → e ∈ elementsIn n'
  | .text _ _, _, _, _, _, _ => fun e he => absurd he List.not_mem_nil
  | .element name attributes children, n', s, s', keys, h => by
    have inner {nodes : List Node} {s₁ s₂ : State} (keys : KeysApart f s₁)
        (h : out (onAllElements bindAnchor children) f s₁ = (.ok nodes, s₂)) := anchorKeeps keys h
    simp only [onElements, outOk] at h
    obtain ⟨changed, s₁, first, children', s₂, rest, h⟩ := h
    cases h
    intro e he id own single
    rcases List.mem_cons.mp he with rfl | he
    · obtain ⟨literal, rfl⟩ := single
      rw [anchorOwn keys own first]
      cases rest
      exact List.mem_cons_self
    · exact List.mem_cons_of_mem _
        (inner (keysAside (passAnchor first).aside keys) rest e he id own single)

theorem anchorKeeps : {nodes nodes' : List Node} → {s s' : State} → KeysApart f s →
    out (onAllElements bindAnchor nodes) f s = (.ok nodes', s') →
    ∀ e ∈ elements nodes, ∀ id, ownId? f e.1 = some id → Single e → e ∈ elements nodes'
  | [], _, _, _, _, _ => fun e he => absurd he List.not_mem_nil
  | n :: rest, nodes', s, s', keys, h => by
    simp only [onAllElements, outOk] at h
    obtain ⟨n', s₁, first, rest', s₂, tail, h⟩ := h
    cases h
    have aside := (passElement (fun h => passAnchor h) first).aside
    intro e he id own single
    rcases List.mem_append.mp he with he | he
    · exact List.mem_append_left _ (anchorKeepsIn keys first e he id own single)
    · exact List.mem_append_right _ (anchorKeeps (keysAside aside keys) tail e he id own single)

end

theorem anchorStill (attributes : List Attribute) : Keeps (Still s) f (bindAnchor attributes) := by
  refine keepsGet fun s₁ h => ?_
  split
  · exact h
  · obtain ⟨_, _, rfl⟩ := h
    exact ⟨_, _, rfl⟩

def textIds (bindings : List Binding) : List String :=
  (bindings.filter (·.attribute?.isNone)).map (·.id)

theorem textIdsAttributes {bindings : List Binding} (h : ∀ b ∈ bindings, b.attribute? ≠ none) :
    textIds bindings = [] := by
  rw [textIds, List.filter_eq_nil_iff.mpr, List.map_nil]
  exact fun b hb none => h b hb (Option.isNone_iff_eq_none.mp none)

theorem textIdsAppend {first second : List Binding} :
    textIds (first ++ second) = textIds first ++ textIds second := by
  simp only [textIds, List.filter_append, List.map_append]

theorem treeAlone {tree final : List Node} (keyed : Keyed f s) (unnamed : idsOf f tree = [])
    (h : out (settleTree tree) f s = (.ok final, s')) :
    ∃ new, s'.records.bindings = s.records.bindings ++ new ∧ (textIds new).Nodup ∧
      ∀ b ∈ new, b.attribute? = none → ∃ e, named b.id final = [e] ∧ Home f s' b e := by
  simp only [settleTree, outOk] at h
  obtain ⟨first, s₁, events, second, s₂, attributes, third, s₃, texts, anchors⟩ := h
  have one := passElements (passEach passEvent) events
  have two := passElements (passEach passAttribute) attributes
  have keyed₂ : Keyed f s₂ := by
    obtain ⟨page, records, written, rfl⟩ := asideTrans one.aside two.aside
    exact ⟨keyed.live, keyed.deferred, keyed.apart⟩
  have three := textPass keyed₂ texts
  have four := passElements (fun h => passAnchor h) anchors
  have still : Still s₃ s' := by
    have kept : Keeps (Still s₃) f (onAllElements bindAnchor third) := keepsAllElements anchorStill third
    have last := kept s₃ stillRefl
    rwa [anchors] at last
  have bare : Allots s s₃ [] (idsOf f third) :=
    unnamed ▸ allotsTrans one.allots (allotsTrans two.allots three.allots)
  have nodup : (idsOf f final).Nodup := allotsNodup (allotsTrans bare four.allots)
  obtain ⟨static, same, bound⟩ := newBindings one.bindings two.bindings
  obtain ⟨new, same₃, ids, homes⟩ := three.homes
  obtain ⟨later, same', bound'⟩ := four.bindings
  refine ⟨static ++ new ++ later, by simp only [same', same₃, same, List.append_assoc], ?_, ?_⟩
  · rw [textIdsAppend, textIdsAppend, textIdsAttributes bound, textIdsAttributes bound', List.append_nil,
      List.nil_append]
    exact (allotsNodup bare).sublist (((List.filter_sublist).map _).trans ids)
  intro b hb text
  rcases List.mem_append.mp hb with hb | hb
  · rcases List.mem_append.mp hb with hb | hb
    · exact absurd text (bound b hb)
    · obtain ⟨e, he, home⟩ := homes b hb
      obtain ⟨literal, chunk, alone, _⟩ := home.alone
      have keys := keysApart (keyedStill three.still keyed₂)
      have kept := anchorKeeps keys anchors e he b.id home.own ⟨literal, alone⟩
      exact ⟨e, namedOnce nodup kept home.own, (homeStill (stillTrans three.still still)).mpr home⟩
  · exact absurd text (bound' b hb)

def RecordsAre (r : Records) (s : State) : Prop := s.records = r

theorem filledRecords {r : Records} {template : String} {values : List Value} {line : Int} :
    Keeps (RecordsAre r) f (filled template values line) := by
  refine keepsFilled (fun content s h => h) fun v slot _ s h => ?_
  cases translatable : slot.translatable with
  | false =>
    rw [mark, outBind, outRead]
    simp only [translatable, Bool.not_false, if_true]
    exact h
  | true =>
    rw [outMark translatable]
    exact h

theorem finishedRecords {r : Records} {nested : Nested} {markup : String} :
    Keeps (RecordsAre r) f (finished nested markup) := by
  refine keepsFinished (fun key => keepsGet fun s h => ?_) fun c => keepsGet fun s h => ?_
  · split
    · exact h
    · exact h
  · rcases (nested c).run s.page with ⟨_ | _, page⟩
    · exact h
    · exact h

theorem liveSettled {markup output : String} (h : out (settleLive markup) f s = (.ok output, s')) :
    ∃ tree final s₂, readTree markup = .ok tree ∧ out (settleTree tree) f s = (.ok final, s₂) ∧
      output = writeTree final ∧ s' = { s₂ with live := [] } := by
  rw [settleLive, outBind, outRead] at h
  simp only at h
  split at h
  · next tree read =>
    simp only [outOk] at h
    obtain ⟨_, _, same, final, s₂, settled, h⟩ := h
    cases same
    obtain ⟨_, _, got, _, _, modified, h⟩ := h
    cases got
    cases modified
    split at h
    · cases h
      exact ⟨tree, final, _, read, settled, rfl, rfl⟩
    · cases h
  · obtain ⟨_, _, failed, _⟩ := outOk.mp h
    cases failed

def settled? (template : String) (values : List Value) (line : Int) (f : Factory) (s : State) :
    Option (List Node × List Node × State) :=
  match out (filled template values line) f s with
  | (.error _, _) => none
  | (.ok markup, s₁) =>
    match readTree markup with
    | .error _ => none
    | .ok tree =>
      match out (settleTree tree) f s₁ with
      | (.error _, _) => none
      | (.ok final, s₂) => if s₁.live.isEmpty then none else some (tree, final, s₂)

/-- An update never wipes anything but its own text. Whatever calls went before, each text binding that
a successful call appends names an element of its own in the tree that is written, and this element has a
single child: the text that the binding composes, without deferred content. No element may come with an
identifier of its own. -/
theorem updatesAlone {nested : Nested} {template : String} {values : List Value} {line : Int} {v : Value}
    (reached : Reached f s) (done : out (call nested template values line) f s = (.ok v, s')) :
    s'.records = s.records ∨
      ∃ tree final s₂, settled? template values line f s = some (tree, final, s₂) ∧
        s'.records = s₂.records ∧
        out (finished nested (writeTree final)) f { s₂ with live := [] } = (.ok v, s') ∧
        (idsOf f tree = [] → ∃ new, s'.records.bindings = s.records.bindings ++ new ∧ (textIds new).Nodup ∧
          ∀ b ∈ new, b.attribute? = none → ∃ e, named b.id final = [e] ∧ Home f s₂ b e) := by
  obtain ⟨markup, s₁, given, rest⟩ := outOk.mp done
  have keyed : Keyed f s₁ := by
    have sound := @soundFilled f template values line s (soundReached reached)
    rw [given] at sound
    exact sound.keyed
  have unchanged : s₁.records = s.records := by
    have records := @filledRecords f s.records template values line s rfl
    rwa [given] at records
  rw [outBind, outGet] at rest
  simp only at rest
  split at rest
  · obtain ⟨_, _, same, ended⟩ := outOk.mp rest
    cases same
    have records := @finishedRecords f s₁.records nested markup s₁ rfl
    rw [ended] at records
    exact .inl (records.trans unchanged)
  · next live =>
    obtain ⟨output, _, settling, ended⟩ := outOk.mp rest
    obtain ⟨tree, final, s₂, read, settled, rfl, rfl⟩ := liveSettled settling
    have records : s'.records = s₂.records := by
      have kept := @finishedRecords f s₂.records nested (writeTree final) { s₂ with live := [] } rfl
      rwa [ended] at kept
    refine .inr ⟨tree, final, s₂, ?_, records, ended, fun unnamed => ?_⟩
    · simp only [settled?, given, read, settled, if_neg live]
    · obtain ⟨new, same, homes⟩ := treeAlone keyed unnamed settled
      exact ⟨new, by rw [records, same, unchanged], homes⟩

theorem counterAlone :
    ∃ f s v s' tree final s₂ b e, Reached f s ∧ out counterCall f s = (.ok v, s') ∧
      settled? counterTemplate counterValues 2 f s = some (tree, final, s₂) ∧
      s'.records.bindings = [b] ∧ named b.id final = [e] ∧ Home f s₂ b e := by
  obtain ⟨ok, one, unnamed⟩ : (out counterCall counterFactory counterState).1.isOk = true ∧
      (out counterCall counterFactory counterState).2.records.bindings.map (·.attribute?) = [none] ∧
      (settled? counterTemplate counterValues 2 counterFactory counterState).all
        (fun p => (idsOf counterFactory p.1).isEmpty) = true := by decide +kernel
  obtain ⟨v, called⟩ := okValue ok
  -- The end state gets a name of its own, so that no later step unfolds the run.
  obtain ⟨s', ended⟩ : ∃ s', (out counterCall counterFactory counterState).2 = s' := ⟨_, rfl⟩
  rw [ended] at one
  have done : out counterCall counterFactory counterState = (.ok v, s') := Prod.ext called ended
  rcases updatesAlone counterStarted done with same | ⟨tree, final, s₂, settled, _, _, homes⟩
  · rw [same] at one
    cases one
  · rw [settled] at unnamed
    obtain ⟨new, appended, _, home⟩ := homes (List.isEmpty_iff.mp unnamed)
    have none : counterState.records.bindings = [] := rfl
    rw [none, List.nil_append] at appended
    rw [appended] at one
    obtain ⟨b, rfl, text⟩ := List.map_eq_singleton_iff.mp one
    obtain ⟨e, named, home⟩ := home b List.mem_cons_self text
    exact ⟨_, _, v, _, tree, final, s₂, b, e, counterStarted, done, settled, appended, named, home⟩

def namingTemplate : String := "<div \x7b\x7d><b>x</b></div><p>\x7b\x7d</p>"

def forgingTemplate : String := "<p>\x7b\x7d</p><i>\x7b\x7d</i>"

def showing : Component :=
  .mk "Showing" [("text", .text "__zinc_00000000_1__")]
    (some ("def render(self, ctx):\n" ++
      "    ctx.html('<b onclick=\x7b\x7d></b>', lambda: setattr(self, 'text', 1))\n" ++
      "    ctx.html('" ++ namingTemplate ++ "', ctx.mark, self.text)\n" ++
      "    ctx.html('" ++ forgingTemplate ++ "', self.text, ctx.mark)\n"))
    1 "showing.py" [] none

def showingSlots : List Analysis.Slot :=
  [{ signals := ["text"], writes := ["text"], isFunction := true, isEvent := true,
     eventName := some "onclick", source := "() => this.text = 1", bodySource := some "this.text = 1",
     expression := "lambda: setattr(self, 'text', 1)", template := "<b onclick=\x7b\x7d></b>", line := 2 },
   { source := "ctx.mark", expression := "ctx.mark", template := namingTemplate, line := 3 },
   { signals := ["text"], source := "this.text", expression := "self.text", template := namingTemplate,
     slot := 1, line := 3 },
   { signals := ["text"], source := "this.text", expression := "self.text", template := forgingTemplate,
     line := 4 },
   { source := "ctx.mark", expression := "ctx.mark", template := forgingTemplate, slot := 1, line := 4 }]

abbrev showingFactory : Factory := factoryOf showing showingSlots

abbrev showingState : State := startOf showing showingSlots

theorem showingStarted : Reached showingFactory showingState :=
  startedOf (slotsListed rfl
    (listedAppend (listedAppend (listedAppend (listedAppend (listedAppend (listedAppend
      (listedAppend (listedText rfl) rfl) rfl) rfl) rfl) rfl) rfl) rfl) rfl (by decide +kernel))

def namingValues : List Value := [.text "data-zid=_0", .text "__zinc_00000000_1__"]

def namingCall : Rendering Value := call (fun _ => return "") namingTemplate namingValues 3

def forgingCall : Rendering Value :=
  call (fun _ => return "") forgingTemplate [.text "__zinc_00000000_1__", .markup "<b>x</b>"] 4

def holdsElement : List Element → Bool
  | [(_, [.element _ _ _]), _] => true
  | _ => false

theorem heldElement {es : List Element} (h : holdsElement es = true) : ∃ e e', es = [e, e'] ∧
    ∃ name attributes children, e.2 = [.element name attributes children] := by
  unfold holdsElement at h
  split at h
  · exact ⟨_, _, rfl, _, _, _, rfl⟩
  · cases h

def bodyOf? : Except RenderError Value → Option String
  | .ok (.rendered _ body (some 0)) => some body
  | _ => none

theorem bodyReturned {r : Except RenderError Value} {body : String} (h : bodyOf? r = some body) :
    ∃ output, r = .ok (.rendered output body (some 0)) := by
  unfold bodyOf? at h
  split at h
  · next output body =>
    cases h
    exact ⟨output, rfl⟩
  · cases h

/-- The template of a call names no element, but a value can: then a text's binding names two, and there
is an element in the first. And a value that reads as a placeholder puts deferred content into the element
that shows it. -/
theorem valuesIntrude :
    ∃ f s, Reached f s ∧ s.records.bindings = [] ∧
      (∃ v s' tree final s₂ b e e', out namingCall f s = (.ok v, s') ∧
        settled? namingTemplate namingValues 3 f s = some (tree, final, s₂) ∧
        s'.records.bindings = [b] ∧ b.attribute? = none ∧ named b.id final = [e, e'] ∧
        ∃ name attributes children, e.2 = [.element name attributes children]) ∧
      ∃ s' output b, out forgingCall f s = (.ok (.rendered output
          "<p data-zid=\"_0\"><b>x</b></p><i>__zinc_00000000_1__</i>" (some f.number)), s') ∧
        s'.records.bindings = [b] ∧ b.attribute? = none ∧ b.id = "_0" := by
  refine ⟨showingFactory, showingState, showingStarted, rfl, ?_, ?_⟩
  · obtain ⟨ok, bound, two⟩ : (out namingCall showingFactory showingState).1.isOk = true ∧
        (out namingCall showingFactory showingState).2.records.bindings =
          [{ id := "_0", signals := ["text"], source := "this.text" }] ∧
        (settled? namingTemplate namingValues 3 showingFactory showingState).any
          (fun p => holdsElement (named "_0" p.2.1)) = true := by decide +kernel
    obtain ⟨v, done⟩ := okValue ok
    obtain ⟨s', ended⟩ : ∃ s', (out namingCall showingFactory showingState).2 = s' := ⟨_, rfl⟩
    rw [ended] at bound
    obtain ⟨⟨tree, final, s₂⟩, settled, two⟩ := (Option.any_eq_true _ _).mp two
    obtain ⟨e, e', is, inner⟩ := heldElement two
    exact ⟨v, s', tree, final, s₂, _, e, e', Prod.ext done ended, settled, bound, rfl, is, inner⟩
  · obtain ⟨shown, bound⟩ : bodyOf? (out forgingCall showingFactory showingState).1 =
          some "<p data-zid=\"_0\"><b>x</b></p><i>__zinc_00000000_1__</i>" ∧
        (out forgingCall showingFactory showingState).2.records.bindings =
          [{ id := "_0", signals := ["text"], source := "this.text" }] := by decide +kernel
    obtain ⟨s', ended⟩ : ∃ s', (out forgingCall showingFactory showingState).2 = s' := ⟨_, rfl⟩
    rw [ended] at bound
    obtain ⟨output, result⟩ := bodyReturned shown
    exact ⟨s', output, _, Prod.ext result ended, bound, rfl, rfl⟩

end LiveMarkup.Render
