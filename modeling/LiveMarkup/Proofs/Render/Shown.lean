import LiveMarkup.Proofs.Markup.Gathered
import LiveMarkup.Proofs.Render.Chunks
import LiveMarkup.Proofs.Render.Ends
/-! Settling a tree and the contents that wait in its texts. Whatever becomes of a text, it is cut apart at their
placeholders, and these stay where they are. -/
namespace LiveMarkup.Render
open Analysis Client Markup

variable {f : Factory} {s s₁ s' : State}

section Chunks

def State.defers (s : State) (key : String) : Bool := s.deferred.any (·.1 == key)

theorem chunksKeys {text : String} (keyed : Keyed f s) :
    (chunksIn f s text).flatMap (placeholders f.number) = placeholders f.number text := by
  unfold chunksIn
  split
  · exact List.flatMap_singleton _ _
  split
  · exact List.flatMap_singleton _ _
  · exact @chunkedKeys f.number _ _ [] (fun key => s.deferred.any (·.1 == key)) (fun key => deferredFront keyed) splitPieces

def shownChunk (f : Factory) (s : State) (chunk : String) : String :=
  if (placeholders f.number chunk).any fun key => (s.live? key).isSome then (compose f.number s chunk).literal
  else chunk

theorem shownKeys {chunk : String} (apart : Separate f s chunk) (unforged : Unforged f chunk (shownChunk f s chunk)) :
    (placeholders f.number (shownChunk f s chunk)).filter s.defers = (placeholders f.number chunk).filter s.defers := by
  unfold shownChunk at unforged ⊢
  split
  · next live =>
    rw [if_pos live] at unforged
    have clear := apart (List.any_eq_true.mp live)
    have none : (placeholders f.number chunk).filter s.defers = [] :=
      List.filter_eq_nil_iff.mpr fun key mem => Bool.eq_false_iff.mp (clear key mem)
    rw [none]
    exact List.filter_eq_nil_iff.mpr fun key mem => Bool.eq_false_iff.mp (clear key (unforged key mem))
  · rfl

end Chunks

section Texts

def shownChunks (f : Factory) (s : State) (text : String) : List String := (chunksIn f s text).map (shownChunk f s)

theorem shownStill (h : Still s s') : shownChunk f s' = shownChunk f s ∧ shownChunks f s' = shownChunks f s := by
  obtain ⟨page, records, rfl⟩ := h
  exact ⟨rfl, rfl⟩

mutual

def shownIn (g : String → List String) : Node → List String
  | .text .plain text => g text
  | .text .hidden text | .text (.aside _) text => [text]
  | .element _ _ children => shown g children

def shown (g : String → List String) : List Node → List String
  | [] => []
  | n :: rest => shownIn g n ++ shown g rest

end

theorem outShown {chunk : String} : ∃ c, out (settle chunk) f s = (.ok c, s) ∧ c.literal = shownChunk f s chunk := by
  rw [settle, outBind, outRead]
  simp only
  rw [outBind, outGet]
  simp only [shownChunk]
  split
  · exact ⟨_, rfl, rfl⟩
  · exact ⟨_, rfl, rfl⟩

theorem wrapShown {chunk : String} {n : Node} (h : out (wrapChunk chunk) f s = (.ok n, s')) :
    stringsIn n = [shownChunk f s chunk] := by
  obtain ⟨c, settled, literal⟩ := @outShown f s chunk
  rw [wrapChunk, outBind, settled] at h
  simp only at h
  rw [← literal]
  split at h
  · cases h
    rfl
  · obtain ⟨id, given, page, identified, _⟩ := @outIdentify f s []
    rw [outBind, identified] at h
    cases h
    rfl

theorem onlyShown {name chunk : String} {attributes : List Attribute} {n : Node}
    (h : out (bindOnlyText name attributes chunk) f s = (.ok n, s')) : stringsIn n = [shownChunk f s chunk] := by
  obtain ⟨c, settled, literal⟩ := @outShown f s chunk
  rw [bindOnlyText, outBind, settled] at h
  simp only at h
  rw [← literal]
  split at h
  · cases h
    rfl
  · obtain ⟨id, given, page, identified, _⟩ := @outIdentify f s attributes
    rw [outBind, identified] at h
    cases h
    rfl

theorem wrapsShown {parts : List String} {nodes : List Node} (ready : Ready f s)
    (h : out (parts.mapM wrapChunk) f s = (.ok nodes, s')) : strings nodes = parts.map (shownChunk f s) := by
  induction parts generalizing s nodes with
  | nil =>
    cases h
    rfl
  | cons chunk rest ih =>
    simp only [List.mapM_cons, outOk] at h
    obtain ⟨n, s₁, first, others, s₂, tail, h⟩ := h
    cases h
    have still := settlesStill (chunkWrapped ready first).settles
    rw [strings, wrapShown first, ih (readyStill still ready) tail, (shownStill still).1]
    rfl

mutual

theorem elementShown : {n : Node} → {nodes : List Node} → {s s' : State} → Ready f s →
    out (bindElementTexts n) f s = (.ok nodes, s') → strings nodes = shownIn (shownChunks f s) n
  | .text kind text, nodes, s, s', ready, h => by
    cases bindsTexts h with
    | plain wrapped => exact wrapsShown ready wrapped
    | still other =>
      cases kind with
      | plain => exact absurd rfl other
      | hidden | aside => rfl
  | .element name attributes children, nodes, s, s', ready, h => by
    have inner {nodes : List Node} {s' : State} (h : out (bindTexts children) f s = (.ok nodes, s')) :=
      textsShown ready h
    have inside {nodes : List Node} : strings [.element name attributes nodes] = strings nodes := stringsOne
    have one {text : String} : shownIn (shownChunks f s) (.element name attributes [.text .plain text]) =
        (chunksIn f s text).map (shownChunk f s) := List.append_nil _
    cases bindsTexts h with
    | only single bound =>
      rw [one, stringsOne, onlyShown bound, single]
      rfl
    | several _ wrapped => rw [one, inside, wrapsShown ready wrapped]
    | mixed _ bound => rw [inside, inner bound, shownIn]

theorem textsShown : {nodes nodes' : List Node} → {s s' : State} → Ready f s →
    out (bindTexts nodes) f s = (.ok nodes', s') → strings nodes' = shown (shownChunks f s) nodes
  | [], _, _, _, _, h => by
    cases h
    rfl
  | n :: rest, nodes', s, s', ready, h => by
    simp only [bindTexts, outOk] at h
    obtain ⟨first, s₁, head, others, s₂, tail, h⟩ := h
    cases h
    have still := settlesStill (elementTextsBound ready head).settles
    rw [stringsAppend, elementShown ready head, textsShown (readyStill still ready) tail, (shownStill still).2, shown]

end

def UnforgedIn (f : Factory) (s : State) (tree : List Node) : Prop :=
  ∀ text ∈ texts tree, ∀ chunk ∈ chunksIn f s text, Unforged f chunk (shownChunk f s chunk)

theorem chunksShownKeys {text : String} (keyed : Keyed f s)
    (unforged : ∀ chunk ∈ chunksIn f s text, Unforged f chunk (shownChunk f s chunk)) :
    ((shownChunks f s text).flatMap (placeholders f.number)).filter s.defers =
      (placeholders f.number text).filter s.defers := by
  rw [shownChunks]
  have apart := @separateChunks f s text keyed
  rw [← chunksKeys keyed]
  generalize chunksIn f s text = parts at unforged apart
  induction parts with
  | nil => rfl
  | cons chunk rest ih =>
    obtain ⟨own, others⟩ := List.forall_mem_cons.mp unforged
    obtain ⟨alone, later⟩ := List.forall_mem_cons.mp apart
    rw [List.map_cons, List.flatMap_cons, List.filter_append, shownKeys alone own, ih others later, List.flatMap_cons,
      List.filter_append]

mutual

theorem nodeShownKeys (keyed : Keyed f s) : (n : Node) → UnforgedIn f s [n] →
    ((shownIn (shownChunks f s) n).flatMap (placeholders f.number)).filter s.defers = (textKeys f.number [n]).filter s.defers
  | .text .plain text, unforged => by
    rw [textKeys, stringsOne, stringsIn, List.flatMap_singleton, shownIn]
    exact chunksShownKeys keyed (unforged text List.mem_cons_self)
  | .text .hidden _, _ | .text (.aside _) _, _ => by
    rw [textKeys, stringsOne]
    rfl
  | .element name attributes children, unforged => by
    have inner := treeShownKeys keyed children
    rw [textKeys, stringsOne, stringsIn, shownIn]
    refine inner fun text mem => unforged text ?_
    rw [texts, textsIn, texts, List.append_nil]
    exact mem

theorem treeShownKeys (keyed : Keyed f s) : (nodes : List Node) → UnforgedIn f s nodes →
    ((shown (shownChunks f s) nodes).flatMap (placeholders f.number)).filter s.defers = (textKeys f.number nodes).filter s.defers
  | [], _ => rfl
  | n :: rest, unforged => by
    have first : UnforgedIn f s [n] := fun text mem => unforged text (List.mem_append_left _ (by
      rwa [texts, texts, List.append_nil] at mem))
    have others : UnforgedIn f s rest := fun text mem => unforged text (List.mem_append_right _ mem)
    rw [shown, List.flatMap_append, List.filter_append, nodeShownKeys keyed n first, treeShownKeys keyed rest others,
      ← List.filter_append, ← textKeysAppend, List.singleton_append]

end

theorem chunksWithin {text key : String} (keyed : Keyed f s)
    (unforged : ∀ chunk ∈ chunksIn f s text, Unforged f chunk (shownChunk f s chunk))
    (mem : key ∈ (shownChunks f s text).flatMap (placeholders f.number)) : key ∈ placeholders f.number text := by
  obtain ⟨_, shown, mem⟩ := List.mem_flatMap.mp mem
  obtain ⟨chunk, own, rfl⟩ := List.mem_map.mp shown
  rw [← chunksKeys keyed]
  exact List.mem_flatMap.mpr ⟨chunk, own, unforged chunk own key mem⟩

mutual

theorem nodeWithin (keyed : Keyed f s) : (n : Node) → UnforgedIn f s [n] →
    ∀ key ∈ (shownIn (shownChunks f s) n).flatMap (placeholders f.number), key ∈ textKeys f.number [n]
  | .text .plain text, unforged, key, mem => by
    rw [textKeys, stringsOne, stringsIn, List.flatMap_singleton]
    exact chunksWithin keyed (unforged text List.mem_cons_self) mem
  | .text .hidden _, _, _, mem | .text (.aside _) _, _, _, mem => by
    rw [textKeys, stringsOne]
    exact mem
  | .element name attributes children, unforged, key, mem => by
    rw [textKeys, stringsOne]
    refine treeWithin keyed children (fun text inside => unforged text ?_) key mem
    rw [texts, textsIn, texts, List.append_nil]
    exact inside

theorem treeWithin (keyed : Keyed f s) : (nodes : List Node) → UnforgedIn f s nodes →
    ∀ key ∈ (shown (shownChunks f s) nodes).flatMap (placeholders f.number), key ∈ textKeys f.number nodes
  | [], _, _, mem => mem
  | n :: rest, unforged, key, mem => by
    have first : UnforgedIn f s [n] := fun text mem => unforged text (List.mem_append_left _ (by
      rwa [texts, texts, List.append_nil] at mem))
    have others : UnforgedIn f s rest := fun text mem => unforged text (List.mem_append_right _ mem)
    rw [← List.singleton_append, textKeysAppend, List.mem_append]
    rw [shown, List.flatMap_append, List.mem_append] at mem
    exact mem.imp (nodeWithin keyed n first key) (treeWithin keyed rest others key)

end

theorem alikeStrings {R : List Attribute → List Attribute → Prop} {nodes nodes' : List Node} (h : Alike R nodes nodes') :
    strings nodes' = strings nodes ∧ ∀ g, shown g nodes' = shown g nodes := by
  induction h with
  | nil => exact ⟨rfl, fun _ => rfl⟩
  | text tail ih => exact ⟨by rw [strings, strings, ih.1], fun g => by rw [shown, shown, ih.2]⟩
  | element here inner tail ih ih' =>
    exact ⟨by rw [strings, strings, stringsIn, stringsIn, ih.1, ih'.1],
      fun g => by rw [shown, shown, shownIn, shownIn, ih.2, ih'.2]⟩

theorem settledShown {tree final : List Node} (ready : Ready f s)
    (h : out (settleTree tree) f s = (.ok final, s')) : strings final = shown (shownChunks f s) tree := by
  simp only [settleTree, outOk] at h
  obtain ⟨first, s₁, events, second, s₂, attributes, third, s₃, bound, anchors⟩ := h
  obtain ⟨settles₁, alike₁⟩ := walk (eventPass f) ready events
  have still₁ := settlesStill settles₁
  obtain ⟨settles₂, alike₂⟩ := walk (attributePass f) (readyStill still₁ ready) attributes
  have still₂ := stillTrans still₁ (settlesStill settles₂)
  have still₃ := stillTrans still₂ (settlesStill (textsBound (readyStill still₂ ready) bound).settles)
  obtain ⟨_, alike₄⟩ := walk (anchorPass f) (readyStill still₃ ready) anchors
  rw [(alikeStrings alike₄).1, textsShown (readyStill still₂ ready) bound, (shownStill still₂).2,
    (alikeStrings alike₂).2, (alikeStrings alike₁).2]

theorem settledKeys {tree final : List Node} (ready : Ready f s) (unforged : UnforgedIn f s tree)
    (h : out (settleTree tree) f s = (.ok final, s')) :
    (textKeys f.number final).filter s.defers = (textKeys f.number tree).filter s.defers := by
  rw [textKeys, settledShown ready h, treeShownKeys ready.keyed tree unforged]

end Texts

section Bound

variable {chunk name : String} {attributes : List Attribute} {parts parts' : List String} {n : Node}
  {nodes after after' : List Node}

/-- The binding is that of a chunk, in which no content waits, and the element has what is shown for the chunk as its
only text. -/
structure Bears (f : Factory) (s : State) (b : Binding) (chunk : String) (e : Element) : Prop where
  own : ownId? f e.1 = some b.id
  bound : bindingOf f s none chunk = some { b with id := "" }
  alone : e.2 = [.text .plain (shownChunk f s chunk)]
  clear : Undeferred f s chunk

def BindsChunks (f : Factory) (s s' : State) (parts : List String) (after : List Node) : Prop :=
  ∃ new, s'.records.bindings = s.records.bindings ++ new ∧
    ∀ b ∈ new, ∃ e ∈ elements after, ∃ chunk ∈ parts, Bears f s b chunk e

theorem bindsNone : BindsChunks f s s parts after := ⟨[], (List.append_nil _).symm, fun _ h => absurd h List.not_mem_nil⟩

theorem bindsAppend (still : Still s s₁) (h : BindsChunks f s s₁ parts after) (h' : BindsChunks f s₁ s' parts' after') :
    BindsChunks f s s' (parts ++ parts') (after ++ after') := by
  obtain ⟨page, records, rfl⟩ := still
  obtain ⟨first, same, homes⟩ := h
  obtain ⟨second, same', homes'⟩ := h'
  refine ⟨first ++ second, by rw [same', same, List.append_assoc], fun b hb => ?_⟩
  rw [elementsAppend]
  rcases List.mem_append.mp hb with hb | hb
  · obtain ⟨e, he, chunk, hc, bears⟩ := homes b hb
    exact ⟨e, List.mem_append_left _ he, chunk, List.mem_append_left _ hc, bears⟩
  · obtain ⟨e, he, chunk, hc, bears⟩ := homes' b hb
    exact ⟨e, List.mem_append_right _ he, chunk, List.mem_append_right _ hc, ⟨bears.own, bears.bound, bears.alone, bears.clear⟩⟩

theorem bindsInside (h : BindsChunks f s s' parts after) : BindsChunks f s s' parts [.element name attributes after] := by
  obtain ⟨new, same, homes⟩ := h
  refine ⟨new, same, fun b hb => ?_⟩
  obtain ⟨e, he, home⟩ := homes b hb
  exact ⟨e, elementsCons ▸ List.mem_cons_of_mem _ (List.mem_append_left _ he), home⟩

theorem bindsOne {id source : String} {signals : List String} {page : Page} {given : List Attribute}
    (own : ownId? f given = some id) (bound : bindingOf f s none chunk = some { id := "", signals, source })
    (clear : Undeferred f s chunk) : BindsChunks f s { s with page, records := { s.records with
      bindings := s.records.bindings ++ [{ id, signals, source }] } } [chunk]
      [.element name given [.text .plain (shownChunk f s chunk)]] :=
  ⟨_, rfl, List.forall_mem_singleton.mpr
    ⟨_, elementsCons ▸ List.mem_cons_self, chunk, List.mem_cons_self, own, bound, rfl, clear⟩⟩

theorem outSeparated (apart : Separate f s chunk) : ∃ c, out (settle chunk) f s = (.ok c, s) ∧
    c.literal = shownChunk f s chunk ∧ ∀ source, c.source? = some source →
      bindingOf f s none chunk = some { id := "", signals := c.signals, source } ∧ Undeferred f s chunk := by
  obtain ⟨c, settled, literal⟩ := @outShown f s chunk
  obtain ⟨c', settled', bound⟩ := outSeparate apart
  cases settled.symm.trans settled'
  refine ⟨c, settled, literal, fun source found => ⟨?_, (bound source found).2⟩⟩
  rw [bindingOf, (bound source found).1]
  rfl

theorem wrapBinds (apart : Separate f s chunk) (h : out (wrapChunk chunk) f s = (.ok n, s')) :
    BindsChunks f s s' [chunk] [n] := by
  obtain ⟨c, settled, literal, bound⟩ := outSeparated apart
  rw [wrapChunk, outBind, settled] at h
  simp only at h
  split at h
  · cases h
    exact bindsNone
  · next source composed =>
    obtain ⟨id, given, page, identified, own, _⟩ := @outIdentify f s []
    rw [outBind, identified] at h
    cases h
    rw [literal]
    exact bindsOne own (bound source composed).1 (bound source composed).2

theorem onlyBinds (apart : Separate f s chunk) (h : out (bindOnlyText name attributes chunk) f s = (.ok n, s')) :
    BindsChunks f s s' [chunk] [n] := by
  obtain ⟨c, settled, literal, bound⟩ := outSeparated apart
  rw [bindOnlyText, outBind, settled] at h
  simp only at h
  split at h
  · cases h
    exact bindsNone
  · next source composed =>
    obtain ⟨id, given, page, identified, own, _⟩ := @outIdentify f s attributes
    rw [outBind, identified] at h
    cases h
    rw [literal]
    exact bindsOne own (bound source composed).1 (bound source composed).2

theorem wrapsBind (apart : ∀ chunk ∈ parts, Separate f s chunk)
    (h : out (parts.mapM wrapChunk) f s = (.ok nodes, s')) : BindsChunks f s s' parts nodes := by
  induction parts generalizing s nodes with
  | nil =>
    cases h
    exact bindsNone
  | cons chunk rest ih =>
    simp only [List.mapM_cons, outOk] at h
    obtain ⟨n, s₁, first, others, s₂, tail, h⟩ := h
    cases h
    obtain ⟨own, later⟩ := List.forall_mem_cons.mp apart
    have still := (wrapPass own first).still
    exact bindsAppend still (wrapBinds own first) (ih (fun c hc => separateStill still (later c hc)) tail)

def chunksOfTexts (f : Factory) (s : State) (nodes : List Node) : List String := (texts nodes).flatMap (chunksIn f s)

mutual

theorem elementBinds : {n : Node} → {nodes : List Node} → {s s' : State} → Keyed f s →
    out (bindElementTexts n) f s = (.ok nodes, s') → BindsChunks f s s' (chunksOfTexts f s [n]) nodes
  | .text .plain text, nodes, s, s', keyed, h => by
    rw [bindElementTexts, outBind, outChunks] at h
    have one : chunksOfTexts f s [.text .plain text] = chunksIn f s text := List.append_nil _
    exact one ▸ wrapsBind (separateChunks keyed) h
  | .text .hidden text, _, _, _, _, h => by
    cases h
    exact bindsNone
  | .text (.aside _) text, _, _, _, _, h => by
    cases h
    exact bindsNone
  | .element name attributes children, nodes, s, s', keyed, h => by
    have inner {nodes : List Node} {s' : State} (h : out (bindTexts children) f s = (.ok nodes, s')) :=
      textsBind keyed h
    have inside : chunksOfTexts f s [.element name attributes children] = chunksOfTexts f s children := by
      rw [chunksOfTexts, texts, textsIn, texts, List.append_nil, chunksOfTexts]
    rw [inside]
    rcases onlyOrMixed children with ⟨text, rfl⟩ | mixed
    · rw [onlyText, outBind, outChunks] at h
      have apart := @separateChunks f s text keyed
      have one : chunksOfTexts f s [.text .plain text] = chunksIn f s text := List.append_nil _
      rw [one]
      simp only at h
      split at h
      · next chunk single =>
        obtain ⟨n, s₁, bound, h⟩ := outOk.mp h
        cases h
        rw [single] at apart ⊢
        exact onlyBinds (apart chunk List.mem_cons_self) bound
      · obtain ⟨parts, s₁, wrapped, h⟩ := outOk.mp h
        cases h
        exact bindsInside (wrapsBind apart wrapped)
    · rw [mixedTexts mixed] at h
      obtain ⟨parts, s₁, bound, h⟩ := outOk.mp h
      cases h
      exact bindsInside (inner bound)

theorem textsBind : {nodes nodes' : List Node} → {s s' : State} → Keyed f s →
    out (bindTexts nodes) f s = (.ok nodes', s') → BindsChunks f s s' (chunksOfTexts f s nodes) nodes'
  | [], _, _, _, _, h => by
    cases h
    exact bindsNone
  | n :: rest, nodes', s, s', keyed, h => by
    simp only [bindTexts, outOk] at h
    obtain ⟨first, s₁, head, others, s₂, tail, h⟩ := h
    cases h
    have still := (elementTextPass keyed head).still
    have later := textsBind (keyedStill still keyed) tail
    have split : chunksOfTexts f s (n :: rest) = chunksOfTexts f s [n] ++ chunksOfTexts f s rest := by
      rw [chunksOfTexts, texts, List.flatMap_append, chunksOfTexts, texts, texts, List.append_nil, chunksOfTexts]
    have same : chunksOfTexts f s₁ rest = chunksOfTexts f s rest := by
      obtain ⟨page, records, rfl⟩ := still
      rfl
    rw [split, ← same]
    exact bindsAppend still (elementBinds keyed head) later

end

structure Seat (f : Factory) (s : State) (b : Binding) (e : List Attribute × List Node) : Prop where
  own : ownId? f e.1 = some b.id
  alone : ∃ literal, e.2 = [.text .plain literal]
  clear : ∀ key ∈ textKeys f.number e.2, s.defers key = false

theorem treeBinds {tree final : List Node} (ready : Ready f s) (h : out (settleTree tree) f s = (.ok final, s')) :
    ∃ new, s'.records.bindings = s.records.bindings ++ new ∧ ∀ b ∈ new, b.attribute? = none →
      ∃ e ∈ elements final, ∃ chunk ∈ chunksOfTexts f s tree, Bears f s b chunk e := by
  simp only [settleTree, outOk] at h
  obtain ⟨first, s₁, events, second, s₂, attributes, third, s₃, bound, anchors⟩ := h
  have one := passElements (passEach passEvent) events
  have two := passElements (passEach passAttribute) attributes
  have four := passElements (fun h => passAnchor h) anchors
  obtain ⟨settles₁, alike₁⟩ := walk (eventPass f) ready events
  have still₁ := settlesStill settles₁
  obtain ⟨settles₂, alike₂⟩ := walk (attributePass f) (readyStill still₁ ready) attributes
  have still₂ := stillTrans still₁ (settlesStill settles₂)
  have keyed₂ := (readyStill still₂ ready).keyed
  obtain ⟨static, same, others⟩ := newBindings one.bindings two.bindings
  obtain ⟨new, same₃, binds⟩ := textsBind keyed₂ bound
  obtain ⟨later, same', others'⟩ := four.bindings
  refine ⟨static ++ new ++ later, ?_, fun b hb text => ?_⟩
  · rw [same', same₃, same]
    simp only [List.append_assoc]
  have mem : b ∈ new := by
    rcases List.mem_append.mp hb with hb | hb
    · exact (List.mem_append.mp hb).resolve_left fun static => others b static text
    · exact absurd text (others' b hb)
  obtain ⟨e, he, chunk, hc, bears⟩ := binds b mem
  have kept := anchorKeeps (keysApart (keyedStill (textPass keyed₂ bound).still keyed₂)) anchors e he b.id bears.own
    ⟨_, bears.alone⟩
  rw [chunksOfTexts, alikeTexts alike₂, alikeTexts alike₁] at hc
  obtain ⟨page, records, rfl⟩ := still₂
  exact ⟨e, kept, chunk, hc, bears.own, bears.bound, bears.alone, bears.clear⟩

theorem boundSeat {tree final : List Node} (ready : Ready f s) (unforged : UnforgedIn f s tree)
    (h : out (settleTree tree) f s = (.ok final, s')) :
    ∃ new, s'.records.bindings = s.records.bindings ++ new ∧ ∀ b ∈ new, b.attribute? = none →
      ∃ e ∈ elements final, Seat f s b e := by
  obtain ⟨new, same, binds⟩ := treeBinds ready h
  refine ⟨new, same, fun b hb text => ?_⟩
  obtain ⟨e, he, chunk, hc, bears⟩ := binds b hb text
  refine ⟨e, he, bears.own, ⟨_, bears.alone⟩, fun key hk => ?_⟩
  obtain ⟨text, ht, hc⟩ := List.mem_flatMap.mp hc
  have literal : textKeys f.number e.2 = placeholders f.number (shownChunk f s chunk) := by
    rw [bears.alone]
    exact List.flatMap_singleton _ _
  rw [literal] at hk
  exact bears.clear key (unforged text ht chunk hc key hk)

theorem onlyNamed {tree final : List Node} {new : List Binding} {b : Binding} {e : Element} (keyed : Keyed f s)
    (unnamed : idsOf f tree = []) (h : out (settleTree tree) f s = (.ok final, s'))
    (appended : s'.records.bindings = s.records.bindings ++ new) (mem : b ∈ new) (text : b.attribute? = none)
    (element : e ∈ elements final) (own : ownId? f e.1 = some b.id) : named b.id final = [e] := by
  obtain ⟨all, appended', _, homes⟩ := treeAlone keyed unnamed h
  obtain rfl : all = new := List.append_cancel_left (appended'.symm.trans appended)
  obtain ⟨home, named, _⟩ := homes b mem text
  have found : e ∈ Render.named b.id final := List.mem_filter.mpr ⟨element, beq_iff_eq.mpr (ownGet own)⟩
  rw [named] at found ⊢
  rw [List.mem_singleton.mp found]

theorem boundOutside {tree final : List Node} (ready : Ready f s) (unnamed : idsOf f tree = [])
    (unforged : UnforgedIn f s tree) (h : out (settleTree tree) f s = (.ok final, s')) :
    ∃ new, s'.records.bindings = s.records.bindings ++ new ∧ ∀ b ∈ new, b.attribute? = none →
      ∀ e ∈ named b.id final, Seat f s b e := by
  obtain ⟨new, appended, seats⟩ := boundSeat ready unforged h
  refine ⟨new, appended, fun b hb text => ?_⟩
  obtain ⟨e, he, seat⟩ := seats b hb text
  rw [onlyNamed ready.keyed unnamed h appended hb text he seat.own]
  exact List.forall_mem_singleton.mpr seat

end Bound

end LiveMarkup.Render
