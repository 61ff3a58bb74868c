import LiveMarkup.Proofs.Client.Script
import LiveMarkup.Proofs.Render.Agree
import LiveMarkup.Proofs.Render.Provenance
/-! Which slots are live is settled when a factory is made: no call changes the fields that handlers write, at
none of its steps. -/
namespace LiveMarkup.Render
open Analysis Client Markup

variable {f : Factory} {s s' : State}

/-- The written fields are those of the component's slots. What is pending and what is bound depends on them. -/
structure Lasting (f : Factory) (s : State) : Prop where
  written : ∀ field, field ∈ s.written ↔ ∃ r ∈ f.slots, field ∈ r.writes
  pending : ∀ l ∈ s.live, l.2.slot ∈ f.slots ∧
    (l.2.slot.isAsync = true ∨ l.2.slot.isEvent = true ∨ ∃ field ∈ l.2.slot.signals, field ∈ s.written)
  bound : ∀ b ∈ s.records.bindings, ∃ field ∈ b.signals, field ∈ s.written

theorem reactiveIff {slot : Slot} : s.isReactive slot = true ↔ ∃ field ∈ slot.signals, field ∈ s.written := by
  simp [State.isReactive]

theorem lastingSame (h : Lasting f s) (written : s'.written = s.written) (live : ∀ l ∈ s'.live, l ∈ s.live)
    (bindings : s'.records.bindings = s.records.bindings) : Lasting f s' where
  written := written ▸ h.written
  pending l hl := written ▸ h.pending l (live l hl)
  bound := by rw [written, bindings]; exact h.bound

theorem lastingWritten (h : Lasting f s) (h' : Lasting f s') {field : String} (mem : field ∈ s.written) :
    field ∈ s'.written := (h'.written field).mpr ((h.written field).mp mem)

theorem lastingNewId : Keeps (Lasting f) f newId :=
  keepsGet fun _ h => lastingSame h rfl (fun _ h => h) rfl

theorem lastingIdentify {attributes : List Attribute} : Keeps (Lasting f) f (identify attributes) := by
  refine keepsRead ?_
  simp only
  split
  · exact keepsPure
  · exact keepsBind lastingNewId fun _ => keepsPure

theorem lastingEvent (attributes : List Attribute) (a : Attribute) :
    Keeps (Lasting f) f (bindEvent attributes a) := by
  refine keepsGet fun s hs => ?_
  split
  · exact hs
  next live found =>
  split
  · exact hs
  refine keepsBind lastingIdentify (fun _ => keepsBind (keepsModify fun s' hs' => ?_) fun _ => keepsPure) s hs
  obtain ⟨l, hl, rfl⟩ := Option.map_eq_some_iff.mp found
  have known := (hs.pending l (List.mem_of_find?_eq_some hl)).1
  have same (field : String) : field ∈ distinct (s'.written ++ l.2.slot.writes) ↔ field ∈ s'.written := by
    rw [memDistinct, List.mem_append]
    exact ⟨fun h => h.elim id fun own => (hs'.written field).mpr ⟨_, known, own⟩, .inl⟩
  constructor
  · exact fun field => (same field).trans (hs'.written field)
  · simp only [same]
    exact hs'.pending
  · simp only [same]
    exact hs'.bound

theorem composedTracked {number : Nat} {text source : String}
    (composed : (compose number s text).source? = some source) :
    ∃ field ∈ (compose number s text).signals, field ∈ s.written := by
  unfold compose at composed ⊢
  simp only at composed ⊢
  split at composed
  · cases composed
  next first rest found =>
  obtain ⟨part, mem, slot⟩ := List.mem_filterMap.mp (found ▸ List.mem_cons_self)
  obtain ⟨piece, _, made⟩ := List.mem_filterMap.mp mem
  obtain ⟨_, live, _, _, reactive, rfl, _⟩ := partReactive made slot
  obtain ⟨field, read, written⟩ := reactiveIff.mp (Option.filter_eq_some_iff.mp reactive).2
  refine ⟨field, ?_, written⟩
  simp only [apply_ite Composed.signals, ite_self]
  exact memDistinct.mpr (List.mem_flatMap.mpr ⟨_, List.mem_cons_self, read⟩)

theorem lastingBinding {b : Binding} (h : Lasting f s) (tracked : ∃ field ∈ b.signals, field ∈ s.written) :
    Keeps (Lasting f) f (addBinding b) := by
  refine keepsModify fun s' h' => ⟨h'.written, h'.pending, forallAppended h'.bound ?_⟩
  obtain ⟨field, read, written⟩ := tracked
  exact ⟨field, read, lastingWritten h h' written⟩

theorem lastingAttribute (attributes : List Attribute) (a : Attribute) :
    Keeps (Lasting f) f (bindAttribute attributes a) := by
  refine keepsRead ?_
  split
  · exact keepsPure
  refine keepsGet fun s hs => ?_
  simp only
  split
  · exact hs
  · next source composed =>
    exact keepsBind lastingIdentify
      (fun _ => keepsBind (lastingBinding hs (composedTracked composed)) fun _ => keepsPure) s hs

theorem settleTracked {chunk : String} : ∃ c, out (settle chunk) f s = (.ok c, s) ∧
    ∀ source, c.source? = some source → ∃ field ∈ c.signals, field ∈ s.written := by
  rcases @outSettle f s chunk with ⟨settled, _⟩ | settled
  · exact ⟨_, settled, fun _ => composedTracked⟩
  · exact ⟨_, settled, fun _ none => nomatch none⟩

theorem lastingWrap (chunk : String) : Keeps (Lasting f) f (wrapChunk chunk) := by
  intro s hs
  obtain ⟨c, settled, tracked⟩ := @settleTracked f s chunk
  rw [wrapChunk, outBind, settled]
  simp only
  split
  · exact hs
  · next source composed =>
    exact keepsBind lastingIdentify
      (fun _ => keepsBind (lastingBinding hs (tracked source composed)) fun _ => keepsPure) s hs

theorem lastingOnly (name : String) (attributes : List Attribute) (chunk : String) :
    Keeps (Lasting f) f (bindOnlyText name attributes chunk) := by
  intro s hs
  obtain ⟨c, settled, tracked⟩ := @settleTracked f s chunk
  rw [bindOnlyText, outBind, settled]
  simp only
  split
  · exact hs
  · next source composed =>
    exact keepsBind lastingIdentify
      (fun _ => keepsBind (lastingBinding hs (tracked source composed)) fun _ => keepsPure) s hs

theorem lastingAnchor (attributes : List Attribute) : Keeps (Lasting f) f (bindAnchor attributes) := by
  refine keepsGet fun s hs => ?_
  split
  · exact hs
  · refine keepsBind lastingNewId (fun _ => keepsBind (keepsModify fun s' hs' => ?_) fun _ => keepsPure) s hs
    exact ⟨hs'.written, hs'.pending, hs'.bound⟩

theorem lastingTree {tree : List Node} : Keeps (Lasting f) f (settleTree tree) :=
  keepsTree lastingEvent lastingAttribute (keepsTexts lastingWrap lastingOnly) lastingAnchor

theorem lastingLive {markup : String} : Keeps (Lasting f) f (settleLive markup) :=
  keepsLive (fun _ => lastingTree) fun _ h => lastingSame h rfl (fun _ h => absurd h List.not_mem_nil) rfl

theorem lastingDefer (content : Deferred) : Keeps (Lasting f) f (defer content) := by
  intro s h
  rw [outDefer]
  exact lastingSame h rfl (fun _ h => h) rfl

theorem lastingMark (v : Value) (slot : Slot) (s : State) (known : slot ∈ f.slots)
    (live : s.isLive slot = true) (h : Lasting f s) : Lasting f (out (mark v slot) f s).2 := by
  cases translatable : slot.translatable with
  | false =>
    rw [mark, outBind, outRead]
    simp only [translatable, Bool.not_false, if_true]
    exact h
  | true =>
    rw [outMark translatable]
    refine ⟨h.written, forallAppended h.pending ⟨known, ?_⟩, h.bound⟩
    have reasons : slot.isAsync = true ∨ slot.isEvent = true ∨
        (slot.isFunction = false ∧ s.isReactive slot = true) := by
      simpa [State.isLive, or_assoc] using live
    exact reasons.imp id (Or.imp id fun reads => reactiveIff.mp reads.2)

theorem lastingFilled {template : String} {values : List Value} {line : Int} :
    Keeps (Lasting f) f (filled template values line) := keepsFilledLive lastingDefer lastingMark

theorem lastingTaken (key : String) : Keeps (Lasting f) f (takeDeferred? key) := by
  refine keepsGet fun s hs => ?_
  split
  · exact hs
  · exact lastingSame hs rfl (fun _ h => h) rfl

theorem lastingNested {nested : Nested} (c : Component) : Keeps (Lasting f) f (renderNested nested c) := by
  refine keepsGet fun s hs => ?_
  have after (page : Page) : Lasting f { s with page } := lastingSame hs rfl (fun _ h => h) rfl
  rcases (nested c).run s.page with ⟨_ | _, page⟩
  · exact after page
  · exact after page

theorem lastingCall {nested : Nested} {template : String} {values : List Value} {line : Int} :
    Keeps (Lasting f) f (call nested template values line) :=
  keepsCall lastingFilled (fun _ => lastingLive) fun _ => keepsFinished lastingTaken lastingNested

theorem lastingReached (h : Reached f s) : Lasting f s := by
  induction h with
  | start made =>
    obtain ⟨_, _, _, rfl⟩ := newFactoryOk made
    constructor
    · exact fun field => memDistinct.trans List.mem_flatMap
    · exact fun _ h => absurd h List.not_mem_nil
    · exact fun _ h => absurd h List.not_mem_nil
  | call nested template values line _ ih => exact lastingCall _ ih
  | elsewhere page trace _ ih => exact lastingSame ih rfl (fun _ h => h) rfl

theorem liveAlike {slot : Slot} (h : Lasting f s) (h' : Lasting f s') : s'.isLive slot = s.isLive slot := by
  have reactive : s'.isReactive slot = s.isReactive slot := by
    rw [Bool.eq_iff_iff, reactiveIff, reactiveIff]
    exact exists_congr fun field => and_congr_right fun _ => (h'.written field).trans (h.written field).symm
  rw [State.isLive, State.isLive, reactive]

/-- Between any two calls and at every step of one, the written fields are the ones that the slots write.
What is pending is live, what is bound reads such a field, and a slot that is live once is live always. -/
theorem livenessLasts (h : Reached f s) :
    Lasting f s ∧
      (∀ template values line, Lasting f (out (filled template values line) f s).2) ∧
      (∀ template values line tree, Lasting f (out (do
        let _ ← filled template values line
        onAllElements (eachAttribute bindEvent) tree) f s).2) ∧
      (∀ template values line tree, Lasting f (out (do
        let _ ← filled template values line
        settleTree tree) f s).2) ∧
      ∀ s' slot, Reached f s' → s'.isLive slot = s.isLive slot := by
  have lasting := lastingReached h
  refine ⟨lasting, fun _ _ _ => lastingFilled s lasting, fun _ _ _ tree => ?_, fun _ _ _ _ => ?_, ?_⟩
  · have events : Keeps (Lasting f) f (onAllElements (eachAttribute bindEvent) tree) :=
      keepsAllElements (fun attributes => keepsFold lastingEvent attributes attributes) tree
    exact keepsBind lastingFilled (fun _ => events) s lasting
  · exact keepsBind lastingFilled (fun _ => lastingTree) s lasting
  · exact fun s' slot h' => liveAlike lasting (lastingReached h')

theorem counterLasts : Reached counterFactory counterState ∧
    ∀ s', Reached counterFactory s' → counterSlots.map s'.isLive = [true, true] := by
  refine ⟨counterStarted, fun s' h' => ?_⟩
  have same (slot : Slot) := (livenessLasts counterStarted).2.2.2.2 s' slot h'
  rw [funext same]
  decide +kernel

end LiveMarkup.Render
