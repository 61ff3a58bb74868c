import LiveMarkup.Proofs.Render.Ends
/-! Which live slots of a call its records account for: those whose placeholders stand in the parsed tree
where the passes look for them. A placeholder that the reader of the markup drops, or that stands beside
other text where only a whole value counts, is lost without an error. -/
namespace LiveMarkup.Render
open Analysis Client Markup

variable {f : Factory} {s s₁ s' : State} {tree : List Node} {marked : List (String × Live)}

section Keys

def eventKeys (s : State) (tree : List Node) : List String :=
  (elements tree).flatMap fun e => (e.1.filter fun a => (eventAt s a).isSome).map (·.value)

def anchorKeys (f : Factory) (s : State) (tree : List Node) : List String :=
  ((elements tree).filter fun e => !claimed f s e && (liveAt s e.1).isSome).map fun e =>
    (Attribute.get? e.1 idAttribute).getD ""

def boundTexts (f : Factory) (s : State) (tree : List Node) : List (Option String × String) :=
  ((elements tree).flatMap fun e =>
      ((unhandled s e.1).filter fun a => (bindingAt f s a).isSome).map fun a => (some a.name, a.value)) ++
    (texts tree).flatMap fun text =>
      ((chunksIn f s text).filter fun chunk => (bindingOf f s none chunk).isSome).map fun chunk => (none, chunk)

def bindingFor (f : Factory) (s : State) (p : Option String × String) : Option Binding := bindingOf f s p.1 p.2

def reactiveKeys (f : Factory) (s : State) (text : String) : List String :=
  (placeholders f.number text).filter fun key => (s.live? key).any fun live => s.isReactive live.slot

def isValue (l : String × Live) : Bool := !l.2.slot.isEvent && !l.2.slot.isAsync

/-- Every live slot that a call marked stands once in its place. -/
structure InPlace (f : Factory) (s : State) (marked : List (String × Live)) (tree : List Node) : Prop where
  events : (eventKeys s tree).Perm ((marked.filter (·.2.slot.isEvent)).map (·.1))
  anchors : (anchorKeys f s tree).Perm ((marked.filter (·.2.slot.isAsync)).map (·.1))
  values : ((boundTexts f s tree).flatMap fun p => reactiveKeys f s p.2).Perm ((marked.filter isValue).map (·.1))

end Keys

section Contents

abbrev HandlerContent := String × List String × List String × List String

def Handler.content (h : Handler) : HandlerContent := (h.source, h.writes, h.params, h.signals)

def handlerContent (live : Live) : HandlerContent :=
  (live.slot.bodySource.getD "", live.slot.writes, live.slot.params, live.slot.signals)

abbrev ChainContent := String × String × Option String × List String

def AsyncBinding.content (a : AsyncBinding) : ChainContent :=
  (a.promise, a.thenCallback, a.catchCallback?, a.fields)

def chainContent (live : Live) : ChainContent :=
  (live.slot.promiseSource.getD "", live.slot.thenCallback.getD "", live.slot.catchCallback, live.slot.reads)

def Reads (b : Binding) (live : Live) : Prop :=
  live.slot.source.toList <:+: b.source.toList ∧ ∀ field ∈ live.slot.signals, field ∈ b.signals

/-- The records account for every live slot: an event has one handler, a promise chain one record, and any
other slot is read by the code of one binding. -/
structure Accounted (marked : List (String × Live)) (r : Records) : Prop where
  handlers : (r.handlers.map Handler.content).Perm
    ((marked.filter (·.2.slot.isEvent)).map fun l => handlerContent l.2)
  chains : (r.asyncBindings.map AsyncBinding.content).Perm
    ((marked.filter (·.2.slot.isAsync)).map fun l => chainContent l.2)
  bindings : ∃ groups : List (Binding × List Live), groups.map (·.1) = r.bindings ∧
    (∀ p ∈ groups, ∀ live ∈ p.2, Reads p.1 live) ∧
    (groups.flatMap (·.2)).Perm ((marked.filter isValue).map (·.2))

end Contents

section Lookup

def lookUp {β : Type} (s : State) (g : Live → β) (key : String) : Option β := (s.live? key).map g

theorem liveOnce {l : String × Live} (once : KeysOnce s) (mem : l ∈ s.live) : s.live? l.1 = some l.2 := by
  unfold KeysOnce at once
  rw [State.live?]
  generalize s.live = live at once mem
  induction live with
  | nil => exact absurd mem List.not_mem_nil
  | cons first rest ih =>
    rw [List.map_cons, List.nodup_cons] at once
    rcases List.mem_cons.mp mem with rfl | mem
    · rw [List.find?_cons_of_pos (by simp)]
      rfl
    · have other : (first.1 == l.1) = false := by
        rw [beq_eq_false_iff_ne]
        exact fun same => once.1 (List.mem_map.mpr ⟨l, mem, same.symm⟩)
      rw [List.find?_cons, other]
      exact ih once.2 mem

theorem lookedUp {β : Type} {g : Live → β} (once : KeysOnce s) (within : ∀ l ∈ marked, l ∈ s.live) :
    (marked.map (·.1)).filterMap (lookUp s g) = marked.map fun l => g l.2 := by
  induction marked with
  | nil => rfl
  | cons l rest ih =>
    have found : lookUp s g l.1 = some (g l.2) := by
      rw [lookUp, liveOnce once (within l List.mem_cons_self), Option.map_some]
    rw [List.map_cons, List.filterMap_cons_some found, List.map_cons,
      ih fun l hl => within l (List.mem_cons_of_mem _ hl)]

theorem eventFound {g : Live → HandlerContent} {attributes : List Attribute} :
    ((attributes.filter fun a => (eventAt s a).isSome).map (·.value)).filterMap (lookUp s g) =
      attributes.filterMap fun a => (eventAt s a).map g := by
  induction attributes with
  | nil => rfl
  | cons a rest ih =>
    cases found : eventAt s a with
    | none =>
      rw [List.filter_cons_of_neg (by simp [found]), ih, List.filterMap_cons_none (by rw [found]; rfl)]
    | some live =>
      have same : lookUp s g a.value = some (g live) := by
        rw [lookUp, (Option.filter_eq_some_iff.mp found).1, Option.map_some]
      rw [List.filter_cons_of_pos (by simp [found]), List.map_cons, List.filterMap_cons_some same, ih,
        List.filterMap_cons_some (by rw [found]; rfl)]

theorem handlersFound : (placed f s tree).handlers.map Handler.content =
    (eventKeys s tree).filterMap (lookUp s handlerContent) := by
  rw [placed, eventKeys, List.map_flatMap, List.filterMap_flatMap]
  refine congrArg (List.flatMap · (elements tree)) (funext fun e => ?_)
  rw [eventFound, List.map_filterMap]
  refine congrArg (List.filterMap · e.1) (funext fun a => ?_)
  rw [handlerAt, Option.map_map]
  rfl

theorem chainsFound : (placed f s tree).asyncBindings.map AsyncBinding.content =
    (anchorKeys f s tree).filterMap (lookUp s chainContent) := by
  rw [placed, anchorKeys]
  generalize elements tree = es
  induction es with
  | nil => rfl
  | cons e rest ih =>
    simp only at ih ⊢
    cases claim : claimed f s e with
    | true =>
      have none : chainAt f s e = none := by rw [chainAt, if_pos claim]
      rw [List.filterMap_cons_none none, ih, List.filter_cons_of_neg (by simp [claim])]
    | false =>
      cases live : liveAt s e.1 with
      | none =>
        have none : chainAt f s e = none := by rw [chainAt, claim, live]; rfl
        rw [List.filterMap_cons_none none, ih, List.filter_cons_of_neg (by simp [live])]
      | some l =>
        have made : chainAt f s e = some (chainOf l.slot) := by rw [chainAt, claim, live]; rfl
        have found : lookUp s chainContent ((Attribute.get? e.1 idAttribute).getD "") = some (chainContent l) := by
          rw [lookUp, ← liveAt, live, Option.map_some]
        rw [List.filterMap_cons_some made, List.map_cons, ih, List.filter_cons_of_pos (by simp [claim, live]),
          List.map_cons, List.filterMap_cons_some found]
        rfl

theorem bindingsFound : (placed f s tree).bindings = (boundTexts f s tree).filterMap (bindingFor f s) := by
  have some {α : Type} (items : List α) (name : α → Option String) (text : α → String) (g : α → Option Binding)
      (same : ∀ a ∈ items, (g a).isSome → g a = bindingOf f s (name a) (text a)) :
      items.filterMap g =
        ((items.filter fun a => (g a).isSome).map fun a => (name a, text a)).filterMap (bindingFor f s) := by
    induction items with
    | nil => rfl
    | cons a rest ih =>
      have later := ih fun b hb => same b (List.mem_cons_of_mem _ hb)
      cases made : g a with
      | none => rw [List.filterMap_cons_none made, List.filter_cons_of_neg (by simp [made]), later]
      | some b =>
        have is : bindingFor f s (name a, text a) = .some b :=
          (same a List.mem_cons_self (by rw [made]; rfl)).symm.trans made
        rw [List.filterMap_cons_some made, List.filter_cons_of_pos (by simp [made]), List.map_cons,
          List.filterMap_cons_some is, later]
  rw [placed, boundTexts, List.filterMap_append, List.filterMap_flatMap, List.filterMap_flatMap]
  refine congr (congrArg (· ++ ·) (congrArg (List.flatMap · (elements tree)) (funext fun e => ?_)))
    (congrArg (List.flatMap · (texts tree)) (funext fun text => ?_))
  · refine some _ (fun a => .some a.name) (·.value) (bindingAt f s) fun a _ bound => ?_
    rw [bindingAt] at bound ⊢
    split at bound
    · cases bound
    · next other => rw [if_neg other]
  · exact some _ (fun _ => none) id (bindingOf f s none) fun _ _ _ => rfl

end Lookup

section Groups

variable {text : String} {live : Live}

theorem joinedWithin {source : String} {sources : List String} (mem : source ∈ sources) :
    source.toList <:+: (joinSources sources).toList := by
  have inside : source.toList <:+: (" + ".intercalate sources).toList := by
    induction sources with
    | nil => exact absurd mem List.not_mem_nil
    | cons first rest ih =>
      cases rest with
      | nil =>
        obtain rfl := List.mem_singleton.mp mem
        have same : " + ".intercalate [source] = source := String.intercalate_singleton
        exact same.symm ▸ List.infix_rfl
      | cons second rest =>
        rw [String.intercalate_cons_cons, String.toList_append, String.toList_append]
        rcases List.mem_cons.mp mem with rfl | mem
        · exact (List.prefix_append _ _).isInfix.trans (List.prefix_append _ _).isInfix
        · exact (ih mem).trans (List.suffix_append _ _).isInfix
  unfold joinSources
  simp only
  split
  · exact inside
  · rw [String.toList_append]
    exact inside.trans (List.suffix_append _ _).isInfix

theorem reactivePart (mem : live ∈ reactiveIn f.number s text) :
    ∃ p ∈ partsIn f.number s text, p.reactive? = some live.slot ∧ p.source = "(" ++ live.slot.source ++ ")" := by
  obtain ⟨piece, hp, found⟩ := List.mem_filterMap.mp mem
  obtain ⟨at', changes⟩ := Option.filter_eq_some_iff.mp found
  have part : partOf s piece = some ⟨clientText live.value, "(" ++ live.slot.source ++ ")", some live.slot⟩ := by
    rw [partOf, at']
    simp only [if_pos changes]
  exact ⟨_, List.mem_filterMap.mpr ⟨piece, hp, part⟩, rfl, rfl⟩

theorem composedSignals (composed : (compose f.number s text).source?.isSome) :
    (compose f.number s text).signals = distinct (((partsIn f.number s text).filterMap (·.reactive?)).flatMap (·.signals)) := by
  unfold compose at composed ⊢
  rw [← partsIn] at composed ⊢
  simp only at composed ⊢
  split
  · next none =>
    rw [none] at composed
    cases composed
  · next first rest found =>
    rw [found]
    split <;> rfl

theorem boundReads {name? : Option String} {b : Binding} (made : bindingOf f s name? text = some b)
    (mem : live ∈ reactiveIn f.number s text) : Reads b live := by
  obtain ⟨source, composed, rfl⟩ := Option.map_eq_some_iff.mp made
  obtain ⟨p, hp, reactive, written⟩ := reactivePart mem
  constructor
  · rcases composedForms composed with ⟨p', r, one, alone, rfl⟩ | ⟨_, rfl⟩
    · obtain rfl := List.mem_singleton.mp (one ▸ hp)
      cases reactive.symm.trans alone
      exact List.infix_rfl
    · have inside := joinedWithin (List.mem_map.mpr ⟨p, hp, written⟩)
      rw [String.toList_append, String.toList_append] at inside
      exact ((List.suffix_append _ _).isInfix.trans (List.prefix_append _ _).isInfix).trans inside
  · intro field hf
    show field ∈ (compose f.number s text).signals
    rw [composedSignals (by rw [composed]; rfl)]
    exact memDistinct.mpr (List.mem_flatMap.mpr ⟨_, List.mem_filterMap.mpr ⟨p, hp, reactive⟩, hf⟩)

theorem grouped {bindings : List Binding} {bound : List (Option String × String)}
    (all : ∀ p ∈ bound, (bindingFor f s p).isSome)
    (same : bindings.map (fun b => { b with id := "" }) = bound.filterMap (bindingFor f s)) :
    ∃ groups : List (Binding × List Live), groups.map (·.1) = bindings ∧
      (∀ p ∈ groups, ∀ live ∈ p.2, Reads p.1 live) ∧
      groups.flatMap (·.2) = bound.flatMap fun p => reactiveIn f.number s p.2 := by
  induction bound generalizing bindings with
  | nil =>
    obtain rfl := List.map_eq_nil_iff.mp same
    exact ⟨[], rfl, fun _ h => absurd h List.not_mem_nil, rfl⟩
  | cons p rest ih =>
    obtain ⟨made, is⟩ := Option.isSome_iff_exists.mp (all p List.mem_cons_self)
    rw [List.filterMap_cons_some is] at same
    obtain ⟨b, others, rfl, named, later⟩ := List.map_eq_cons_iff.mp same
    obtain ⟨groups, binds, reads, flat⟩ := ih (fun p hp => all p (List.mem_cons_of_mem _ hp)) later
    refine ⟨(b, reactiveIn f.number s p.2) :: groups, by rw [List.map_cons, binds], ?_, ?_⟩
    · refine List.forall_mem_cons.mpr ⟨fun live mem => ?_, reads⟩
      have read := boundReads is mem
      rw [← named] at read
      exact ⟨read.1, read.2⟩
    · rw [List.flatMap_cons, List.flatMap_cons, flat]

theorem reactiveFound : (reactiveKeys f s text).filterMap (lookUp s id) = reactiveIn f.number s text := by
  rw [reactiveKeys, placeholders, reactiveIn]
  generalize Piece.split f.number text = pieces
  induction pieces with
  | nil => rfl
  | cons piece rest ih =>
    cases piece with
    | plain text => exact ih
    | placeholder key =>
      have bound : reactiveAt s (.placeholder key) = (s.live? key).filter fun live => s.isReactive live.slot := rfl
      rw [List.filterMap_cons_some (show Piece.key? (.placeholder key) = some key from rfl)]
      cases live : s.live? key with
      | none =>
        rw [List.filter_cons_of_neg (by simp [live]), ih, List.filterMap_cons_none (by rw [bound, live]; rfl)]
      | some l =>
        cases changes : s.isReactive l.slot with
        | false =>
          rw [List.filter_cons_of_neg (by simp [live, changes]), ih,
            List.filterMap_cons_none (by rw [bound, live, Option.filter_some, if_neg (by simp [changes])])]
        | true =>
          have found : lookUp s id key = some l := by rw [lookUp, live]; rfl
          rw [List.filter_cons_of_pos (by simp [live, changes]), List.filterMap_cons_some found, ih,
            List.filterMap_cons_some (by rw [bound, live, Option.filter_some, if_pos changes])]

end Groups

section Calls

variable {nested : Nested} {template : String} {values : List Value} {line : Int} {v : Value} {new : Records}

theorem allBound : ∀ p ∈ boundTexts f s tree, (bindingFor f s p).isSome := by
  refine List.forall_mem_append.mpr ⟨fun p hp => ?_, fun p hp => ?_⟩
  · obtain ⟨e, _, hp⟩ := List.mem_flatMap.mp hp
    obtain ⟨a, ha, rfl⟩ := List.mem_map.mp hp
    have bound := (List.mem_filter.mp ha).2
    rw [bindingAt] at bound
    split at bound
    · cases bound
    · exact bound
  · obtain ⟨text, _, hp⟩ := List.mem_flatMap.mp hp
    obtain ⟨chunk, hc, rfl⟩ := List.mem_map.mp hp
    exact (List.mem_filter.mp hc).2

theorem accountedFor (once : KeysOnce s) (within : ∀ l ∈ marked, l ∈ s.live) (is : new.unnamed = placed f s tree)
    (inPlace : InPlace f s marked tree) : Accounted marked new where
  handlers := by
    have same : new.handlers.map Handler.content = new.unnamed.handlers.map Handler.content := by
      rw [Records.unnamed, List.map_map]
      rfl
    rw [same, is, handlersFound,
      ← lookedUp once fun l hl => within l (List.mem_filter.mp hl).1]
    exact inPlace.events.filterMap _
  chains := by
    have same : new.asyncBindings.map AsyncBinding.content = new.unnamed.asyncBindings.map AsyncBinding.content := by
      rw [Records.unnamed, List.map_map]
      rfl
    rw [same, is, chainsFound, ← lookedUp once fun l hl => within l (List.mem_filter.mp hl).1]
    exact inPlace.anchors.filterMap _
  bindings := by
    have same : new.bindings.map (fun b => { b with id := "" }) = (boundTexts f s tree).filterMap (bindingFor f s) := by
      rw [← bindingsFound, ← is, Records.unnamed]
    obtain ⟨groups, binds, reads, flat⟩ := grouped allBound same
    refine ⟨groups, binds, reads, ?_⟩
    have found : (boundTexts f s tree).flatMap (fun p => reactiveIn f.number s p.2) =
        ((boundTexts f s tree).flatMap fun p => reactiveKeys f s p.2).filterMap (lookUp s id) := by
      rw [List.filterMap_flatMap]
      exact congrArg (List.flatMap · _) (funext fun p => reactiveFound.symm)
    have live : (marked.filter isValue).map (·.2) = ((marked.filter isValue).map (·.1)).filterMap (lookUp s id) :=
      (@lookedUp s (marked.filter isValue) Live id once fun l hl => within l (List.mem_filter.mp hl).1).symm
    rw [flat, found, live]
    exact inPlace.values.filterMap _

/-- What a successful call appends to the records: a record for every place of its parsed markup where the
placeholder of a live slot is recognized. They account for all slots that the call marked if each stands
once in its place. -/
theorem slotsAccounted (reached : Reached f s) (done : out (call nested template values line) f s = (.ok v, s')) :
    ∃ markup s₁ marked new, out (filled template values line) f s = (.ok markup, s₁) ∧ Fills f s s₁ marked ∧
      s'.records = s.records ++ new ∧
      (marked = [] ∧ new = {} ∨ ∃ tree final s₂, Settling f s₁ markup tree final s₂ ∧
        leftIn f s₂ (writeTree final) = [] ∧ new.unnamed = placed f s₁ tree ∧
        (InPlace f s₁ marked tree → Accounted marked new)) := by
  cases callSucceeds done with
  | @still markup s₁ filling none _ last =>
    obtain ⟨_, _, marked, fills⟩ := readyFilled reached filling
    obtain ⟨next, put, rfl⟩ := fills.same
    obtain ⟨_, rfl⟩ := List.append_eq_nil_iff.mp none
    exact ⟨markup, _, [], {}, filling, fills, last.trans Records.appendNone.symm, .inl ⟨rfl, rfl⟩⟩
  | @settled markup s₁ tree final s₂ filling settling left _ last =>
    obtain ⟨ready, once, marked, fills⟩ := readyFilled reached filling
    obtain ⟨new, change⟩ := treePlaced ready settling.settled
    have within : ∀ l ∈ marked, l ∈ s₁.live := by
      obtain ⟨next, put, rfl⟩ := fills.same
      exact fun l hl => List.mem_append_right _ hl
    refine ⟨markup, s₁, marked, new, filling, fills, ?_, .inr ⟨tree, final, s₂, settling, left, change.gained,
      accountedFor once within change.gained⟩⟩
    rw [last, change.same]
    obtain ⟨next, put, rfl⟩ := fills.same
    rfl

end Calls

def placesOf (template : String) (values : List Value) (line : Int) (f : Factory) (s : State) :
    Option (List (List String) × List (List String)) :=
  match out (filled template values line) f s with
  | (.error _, _) => none
  | (.ok markup, s₁) =>
    match readTree markup with
    | .error _ => none
    | .ok tree =>
      let marked := s₁.live.drop s.live.length
      some ([eventKeys s₁ tree, anchorKeys f s₁ tree, (boundTexts f s₁ tree).flatMap fun p => reactiveKeys f s₁ p.2],
        [(marked.filter (·.2.slot.isEvent)).map (·.1), (marked.filter (·.2.slot.isAsync)).map (·.1),
          (marked.filter isValue).map (·.1)])

theorem placesSame {template : String} {values : List Value} {line : Int} {markup : String} {places : List (List String)}
    (h : placesOf template values line f s = some (places, places))
    (filling : out (filled template values line) f s = (.ok markup, s₁)) (fills : Fills f s s₁ marked)
    (read : readTree markup = .ok tree) : InPlace f s₁ marked tree := by
  have same : s₁.live.drop s.live.length = marked := by
    obtain ⟨next, put, rfl⟩ := fills.same
    exact List.drop_left
  rw [placesOf, filling] at h
  simp only [read, same] at h
  obtain ⟨rfl, is⟩ := Prod.mk.inj (Option.some.inj h)
  simp only [List.cons.injEq, and_true] at is
  obtain ⟨events, anchors, values⟩ := is
  exact ⟨.of_eq events.symm, .of_eq anchors.symm, .of_eq values.symm⟩

theorem counterAccounted :
    ∃ f s v s' marked new, Reached f s ∧ out counterCall f s = (.ok v, s') ∧ s'.records = s.records ++ new ∧
      marked.length = 2 ∧ Accounted marked new := by
  let keys : List (List String) := [["__zinc_00000000_0__"], [], ["__zinc_00000000_1__"]]
  obtain ⟨ok, two, places⟩ : (out counterCall counterFactory counterState).1.isOk = true ∧
      (out (filled counterTemplate counterValues 2) counterFactory counterState).2.live.length = 2 ∧
      placesOf counterTemplate counterValues 2 counterFactory counterState = some (keys, keys) := by decide +kernel
  obtain ⟨v, called⟩ := okValue ok
  -- The end state gets a name of its own, so that no later step unfolds the run.
  obtain ⟨s', ended⟩ : ∃ s', (out counterCall counterFactory counterState).2 = s' := ⟨_, rfl⟩
  have done : out counterCall counterFactory counterState = (.ok v, s') := Prod.ext called ended
  obtain ⟨markup, s₁, marked, new, filling, fills, records, rest⟩ := slotsAccounted counterStarted done
  rw [filling] at two
  have length : marked.length = 2 := by
    obtain ⟨next, put, rfl⟩ := fills.same
    exact two
  rcases rest with ⟨rfl, _⟩ | ⟨tree, final, s₂, settling, _, _, accounted⟩
  · cases length
  · exact ⟨_, _, v, s', marked, new, counterStarted, done, records, length,
      accounted (placesSame places filling fills settling.read)⟩

section Lost

def scriptTemplate : String := "<script>let x = \x7b\x7d"

def besideTemplate : String := "<b onclick=\"\x7b\x7d; f()\"></b>"

def lost : Component :=
  .mk "Lost" [("n", .whole 1)]
    (some ("def render(self, ctx):\n    ctx.html('" ++ scriptTemplate ++ "', self.n)\n    return ctx.html('" ++
      besideTemplate ++ "', lambda: setattr(self, 'n', 2))\n"))
    1 "lost.py" [] none

def lostSlots : List Slot :=
  [{ signals := ["n"], source := "this.n", expression := "self.n", template := scriptTemplate, line := 2 },
   { signals := ["n"], writes := ["n"], isFunction := true, isEvent := true, eventName := some "onclick",
     source := "() => this.n = 2", bodySource := some "this.n = 2",
     expression := "lambda: setattr(self, 'n', 2)", template := besideTemplate, line := 3 }]

abbrev lostFactory : Factory := factoryOf lost lostSlots

abbrev lostState : State := startOf lost lostSlots

def scriptCall : Rendering Value := call (fun _ => return "") scriptTemplate [.whole 1] 2

def besideCall : Rendering Value := call (fun _ => return "") besideTemplate [.object "function"] 3

theorem accountedEvents {r : Records} (h : Accounted marked r) (none : r.handlers = []) :
    marked.filter (·.2.slot.isEvent) = [] := by
  have same := h.handlers
  rw [none] at same
  exact List.map_eq_nil_iff.mp (List.nil_perm.mp same)

theorem accountedValues {r : Records} (h : Accounted marked r) (none : r.bindings = []) :
    marked.filter isValue = [] := by
  obtain ⟨groups, binds, _, same⟩ := h.bindings
  rw [none] at binds
  rw [List.map_eq_nil_iff.mp binds] at same
  exact List.map_eq_nil_iff.mp (List.nil_perm.mp same)

/-- A call succeeds, although the records do not account for a slot that it marked: one whose placeholder
the reader of the markup drops, or an event whose placeholder is only a part of its attribute. -/
theorem slotsLost :
    ∃ f s, Reached f s ∧ s.live = [] ∧ s.records = {} ∧
      (∃ v s' s₁, out scriptCall f s = (.ok v, s') ∧ (out (filled scriptTemplate [.whole 1] 2) f s).2 = s₁ ∧
        s₁.live.length = 1 ∧ s'.records = {} ∧ ¬Accounted s₁.live s'.records) ∧
      ∃ v s' s₁, out besideCall f s = (.ok v, s') ∧
        (out (filled besideTemplate [.object "function"] 3) f s).2 = s₁ ∧
        s₁.live.length = 1 ∧ s'.records.handlers = [] ∧ ¬Accounted s₁.live s'.records := by
  have started : Reached lostFactory lostState :=
    startedOf (slotsListed rfl
      (listedAppend (listedAppend (listedAppend (listedAppend (listedText rfl) rfl) rfl) rfl) rfl)
      rfl (by decide +kernel))
  refine ⟨lostFactory, lostState, started, rfl, rfl, ?_, ?_⟩
  · obtain ⟨ok, nothing, one⟩ : (out scriptCall lostFactory lostState).1.isOk = true ∧
        (out scriptCall lostFactory lostState).2.records = {} ∧
        (out (filled scriptTemplate [.whole 1] 2) lostFactory lostState).2.live.map (fun l => isValue l) = [true] := by
      decide +kernel
    obtain ⟨v, called⟩ := okValue ok
    obtain ⟨s', ended⟩ : ∃ s', (out scriptCall lostFactory lostState).2 = s' := ⟨_, rfl⟩
    obtain ⟨s₁, filled⟩ : ∃ s₁, (out (filled scriptTemplate [.whole 1] 2) lostFactory lostState).2 = s₁ := ⟨_, rfl⟩
    rw [ended] at nothing
    rw [filled] at one
    obtain ⟨l, alone, value⟩ := List.map_eq_singleton_iff.mp one
    refine ⟨v, s', s₁, Prod.ext called ended, filled, by rw [alone]; rfl, nothing, fun accounted => ?_⟩
    have none := accountedValues accounted (by rw [nothing])
    rw [alone, List.filter_cons_of_pos value] at none
    cases none
  · obtain ⟨ok, nothing, one⟩ : (out besideCall lostFactory lostState).1.isOk = true ∧
        (out besideCall lostFactory lostState).2.records.handlers = [] ∧
        (out (filled besideTemplate [.object "function"] 3) lostFactory lostState).2.live.map
          (fun l => l.2.slot.isEvent) = [true] := by decide +kernel
    obtain ⟨v, called⟩ := okValue ok
    obtain ⟨s', ended⟩ : ∃ s', (out besideCall lostFactory lostState).2 = s' := ⟨_, rfl⟩
    obtain ⟨s₁, filled⟩ : ∃ s₁, (out (filled besideTemplate [.object "function"] 3) lostFactory lostState).2 = s₁ :=
      ⟨_, rfl⟩
    rw [ended] at nothing
    rw [filled] at one
    obtain ⟨l, alone, event⟩ := List.map_eq_singleton_iff.mp one
    refine ⟨v, s', s₁, Prod.ext called ended, filled, by rw [alone]; rfl, nothing, fun accounted => ?_⟩
    have none := accountedEvents accounted nothing
    have kept : [l].filter (·.2.slot.isEvent) = [l] := List.filter_cons_of_pos event
    rw [alone, kept] at none
    cases none

end Lost

end LiveMarkup.Render
