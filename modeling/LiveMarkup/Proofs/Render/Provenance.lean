import LiveMarkup.Proofs.Analysis.Listed
import LiveMarkup.Proofs.Analysis.Slot
import LiveMarkup.Proofs.Render.Pieces
import LiveMarkup.Proofs.Render.Walk
/-! Where the records of a factory come from: every one is made from slots of its own analysis, on
whatever calls it serves and however they end. -/
namespace LiveMarkup.Render
open Analysis Client Markup

def Known (f : Factory) (s : State) : Prop :=
  ∀ l ∈ s.live, l.2.slot ∈ f.slots ∧ l.2.slot.translatable = true

structure Keyed (f : Factory) (s : State) : Prop where
  live : ∀ l ∈ s.live, ∃ n < s.nextPlaceholder, l.1 = Placeholder.text f.number n
  deferred : ∀ d ∈ s.deferred, ∃ n < s.nextPlaceholder, d.1 = Placeholder.text f.number n
  apart : ∀ l ∈ s.live, ∀ d ∈ s.deferred, l.1 ≠ d.1

def ComposedIn (f : Factory) (source : String) (signals : List String) : Prop :=
  ∃ s text, Known f s ∧ (compose f.number s text).source? = some source ∧
    (compose f.number s text).signals = signals

structure HandlerOf (f : Factory) (h : Handler) (r : Slot) : Prop where
  known : r ∈ f.slots ∧ r.translatable = true
  event : r.isEvent = true
  source : h.source = r.bodySource.getD ""
  params : h.params = r.params
  fields : h.writes = r.writes ∧ h.signals = r.signals

structure ChainOf (f : Factory) (a : AsyncBinding) (r : Slot) : Prop where
  known : r ∈ f.slots ∧ r.translatable = true
  promise : a.promise = r.promiseSource.getD ""
  callback : a.thenCallback = r.thenCallback.getD ""
  recovery : a.catchCallback? = r.catchCallback
  fields : a.fields = r.reads

structure Sourced (f : Factory) (r : Records) : Prop where
  bindings : ∀ b ∈ r.bindings, ComposedIn f b.source b.signals
  handlers : ∀ h ∈ r.handlers, ∃ r, HandlerOf f h r
  chains : ∀ a ∈ r.asyncBindings, ∃ r, ChainOf f a r

structure Sound (f : Factory) (s : State) : Prop where
  known : Known f s
  keyed : Keyed f s
  records : Sourced f s.records

variable {f : Factory}

theorem soundStart {page : Page} : Sound f (f.start page) where
  known _ h := absurd h List.not_mem_nil
  keyed := ⟨fun _ h => absurd h List.not_mem_nil, fun _ h => absurd h List.not_mem_nil,
    fun _ h => absurd h List.not_mem_nil⟩
  records := ⟨fun _ h => absurd h List.not_mem_nil, fun _ h => absurd h List.not_mem_nil,
    fun _ h => absurd h List.not_mem_nil⟩

theorem keyedSame {s s' : State} (h : Keyed f s) (live : ∀ l ∈ s'.live, l ∈ s.live)
    (deferred : ∀ d ∈ s'.deferred, d ∈ s.deferred) (next : s.nextPlaceholder ≤ s'.nextPlaceholder) :
    Keyed f s' where
  live l hl := by
    obtain ⟨n, given, same⟩ := h.live l (live l hl)
    exact ⟨n, Nat.lt_of_lt_of_le given next, same⟩
  deferred d hd := by
    obtain ⟨n, given, same⟩ := h.deferred d (deferred d hd)
    exact ⟨n, Nat.lt_of_lt_of_le given next, same⟩
  apart l hl d hd := h.apart l (live l hl) d (deferred d hd)

theorem soundSame {s s' : State} (h : Sound f s) (live : ∀ l ∈ s'.live, l ∈ s.live)
    (deferred : ∀ d ∈ s'.deferred, d ∈ s.deferred) (next : s.nextPlaceholder ≤ s'.nextPlaceholder)
    (records : s'.records = s.records) : Sound f s' where
  known l hl := h.known l (live l hl)
  keyed := keyedSame h.keyed live deferred next
  records := records ▸ h.records

theorem soundRecords {s : State} {written : List String} {records : Records} (h : Sound f s)
    (sourced : Sourced f records) : Sound f { s with written, records } :=
  ⟨h.known, keyedSame h.keyed (fun _ h => h) (fun _ h => h) (Nat.le_refl _), sourced⟩

theorem liveKnown {s : State} {key : String} {live : Live} (h : Known f s)
    (found : s.live? key = some live) : live.slot ∈ f.slots ∧ live.slot.translatable = true := by
  obtain ⟨l, hl, rfl⟩ := Option.map_eq_some_iff.mp found
  exact h l (List.mem_of_find?_eq_some hl)

theorem soundNewId : Keeps (Sound f) f newId :=
  keepsGet fun _ h => soundSame h (fun _ h => h) (fun _ h => h) (Nat.le_refl _) rfl

theorem soundIdentify {attributes : List Attribute} : Keeps (Sound f) f (identify attributes) := by
  refine keepsRead ?_
  simp only
  split
  · exact keepsPure
  · exact keepsBind soundNewId fun _ => keepsPure

theorem forallAppended {α : Type} {p : α → Prop} {items : List α} {a : α} (h : ∀ b ∈ items, p b)
    (ha : p a) : ∀ b ∈ items ++ [a], p b := by
  intro b hb
  rcases List.mem_append.mp hb with hb | hb
  · exact h b hb
  · exact List.mem_singleton.mp hb ▸ ha

theorem soundBinding {b : Binding} (h : ComposedIn f b.source b.signals) :
    Keeps (Sound f) f (addBinding b) := by
  refine keepsModify fun s hs => soundRecords hs ⟨?_, hs.records.handlers, hs.records.chains⟩
  exact forallAppended hs.records.bindings h

theorem soundEvent (attributes : List Attribute) (a : Attribute) :
    Keeps (Sound f) f (bindEvent attributes a) := by
  refine keepsGet fun s hs => ?_
  split
  · exact hs
  · next live found =>
    split
    · exact hs
    · next event =>
      refine keepsBind soundIdentify (fun p => keepsBind ?_ fun _ => keepsPure) s hs
      refine keepsModify fun s' hs' => soundRecords hs' ⟨hs'.records.bindings, ?_, hs'.records.chains⟩
      refine forallAppended hs'.records.handlers ⟨live.slot, ?_⟩
      exact ⟨liveKnown hs.known found, by simpa using event, rfl, rfl, rfl, rfl⟩

theorem soundAttribute (attributes : List Attribute) (a : Attribute) :
    Keeps (Sound f) f (bindAttribute attributes a) := by
  refine keepsRead ?_
  split
  · exact keepsPure
  refine keepsGet fun s hs => ?_
  simp only
  split
  · exact hs
  · next source composed =>
    exact keepsBind soundIdentify
      (fun _ => keepsBind (soundBinding ⟨s, a.value, hs.known, composed, rfl⟩) fun _ => keepsPure) s hs

theorem soundAnchor (attributes : List Attribute) : Keeps (Sound f) f (bindAnchor attributes) := by
  refine keepsGet fun s hs => ?_
  split
  · exact hs
  · next live found =>
    refine keepsBind soundNewId (fun id => keepsBind ?_ fun _ => keepsPure) s hs
    refine keepsModify fun s' hs' => soundRecords hs' ⟨hs'.records.bindings, hs'.records.handlers, ?_⟩
    refine forallAppended hs'.records.chains ⟨live.slot, ?_⟩
    exact ⟨liveKnown hs.known found, rfl, rfl, rfl, rfl⟩

theorem settleComposed {s : State} {chunk : String} (h : Known f s) :
    ∃ c, out (settle chunk) f s = (.ok c, s) ∧
      ∀ source, c.source? = some source → ComposedIn f source c.signals := by
  rcases @outSettle f s chunk with ⟨settled, _⟩ | settled
  · exact ⟨_, settled, fun source composed => ⟨s, chunk, h, composed, rfl⟩⟩
  · exact ⟨_, settled, fun source none => nomatch none⟩

theorem soundWrap (chunk : String) : Keeps (Sound f) f (wrapChunk chunk) := by
  intro s hs
  obtain ⟨c, settled, binding⟩ := @settleComposed f s chunk hs.known
  rw [wrapChunk, outBind, settled]
  simp only
  split
  · exact hs
  · next source composed =>
    exact keepsBind soundIdentify
      (fun _ => keepsBind (soundBinding (binding source composed)) fun _ => keepsPure) s hs

theorem soundOnly (name : String) (attributes : List Attribute) (chunk : String) :
    Keeps (Sound f) f (bindOnlyText name attributes chunk) := by
  intro s hs
  obtain ⟨c, settled, binding⟩ := @settleComposed f s chunk hs.known
  rw [bindOnlyText, outBind, settled]
  simp only
  split
  · exact hs
  · next source composed =>
    exact keepsBind soundIdentify
      (fun _ => keepsBind (soundBinding (binding source composed)) fun _ => keepsPure) s hs

theorem soundTree {tree : List Node} : Keeps (Sound f) f (settleTree tree) :=
  keepsTree soundEvent soundAttribute (keepsTexts soundWrap soundOnly) soundAnchor

theorem soundLive {markup : String} : Keeps (Sound f) f (settleLive markup) :=
  keepsLive (fun _ => soundTree) fun _ hs =>
    soundSame hs (fun _ h => absurd h List.not_mem_nil) (fun _ h => h) (Nat.le_refl _) rfl

theorem keyFresh {s : State} (h : Keyed f s) :
    (∀ l ∈ s.live, l.1 ≠ Placeholder.text f.number s.nextPlaceholder) ∧
      ∀ d ∈ s.deferred, d.1 ≠ Placeholder.text f.number s.nextPlaceholder := by
  refine ⟨fun l hl same => ?_, fun d hd same => ?_⟩
  · obtain ⟨n, given, key⟩ := h.live l hl
    exact Nat.ne_of_lt given (textInjective (key.symm.trans same))
  · obtain ⟨n, given, key⟩ := h.deferred d hd
    exact Nat.ne_of_lt given (textInjective (key.symm.trans same))

theorem outDefer {s : State} {content : Deferred} :
    out (defer content) f s = (.ok (Placeholder.text f.number s.nextPlaceholder),
      { s with
        nextPlaceholder := s.nextPlaceholder + 1
        deferred := s.deferred ++ [(Placeholder.text f.number s.nextPlaceholder, content)] }) := rfl

theorem outMark {s : State} {v : Value} {slot : Slot} (h : slot.translatable = true) :
    out (mark v slot) f s = (.ok (Placeholder.text f.number s.nextPlaceholder),
      { s with
        nextPlaceholder := s.nextPlaceholder + 1
        live := s.live ++ [(Placeholder.text f.number s.nextPlaceholder, ⟨v, slot⟩)] }) := by
  rw [mark, outBind, outRead]
  simp only [h, Bool.not_true, Bool.false_eq_true, if_false]
  rfl

theorem soundDefer (content : Deferred) : Keeps (Sound f) f (defer content) := by
  intro s hs
  have older := @keyedSame f s { s with nextPlaceholder := s.nextPlaceholder + 1 } hs.keyed
    (fun _ h => h) (fun _ h => h) (Nat.le_succ _)
  rw [outDefer]
  refine ⟨hs.known, ⟨older.live, ?_, fun l hl => ?_⟩, hs.records⟩
  · exact forallAppended older.deferred ⟨s.nextPlaceholder, Nat.lt_succ_self _, rfl⟩
  · exact forallAppended (older.apart l hl) ((keyFresh hs.keyed).1 l hl)

theorem soundMark (v : Value) (slot : Slot) (h : slot ∈ f.slots) : Keeps (Sound f) f (mark v slot) := by
  intro s hs
  cases translatable : slot.translatable with
  | false =>
    rw [mark, outBind, outRead]
    simp only [translatable, Bool.not_false, if_true]
    exact hs
  | true =>
    have older := @keyedSame f s { s with nextPlaceholder := s.nextPlaceholder + 1 } hs.keyed
      (fun _ h => h) (fun _ h => h) (Nat.le_succ _)
    rw [outMark translatable]
    refine ⟨?_, ⟨?_, older.deferred, ?_⟩, hs.records⟩
    · exact forallAppended hs.known ⟨h, translatable⟩
    · exact forallAppended older.live ⟨s.nextPlaceholder, Nat.lt_succ_self _, rfl⟩
    · exact forallAppended older.apart fun d hd => ((keyFresh hs.keyed).2 d hd).symm

theorem soundFilled {template : String} {values : List Value} {line : Int} :
    Keeps (Sound f) f (filled template values line) := keepsFilled soundDefer soundMark

theorem soundTaken (key : String) : Keeps (Sound f) f (takeDeferred? key) := by
  refine keepsGet fun s hs => ?_
  split
  · exact hs
  · exact soundSame hs (fun _ h => h) (fun d hd => (List.mem_filter.mp hd).1) (Nat.le_refl _) rfl

theorem soundNested {nested : Nested} (c : Component) : Keeps (Sound f) f (renderNested nested c) := by
  refine keepsGet fun s hs => ?_
  have after (page : Page) : Sound f { s with page } :=
    soundSame hs (fun _ h => h) (fun _ h => h) (Nat.le_refl _) rfl
  rcases (nested c).run s.page with ⟨_ | _, page⟩
  · exact after page
  · exact after page

theorem soundCall {nested : Nested} {template : String} {values : List Value} {line : Int} :
    Keeps (Sound f) f (call nested template values line) :=
  keepsCall soundFilled (fun _ => soundLive) fun _ => keepsFinished soundTaken soundNested

/-- A factory and a state that it may be in between two template calls: after any calls, with any
values, whether they failed or not. What else goes on in the component and on its page changes neither
live slots nor records nor deferred contents. -/
inductive Reached : Factory → State → Prop where
  | start {c request? page f s} : newFactory c request? page = .ok (f, s) → Reached f s
  | call {f s} (nested template values line) :
      Reached f s → Reached f (out (call nested template values line) f s).2
  | elsewhere {f s} (page trace) : Reached f s → Reached f { s with page, trace }

theorem newFactoryOk {c : Component} {request? : Option String} {page : Page} {f : Factory} {s : State}
    (h : newFactory c request? page = .ok (f, s)) :
    f.component = c ∧ slotsOf c = .ok f.slots ∧ f.number = page.nextFactory ∧
      s = f.start { page with nextFactory := page.nextFactory + 1 } := by
  cases analyzed : slotsOf c with
  | error e =>
    rw [newFactory, analyzed] at h
    cases h
  | ok slots =>
    rw [newFactory, analyzed] at h
    cases h
    exact ⟨rfl, rfl, rfl, rfl⟩

theorem soundReached {f : Factory} {s : State} (h : Reached f s) : Sound f s := by
  induction h with
  | start made =>
    obtain ⟨_, _, _, rfl⟩ := newFactoryOk made
    exact soundStart
  | call nested template values line _ ih => exact soundCall _ ih
  | elsewhere page trace _ ih => exact soundSame ih (fun _ h => h) (fun _ h => h) (Nat.le_refl _) rfl

theorem slotsAnalyzed {c : Component} {slots : List Slot} (h : slotsOf c = .ok slots) :
    ∃ source method, c.source? = some source ∧ MethodOf source method ∧
      ∀ r ∈ slots, ∃ e, ValueOf (callsOfBlock method.body) (methodScope method "html") e r := by
  cases given : c.source? with
  | none =>
    rw [slotsOf, given] at h
    cases h
  | some source =>
    rw [slotsOf, given] at h
    simp only at h
    generalize ended : (analyzeSource source c.firstLine (some c.file) "html").run [] = p at h
    obtain ⟨result, notes⟩ := p
    cases result with
    | error e => cases h
    | ok found =>
      have ran : outcome (analyzeSource source c.firstLine (some c.file) "html") [] = (.ok found, notes) := ended
      cases h
      obtain ⟨method, read, values⟩ := analyzedSource ran
      exact ⟨source, method, rfl, read, values⟩

theorem reachedAnalyzed {f : Factory} {s : State} (h : Reached f s) :
    ∃ source method, f.component.source? = some source ∧ MethodOf source method ∧
      ∀ r ∈ f.slots, ∃ e, ValueOf (callsOfBlock method.body) (methodScope method "html") e r := by
  induction h with
  | start made =>
    obtain ⟨component, slots, _⟩ := newFactoryOk made
    exact component ▸ slotsAnalyzed slots
  | call _ _ _ _ _ ih => exact ih
  | elsewhere _ _ _ ih => exact ih

theorem reachedClassified {f : Factory} {s : State} (h : Reached f s) :
    ∃ receiver, AllClassified { receiver, tag := "html" } f.slots := by
  obtain ⟨source, method, _, _, values⟩ := reachedAnalyzed h
  refine ⟨method.receiver.getD "self", fun r hr translatable => ?_⟩
  obtain ⟨e, _, _, _, _, _, _, _, analyzed⟩ := values r hr
  exact ⟨e, classified analyzed translatable⟩

theorem okValue {ε α : Type} {x : Except ε α} (h : x.isOk = true) : ∃ a, x = .ok a := by
  cases x with
  | error e => cases h
  | ok a => exact ⟨a, rfl⟩

theorem optionValue {ε α : Type} {x : Except ε α} {a : α} (h : x.toOption = some a) : x = .ok a := by
  cases x with
  | error e => cases h
  | ok b =>
    cases h
    rfl

def factoryOf (c : Component) (slots : List Slot) : Factory := ⟨c, 0, slots, none⟩

def startOf (c : Component) (slots : List Slot) : State := (factoryOf c slots).start { nextFactory := 1 }

theorem factoryMade {c : Component} {slots : List Slot} (h : (slotsOf c).toOption = some slots) :
    newFactory c none {} = .ok (factoryOf c slots, startOf c slots) := by
  cases analyzed : slotsOf c with
  | error e =>
    rw [analyzed] at h
    cases h
  | ok found =>
    rw [analyzed] at h
    cases h
    rw [newFactory, analyzed]
    rfl

theorem startedOf {c : Component} {slots : List Slot} (h : (slotsOf c).toOption = some slots) :
    Reached (factoryOf c slots) (startOf c slots) := .start (factoryMade h)

def counter : Component :=
  .mk "Counter" [("count", .whole 0)]
    (some ("def render(self, ctx):\n    return ctx.html('<button onclick=\x7b\x7d>+</button>" ++
      "<p>\x7b\x7d</p>', lambda: setattr(self, 'count', self.count + 1), self.count)\n"))
    1 "counter.py" [] none

def counterTemplate : String := "<button onclick=\x7b\x7d>+</button><p>\x7b\x7d</p>"

def counterValues : List Value := [.object "function", .whole 0]

def counterCall : Rendering Value := call (fun _ => return "") counterTemplate counterValues 2

def counterSlots : List Slot :=
  [{ signals := ["count"], writes := ["count"], isFunction := true, isEvent := true,
     eventName := some "onclick", source := "() => this.count = this.count + 1",
     bodySource := some "this.count = this.count + 1",
     expression := "lambda: setattr(self, 'count', self.count + 1)", template := counterTemplate, line := 2 },
   { signals := ["count"], source := "this.count", expression := "self.count", template := counterTemplate,
     slot := 1, line := 2 }]

abbrev counterFactory : Factory := factoryOf counter counterSlots

abbrev counterState : State := startOf counter counterSlots

theorem counterAnalyzed : (slotsOf counter).toOption = some counterSlots :=
  slotsListed rfl (listedAppend (listedText rfl) rfl) rfl (by decide +kernel)

theorem counterStarted : Reached counterFactory counterState := startedOf counterAnalyzed

end LiveMarkup.Render
