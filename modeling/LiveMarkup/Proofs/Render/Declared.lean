import LiveMarkup.Proofs.Render.Collected
/-! The fields that printed code accesses against those that the analysis notes and the script
declares. They are the same but where a field is printed under another name. -/
namespace LiveMarkup.Render
open Syntax Analysis Client

variable {f : Factory} {s : State} {scope : Scope}

theorem recordsCollected (sound : Sound f s) (classified : AllClassified scope f.slots) :
    ∀ p ∈ s.records.sources, ∃ c, Collected scope f.slots p.2 c ∧ c.write = p.1 := by
  intro p hp
  rcases List.mem_append.mp hp with hp | hp
  · obtain ⟨b, hb, rfl⟩ := List.mem_map.mp hp
    exact composedCollected classified (sound.records.bindings b hb)
  rcases List.mem_append.mp hp with hp | hp
  · obtain ⟨h, hh, rfl⟩ := List.mem_map.mp hp
    obtain ⟨r, made⟩ := sound.records.handlers h hh
    exact handlerCollected classified made
  · obtain ⟨a, ha, hp⟩ := List.mem_flatMap.mp hp
    obtain ⟨source, hs, rfl⟩ := List.mem_map.mp hp
    obtain ⟨r, made⟩ := sound.records.chains a ha
    exact chainCollected classified made source hs

/-- All code of the records is made from the component's slots. The script declares every field that the
code stands for, and every name that such a field is printed under where an expression has the names. -/
def Covered (f : Factory) (s : State) (text : String) : Prop :=
  ∃ scope, AllClassified scope f.slots ∧ ∀ p ∈ s.records.sources,
    ∃ c, Collected scope f.slots p.2 c ∧ c.write = p.1 ∧
      ∀ field shown, (field, shown) ∈ c.accesses → Declares f.component text field ∧
        ∃ r ∈ f.slots, ∃ e, Classified scope e r ∧
          (SameNames scope e → Declares f.component text shown)

/-- The printed code of an expression accesses its signals, no more and no fewer, if and only if these
are the names that its fields are printed under. Whatever calls led to it, a script covers its code. -/
theorem accessesDeclared (scope : Scope) (e : Expr) (c : Code) (f : Factory) (s : State) (text : String) :
    (code scope e = .ok c →
      ((∀ field, field ∈ c.emitted ↔ field ∈ (fieldsOf scope e).signals) ↔ SameNames scope e) ∧
        (fieldsOf scope e).Tidy) ∧
    (Reached f s → script f.component s.records = .ok text → Covered f s text) := by
  refine ⟨fun coded => ⟨emittedIff (printsOf e coded), tidyFields⟩, fun reached scripted => ?_⟩
  obtain ⟨receiver, classified⟩ := reachedClassified reached
  refine ⟨_, classified, fun p hp => ?_⟩
  obtain ⟨c, collected, written⟩ := recordsCollected (soundReached reached) classified p hp
  refine ⟨c, collected, written, fun field shown access => ?_⟩
  have declared (name : String) (h : name ∈ p.2) : Declares f.component text name :=
    mentionDeclared scripted (sourceFields p hp name h)
  obtain ⟨known, r, hr, e, shape, named⟩ := collectedAccess rfl collected access
  exact ⟨declared field known, r, hr, e, shape, fun same => declared shown (named same)⟩

theorem counterCovered :
    (∃ f s text, Reached f s ∧ s.records.sources.length = 2 ∧ Covered f s text) ∧
      ∃ c, code {} (.field (.name "self") "count") = .ok c ∧ c.emitted = ["count"] ∧
        SameNames {} (.field (.name "self") "count") := by
  refine ⟨?_, .access "count" "count", rfl, rfl, ?_⟩
  · have reached : Reached counterFactory (out counterCall counterFactory counterState).2 :=
      .call _ _ _ _ counterStarted
    have two : (out counterCall counterFactory counterState).2.records.sources.length = 2 := by decide +kernel
    obtain ⟨text, scripted⟩ : ∃ text,
        script counter (out counterCall counterFactory counterState).2.records = .ok text :=
      okValue (by decide +kernel)
    exact ⟨_, _, text, reached, two, (accessesDeclared {} (.name "self") .component _ _ text).2 reached scripted⟩
  · refine ((accessesDeclared {} (.field (.name "self") "count") (.access "count" "count") counterFactory
      counterState "").1 rfl).1.mp ?_
    intro field
    simp [Code.emitted, Code.accesses, fieldsOf, touch, isReceiver, Scope.isReceiver, Touched.read,
      Touched.insertNew]

/-- A method of the component itself that has another name on the client: its field is a signal, but the
code accesses a field of that other name, which no script declares. -/
theorem ownMethodRenamed :
    ∃ r e c, (outcome (analyzeSource
        "def render(self, ctx):\n    return ctx.html('\x7b\x7d', self.append(1))\n" 1 none "html")
          []).1.toOption = some [r] ∧
      code {} e = .ok c ∧ c.write = r.source ∧ r.signals = (fieldsOf {} e).signals ∧
      e.isTemplateCall "html" = false ∧ r.source = "this.push(1)" ∧ r.signals = ["append"] ∧
      ¬∀ field, field ∈ c.emitted ↔ field ∈ r.signals := by
  let r : Slot :=
    { signals := ["append"], source := "this.push(1)", expression := "self.append(1)",
      template := "\x7b\x7d", line := 2 }
  let e : Expr := .call 2 (.field (.name "self") "append") [.constant (.whole 1)] []
  refine ⟨r, e, .access "append" "push" ++ .arguments ["1"], by decide +kernel, rfl, by decide +kernel,
    by decide +kernel, rfl, rfl, rfl, fun same => ?_⟩
  have pushed := (same "push").mp List.mem_cons_self
  exact absurd pushed (by decide)

end LiveMarkup.Render
