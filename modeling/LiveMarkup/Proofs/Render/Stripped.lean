import LiveMarkup.Proofs.Client.Quoted
import LiveMarkup.Proofs.Render.Declared
/-! Stripping the receiver from the code that reaches a script. What is left is the code with its
fields bare, if and only if nothing else in it reads as the receiver at the front of a word. -/
namespace LiveMarkup.Render
open Syntax Analysis Client Code

variable {scope : Scope} {slots : List Slot} {fields : List String}

theorem partFronted {c : Code} (h : PartCode scope slots fields c) : c.Fronted := by
  cases h with
  | fixed text => exact looseText.fronted
  | slot known classified coded within => exact (looseGroup (frontedOf (printsOf _ coded))).fronted

theorem joinFronted {parts : List Code} (h : ∀ c ∈ parts, c.Fronted) : (joinCode parts).Fronted := by
  have joined : (Code.separated " + " parts).Fronted := frontedSeparated (by decide) h
  unfold joinCode
  simp only
  split
  · exact joined
  · exact (looseBehind (by decide) joined).fronted

theorem collectedFronted {c : Code} (h : Collected scope slots fields c) : c.Fronted := by
  cases h with
  | nothing => exact looseText.fronted
  | slot known classified runs within => exact (runsUncaptured runs).1
  | joined all => exact joinFronted fun c hc => partFronted (all c hc)

/-- All code of the records is made from slots, and stripping leaves it bare if and only if it is clear. -/
def StrippedBare (f : Factory) (s : State) : Prop :=
  ∃ scope, AllClassified scope f.slots ∧ ∀ p ∈ s.records.sources,
    ∃ c, Collected scope f.slots p.2 c ∧ c.write = p.1 ∧ (stripReceiver p.1 = c.writeBare ↔ c.Clear)

/-- Stripping leaves the bare code if and only if the code is clear: for every expression that prints, for
the code of every record that any calls lead to, and for every quoted text. -/
theorem strippedBare (scope : Scope) (e : Expr) (c : Code) (f : Factory) (s : State) (text : String) :
    (code scope e = .ok c → (stripReceiver c.write = c.writeBare ↔ c.Clear)) ∧
      (Reached f s → StrippedBare f s) ∧
      (stripReceiver (Text.jsString text) = Text.jsString text ↔ hitsQuoted false text.toList = false) := by
  refine ⟨fun coded => strippedBareIff (frontedOf (printsOf e coded)), fun reached => ?_, strippedQuoted⟩
  obtain ⟨receiver, classified⟩ := reachedClassified reached
  refine ⟨_, classified, fun p hp => ?_⟩
  obtain ⟨c, collected, written⟩ := recordsCollected (soundReached reached) classified p hp
  exact ⟨c, collected, written, written ▸ strippedBareIff (collectedFronted collected)⟩

theorem counterStripped :
    (∃ f s, Reached f s ∧ s.records.sources.length = 2 ∧ StrippedBare f s) ∧
      stripReceiver "this.count" = "count" ∧ stripReceiver (Text.jsString "+") = Text.jsString "+" := by
  have stripped (s : State) := strippedBare {} (.field (.name "self") "count") (.access "count" "count")
    counterFactory s "+"
  refine ⟨?_, ?_, (stripped counterState).2.2.mpr (by decide)⟩
  · have reached : Reached counterFactory (out counterCall counterFactory counterState).2 :=
      .call _ _ _ _ counterStarted
    have two : (out counterCall counterFactory counterState).2.records.sources.length = 2 := by decide +kernel
    exact ⟨_, _, reached, two, (stripped _).2.1 reached⟩
  · have clear : (Code.access "count" "count").Clear := Mark.stripBareIff.mp (by decide +kernel)
    exact ((stripped counterState).1 rfl).mpr clear

theorem constantStripped :
    ∃ e c, code {} e = .ok c ∧ c.accesses = [] ∧ c.write = "\"this.x\"" ∧ c.writeBare = "\"this.x\"" ∧
      stripReceiver c.write = "\"x\"" :=
  ⟨.constant (.text "this.x" false), .text (Text.jsString "this.x"), rfl, rfl, by decide +kernel,
    by decide +kernel, by decide +kernel⟩

end LiveMarkup.Render
