import LiveMarkup.Proofs.Render.Direct
import LiveMarkup.Proofs.Render.Names
import LiveMarkup.Proofs.Render.Shown
/-! Texts that are one live slot and nothing else. The client sets the text of their element to the value itself, without
joining it to other texts, and what a value other than a text leaves there is up to the page. -/
namespace LiveMarkup.Client

def Scalar.textContent : Scalar → List Nat
  | null => []
  | v => v.shown

def updatedText (given : Given) (b : Binding) : Option (List Nat) := (sourceValue given b.source).map (·.textContent)

end LiveMarkup.Client

namespace LiveMarkup.Render
open Analysis Client Markup

variable {f : Factory} {s s' : State} {chunk : String} {live : Live} {c : Scalar}

section Chunk

/-- The chunk is the placeholder of a live slot that may change and whose value the client has, and nothing else. -/
structure Sole (s : State) (chunk : String) (live : Live) (c : Scalar) : Prop where
  found : s.live? chunk = some live
  reactive : s.isReactive live.slot = true
  known : scalar? live.value = some c

theorem soleFront (keyed : Keyed f s) (sole : Sole s chunk live c) : Front f.number chunk.toList := by
  obtain ⟨l, mem, same⟩ := liveKey (Option.isSome_of_eq_some sole.found)
  obtain ⟨n, _, is⟩ := keyed.live l mem
  rw [← same, is]
  exact textFront

theorem soleComposed (keyed : Keyed f s) (sole : Sole s chunk live c) : compose f.number s chunk =
    ⟨clientText live.value, some live.slot.source, distinct live.slot.signals⟩ := by
  have part : partOf s (.placeholder chunk) =
      some ⟨clientText live.value, "(" ++ live.slot.source ++ ")", some live.slot⟩ := by
    simp [partOf, Piece.key?, sole.found, sole.reactive]
  have empty : partOf s (.plain "") = none := rfl
  rw [compose, splitFront (soleFront keyed sole), List.filterMap_cons_none empty, List.filterMap_cons_some part,
    List.filterMap_cons_none empty]
  simp

theorem soleShown (keyed : Keyed f s) (sole : Sole s chunk live c) : shownChunk f s chunk = clientText live.value := by
  have held : ((placeholders f.number chunk).any fun key => (s.live? key).isSome) = true := by
    rw [placeholdersFront (soleFront keyed sole)]
    simp [sole.found]
  rw [shownChunk, if_pos held, soleComposed keyed sole]

theorem soleBound (keyed : Keyed f s) (sole : Sole s chunk live c) {b : Binding}
    (bound : bindingOf f s none chunk = some { b with id := "" }) : b.source = live.slot.source := by
  rw [bindingOf, soleComposed keyed sole] at bound
  exact (congrArg Binding.source (Option.some.inj bound)).symm

theorem contentAgrees {v : Value} (known : scalar? v = some c) : c.textContent = unitsOf (clientText v) ↔ v ≠ .none := by
  have shown := scalarShown known
  cases v with
  | none =>
    cases known
    exact iff_of_false (by decide) fun other => other rfl
  | truth b =>
    cases known
    exact iff_of_true shown (by simp)
  | whole n =>
    rw [scalar?] at known
    split at known
    · cases known
      exact iff_of_true shown (by simp)
    · cases known
  | text t =>
    cases known
    exact iff_of_true shown (by simp)
  | _ => cases known

end Chunk

section Calls

variable {nested : Nested} {template : String} {values : List Value} {line : Int} {v : Value}

/-- The element of a text binding that is one live slot: the text that is put into it, and the text that it has when the
client has set it to the value. The two differ for nothing alone. -/
structure Lasts (f : Factory) (s : State) (chunk : String) (live : Live) (c : Scalar) (b : Binding) (e : Element) : Prop where
  source : b.source = live.slot.source
  text : e.2 = [.text .plain (clientText live.value)]
  clear : Unforged f chunk (clientText live.value) → Undeferred f s (clientText live.value)
  updated : updatedText [(live.slot.source, c)] b = some (unitsOf (clientText live.value)) ↔ live.value ≠ .none

theorem bearsLasts {b : Binding} {e : Element} (keyed : Keyed f s) (bears : Bears f s b chunk e)
    (sole : Sole s chunk live c) : Lasts f s chunk live c b e := by
  have source := soleBound keyed sole bears.bound
  refine ⟨source, ?_, fun unforged key mem => bears.clear key (unforged key mem), ?_⟩
  · rw [bears.alone, soleShown keyed sole]
  · have value : sourceValue [(live.slot.source, c)] b.source = some c := by
      rw [source, sourceValue]
      simp only [if_true]
    rw [updatedText, value, Option.map_some, Option.some_inj]
    exact contentAgrees sole.known

/-- A text that is one live slot shows the same before and after an update, but for the value that is nothing. Every text
binding that a successful call appends is that of a chunk of a text, and an element of the written tree has this chunk
as its only text; no other element is named by the binding if none came with an identifier of its own. -/
theorem soleAgrees (reached : Reached f s) (done : out (call nested template values line) f s = (.ok v, s')) :
    ∃ new, s'.records.bindings = s.records.bindings ++ new ∧ (new = [] ∨
      ∃ markup s₁ tree final s₂ body literals, out (filled template values line) f s = (.ok markup, s₁) ∧
        Settling f s₁ markup tree final s₂ ∧
        out (splice nested (writeTree final)) f { s₂ with live := [] } = (.ok body, s') ∧
        FieldsStarted f.component s'.records literals ∧
        v = .rendered (body ++ scriptOf (scriptStatements literals s'.records)) body (some f.number) ∧
        ∀ b ∈ new, b.attribute? = none → ∃ e ∈ elements final, ∃ chunk ∈ chunksOfTexts f s₁ tree, Bears f s₁ b chunk e ∧
          (idsOf f tree = [] → named b.id final = [e]) ∧
          ∀ live c, Sole s₁ chunk live c → Lasts f s₁ chunk live c b e) := by
  cases callSucceeds done with
  | @still markup s₁ filling none _ records =>
    have unchanged := @filledRecords f s.records template values line s rfl
    rw [filling] at unchanged
    exact ⟨[], by rw [records, unchanged, List.append_nil], .inl rfl⟩
  | @settled markup s₁ tree final s₂ filling settling left ended records =>
    obtain ⟨ready, _, _, _⟩ := readyFilled reached filling
    have unchanged := @filledRecords f s.records template values line s rfl
    rw [filling] at unchanged
    obtain ⟨new, appended, binds⟩ := treeBinds ready settling.settled
    have grown : s'.records.bindings = s.records.bindings ++ new := by
      rw [records, ← show s₁.records = s.records from unchanged]
      exact appended
    refine ⟨new, grown, ?_⟩
    cases new with
    | nil => exact .inl rfl
    | cons b more =>
      obtain ⟨body, splicing, result⟩ := finishedScripted ended
      have filled : s'.records.isEmpty = false := by
        simp [Records.isEmpty, grown]
      unfold scripted at result
      rw [filled, if_neg Bool.false_ne_true] at result
      split at result
      · next text made =>
        cases result
        obtain ⟨literals, started, rfl⟩ := scriptMade made
        refine .inr ⟨markup, s₁, tree, final, s₂, body, literals, filling, settling, splicing, started, rfl, fun b hb text => ?_⟩
        obtain ⟨e, he, chunk, hc, bears⟩ := binds b hb text
        exact ⟨e, he, chunk, hc, bears,
          fun unnamed => onlyNamed ready.keyed unnamed settling.settled appended hb text he bears.own,
          fun live c sole => bearsLasts ready.keyed bears sole⟩
      · cases result

def boundChunks (template : String) (values : List Value) (line : Int) (f : Factory) (s : State) :
    Option (List (Option (String × Bool × Option Scalar))) :=
  match out (filled template values line) f s with
  | (.error _, _) => none
  | (.ok markup, s₁) =>
    match readTree markup with
    | .error _ => none
    | .ok tree =>
      some (((chunksOfTexts f s₁ tree).filter fun chunk => (bindingOf f s₁ none chunk).isSome).map fun chunk =>
        (s₁.live? chunk).map fun live => (live.slot.source, s₁.isReactive live.slot, scalar? live.value))

theorem counterSole :
    ∃ v s' b tree final e s₁ chunk live, Reached counterFactory counterState ∧
      out counterCall counterFactory counterState = (.ok v, s') ∧ s'.records.bindings = [b] ∧
      e ∈ elements final ∧ chunk ∈ chunksOfTexts counterFactory s₁ tree ∧
      Sole s₁ chunk live (.number 0) ∧ Lasts counterFactory s₁ chunk live (.number 0) b e ∧
      updatedText [("this.count", .number 0)] b = some (unitsOf (clientText live.value)) := by
  obtain ⟨ok, one, chunks⟩ : (out counterCall counterFactory counterState).1.isOk = true ∧
      (out counterCall counterFactory counterState).2.records.bindings.map (·.attribute?) = [none] ∧
      boundChunks counterTemplate counterValues 2 counterFactory counterState =
        some [some ("this.count", true, some (.number 0))] := by decide +kernel
  obtain ⟨v, called⟩ := okValue ok
  -- The end state gets a name of its own, so that no later step unfolds the run.
  obtain ⟨s', ended⟩ : ∃ s', (out counterCall counterFactory counterState).2 = s' := ⟨_, rfl⟩
  rw [ended] at one
  have done : out counterCall counterFactory counterState = (.ok v, s') := Prod.ext called ended
  obtain ⟨new, appended, cases⟩ := soleAgrees counterStarted done
  have none : counterState.records.bindings = [] := rfl
  rw [none, List.nil_append] at appended
  rw [appended] at one
  obtain ⟨b, rfl, text⟩ := List.map_eq_singleton_iff.mp one
  rcases cases with empty | ⟨markup, s₁, tree, final, s₂, body, literals, filling, settling, _, _, _, binds⟩
  · cases empty
  · obtain ⟨e, he, chunk, hc, bears, _, agrees⟩ := binds b List.mem_cons_self text
    simp only [boundChunks, filling, settling.read, Option.some.injEq] at chunks
    have mem : (s₁.live? chunk).map (fun live => (live.slot.source, s₁.isReactive live.slot, scalar? live.value)) ∈
        [some ("this.count", true, some (Scalar.number 0))] := by
      rw [← chunks]
      exact List.mem_map_of_mem (List.mem_filter.mpr ⟨hc, by rw [bears.bound]; rfl⟩)
    obtain ⟨live, found, same⟩ := Option.map_eq_some_iff.mp (List.mem_singleton.mp mem)
    obtain ⟨source, reactive, known⟩ : live.slot.source = "this.count" ∧ s₁.isReactive live.slot = true ∧
        scalar? live.value = some (.number 0) := by simpa using same
    have sole : Sole s₁ chunk live (.number 0) := ⟨found, reactive, known⟩
    have agreed := agrees live _ sole
    refine ⟨v, s', b, tree, final, e, s₁, chunk, live, counterStarted, done, appended, he, hc, sole, agreed, ?_⟩
    rw [← source]
    refine agreed.updated.mpr fun nothing => ?_
    rw [nothing] at known
    cases known

def blankTemplate : String := "<button onclick=\x7b\x7d></button><p>\x7b\x7d</p>"

def blank : Component :=
  .mk "Blank" [("n", .none)]
    (some ("def render(self, ctx):\n    return ctx.html('" ++ blankTemplate ++ "', lambda: setattr(self, 'n', 1), self.n)\n"))
    1 "blank.py" [] none

def blankSlots : List Slot :=
  [{ signals := ["n"], writes := ["n"], isFunction := true, isEvent := true, eventName := some "onclick",
     source := "() => this.n = 1", bodySource := some "this.n = 1", expression := "lambda: setattr(self, 'n', 1)",
     template := blankTemplate, line := 2 },
   { signals := ["n"], source := "this.n", expression := "self.n", template := blankTemplate, slot := 1, line := 2 }]

abbrev blankFactory : Factory := factoryOf blank blankSlots

abbrev blankState : State := startOf blank blankSlots

def blankCall : Rendering Value := call (fun _ => return "") blankTemplate [.object "function", .none] 2

theorem noneCleared :
    Reached blankFactory blankState ∧
      bodyOf? (out blankCall blankFactory blankState).1 =
        some "<button data-zid=\"_0\"></button><p data-zid=\"_1\">null</p>" ∧
      (out blankCall blankFactory blankState).2.records.bindings = [{ id := "_1", signals := ["n"], source := "this.n" }] ∧
      (fieldLiteral blank "n").toOption = some "null" ∧ scalar? .none = some .null ∧
      updatedText [("this.n", .null)] { id := "_1", signals := ["n"], source := "this.n" } = some [] ∧
      some [] ≠ some (unitsOf "null") :=
by
  obtain ⟨shown, bound⟩ : bodyOf? (out blankCall blankFactory blankState).1 =
        some "<button data-zid=\"_0\"></button><p data-zid=\"_1\">null</p>" ∧
      (out blankCall blankFactory blankState).2.records.bindings =
        [{ id := "_1", signals := ["n"], source := "this.n" }] := by decide +kernel
  exact ⟨startedOf (slotsListed rfl (listedAppend (listedAppend (listedText rfl) rfl) rfl) rfl (by decide +kernel)),
    shown, bound, by decide +kernel, rfl, by decide +kernel, by decide⟩

end Calls

end LiveMarkup.Render
