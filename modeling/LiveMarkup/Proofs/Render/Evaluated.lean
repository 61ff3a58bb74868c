import LiveMarkup.Proofs.Analysis.Listed
import LiveMarkup.Proofs.Render.Log
/-! Renders of components whose slots are known. Where a render is computed in a proof, most of the work is the analysis
of sources; here the slots stand in their place, and the render comes to the same. -/
namespace LiveMarkup.Render
open Analysis

def SameSource (a b : Component) : Prop :=
  a.file = b.file ∧ a.firstLine = b.firstLine ∧ a.source?.isSome = true ∧ a.source? = b.source?

instance (a b : Component) : Decidable (SameSource a b) := by unfold SameSource; infer_instance

def slotsBy (known : List (Component × List Slot)) (c : Component) : Except RenderError (List Slot) :=
  match known.find? fun k => decide (SameSource k.1 c) with
  | some k => .ok k.2
  | none => slotsOf c

def factoryBy (slots : Component → Except RenderError (List Slot)) (c : Component) (request? : Option String)
    (page : Page) : Except RenderError (Factory × State) := do
  let f : Factory := ⟨c, page.nextFactory, ← slots c, request?⟩
  return (f, f.start { page with nextFactory := page.nextFactory + 1 })

def renderBy (slots : Component → Except RenderError (List Slot)) (request? : Option String) :
    (depth : Nat) → Component → Page → Outcome
  | 0, _, page => ⟨.ok "", page, none⟩
  | depth + 1, c, page =>
    match factoryBy slots c request? page with
    | .error e => ⟨.error e, page, none⟩
    | .ok (f, s) =>
      let (result, s) := ((runMethod (nestedBy (renderBy slots request? depth)) c).run f).run.run s
      ⟨result.map (·.plain), s.page, some s⟩

section Define

variable {β : Type} (slots : Component → Except RenderError (List Slot)) (onCall : Nested → NestedLog β → CallLog β)
  (onReturn : Value → List β)

def logBy (request? : Option String) : (depth : Nat) → NestedLog β
  | 0 => fun _ _ => []
  | depth + 1 => fun c page =>
    let nested := nestedBy (renderBy slots request? depth)
    match factoryBy slots c request? page with
    | .error _ => []
    | .ok (f, s) => methodLog nested (onCall nested (logBy request? depth)) onReturn c f s

end Define

section Known

variable {β : Type} {known : List (Component × List Slot)} {request? : Option String}
  {onCall : Nested → NestedLog β → CallLog β} {onReturn : Value → List β}

theorem sourceSame {a b : Component} (same : SameSource a b) : slotsOf a = slotsOf b := by
  obtain ⟨file, line, some, source⟩ := same
  obtain ⟨text, given⟩ := Option.isSome_iff_exists.mp some
  unfold slotsOf
  rw [← source, given, file, line]

theorem slotsGiven (h : ∀ k ∈ known, (slotsOf k.1).toOption = some k.2) : slotsBy known = slotsOf := by
  funext c
  unfold slotsBy
  split
  · next k found =>
    have same := @List.find?_some _ (fun k => decide (SameSource k.1 c)) k known found
    have slots := optionValue (h k (List.mem_of_find?_eq_some found))
    rw [← sourceSame (of_decide_eq_true same), slots]
  · rfl

theorem renderSame {depth : Nat} : renderBy slotsOf request? depth = renderWithin request? depth := by
  induction depth with
  | zero => rfl
  | succ depth ih =>
    funext c page
    rw [renderBy, ih]
    rfl

theorem logSame {depth : Nat} : logBy slotsOf onCall onReturn request? depth = logWithin onCall onReturn request? depth := by
  induction depth with
  | zero => rfl
  | succ depth ih =>
    funext c page
    rw [logBy, ih, renderSame]
    rfl

theorem logGiven (h : ∀ k ∈ known, (slotsOf k.1).toOption = some k.2) {depth : Nat} :
    logWithin onCall onReturn request? depth = logBy (slotsBy known) onCall onReturn request? depth := by
  rw [slotsGiven h, logSame]

end Known

section Joined

def joinedTemplate : String := "<p \x7b\x7d-zid=\"_0\">\x7b\x7d</p><b onclick=\x7b\x7d></b>"

/-- The text that it inserts makes the markup name an element. -/
def joined : Component :=
  .mk "Joined" [("n", .whole 1)]
    (some ("def render(self, ctx):\n    return ctx.html('" ++ joinedTemplate ++
      "', 'data', self.n, lambda: setattr(self, 'n', 2))\n"))
    1 "joined.py"
    [.mk joinedTemplate [.value (.text "data"), .value (.whole 1), .value (.object "function")] 2 false] none

def joinedSlots : List Slot :=
  [{ source := "\"data\"", expression := "'data'", template := joinedTemplate, line := 2 },
   { signals := ["n"], source := "this.n", expression := "self.n", template := joinedTemplate, slot := 1, line := 2 },
   { signals := ["n"], writes := ["n"], isFunction := true, isEvent := true, eventName := some "onclick",
     source := "() => this.n = 2", bodySource := some "this.n = 2", expression := "lambda: setattr(self, 'n', 2)",
     template := joinedTemplate, slot := 2, line := 2 }]

theorem joinedAnalyzed : ∀ k ∈ [(joined, joinedSlots)], (slotsOf k.1).toOption = some k.2 :=
  List.forall_mem_singleton.mpr
    (slotsListed rfl (listedAppend (listedAppend (listedText rfl) rfl) rfl) rfl (by decide +kernel))

end Joined

end LiveMarkup.Render
