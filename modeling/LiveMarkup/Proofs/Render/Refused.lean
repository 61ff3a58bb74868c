import LiveMarkup.Proofs.Analysis.Free
import LiveMarkup.Proofs.Render.Failed
import LiveMarkup.Proofs.Render.Layout
/-! Live slots without client code. A template call refuses the first one that it comes to, and no other slot. -/
namespace LiveMarkup.Render
open Syntax Analysis Client

variable {f : Factory} {s s₁ : State}

def refused? (s : State) (v : Value) : Option Slot → Option Slot
  | some r => if s.isLive r && !isContent v r && !r.translatable then some r else none
  | none => none

def firstRefused (s : State) (values : List Value) (slots : List (Option Slot)) : Option Slot :=
  (values.zip slots).findSome? fun p => refused? s p.1 p.2

def refusal (f : Factory) (r : Slot) : RenderError := .hydration f.component.className r.expression r.line

section Fill

variable {v : Value} {slot? : Option Slot} {markup following : String} {written : List String}

theorem goesDefer (content : Deferred) : Goes f (defer content) := fun _ => ⟨_, _, outDefer⟩

mutual

theorem goesInline : (v : Value) → Goes f (inline f v)
  | .list items | .tuple items | .generator items => goesInlineAll items
  | .component _ | .rendered _ _ _ => goesDefer _
  | .none | .truth _ | .whole _ | .real _ | .text _ | .bytes _ | .set _ | .dict _ | .markup _ | .safe _
  | .object _ | .promise _ _ _ => by
    unfold inline
    split
    · exact goesDefer _
    · exact goesPure

theorem goesInlineAll : (vs : List Value) → Goes f (inlineAll f vs)
  | [] => goesPure
  | v :: rest => goesBind (goesInline v) fun _ => goesBind (goesInlineAll rest) fun _ => goesPure

end

theorem goesPlain : Goes f (fillPlain f markup v following) := by
  unfold fillPlain
  split
  · exact goesBind (goesInline v) fun _ => goesPure
  split
  · split
    · exact goesPure
    split
    · exact goesPure
    · exact goesPure
  · exact goesPure

theorem plainWritten : Keeps (fun s => s.written = written) f (fillPlain f markup v following) :=
  keepsPlain fun _ _ same => same

def fillSlot (f : Factory) (s : State) (markup : String) (v : Value) (slot? : Option Slot) (following : String) :
    Rendering String :=
  match slot? with
  | some slot =>
    if s.isLive slot && !isContent v slot then fillLive markup v slot following
    else fillPlain f markup v following
  | none => fillPlain f markup v following

theorem fillNext {values : List Value} {slots : List (Option Slot)} {texts : List String} :
    out (fill f markup (v :: values) (slot? :: slots) (following :: texts)) f s₁ =
      out (fillSlot f s₁ markup v slot? following >>= fun markup => fill f markup values slots texts) f s₁ := by
  rw [fill, outBind, outGet]
  cases slot? with
  | none => rfl
  | some slot =>
    simp only [fillSlot]
    split
    · rfl
    · rfl

theorem slotEnds (same : s₁.written = s.written) :
    match refused? s v slot? with
    | some r => ∃ s₂, out (fillSlot f s₁ markup v slot? following) f s₁ = (.error (refusal f r), s₂)
    | none => ∃ markup' s₂, out (fillSlot f s₁ markup v slot? following) f s₁ = (.ok markup', s₂) ∧
        s₂.written = s.written := by
  have plain : ∃ markup' s₂, out (fillPlain f markup v following) f s₁ = (.ok markup', s₂) ∧
      s₂.written = s.written := by
    obtain ⟨markup', s₂, ran⟩ := @goesPlain f v markup following s₁
    have kept := @plainWritten f v markup following s.written s₁ same
    rw [ran] at kept
    exact ⟨markup', s₂, ran, kept⟩
  cases slot? with
  | none => exact plain
  | some slot =>
    simp only [refused?, fillSlot, sameLive same]
    cases live : s.isLive slot && !isContent v slot with
    | false => exact plain
    | true =>
      rw [if_pos rfl, fillLive, outBind]
      cases translatable : slot.translatable with
      | false =>
        rw [mark, outBind, outRead]
        simp only [translatable, Bool.not_false, Bool.and_self, if_true]
        exact ⟨_, rfl⟩
      | true =>
        rw [outMark translatable]
        exact ⟨_, _, rfl, same⟩

theorem fillEnds {values : List Value} {slots : List (Option Slot)} {texts : List String}
    (same : s₁.written = s.written) (known : slots.length = values.length) (fits : texts.length = values.length) :
    match firstRefused s values slots with
    | some r => ∃ s₂, out (fill f markup values slots texts) f s₁ = (.error (refusal f r), s₂)
    | none => ∃ markup' s₂, out (fill f markup values slots texts) f s₁ = (.ok markup', s₂) := by
  -- Liveness is decided in the state that the fill starts from, since filling keeps the written fields.
  induction values generalizing markup s₁ slots texts with
  | nil =>
    rw [List.eq_nil_of_length_eq_zero known]
    exact ⟨markup, s₁, rfl⟩
  | cons v values ih =>
    obtain ⟨slot?, slots, rfl⟩ := List.exists_cons_of_length_eq_add_one known
    obtain ⟨following, texts, rfl⟩ := List.exists_cons_of_length_eq_add_one fits
    have first := @slotEnds f s s₁ v slot? markup following same
    rw [fillNext, firstRefused, List.zip_cons_cons, List.findSome?_cons]
    simp only
    cases refuses : refused? s v slot? with
    | some r =>
      rw [refuses] at first
      obtain ⟨s₂, ran⟩ := first
      exact ⟨s₂, by rw [outBind, ran]⟩
    | none =>
      rw [refuses] at first
      obtain ⟨markup', s₂, ran, kept⟩ := first
      rw [outBind, ran]
      exact ih kept (Nat.succ.inj known) (Nat.succ.inj fits)

end Fill

section Filled

variable {template : String} {values : List Value} {line : Int} {nested : Nested}

theorem filledEnds (fits : ¬Malformed template values) :
    match firstRefused s values (knownSlots f template values line) with
    | some r => ∃ s', out (filled template values line) f s = (.error (refusal f r), s')
    | none => ∃ markup s', out (filled template values line) f s = (.ok markup, s') := by
  obtain ⟨segments, split, count⟩ : ∃ segments, Template.split template = .ok segments ∧
      segments.length - 1 = values.length := by
    simpa [Malformed] using fits
  have texts : (segments.drop 1).length = values.length := by rw [List.length_drop, count]
  have ran : out (filled template values line) f s =
      out (fill f (segments.headD "") values (knownSlots f template values line) (segments.drop 1)) f s := by
    rw [filled, outBind, outRead]
    simp only [split]
    rw [outBind, show out (pure segments) f s = (.ok segments, s) from rfl]
    simp only [count, ne_eq, not_true, if_false]
  rw [ran]
  exact fillEnds rfl knownLength texts

/-- The names that are free in the client code of a slot are those that its expression uses outside of its own
functions and comprehensions, whether or not the method binds them around the expression. A slot is refused if it is
live and its expression has no client code, and for no other reason. -/
theorem slotNames (reached : Reached f s) : ∃ source method, f.component.source? = some source ∧ MethodOf source method ∧
    (∀ r ∈ f.slots, ∃ e, ValueOf (callsOfBlock method.body) (methodScope method "html") e r ∧
      (r.translatable = true ↔ ∃ c, code (methodScope method "html") e = .ok c) ∧
      (r.translatable = true → ∀ name, FreeInSlot (methodScope method "html") e r name ↔
        FreeIn name (uses (methodScope method "html") [] e))) ∧
    ∀ nested template values line, ¬Malformed template values →
      match firstRefused s values (knownSlots f template values line) with
      | some r => ∃ s', out (call nested template values line) f s = (.error (refusal f r), s')
      | none => ∃ markup s', out (filled template values line) f s = (.ok markup, s') := by
  obtain ⟨source, method, given, read, values⟩ := reachedAnalyzed reached
  refine ⟨source, method, given, read, fun r hr => ?_, fun nested template values line fits => ?_⟩
  · obtain ⟨e, value⟩ := values r hr
    exact ⟨e, value, translatableIff rfl value.analyzed, fun translatable _ => freeSlot rfl value.analyzed translatable⟩
  · have ends := @filledEnds f s template values line fits
    split at ends
    · obtain ⟨s', ran⟩ := ends
      exact ⟨s', by rw [call, outBind, ran]⟩
    · exact ends

end Filled

def handlerTemplate : String := "<b onclick=\x7b\x7d></b>"

def picker : Component :=
  .mk "Picker" [("x", .whole 1)]
    (some ("def render(self, ctx):\n    return ctx.html('<b onclick=\x7b\x7d></b>', " ++
      "lambda: setattr(self, 'x', \x7b1\x7d))\n"))
    1 "picker.py" [] none

def pickerSlot : Slot :=
  { signals := ["x"], writes := ["x"], isFunction := true, isEvent := true, eventName := some "onclick",
    source := "lambda: setattr(self, 'x', \x7b1\x7d)", translatable := false,
    expression := "lambda: setattr(self, 'x', \x7b1\x7d)", template := handlerTemplate, line := 2 }

abbrev pickerFactory : Factory := factoryOf picker [pickerSlot]

abbrev pickerState : State := startOf picker [pickerSlot]

theorem pickerStarted : Reached pickerFactory pickerState :=
  startedOf (slotsListed rfl (listedAppend (listedText rfl) rfl) rfl (by decide +kernel))

theorem pickerNames : ∃ source method, picker.source? = some source ∧ MethodOf source method ∧
    (∃ e, ValueOf (callsOfBlock method.body) (methodScope method "html") e pickerSlot ∧
      ∀ c, code (methodScope method "html") e ≠ .ok c) ∧
    ∃ s', out (call (fun _ => return "") handlerTemplate [.object "function"] 2) pickerFactory pickerState =
      (.error (refusal pickerFactory pickerSlot), s') := by
  obtain ⟨source, method, given, read, names, calls⟩ := slotNames pickerStarted
  obtain ⟨e, value, coded, _⟩ := names pickerSlot List.mem_cons_self
  have fits : ¬Malformed handlerTemplate [.object "function"] := fun malformed =>
    malformed ["<b onclick=", "></b>"] (by decide +kernel) rfl
  have refused : firstRefused pickerState [.object "function"]
      (knownSlots pickerFactory handlerTemplate [.object "function"] 2) = some pickerSlot := by decide +kernel
  have ends := calls (fun _ => return "") handlerTemplate [.object "function"] 2 fits
  rw [refused] at ends
  exact ⟨source, method, given, read, ⟨e, value, fun c is => absurd (coded.mpr ⟨c, is⟩) Bool.false_ne_true⟩, ends⟩

def rows : Component :=
  .mk "Rows" [("x", .whole 1), ("items", .list [.whole 1, .whole 2])]
    (some ("def render(self, ctx):\n    return [ctx.html('<b onclick=\x7b\x7d></b>', " ++
      "lambda: setattr(self, 'x', n)) for n in self.items]\n"))
    1 "rows.py" [] none

def rowsSlot : Slot :=
  { signals := ["x"], writes := ["x"], isFunction := true, isEvent := true, eventName := some "onclick",
    source := "() => this.x = n", bodySource := some "this.x = n", expression := "lambda: setattr(self, 'x', n)",
    template := handlerTemplate, line := 2 }

abbrev rowsFactory : Factory := factoryOf rows [rowsSlot]

abbrev rowsState : State := startOf rows [rowsSlot]

theorem rowsStarted : Reached rowsFactory rowsState :=
  startedOf (slotsListed rfl (listedAppend (listedText rfl) rfl) rfl (by decide +kernel))

def callsFor (name : String) : List Stmt → Bool
  | [.other [.expr (.listComp (.call line func args keywords) clauses)]] =>
    (boundNames clauses).contains name && (Expr.call line func args keywords).isTemplateCall "html"
  | _ => false

theorem methodWhere {source : String} {P : FoundFunction → Bool}
    (h : (readStatements (methodText source)).toOption.any (fun body => (outermostStmt body).any P) = true) :
    ∃ method, MethodOf source method ∧ P method = true := by
  obtain ⟨body, read, found⟩ := (Option.any_eq_true _ _).mp h
  obtain ⟨method, outermost, is⟩ := (Option.any_eq_true _ _).mp found
  exact ⟨method, ⟨body, optionValue read, outermost⟩, is⟩

theorem methodOnce {source : String} {method method' : FoundFunction} (h : MethodOf source method)
    (h' : MethodOf source method') : method = method' := by
  obtain ⟨body, read, found⟩ := h
  obtain ⟨body', read', found'⟩ := h'
  obtain rfl := Except.ok.inj (read.symm.trans read')
  exact Option.some.inj (found.symm.trans found')

/-- The item is free in the code of its handler, which is live and not refused. -/
theorem itemFree : Reached rowsFactory rowsState ∧ ∃ source method, rows.source? = some source ∧
    MethodOf source method ∧ callsFor "n" method.body = true ∧
    rowsState.isLive rowsSlot = true ∧ rowsSlot.translatable = true ∧
    rowsSlot.clientTexts = [("() => this.x = n", []), ("this.x = n", [[]])] ∧
    (∃ e, ValueOf (callsOfBlock method.body) (methodScope method "html") e rowsSlot ∧
      FreeInSlot (methodScope method "html") e rowsSlot "n") ∧
    ∃ v, (out (call (fun _ => return "") handlerTemplate [.object "function"] 2) rowsFactory rowsState).1 = .ok v := by
  obtain ⟨source, method, given, read, values⟩ := reachedAnalyzed rowsStarted
  obtain ⟨method', read', is⟩ : ∃ method, MethodOf source method ∧ (callsFor "n" method.body &&
      decide (∀ call ∈ callsOfBlock method.body, call.isTemplateCall "html" = true → ∀ e ∈ call.args.tail,
        FreeIn "n" (uses (methodScope method "html") [] e))) = true := by
    cases given
    refine methodWhere ?_
    rw [methodListed (listedAppend (listedText rfl) rfl) rfl]
    decide +kernel
  obtain rfl := methodOnce read read'
  obtain ⟨loops, used⟩ := Bool.and_eq_true_iff.mp is
  obtain ⟨e, value⟩ := values rowsSlot List.mem_cons_self
  obtain ⟨call, hc, template, he⟩ := value.call
  have free := of_decide_eq_true used call hc template e he
  refine ⟨rowsStarted, source, method, given, read, loops, by decide +kernel, rfl, rfl, ⟨e, value, ?_⟩, ?_⟩
  · exact (freeSlot rfl value.analyzed rfl).mpr free
  · exact okValue (by decide +kernel)

end LiveMarkup.Render
