import LiveMarkup.Proofs.Render.Ends
/-! What a call leaves behind that fails. Nothing is taken back: what was settled before the failure stays
in the records. -/
namespace LiveMarkup.Render
open Analysis Client Markup

variable {f : Factory} {s s' : State} {nested : Nested} {template : String} {values : List Value} {line : Int}

def Malformed (template : String) (values : List Value) : Prop :=
  ∀ segments, Template.split template = .ok segments → segments.length - 1 ≠ values.length

theorem malformedFails (malformed : Malformed template values) :
    ∃ e, out (filled template values line) f s = (.error e, s) := by
  rw [filled, outBind, outRead]
  simp only
  cases split : Template.split template with
  | error e => exact ⟨.template (.braces e), rfl⟩
  | ok segments =>
    refine ⟨.template (.count (segments.length - 1) values.length template), ?_⟩
    rw [outBind, show out (pure segments) f s = (.ok segments, s) from rfl]
    simp only [if_pos (malformed segments split)]
    rfl

/-- How far a failed call came, and what it left in the records. -/
inductive Fails (template : String) (values : List Value) (line : Int) (f : Factory) (s : State) :
    State → Prop where
  | unfilled {e s'} (filling : out (filled template values line) f s = (.error e, s'))
      (records : s'.records = s.records) : Fails template values line f s s'
  | rejected {markup e s'} (filling : out (filled template values line) f s = (.ok markup, s'))
      (read : readTree markup = .error e) (records : s'.records = s.records) : Fails template values line f s s'
  | still {markup s₁ s'} (filling : out (filled template values line) f s = (.ok markup, s₁)) (none : s₁.live = [])
      (live : s'.live = []) (records : s'.records = s.records) : Fails template values line f s s'
  | settled {markup s₁ tree final s₂ new s'} (filling : out (filled template values line) f s = (.ok markup, s₁))
      (settling : Settling f s₁ markup tree final s₂) (live : s'.live = [])
      (records : s'.records = s.records ++ new) (kept : new.unnamed = placed f s₁ tree) :
      Fails template values line f s s'

theorem fillsRecords {marked : List (String × Live)} (fills : Fills f s s' marked) : s'.records = s.records := by
  obtain ⟨next, put, rfl⟩ := fills.same
  rfl

theorem settledFails {markup : String} {s₁ s₂ : State} {tree final : List Node} (reached : Reached f s)
    (filling : out (filled template values line) f s = (.ok markup, s₁)) (settling : Settling f s₁ markup tree final s₂)
    (spliced : Spliced { s₂ with live := [] } s') : Fails template values line f s s' := by
  obtain ⟨ready, _, marked, fills⟩ := readyFilled reached filling
  obtain ⟨new, change⟩ := treePlaced ready settling.settled
  obtain ⟨records, live⟩ := splicedRecords spliced
  refine .settled filling settling live (records.trans ?_) change.gained
  rw [change.same, ← fillsRecords fills]

/-- A call that fails changes no written fields, and all records from before stay. If the template is
malformed, nothing changes at all. If the call fails before its markup is settled, it adds no records. If it
fails later, no live slot is left pending, and the records that settling the markup appended stay. -/
theorem failureLeaves {e : RenderError} (reached : Reached f s)
    (failed : out (call nested template values line) f s = (.error e, s')) :
    s'.written = s.written ∧ (Malformed template values → s' = s) ∧ Fails template values line f s s' := by
  have written : s'.written = s.written := by
    have steady := @steadyCall f s template values line nested (soundReached reached) (steadyReached reached)
    rw [failed] at steady
    exact steady.complete.trans (steadyReached reached).complete.symm
  have same : Malformed template values → s' = s := by
    intro malformed
    obtain ⟨problem, filling⟩ := @malformedFails f s template values line malformed
    rw [call, outBind, filling] at failed
    cases failed
    rfl
  refine ⟨written, same, ?_⟩
  have ends := @callEnds f s nested template values line
  rw [failed] at ends
  generalize ended : ((.error e, s') : Except RenderError Value × State) = r at ends
  have spliced {markup : String} {s₁ : State}
      (last : ((.error e, s') : Except RenderError Value × State) = out (finished nested markup) f s₁) :
      Spliced s₁ s' := by
    have spliced := @finishedSpliced f s₁ nested markup
    rwa [← last] at spliced
  cases ends with
  | unfilled filling =>
    cases ended
    obtain ⟨_, _, marked, fills⟩ := readyFilled reached filling
    exact .unfilled filling (fillsRecords fills)
  | rejected filling pending read =>
    cases ended
    obtain ⟨_, _, marked, fills⟩ := readyFilled reached filling
    exact .rejected filling read (fillsRecords fills)
  | still filling none =>
    obtain ⟨_, _, marked, fills⟩ := readyFilled reached filling
    obtain ⟨records, live⟩ := splicedRecords (spliced ended)
    exact .still filling none (live.trans none) (records.trans (fillsRecords fills))
  | unreachable filling settling left =>
    cases ended
    exact settledFails reached filling settling ⟨_, _, rfl⟩
  | settled filling settling left => exact settledFails reached filling settling (spliced ended)

def halfTemplate : String := "<b onclick=\x7b\x7d></b><script>\x7b\x7d</script>"

def half : Component :=
  .mk "Half" [("n", .whole 1)]
    (some ("def render(self, ctx):\n    return ctx.html('" ++ halfTemplate ++
      "', lambda: setattr(self, 'n', 2), self.n)\n"))
    1 "half.py" [] none

def halfSlots : List Slot :=
  [{ signals := ["n"], writes := ["n"], isFunction := true, isEvent := true, eventName := some "onclick",
     source := "() => this.n = 2", bodySource := some "this.n = 2",
     expression := "lambda: setattr(self, 'n', 2)", template := halfTemplate, line := 2 },
   { signals := ["n"], source := "this.n", expression := "self.n", template := halfTemplate, slot := 1, line := 2 }]

abbrev halfFactory : Factory := factoryOf half halfSlots

abbrev halfState : State := startOf half halfSlots

theorem halfStarted : Reached halfFactory halfState :=
  startedOf (slotsListed rfl (listedAppend (listedAppend (listedText rfl) rfl) rfl) rfl (by decide +kernel))

def halfCall : Rendering Value := call (fun _ => return "") halfTemplate [.object "function", .whole 1] 2

def plainCall : Rendering Value := call (fun _ => return "") "<i>x</i>" [] 2

def isError (r : Except RenderError Value) : Bool :=
  match r with
  | .error _ => true
  | .ok _ => false

theorem errorValue {r : Except RenderError Value} (h : isError r = true) : ∃ e, r = .error e := by
  cases r with
  | error e => exact ⟨e, rfl⟩
  | ok v => cases h

theorem halfFails :
    (∃ f s s' e, Reached f s ∧ out halfCall f s = (.error e, s') ∧ s'.written = s.written ∧
        Fails halfTemplate [.object "function", .whole 1] 2 f s s') ∧
      ∃ f s s' e, Reached f s ∧ out (call (fun _ => return "") "\x7b" [] 2) f s = (.error e, s') ∧ s' = s := by
  constructor
  · obtain ⟨e, called⟩ : ∃ e, (out halfCall halfFactory halfState).1 = .error e :=
      errorValue (by decide +kernel)
    -- The end state gets a name of its own, so that no later step unfolds the run.
    obtain ⟨s', ended⟩ : ∃ s', (out halfCall halfFactory halfState).2 = s' := ⟨_, rfl⟩
    have failed : out halfCall halfFactory halfState = (.error e, s') := Prod.ext called ended
    obtain ⟨written, _, fails⟩ := failureLeaves halfStarted failed
    exact ⟨_, _, s', e, halfStarted, failed, written, fails⟩
  · have malformed : Malformed "\x7b" [] := by
      intro segments split
      cases split
    obtain ⟨problem, filling⟩ := @malformedFails halfFactory halfState "\x7b" [] 2 malformed
    have failed : out (call (fun _ => return "") "\x7b" [] 2) halfFactory halfState = (.error problem, halfState) := by
      rw [call, outBind, filling]
    exact ⟨_, _, _, problem, halfStarted, failed, (failureLeaves halfStarted failed).2.1 malformed⟩

/-- A failed call leaves the handler of an element that was never written out, and the script of the next
call has it. -/
theorem handlerLeft :
    ∃ f s e s', Reached f s ∧ s.records = {} ∧ s.live = [] ∧ out halfCall f s = (.error e, s') ∧
      s'.records.handlers.length = 1 ∧
      ∃ v v', (out plainCall f s).1 = .ok v ∧ (out plainCall f s').1 = .ok v' ∧ v.plain ≠ v'.plain := by
  obtain ⟨failed, one, shown, other⟩ : isError (out halfCall halfFactory halfState).1 = true ∧
      (out halfCall halfFactory halfState).2.records.handlers.length = 1 ∧
      (out plainCall halfFactory halfState).1.toOption.map (·.plain) = some "<i>x</i>" ∧
      (out plainCall halfFactory (out halfCall halfFactory halfState).2).1.toOption.any (·.plain ≠ "<i>x</i>") = true := by
    decide +kernel
  obtain ⟨e, called⟩ := errorValue failed
  obtain ⟨s', ended⟩ : ∃ s', (out halfCall halfFactory halfState).2 = s' := ⟨_, rfl⟩
  rw [ended] at one other
  have value {r : Except RenderError Value} {v : Value} (h : r.toOption = some v) : r = .ok v := by
    cases r with
    | error e => cases h
    | ok w =>
      cases h
      rfl
  obtain ⟨v, given, same⟩ := Option.map_eq_some_iff.mp shown
  obtain ⟨v', given', longer⟩ := (Option.any_eq_true _ _).mp other
  refine ⟨_, _, e, s', halfStarted, rfl, rfl, Prod.ext called ended, one, v, v', value given, value given', ?_⟩
  exact fun is => of_decide_eq_true longer (is.symm.trans same)

end LiveMarkup.Render
