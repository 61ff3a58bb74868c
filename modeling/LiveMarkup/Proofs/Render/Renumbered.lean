import LiveMarkup.Proofs.Render.Evaluated
import LiveMarkup.Proofs.Render.Incidents
/-! A component tree that is rendered after others gets the identifiers behind theirs, and nothing else is
different: what its factories record is what they record on a fresh page, with those identifiers. -/
namespace LiveMarkup.Render
open Analysis Client Markup

section Define

variable (nested : Nested) (inner : NestedTrail) (results : Results)

mutual

def makeTrail : Recipe → Trail Incident
  | .value _ | .raise _ _ | .step _ | .field _ | .requestPath => .silent
  | .list items | .tuple items | .generator items => makeAllTrail items
  | .set items => .chain (makeAllTrail items) (makeAll nested results items) fun vs =>
    .behind (vs.mapM asKey) fun keys _ _ => keys.map .keyed
  | .dict entries => makeEntriesTrail [] entries
  | .promise url options _ => .chain (makeTrail url) (make nested results url) fun _ =>
    match options with
    | none => .silent
    | some o => makeTrail o
  | .component _ fields => makeFieldsTrail fields
  | .add left right => .chain (makeTrail left) (make nested results left) fun _ => makeTrail right
  | .html (.mk template values line _) =>
    .chain (makeAllTrail values) (makeAll nested results values) fun vs => callTrail nested inner template vs line

def makeAllTrail : List Recipe → Trail Incident
  | [] => .silent
  | r :: rest => .chain (makeTrail r) (make nested results r) fun _ => makeAllTrail rest

def makeEntriesTrail (done : List (Value × Value)) : List (Recipe × Recipe) → Trail Incident
  | [] => .silent
  | (k, v) :: rest => .chain (makeTrail k) (make nested results k) fun key =>
    .chain (makeTrail v) (make nested results v) fun value =>
      .behind (asKey key) fun key f s =>
        .keyed key :: makeEntriesTrail (Value.insert key value done) rest f s

def makeFieldsTrail : List (String × Recipe) → Trail Incident
  | [] => .silent
  | (_, r) :: rest => .chain (makeTrail r) (make nested results r) fun _ => makeFieldsTrail rest

end

def stepTrail : Step → Trail Incident
  | .mk template values line _ =>
    .chain (makeAllTrail nested inner results values) (makeAll nested results values) fun vs =>
      callTrail nested inner template vs line

def stepsTrail (results : Results) : List Step → Trail Incident
  | [] => .silent
  | s :: rest => .chain (stepTrail nested inner results s) (runGuarded nested results s) fun v =>
    stepsTrail (results ++ [v]) rest

def methodTrail (c : Component) : Trail Incident :=
  .chain (stepsTrail nested inner [] c.steps) (runSteps nested [] c.steps) fun results =>
    match c.returns? with
    | some r => makeTrail nested inner results r
    | none => .silent

def componentTrail (request? : Option String) (c : Component) (page : Page) : List Incident :=
  match newFactory c request? page with
  | .error _ => []
  | .ok (f, s) => methodTrail nested inner c f s ++ [.served f (out (runMethod nested c) f s).2]

end Define

def trailWithin (request? : Option String) : (depth : Nat) → NestedTrail
  | 0 => fun _ _ => []
  | depth + 1 => componentTrail (nestedBy (renderWithin request? depth)) (trailWithin request? depth) request?

def renderTrail (c : Component) (request? : Option String) (page : Page) : List Incident :=
  trailWithin request? c.depth c page

variable {k : Nat} {f f' : Factory} {nested : Nested} {inner : NestedTrail}

section Recipes

variable {results results' : Results}

theorem twinsStep (near : NearAll results results') (number : Nat) :
    Twins k f f' Near (stepResult results number) (stepResult results' number) := by
  have found := nearAt near number
  unfold stepResult
  revert found
  generalize results[number]? = v?, results'[number]? = w?
  rintro (near | _)
  · exact twinsPure near
  · exact twinsThrow

theorem twinsField (twin : Twin f f') (name : String) :
    Twins k f f' Near (fieldValue name) (fieldValue name) := by
  refine twinsRead ?_
  have found := nearGet twin.held name
  revert found
  generalize f.component.get? name = v?, f'.component.get? name = w?
  rintro (near | _)
  · exact twinsPure near
  · exact twinsThrow

theorem twinsRequest (twin : Twin f f') : Twins k f f' Near requestPath requestPath := by
  refine twinsRead ?_
  rw [twin.request]
  split
  · exact twinsPure .same
  · exact twinsThrow

theorem twinsKey {v w : Value} (near : Near v w) :
    Twins k f f' (fun key key' => key = v ∧ key' = w) (asKey v) (asKey w) := by
  unfold asKey
  rw [nearChanges near]
  split
  · exact twinsThrow
  · exact twinsPure ⟨rfl, rfl⟩

theorem twinsKeys {vs ws : List Value} (near : NearAll vs ws) :
    Twins k f f' NearAll (vs.mapM asKey) (ws.mapM asKey) := by
  induction vs generalizing ws with
  | nil =>
    cases near
    exact twinsPure .nil
  | cons v rest ih =>
    cases near with
    | cons first others =>
      rw [List.mapM_cons, List.mapM_cons]
      refine twinsBind (twinsKey first) ?_
      rintro _ _ ⟨rfl, rfl⟩
      exact twinsBind (ih others) fun _ _ later => twinsPure (.cons first later)

theorem pairedKeys {vs ws : List Value} (near : NearAll vs ws) :
    Paired k f f' Near
      (do
        let keys ← vs.mapM asKey
        return .set (keys.foldl (fun done v => Value.adjoin v done) []))
      (do
        let keys ← ws.mapM asKey
        return .set (keys.foldl (fun done v => Value.adjoin v done) []))
      (.behind (vs.mapM asKey) fun keys _ _ => keys.map .keyed)
      (.behind (ws.mapM asKey) fun keys _ _ => keys.map .keyed) := by
  refine pairedBehind (twinsKeys near) fun keys keys' near s s' shifted quiet => ?_
  have none (keys : List Value) : servedIn (keys.map .keyed) = [] :=
    servedNone (List.forall_mem_map.mpr fun _ _ _ _ => nofun)
  have clear : ∀ v ∈ keys, Unnamed v := fun v mem => quiet (.keyed v) (List.mem_map_of_mem mem)
  refine ⟨endsPure (.set (nearSet near .nil clear fun _ mem => absurd mem List.not_mem_nil)) shifted, ?_⟩
  rw [none, none]
  exact .nil

mutual

theorem pairedMake (twin : Twin f f') (inside : NestedPaired k nested inner) (near : NearAll results results') :
    (r : Recipe) → Paired k f f' Near (make nested results r) (make nested results' r)
      (makeTrail nested inner results r) (makeTrail nested inner results' r)
  | .value v => pairedTwins (twinsPure .same)
  | .raise _ _ => pairedTwins twinsThrow
  | .step number => pairedTwins (twinsStep near number)
  | .field name => pairedTwins (twinsField twin name)
  | .requestPath => pairedTwins (twinsRequest twin)
  | .list items => pairedLast (pairedMakeAll twin inside near items) fun _ _ near => twinsPure (.list near)
  | .tuple items => pairedLast (pairedMakeAll twin inside near items) fun _ _ near => twinsPure (.tuple near)
  | .generator items => pairedLast (pairedMakeAll twin inside near items) fun _ _ near => twinsPure (.generator near)
  | .set items => pairedChain (pairedMakeAll twin inside near items) fun _ _ near => pairedKeys near
  | .dict entries =>
    pairedLast (pairedMakeEntries twin inside near .nil (fun _ mem => absurd mem List.not_mem_nil) entries)
      fun _ _ near => twinsPure (.dict near)
  | .promise url none _ =>
    pairedChain (pairedMake twin inside near url) fun _ _ near => pairedTwins (twinsPure (.promise near))
  | .promise url (some o) _ =>
    pairedChain (pairedMake twin inside near url) fun _ _ nearUrl =>
      pairedLast (pairedMake twin inside near o) fun _ _ nearOptions => twinsPure (.promiseWith nearUrl nearOptions)
  | .component c fields =>
    pairedLast (pairedMakeFields twin inside near fields) fun made made' held => twinsPure (by
      have both : (c.withFields made).withFields made' = c.withFields made' := rfl
      exact both ▸ .component held)
  | .add left right =>
    pairedChain (pairedMake twin inside near left) fun v v' nearLeft =>
      pairedLast (pairedMake twin inside near right) fun w w' nearRight => by
        have sum := nearAdd nearLeft nearRight
        revert sum
        generalize v.add w = r, v'.add w' = r'
        rintro (near | _)
        · exact twinsPure near
        · exact twinsThrow
  | .html (.mk _ values _ _) =>
    pairedChain (pairedMakeAll twin inside near values) fun _ _ near => pairedTraced twin inside near

theorem pairedMakeAll (twin : Twin f f') (inside : NestedPaired k nested inner) (near : NearAll results results') :
    (items : List Recipe) → Paired k f f' NearAll (makeAll nested results items) (makeAll nested results' items)
      (makeAllTrail nested inner results items) (makeAllTrail nested inner results' items)
  | [] => pairedTwins (twinsPure .nil)
  | r :: rest =>
    pairedChain (pairedMake twin inside near r) fun _ _ first =>
      pairedLast (pairedMakeAll twin inside near rest) fun _ _ others => twinsPure (.cons first others)

theorem pairedMakeEntries {done done' : List (Value × Value)} (twin : Twin f f')
    (inside : NestedPaired k nested inner) (near : NearAll results results') (made : NearEntries done done')
    (unnamed : ∀ e ∈ done, Unnamed e.1) :
    (entries : List (Recipe × Recipe)) → Paired k f f' NearEntries (makeEntries nested results done entries)
      (makeEntries nested results' done' entries) (makeEntriesTrail nested inner results done entries)
      (makeEntriesTrail nested inner results' done' entries)
  | [] => pairedTwins (twinsPure made)
  | (key, value) :: rest =>
    pairedChain (pairedMake twin inside near key) fun _ _ nearKey =>
      pairedChain (pairedMake twin inside near value) fun _ _ nearValue =>
        pairedBehind (twinsKey nearKey) (by
          rintro _ _ ⟨rfl, rfl⟩ s s' shifted quiet
          obtain ⟨clear, later⟩ := List.forall_mem_cons.mp quiet
          have inserted := nearInsert nearKey clear nearValue made unnamed
          obtain ⟨ends, served⟩ :=
            pairedMakeEntries twin inside near inserted (insertKeys clear unnamed) rest s s' shifted later
          exact ⟨ends, served⟩)

theorem pairedMakeFields (twin : Twin f f') (inside : NestedPaired k nested inner) (near : NearAll results results') :
    (fields : List (String × Recipe)) → Paired k f f' NearFields (makeFields nested results fields)
      (makeFields nested results' fields) (makeFieldsTrail nested inner results fields)
      (makeFieldsTrail nested inner results' fields)
  | [] => pairedTwins (twinsPure .nil)
  | (_, r) :: rest =>
    pairedChain (pairedMake twin inside near r) fun _ _ first =>
      pairedLast (pairedMakeFields twin inside near rest) fun _ _ others => twinsPure (.cons first others)

end

theorem pairedStep (twin : Twin f f') (inside : NestedPaired k nested inner) (near : NearAll results results') :
    (step : Step) → Paired k f f' Near (runStep nested results step) (runStep nested results' step)
      (stepTrail nested inner results step) (stepTrail nested inner results' step)
  | .mk _ values _ _ =>
    pairedChain (pairedMakeAll twin inside near values) fun _ _ near => pairedTraced twin inside near

theorem pairedGuarded (twin : Twin f f') (inside : NestedPaired k nested inner) (near : NearAll results results')
    (step : Step) : Paired k f f' Near (runGuarded nested results step) (runGuarded nested results' step)
      (stepTrail nested inner results step) (stepTrail nested inner results' step) := by
  have run := pairedStep twin inside near step
  obtain ⟨template, values, line, guarded⟩ := step
  cases guarded with
  | false => exact run
  | true =>
    intro s s' shifted quiet
    obtain ⟨⟨ends, states⟩, served⟩ := run s s' shifted quiet
    rw [runGuarded, runGuarded, outTry, outTry]
    rcases ran : out (runStep nested results (.mk template values line true)) f s with ⟨r, s₁⟩
    rcases ran' : out (runStep nested results' (.mk template values line true)) f' s' with ⟨r', s₁'⟩
    rw [ran, ran'] at ends states
    cases ends with
    | ok near => exact ⟨endsPure near states, served⟩
    | error => exact ⟨endsPure .same states, served⟩

theorem pairedSteps (twin : Twin f f') (inside : NestedPaired k nested inner) (near : NearAll results results')
    (steps : List Step) : Paired k f f' NearAll (runSteps nested results steps) (runSteps nested results' steps)
      (stepsTrail nested inner results steps) (stepsTrail nested inner results' steps) := by
  induction steps generalizing results results' with
  | nil => exact pairedTwins (twinsPure near)
  | cons step rest ih =>
    exact pairedChain (pairedGuarded twin inside near step) fun _ _ made => ih (nearAppend near (.cons made .nil))

theorem pairedMethod {c : Component} (twin : Twin f f') (inside : NestedPaired k nested inner) :
    Paired k f f' Near (runMethod nested c) (runMethod nested c) (methodTrail nested inner c)
      (methodTrail nested inner c) := by
  refine pairedChain (pairedSteps twin inside .nil c.steps) fun results results' near => ?_
  cases c.returns? with
  | some r => exact pairedLast (pairedMake twin inside near r) fun _ _ made => twinsPure (nearTrusted made)
  | none => exact pairedTwins (twinsPure (nearTrusted (nearLast near)))

end Recipes

section Pages

def Page.ahead (k : Nat) (page : Page) : Page := { page with nextId := page.nextId + k }

variable {c : Component} {fields : List (String × Value)} {request? : Option String} {page : Page}

theorem visitsComponent (inside : NestedPaired k nested inner) (held : NearFields c.fields fields)
    (quiet : ∀ e ∈ componentTrail nested inner request? c page, e.Quiet) :
    Visits k ((renderWith nested request? c page).result, (renderWith nested request? c page).page)
      ((renderWith nested request? (c.withFields fields) (page.ahead k)).result,
        (renderWith nested request? (c.withFields fields) (page.ahead k)).page)
      (componentTrail nested inner request? c page)
      (componentTrail nested inner request? (c.withFields fields) (page.ahead k)) := by
  rw [componentTrail] at quiet
  rw [componentTrail, componentTrail, renderWith, renderWith]
  unfold newFactory at quiet ⊢
  rw [slotsHeld]
  cases analyzed : slotsOf c with
  | error e => exact ⟨.error, rfl, .nil⟩
  | ok slots =>
    rw [analyzed] at quiet
    let f : Factory := ⟨c, page.nextFactory, slots, request?⟩
    let f' : Factory := ⟨c.withFields fields, page.nextFactory, slots, request?⟩
    let s : State := f.start { page with nextFactory := page.nextFactory + 1 }
    let s' : State := f'.start { page.ahead k with nextFactory := page.nextFactory + 1 }
    have twin : Twin f f' := { number := rfl, slots := rfl, className := rfl, request := rfl, held }
    have start : Shifted k f s s' :=
      ⟨rfl, rfl, rfl, ⟨.nil, .nil, .nil⟩, .nil, .nil, fun _ mem => absurd mem List.not_mem_nil⟩
    obtain ⟨⟨results, states⟩, others⟩ := pairedMethod (c := c) twin inside s s' start fun e mem =>
      quiet e (List.mem_append_left _ mem)
    refine ⟨?_, states.page, ?_⟩
    · have plain {r r' : Except RenderError Value} (h : Matches Near r r') :
          Matches Kin (r.map (·.plain)) (r'.map (·.plain)) := by
        cases h with
        | ok near => exact .ok (nearPlain near)
        | error => exact .error
      exact plain results
    · exact answersAppend others (.cons ⟨twin.toPeers, states.records⟩ .nil)

theorem withinPaired (depth : Nat) :
    NestedPaired k (nestedBy (renderWithin request? depth)) (trailWithin request? depth) := by
  induction depth with
  | zero =>
    intro c fields page _ _
    rw [nestedRun, nestedRun]
    exact ⟨.ok .same, rfl, .nil⟩
  | succ depth ih =>
    intro c fields page held quiet
    rw [nestedRun, nestedRun]
    exact visitsComponent ih held quiet

/-- If a component tree is rendered on a page that has given out `k` more identifiers, the render succeeds or fails
as before, takes as many identifiers, and every factory records the same with identifiers that are `k` later.
That is, if the texts of its values do not name elements where they are written into markup, shown or used as keys,
and no element of a markup has an identifier before its live slots are settled. -/
theorem renumbered (quiet : ∀ e ∈ renderTrail c request? page, e.Quiet) :
    Agrees (renderComponent c request? page).result (renderComponent c request? (page.ahead k)).result ∧
      (renderComponent c request? (page.ahead k)).page = (renderComponent c request? page).page.ahead k ∧
      List.Forall₂ (Answers k) (servedIn (renderTrail c request? page))
        (servedIn (renderTrail c request? (page.ahead k))) := by
  have held : c.withFields c.fields = c := by
    obtain ⟨⟩ := c
    rfl
  obtain ⟨results, page, served⟩ := @withinPaired k request? c.depth c c.fields page (fieldsSelf _) quiet
  rw [held, nestedRun, nestedRun] at results page
  rw [held] at served
  exact ⟨agreesOf results, page, served⟩

def tallyTemplate : String := "<b onclick=\x7b\x7d>\x7b\x7d</b>\x7b\x7d"

def tally (behind : Recipe) : Component :=
  .mk "Tally" [("n", .whole 1)]
    (some ("def render(self, ctx):\n    return ctx.html('" ++ tallyTemplate ++
      "', lambda: setattr(self, 'n', 2), self.n, self.rest)\n"))
    1 "tally.py" [.mk tallyTemplate [.value (.object "function"), .value (.whole 1), behind] 2 false] none

def trailBy (slots : Component → Except RenderError (List Slot)) (request? : Option String) : (depth : Nat) → NestedTrail
  | 0 => fun _ _ => []
  | depth + 1 => fun c page =>
    let nested := nestedBy (renderBy slots request? depth)
    match factoryBy slots c request? page with
    | .error _ => []
    | .ok (f, s) => methodTrail nested (trailBy slots request? depth) c f s ++ [.served f (out (runMethod nested c) f s).2]

theorem trailSame {request? : Option String} {depth : Nat} : trailBy slotsOf request? depth = trailWithin request? depth := by
  induction depth with
  | zero => rfl
  | succ depth ih =>
    funext c page
    rw [trailBy, ih, renderSame]
    rfl

theorem trailGiven {known : List (Component × List Slot)} {request? : Option String} {depth : Nat}
    (h : ∀ k ∈ known, (slotsOf k.1).toOption = some k.2) :
    trailWithin request? depth = trailBy (slotsBy known) request? depth := by
  rw [slotsGiven h, trailSame]

def idsIn (es : List Incident) : List (List String) := (servedIn es).map fun x => x.2.records.ids

theorem answersIds {es es' : List Incident} (answers : List.Forall₂ (Answers k) (servedIn es) (servedIn es')) :
    List.Forall₂ (List.Forall₂ (Later k)) (idsIn es) (idsIn es') := by
  have ids {β : Type} {id : β → String} {P : β → β → Prop} {bs bs' : List β}
      (later : ∀ b b', P b b' → Later k (id b) (id b')) (all : List.Forall₂ P bs bs') :
      List.Forall₂ (Later k) (bs.map id) (bs'.map id) :=
    List.forall₂_map_left_iff.mpr (List.forall₂_map_right_iff.mpr (all.imp later))
  refine List.forall₂_map_left_iff.mpr (List.forall₂_map_right_iff.mpr (answers.imp fun x x' h => ?_))
  obtain ⟨bindings, handlers, chains⟩ := h.records
  exact List.rel_append (List.rel_append (ids (fun _ _ => And.left) bindings) (ids (fun _ _ => And.left) handlers))
    (ids (fun _ _ => And.left) chains)

def tallies : Component := tally (.value (.component (tally (.value .none))))

def tallySlots : List Slot :=
  [{ signals := ["n"], writes := ["n"], isFunction := true, isEvent := true, eventName := some "onclick",
     source := "() => this.n = 2", bodySource := some "this.n = 2", expression := "lambda: setattr(self, 'n', 2)",
     template := tallyTemplate, line := 2 },
   { signals := ["n"], source := "this.n", expression := "self.n", template := tallyTemplate, slot := 1, line := 2 },
   { signals := ["rest"], source := "this.rest", expression := "self.rest", template := tallyTemplate, slot := 2, line := 2 }]

theorem talliesAnalyzed : ∀ k ∈ [(tallies, tallySlots)], (slotsOf k.1).toOption = some k.2 :=
  List.forall_mem_singleton.mpr
    (slotsListed rfl (listedAppend (listedAppend (listedText rfl) rfl) rfl) rfl (by decide +kernel))

theorem talliesRenumbered :
    (∀ e ∈ renderTrail tallies none {}, e.Quiet) ∧
      idsIn (renderTrail tallies none {}) = [["_1", "_1"], ["_0", "_0"]] ∧
      Agrees (renderComponent tallies none {}).result (renderComponent tallies none (Page.ahead 7 {})).result ∧
      (renderComponent tallies none (Page.ahead 7 {})).page = (renderComponent tallies none {}).page.ahead 7 ∧
      List.Forall₂ (Answers 7) (servedIn (renderTrail tallies none {}))
        (servedIn (renderTrail tallies none (Page.ahead 7 {}))) := by
  obtain ⟨quiet, ids⟩ : (∀ e ∈ renderTrail tallies none {}, e.Quiet) ∧
      idsIn (renderTrail tallies none {}) = [["_1", "_1"], ["_0", "_0"]] := by
    rw [renderTrail, trailGiven talliesAnalyzed]
    decide +kernel
  exact ⟨quiet, ids, renumbered quiet⟩

/-- Neither the template nor a value names an element, but the markup does. Its identifier is the same on any
page. -/
theorem joinedKept :
    ¬Named joinedTemplate ∧ ¬Named "data" ∧
      idsIn (renderTrail joined none {}) = [["_0", "_0"]] ∧
      idsIn (renderTrail joined none (Page.ahead 1 {})) = [["_0", "_1"]] ∧
      ¬List.Forall₂ (Answers 1) (servedIn (renderTrail joined none {}))
        (servedIn (renderTrail joined none (Page.ahead 1 {}))) := by
  obtain ⟨fresh, later⟩ : idsIn (renderTrail joined none {}) = [["_0", "_0"]] ∧
      idsIn (renderTrail joined none (Page.ahead 1 {})) = [["_0", "_1"]] := by
    rw [renderTrail, renderTrail, trailGiven joinedAnalyzed]
    decide +kernel
  refine ⟨by decide, by decide, fresh, later, fun answers => ?_⟩
  have ids := answersIds answers
  rw [fresh, later] at ids
  cases ids with
  | cons ids _ =>
    cases ids with
    | cons first _ =>
      obtain ⟨n, zero, zero'⟩ := first
      exact absurd (idInjective (zero.symm.trans zero')) (Nat.succ_ne_self n).symm

end Pages

end LiveMarkup.Render
