import LiveMarkup.Proofs.Render.Ends
/-! The log of a page: the template calls that render it, each with the tree it settles and with the calls
of the components inside it. The identifiers that the trees get follow on one another without a gap. -/
namespace LiveMarkup.Render
open Client Markup

structure Settled where
  factory : Factory
  markup : String
  before : State
  tree : List Node
  final : List Node
  after : State

inductive Entry where
  | mk (own? : Option Settled) (inside : List Entry)

abbrev Log (β : Type) := Factory → State → List β

abbrev NestedLog (β : Type) := Component → Page → List β

abbrev CallLog (β : Type) := String → List Value → Int → Log β

section Define

variable {α β : Type} (nested : Nested) (inner : NestedLog β) (wrap : Option Settled → List β → List β)
  (onCall : CallLog β) (onReturn : Value → List β) (results : Results)

def noLog : Log β := fun _ _ => []

def after (m : Rendering α) (next : α → Log β) : Log β := fun f s =>
  match out m f s with
  | (.ok a, s') => next a f s'
  | (.error _, _) => []

def andThen (l : Log β) (m : Rendering α) (next : α → Log β) : Log β := fun f s => l f s ++ after m next f s

def pieceLog : Piece → Log β
  | .plain _ => noLog
  | .placeholder key => fun _ s =>
    match s.deferred.find? (·.1 == key) with
    | some (_, .component c) => inner c s.page
    | _ => []

def piecesLog : List Piece → Log β
  | [] => noLog
  | p :: rest => andThen (pieceLog inner p) (spliced nested p) fun _ => piecesLog rest

def spliceLog (markup : String) : Log β := fun f => piecesLog nested inner (Piece.split f.number markup) f

def settleLog (markup : String) : Log β := fun f s =>
  match readTree markup with
  | .error _ => []
  | .ok tree =>
    match out (settleTree tree) f s with
    | (.error _, _) => []
    | (.ok final, s') =>
      let inside :=
        if (leftIn f s' (writeTree final)).isEmpty then
          spliceLog nested inner (writeTree final) f { s' with live := [] }
        else []
      wrap (some ⟨f, markup, s, tree, final, s'⟩) inside

def callLog : CallLog β := fun template values line =>
  after (filled template values line) fun markup f s =>
    if s.live.isEmpty then wrap none (spliceLog nested inner markup f s) else settleLog nested inner wrap markup f s

mutual

def makeLog : Recipe → Log β
  | .value _ | .raise _ _ | .step _ | .field _ | .requestPath => noLog
  | .list items | .tuple items | .generator items | .set items => makeAllLog items
  | .dict entries => makeEntriesLog [] entries
  | .promise url options _ => andThen (makeLog url) (make nested results url) fun _ =>
    match options with
    | none => noLog
    | some o => makeLog o
  | .component _ fields => makeFieldsLog fields
  | .add left right => andThen (makeLog left) (make nested results left) fun _ => makeLog right
  | .html (.mk template values line _) =>
    andThen (makeAllLog values) (makeAll nested results values) fun vs => onCall template vs line

def makeAllLog : List Recipe → Log β
  | [] => noLog
  | r :: rest => andThen (makeLog r) (make nested results r) fun _ => makeAllLog rest

def makeEntriesLog (done : List (Value × Value)) : List (Recipe × Recipe) → Log β
  | [] => noLog
  | (k, v) :: rest => andThen (makeLog k) (make nested results k) fun key =>
    andThen (makeLog v) (make nested results v) fun value =>
      after (asKey key) fun key => makeEntriesLog (Value.insert key value done) rest

def makeFieldsLog : List (String × Recipe) → Log β
  | [] => noLog
  | (_, r) :: rest => andThen (makeLog r) (make nested results r) fun _ => makeFieldsLog rest

end

def stepLog : Step → Log β
  | .mk template values line _ =>
    andThen (makeAllLog nested onCall results values) (makeAll nested results values) fun vs => onCall template vs line

def stepsLog (results : Results) : List Step → Log β
  | [] => noLog
  | s :: rest => andThen (stepLog nested onCall results s) (runGuarded nested results s) fun v =>
    stepsLog (results ++ [v]) rest

def returned (c : Component) (results : Results) : Rendering Value :=
  match c.returns? with
  | some r => make nested results r
  | none => return results.getLast?.getD (.text "")

def returnLog (c : Component) (results : Results) : Log β :=
  match c.returns? with
  | some r => makeLog nested onCall results r
  | none => noLog

def methodLog (c : Component) : Log β :=
  andThen (stepsLog nested onCall [] c.steps) (runSteps nested [] c.steps) fun results =>
    andThen (returnLog nested onCall c results) (returned nested c results) fun v _ _ => onReturn v

def componentLog (request? : Option String) (c : Component) (page : Page) : List β :=
  match newFactory c request? page with
  | .error _ => []
  | .ok (f, s) => methodLog nested onCall onReturn c f s

end Define

def logWithin {β : Type} (onCall : Nested → NestedLog β → CallLog β) (onReturn : Value → List β)
    (request? : Option String) : (depth : Nat) → NestedLog β
  | 0 => fun _ _ => []
  | depth + 1 =>
    let nested := nestedBy (renderWithin request? depth)
    componentLog nested (onCall nested (logWithin onCall onReturn request? depth)) onReturn request?

def entryLog (nested : Nested) (inner : NestedLog Entry) : CallLog Entry :=
  callLog nested inner fun own? inside => [.mk own? inside]

def pageLog (page : Page) : List Component → List Entry
  | [] => []
  | c :: rest =>
    logWithin entryLog (fun _ => []) none c.depth c page ++ pageLog (renderComponent c none page).page rest

section Told

variable {α β : Type} {f : Factory} {s s' : State} {I : State → Prop} {nested : Nested} {inner : NestedLog Entry}

/-- The tree was settled by a call that a factory in use served. -/
structure Real (x : Settled) : Prop where
  filling : ∃ s template values line, Reached x.factory s ∧
    out (filled template values line) x.factory s = (.ok x.markup, x.before)
  settling : Settling x.factory x.before x.markup x.tree x.final x.after

def OwnTold : Option Settled → Nat → Nat → Prop
  | none, n, n' => n' = n
  | some x, n, n' => Real x ∧ x.before.page.nextId = n ∧ x.after.page.nextId = n'

inductive Told : List Entry → Nat → Nat → Prop where
  | none {n} : Told [] n n
  | entry {own? inside others n n₁ n₂ n₃} (own : OwnTold own? n n₁) (within : Told inside n₁ n₂)
      (rest : Told others n₂ n₃) : Told (.mk own? inside :: others) n n₃

theorem toldAppend {a b : List Entry} {n m k : Nat} (h : Told a n m) (h' : Told b m k) : Told (a ++ b) n k := by
  induction h with
  | none => exact h'
  | entry own within _ _ ih => exact .entry own within (ih h')

def Tells (I : State → Prop) (f : Factory) (m : Rendering α) (l : Log Entry) : Prop :=
  ∀ s, I s → I (out m f s).2 ∧ Told (l f s) s.page.nextId (out m f s).2.page.nextId

def Idle (f : Factory) (m : Rendering α) : Prop := ∀ s, (out m f s).2 = s

theorem tellsIdle {m : Rendering α} (idle : Idle f m) : Tells I f m noLog := by
  intro s hs
  rw [idle s]
  exact ⟨hs, .none⟩

theorem tellsAfter {m : Rendering α} {k : α → Rendering β} {next : α → Log Entry} (idle : Idle f m)
    (rest : ∀ a, Tells I f (k a) (next a)) : Tells I f (m >>= k) (after m next) := by
  intro s hs
  have same := idle s
  rw [outBind, after]
  rcases ran : out m f s with ⟨_ | a, s₁⟩
  · obtain rfl : s₁ = s := by rw [ran] at same; exact same
    exact ⟨hs, .none⟩
  · obtain rfl : s₁ = s := by rw [ran] at same; exact same
    exact rest a s₁ hs

theorem tellsThen {m : Rendering α} {k : α → Rendering β} {l : Log Entry} {next : α → Log Entry} (first : Tells I f m l)
    (rest : ∀ a, Tells I f (k a) (next a)) : Tells I f (m >>= k) (andThen l m next) := by
  intro s hs
  obtain ⟨kept, told⟩ := first s hs
  rw [outBind, andThen, after]
  rcases ran : out m f s with ⟨_ | a, s₁⟩
  · rw [ran] at kept told
    rw [List.append_nil]
    exact ⟨kept, told⟩
  · rw [ran] at kept told
    obtain ⟨last, later⟩ := rest a s₁ kept
    exact ⟨last, toldAppend told later⟩

theorem tellsLast {m : Rendering α} {k : α → Rendering β} {l : Log Entry} (first : Tells I f m l)
    (idle : ∀ a, Idle f (k a)) : Tells I f (m >>= k) l := by
  intro s hs
  obtain ⟨kept, told⟩ := first s hs
  rw [outBind]
  rcases ran : out m f s with ⟨_ | a, s₁⟩
  · rw [ran] at kept told
    exact ⟨kept, told⟩
  · rw [ran] at kept told
    rw [idle a s₁]
    exact ⟨kept, told⟩

theorem idlePure {a : α} : Idle f (pure a) := fun _ => rfl

theorem idleThrow {e : RenderError} : Idle f (throw e : Rendering α) := fun _ => rfl

theorem idleBind {m : Rendering α} {k : α → Rendering β} (hm : Idle f m) (hk : ∀ a, Idle f (k a)) :
    Idle f (m >>= k) := by
  intro s
  have same := hm s
  rw [outBind]
  rcases ran : out m f s with ⟨_ | a, s₁⟩
  · rw [ran] at same
    exact same
  · obtain rfl : s₁ = s := by rw [ran] at same; exact same
    exact hk a s₁

theorem idleMap {k : α → Rendering β} (h : ∀ a, Idle f (k a)) (as : List α) : Idle f (as.mapM k) := by
  induction as with
  | nil => exact idlePure
  | cons a rest ih =>
    rw [List.mapM_cons]
    exact idleBind (h a) fun _ => idleBind ih fun _ => idlePure

theorem idleKey (v : Value) : Idle f (asKey v) := by
  unfold asKey
  split
  · exact idleThrow
  · exact idlePure

def InnerTells (nested : Nested) (inner : NestedLog Entry) : Prop :=
  ∀ c page, Told (inner c page) page.nextId ((nested c).run page).2.nextId

theorem toldNested {c : Component} (inside : InnerTells nested inner) :
    Told (inner c s.page) s.page.nextId (out (renderNested nested c) f s).2.page.nextId := by
  have told := inside c s.page
  rw [renderNested, outBind, outGet]
  simp only
  split
  next result page ran =>
  have left : page = ((nested c).run s.page).2 := by rw [ran]
  rw [← left] at told
  cases result with
  | ok output => exact told
  | error e => exact told

theorem takeNone {key : String} (found : s.deferred.find? (·.1 == key) = none) :
    out (takeDeferred? key) f s = (.ok none, s) := by
  rw [takeDeferred?, outBind, outGet]
  simp only [found]
  rfl

theorem takeSome {key own : String} {content : Deferred} (found : s.deferred.find? (·.1 == key) = some (own, content)) :
    out (takeDeferred? key) f s = (.ok (some content), { s with deferred := s.deferred.filter (·.1 != key) }) := by
  rw [takeDeferred?, outBind, outGet]
  simp only [found]
  rfl

theorem tellsSpliced (inside : InnerTells nested inner) (p : Piece) :
    Tells (fun _ => True) f (spliced nested p) (pieceLog inner p) := by
  intro s _
  refine ⟨trivial, ?_⟩
  cases p with
  | plain text => exact .none
  | placeholder key =>
    cases found : s.deferred.find? (·.1 == key) with
    | none =>
      rw [spliced, outBind, takeNone found]
      simp only [pieceLog, found]
      exact .none
    | some d =>
      obtain ⟨key', content⟩ := d
      rw [spliced, outBind, takeSome found]
      cases content with
      | markup text =>
        simp only [pieceLog, found]
        exact .none
      | component c =>
        simp only [pieceLog, found]
        exact toldNested (s := { s with deferred := s.deferred.filter (·.1 != key) }) inside

theorem tellsPieces (inside : InnerTells nested inner) (pieces : List Piece) :
    Tells (fun _ => True) f (pieces.mapM (spliced nested)) (piecesLog nested inner pieces) := by
  induction pieces with
  | nil => exact tellsIdle idlePure
  | cons p rest ih =>
    rw [List.mapM_cons]
    exact tellsThen (tellsSpliced inside p) fun _ => tellsLast ih fun _ => idlePure

theorem toldFinished (inside : InnerTells nested inner) (markup : String) (s : State) :
    Told (spliceLog nested inner markup f s) s.page.nextId (out (finished nested markup) f s).2.page.nextId := by
  have body : Tells (fun _ => True) f (splice nested markup) (spliceLog nested inner markup) := by
    intro s _
    rw [splice, outBind, outRead]
    exact tellsLast (tellsPieces inside _) (fun _ => idlePure) s trivial
  rw [finished, outBind, outRead]
  refine (tellsLast body (fun text s => ?_) s trivial).2
  rw [outBind, outGet]
  simp only
  split
  · rfl
  split
  · rfl
  · rfl

end Told

section Calls

variable {f : Factory} {s : State} {nested : Nested} {inner : NestedLog Entry} {template : String}
  {values : List Value} {line : Int}

theorem filledPage {r : Except RenderError String} {s₁ : State}
    (filling : out (filled template values line) f s = (r, s₁)) : s₁.page = s.page := by
  obtain ⟨marked, fills⟩ := @fillsFilled f s template values line
  rw [filling] at fills
  obtain ⟨next, put, rfl⟩ := fills.same
  rfl

theorem toldSettled {markup : String} {tree final : List Node} {s₁ s₂ s' : State} {inside : List Entry}
    (reached : Reached f s) (filling : out (filled template values line) f s = (.ok markup, s₁))
    (settling : Settling f s₁ markup tree final s₂)
    (within : Told inside s₂.page.nextId s'.page.nextId) :
    Told [.mk (some ⟨f, markup, s₁, tree, final, s₂⟩) inside] s.page.nextId s'.page.nextId := by
  refine .entry ⟨⟨⟨s, template, values, line, reached, filling⟩, settling⟩, ?_, rfl⟩ within .none
  rw [filledPage filling]

theorem callTells (inside : InnerTells nested inner) (reached : Reached f s) :
    Told (entryLog nested inner template values line f s) s.page.nextId
      (out (call nested template values line) f s).2.page.nextId := by
  generalize ended : out (call nested template values line) f s = r
  have ends := @callEnds f s nested template values line
  rw [ended] at ends
  rw [entryLog, callLog, after]
  cases ends with
  | unfilled filling =>
    simp only [filling, filledPage filling]
    exact .none
  | still filling none =>
    simp only [filling, none, List.isEmpty_nil, if_true]
    exact .entry (by rw [OwnTold, filledPage filling]) (toldFinished inside _ _) .none
  | rejected filling pending read =>
    simp only [filling, settleLog, read, List.isEmpty_eq_false_iff.mpr pending, Bool.false_eq_true, if_false,
      filledPage filling]
    exact .none
  | unreachable filling settling left =>
    simp only [filling, settleLog, settling.read, settling.settled, left, List.isEmpty_cons,
      List.isEmpty_eq_false_iff.mpr settling.pending, Bool.false_eq_true, if_false]
    exact toldSettled reached filling settling .none
  | settled filling settling left =>
    simp only [filling, settleLog, settling.read, settling.settled, left, List.isEmpty_nil, if_true,
      List.isEmpty_eq_false_iff.mpr settling.pending, Bool.false_eq_true, if_false]
    exact toldSettled reached filling settling (toldFinished inside _ _)

theorem outTry {α : Type} {m : Rendering α} {handler : RenderError → Rendering α} :
    out (tryCatch m handler) f s = match out m f s with
      | (.ok a, s') => (.ok a, s')
      | (.error e, s') => out (handler e) f s' := by
  have split : out (tryCatch m handler) f s = outcome (tryCatch (m.run f) fun e => (handler e).run f) s := rfl
  rw [split, outcomeTry]
  unfold out
  rcases outcome (m.run f) s with ⟨_ | _, _⟩ <;> rfl

theorem outTraced : ∃ trace, out (tracedCall nested template values line) f s =
    ((out (call nested template values line) f s).1, { (out (call nested template values line) f s).2 with trace }) := by
  rw [tracedCall, outBind, outTry, outBind]
  rcases out (call nested template values line) f s with ⟨_ | _, s'⟩
  · exact ⟨_, rfl⟩
  · exact ⟨_, rfl⟩

theorem tracedTells (inside : InnerTells nested inner) :
    Tells (Reached f) f (tracedCall nested template values line) (entryLog nested inner template values line) := by
  intro s reached
  obtain ⟨trace, same⟩ := @outTraced f s nested template values line
  rw [same]
  exact ⟨.elsewhere _ trace (.call nested template values line reached), callTells inside reached⟩

end Calls

section Recipes

variable {f : Factory} {nested : Nested} {inner : NestedLog Entry} {results : Results}

theorem idleStep {number : Nat} : Idle f (stepResult results number) := by
  unfold stepResult
  split
  · exact idlePure
  · exact idleThrow

theorem idleField {name : String} : Idle f (fieldValue name) := by
  intro s
  rw [fieldValue, outBind, outRead]
  simp only
  split <;> rfl

theorem idleRequest : Idle f requestPath := by
  intro s
  rw [requestPath, outBind, outRead]
  simp only
  split <;> rfl

mutual

theorem makeTells (inside : InnerTells nested inner) :
    (r : Recipe) → Tells (Reached f) f (make nested results r) (makeLog nested (entryLog nested inner) results r)
  | .value v => tellsIdle idlePure
  | .raise kind text => tellsIdle idleThrow
  | .step number => tellsIdle idleStep
  | .field name => tellsIdle idleField
  | .requestPath => tellsIdle idleRequest
  | .list items => tellsLast (makeAllTells inside items) fun _ => idlePure
  | .tuple items => tellsLast (makeAllTells inside items) fun _ => idlePure
  | .generator items => tellsLast (makeAllTells inside items) fun _ => idlePure
  | .set items => tellsLast (makeAllTells inside items) fun _ => idleBind (idleMap idleKey _) fun _ => idlePure
  | .dict entries => tellsLast (makeEntriesTells inside [] entries) fun _ => idlePure
  | .promise url none chain => tellsThen (makeTells inside url) fun _ => tellsIdle idlePure
  | .promise url (some o) chain =>
    tellsThen (makeTells inside url) fun _ => tellsLast (makeTells inside o) fun _ => idlePure
  | .component c fields => tellsLast (makeFieldsTells inside fields) fun _ => idlePure
  | .add left right => by
    refine tellsThen (makeTells inside left) fun v => tellsLast (makeTells inside right) fun w => ?_
    split
    · exact idlePure
    · exact idleThrow
  | .html (.mk template values line _) => tellsThen (makeAllTells inside values) fun _ => tracedTells inside

theorem makeAllTells (inside : InnerTells nested inner) :
    (items : List Recipe) → Tells (Reached f) f (makeAll nested results items) (makeAllLog nested (entryLog nested inner) results items)
  | [] => tellsIdle idlePure
  | r :: rest =>
    tellsThen (makeTells inside r) fun _ => tellsLast (makeAllTells inside rest) fun _ => idlePure

theorem makeEntriesTells (inside : InnerTells nested inner) (done : List (Value × Value)) :
    (entries : List (Recipe × Recipe)) →
      Tells (Reached f) f (makeEntries nested results done entries) (makeEntriesLog nested (entryLog nested inner) results done entries)
  | [] => tellsIdle idlePure
  | (k, v) :: rest =>
    tellsThen (makeTells inside k) fun key => tellsThen (makeTells inside v) fun value =>
      tellsAfter (idleKey key) fun key => makeEntriesTells inside (Value.insert key value done) rest

theorem makeFieldsTells (inside : InnerTells nested inner) :
    (fields : List (String × Recipe)) →
      Tells (Reached f) f (makeFields nested results fields) (makeFieldsLog nested (entryLog nested inner) results fields)
  | [] => tellsIdle idlePure
  | (_, r) :: rest =>
    tellsThen (makeTells inside r) fun _ => tellsLast (makeFieldsTells inside rest) fun _ => idlePure

end

theorem stepTells (inside : InnerTells nested inner) :
    (step : Step) → Tells (Reached f) f (runStep nested results step) (stepLog nested (entryLog nested inner) results step)
  | .mk _ values _ _ => tellsThen (makeAllTells inside values) fun _ => tracedTells inside

theorem guardedSame {step : Step} {s : State} :
    (out (runGuarded nested results step) f s).2 = (out (runStep nested results step) f s).2 := by
  obtain ⟨template, values, line, guarded⟩ := step
  cases guarded with
  | false => rfl
  | true =>
    rw [runGuarded, outTry]
    rcases out (runStep nested results (.mk template values line true)) f s with ⟨_ | _, s'⟩
    · rfl
    · rfl

theorem stepsTell (inside : InnerTells nested inner) (steps : List Step) :
    Tells (Reached f) f (runSteps nested results steps) (stepsLog nested (entryLog nested inner) results steps) := by
  induction steps generalizing results with
  | nil => exact tellsIdle idlePure
  | cons step rest ih =>
    refine tellsThen (fun s reached => ?_) fun _ => ih
    rw [guardedSame]
    exact stepTells inside step s reached

theorem methodReturned {c : Component} : runMethod nested c = (do
    let results ← runSteps nested [] c.steps
    let v ← returned nested c results
    return v.trusted) := by
  unfold runMethod returned
  cases c.returns? <;> rfl

theorem methodTells {c : Component} (inside : InnerTells nested inner) :
    Tells (Reached f) f (runMethod nested c) (methodLog nested (entryLog nested inner) (fun _ => []) c) := by
  rw [methodReturned]
  refine tellsThen (stepsTell inside c.steps) fun results => tellsThen ?_ fun v => tellsIdle idlePure
  unfold returned returnLog
  cases c.returns? with
  | some r => exact makeTells inside r
  | none => exact tellsIdle idlePure

end Recipes

section Pages

variable {nested : Nested} {inner : NestedLog Entry} {request? : Option String}

theorem componentTells {c : Component} {page : Page} (inside : InnerTells nested inner) :
    Told (componentLog nested (entryLog nested inner) (fun _ => []) request? c page) page.nextId (renderWith nested request? c page).page.nextId := by
  rw [componentLog, renderWith]
  cases made : newFactory c request? page with
  | error e => exact .none
  | ok given =>
    obtain ⟨f, s⟩ := given
    have told := (methodTells (c := c) inside s (.start made)).2
    obtain ⟨_, _, _, rfl⟩ := newFactoryOk made
    exact told

theorem nestedRun {render : Component → Page → Outcome} {c : Component} {page : Page} :
    (nestedBy render c).run page = ((render c page).result, (render c page).page) := by
  show outcome (nestedBy render c) page = _
  rw [nestedBy, outcomeBind, show outcome get page = (.ok page, page) from rfl]
  simp only
  rw [outcomeBind, show outcome (set (render c page).page) page = (.ok (), (render c page).page) from rfl]
  simp only
  cases (render c page).result <;> rfl

theorem withinTells (depth : Nat) : InnerTells (nestedBy (renderWithin request? depth))
    (logWithin entryLog (fun _ => []) request? depth) := by
  induction depth with
  | zero => exact fun c page => .none
  | succ depth ih =>
    intro c page
    have told := @componentTells _ _ request? c page ih
    rw [nestedRun]
    exact told

theorem pageTells {components : List Component} {page : Page} :
    Told (pageLog page components) page.nextId (renderPage page components).2.nextId := by
  induction components generalizing page with
  | nil => exact .none
  | cons c rest ih =>
    refine toldAppend ?_ ih
    have told := @withinTells none c.depth c page
    rwa [nestedRun] at told

end Pages

end LiveMarkup.Render
