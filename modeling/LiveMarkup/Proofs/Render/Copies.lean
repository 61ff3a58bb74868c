import LiveMarkup.Proofs.Render.Enclosed
import LiveMarkup.Proofs.Render.Failed
import LiveMarkup.Proofs.Render.Ordered
import LiveMarkup.Proofs.Render.Written
/-! Copies of the markup of calls. A call gives its identifiers to elements of its own markup, and a text that is laid
out of such markup has as many of these elements as it has copies of it. -/
namespace LiveMarkup.Render
open Analysis Client Markup

/-- What a call gave: its body, the script behind it and the identifiers that this looks up, the identifiers that the
call gave to elements, and the calls whose markup stands in the body, itself and one for each copy. -/
structure Answer where
  body : String
  code : String
  looked : List String
  ids : List String
  origins : List Nat

section Define

variable (ours : String → Prop) (answers : List Answer)

/-- The text is laid out of bodies of calls, the `origins` of which it has in it, of their scripts, and of other
complete markup in which no element has one of our identifiers. -/
inductive Laid : List Char → (origins : List Nat) → Prop where
  | copy {a : Answer} (known : a ∈ answers) : Laid a.body.toList a.origins
  | code {a : Answer} (known : a ∈ answers) : Laid a.code.toList []
  | other {text ids} (complete : Closed text ids) (apart : ∀ id ∈ ids, ¬ours id) : Laid text []
  | append {text text' origins origins'} (first : Laid text origins) (second : Laid text' origins') :
      Laid (text ++ text') (origins ++ origins')

inductive Contents : List Piece → List String → (origins : List Nat) → Prop where
  | none : Contents [] [] []
  | plain {s rest texts origins} (behind : Contents rest texts origins) : Contents (.plain s :: rest) (s :: texts) origins
  | content {key text rest texts origins origins'} (own : Laid ours answers text.toList origins)
      (behind : Contents rest texts origins') : Contents (.placeholder key :: rest) (text :: texts) (origins ++ origins')

inductive Writes (f : Factory) (s : State) (template : String) (values : List Value) (line : Int) :
    String → State → (ids : List String) → Prop where
  | still {markup s₁ ids} (filling : out (filled template values line) f s = (.ok markup, s₁)) (none : s₁.live = [])
      (complete : ClosedPieces (Piece.split f.number markup) ids) (apart : ∀ id ∈ ids, ¬ours id) :
      Writes f s template values line markup s₁ []
  | settled {markup s₁ tree final s₂} (filling : out (filled template values line) f s = (.ok markup, s₁))
      (settling : Settling f s₁ markup tree final s₂) (unclaimed : Unclaimed f s₁ tree) (legible : AllLegible final)
      (clear : ¬nonce f.number <:+: plainChars (treePieces f.number final)) :
      Writes f s template values line (writeTree final) { s₂ with live := [] } (freshIds s₁ s₂)

def Unbroken (code : String) : Prop :=
  ∃ inner, code = "\n<script>" ++ inner ++ "</script>" ∧ unended "script" inner.toList = true

/-- What stands behind a body when the factory has these records: their script, or nothing if there are none. -/
inductive Coded (c : Component) (r : Records) : String → Prop where
  | none (empty : r.isEmpty = true) : Coded c r ""
  | script {code} (made : Client.script c r = .ok code) (unbroken : Unbroken code) : Coded c r code

end Define

section Writing

variable {ours : String → Prop} {f : Factory} {s s₁ s₂ s' : State} {nested : Nested}
  {template : String} {values : List Value} {line : Int} {markup : String} {v : Value} {ids : List String}

theorem writesFinish (writes : Writes ours f s template values line markup s₁ ids)
    (done : out (call nested template values line) f s = (.ok v, s')) :
    out (finished nested markup) f s₁ = (.ok v, s') := by
  cases writes with
  | still filling none =>
    cases callSucceeds done with
    | still filling' _ ended =>
      cases filling.symm.trans filling'
      exact ended
    | settled filling' settling =>
      cases filling.symm.trans filling'
      exact absurd none settling.pending
  | settled filling settling =>
    cases callSucceeds done with
    | still filling' none =>
      cases filling.symm.trans filling'
      exact absurd none settling.pending
    | settled filling' settling' _ ended =>
      cases filling.symm.trans filling'
      cases settling.read.symm.trans settling'.read
      cases settling.settled.symm.trans settling'.settled
      exact ended

structure Numbers (s s₁ : State) (ids : List String) : Prop where
  taken : ids = freshIds s s₁
  later : s.page.nextId ≤ s₁.page.nextId
  recorded : ∀ id ∈ s₁.records.ids, id ∈ s.records.ids ∨ id ∈ ids

theorem orderedIds {x : Settled} {new : Records} {events attributes texts anchors : List String} {id : String}
    (ordered : Ordered x new events attributes texts anchors) (mem : id ∈ new.ids) : id ∈ x.ids := by
  rw [ordered.whole]
  simp only [Records.ids, List.mem_append, List.mem_map] at mem ⊢
  by_cases event : id ∈ events
  · exact .inl (.inl (.inl event))
  by_cases bound : id ∈ attributes
  · exact .inl (.inl (.inr bound))
  rcases mem with (⟨b, hb, rfl⟩ | ⟨h, hh, rfl⟩) | ⟨a, ha, rfl⟩
  · cases named : b.attribute? with
    | none => exact .inl (.inr ((ordered.shown _).mpr ⟨event, bound, b, hb, rfl, named⟩))
    | some name =>
      exact absurd ((ordered.bound _).mpr ⟨event, b, hb, rfl, by rw [named]; rfl⟩) bound
  · exact absurd ((ordered.handled _).mpr ⟨h, hh, rfl⟩) event
  · exact .inr (ordered.chained ▸ List.mem_map_of_mem ha)

theorem writesNumbers (reached : Reached f s) (writes : Writes ours f s template values line markup s₁ ids) :
    Numbers s s₁ ids := by
  cases writes with
  | still filling =>
    obtain ⟨_, _, marked, fills⟩ := readyFilled reached filling
    have page := filledPage filling
    refine ⟨(freshSame page).symm, Nat.le_of_eq (by rw [page]), fun id mem => .inl ?_⟩
    exact fillsRecords fills ▸ mem
  | @settled markup s₁ tree final s₂ filling settling unclaimed =>
    obtain ⟨ready, _, marked, fills⟩ := readyFilled reached filling
    obtain ⟨_, change⟩ := treePlaced ready settling.settled
    obtain ⟨new, _, _, _, _, ordered⟩ := @orderedTree f s₁ s₂ tree final markup ready unclaimed settling.settled
    have page := filledPage filling
    refine ⟨?_, ?_, fun id mem => ?_⟩
    · rw [freshIds, freshIds, page]
    · exact page ▸ change.later
    · have appended := ordered.appended
      simp only at mem appended
      rw [appended, Records.memIds, fillsRecords fills] at mem
      exact mem.imp_right (orderedIds ordered)

end Writing

section Counting

variable {ours : String → Prop} {answers : List Answer} {a : Answer} {text text' : List Char} {origins origins' : List Nat}
  {id : String} {k : Nat}

def idsAt (answers : List Answer) (k : Nat) : List String := (answers[k]?.map (·.ids)).getD []

def Balanced (ours : String → Prop) (answers : List Answer) (text : List Char) (origins : List Nat) : Prop :=
  (∀ k ∈ origins, k < answers.length) ∧
    ∃ tags, Closed text tags ∧
      ∀ n, ours (idText n) → tags.count (idText n) = (origins.flatMap (idsAt answers)).count (idText n)

end Counting

section Scripts

variable {c : Component} {r : Records} {code : String}

end Scripts

end LiveMarkup.Render
