import LiveMarkup.Proofs.Render.Answers
/-! The values that a component makes while it renders. Their markup is supplied by what the calls so far have given,
and so is the output of every component. -/
namespace LiveMarkup.Render
open Markup

section Recipes

variable {ours : String → Prop} {f : Factory} {nested : Nested} {inner : NestedLog Event} {results : Results}
  {base : List Answer}

theorem keyResult {s s' : State} {v w : Value} (h : out (asKey v) f s = (.ok w, s')) : w = v := by
  unfold asKey at h
  split at h
  · cases h
  · cases h
    rfl

theorem keysResult {s s' : State} {vs ws : List Value} (h : out (vs.mapM asKey) f s = (.ok ws, s')) : ws = vs := by
  induction vs generalizing s ws with
  | nil =>
    cases h
    rfl
  | cons v rest ih =>
    rw [List.mapM_cons] at h
    obtain ⟨w, s₁, first, h⟩ := outOk.mp h
    obtain ⟨others, _, behind, last⟩ := outOk.mp h
    cases last
    rw [keyResult first, ih behind]

theorem stepSupplied {s : State} {number : Nat} {v : Value} (done : Supplied ours base (Value.heldAll results))
    (is : (out (stepResult results number) f s).1 = .ok v) : Supplied ours base v.held := by
  unfold stepResult at is
  split at is
  · next w found =>
    cases is
    exact holdsAll.mp done _ (List.mem_of_getElem? found)
  · cases is

theorem fieldSupplied {s : State} {name : String} {v : Value} (own : Supplied ours base f.component.held)
    (is : (out (fieldValue name) f s).1 = .ok v) : Supplied ours base v.held := by
  rw [fieldValue, outBind, outRead] at is
  simp only at is
  split at is
  · next w found =>
    cases is
    exact getHolds (componentHolds.mp own).1 found
  · cases is

theorem requestSupplied {s : State} {v : Value} (is : (out requestPath f s).1 = .ok v) : Supplied ours base v.held := by
  rw [requestPath, outBind, outRead] at is
  simp only at is
  split at is
  · cases is
    exact holdsNone
  · cases is

theorem sumSupplied {s : State} {v w sum : Value} (hv : Supplied ours base v.held) (hw : Supplied ours base w.held)
    (is : (out (match v.add w with
      | .ok sum => return sum
      | .error e => throw (.sum e) : Rendering Value) f s).1 = .ok sum) : Supplied ours base sum.held := by
  split at is
  · next made =>
    cases is
    exact addHolds (fun _ => plainWhole closedEscaped) (fun _ _ => wholeAppend) hv hw made
  · cases is

mutual

-- The induction is on the recipe. What is made later may hold answers that were given while the parts before were made.
theorem makeLays (inside : InnerLays ours nested inner) : (r : Recipe) → {base : List Answer} →
    Supplied ours base r.held → Supplied ours base (Value.heldAll results) →
    Lays ours base Value.held f (make nested results r) (makeLog nested (eventLog nested inner) results r)
  | .value v, _, held, _ => laysIdle idlePure fun _ _ _ grows _ is => by
    cases is
    exact suppliedMore grows held
  | .raise kind text, _, _, _ => laysIdle idleThrow fun _ _ _ _ _ is => nomatch is
  | .step number, _, _, done => laysIdle idleStep fun _ _ _ grows _ is => stepSupplied (suppliedMore grows done) is
  | .field name, _, _, _ => laysIdle idleField fun _ _ _ _ stocked is => fieldSupplied stocked.own is
  | .requestPath, _, _, _ => laysIdle idleRequest fun _ _ _ _ _ is => requestSupplied is
  | .list items, _, held, done | .tuple items, _, held, done | .generator items, _, held, done =>
    laysLast (makeAllLays inside items held done) (fun _ => idlePure) fun _ _ _ _ _ supplied is => by
      cases is
      exact supplied
  | .set items, _, held, done => by
    refine laysLast (makeAllLays inside items held done) (fun _ => idleBind (idleMap idleKey _) fun _ => idlePure) ?_
    intro answers s vs v _ supplied is
    obtain ⟨keys, _, same, last⟩ := outOk.mp (Prod.ext is rfl)
    cases last
    rw [keysResult same]
    exact holdsAll.mpr fun w mem => holdsAll.mp supplied w ((setMember mem).resolve_left List.not_mem_nil)
  | .dict entries, _, held, done =>
    laysLast (makeEntriesLays inside [] entries held done holdsNone) (fun _ => idlePure) fun _ _ _ _ _ supplied is => by
      cases is
      exact supplied
  | .promise url none chain, _, held, done =>
    laysThen (makeLays inside url (holdsAppend.mp held).1 done) fun _ _ _ first => laysIdle idlePure
      fun _ _ _ grows _ is => by
        cases is
        exact holdsAppend.mpr ⟨suppliedMore grows first, holdsNone⟩
  | .promise url (some o) chain, _, held, done =>
    laysThen (makeLays inside url (holdsAppend.mp held).1 done) fun _ _ grows first =>
      laysLast (makeLays inside o (suppliedMore grows (holdsAppend.mp held).2) (suppliedMore grows done))
        (fun _ => idlePure) fun _ _ _ _ grows' second is => by
          cases is
          exact holdsAppend.mpr ⟨suppliedMore grows' first, second⟩
  | .component c fields, _, held, done =>
    laysLast (makeFieldsLays inside fields (holdsAppend.mp held).2 done) (fun _ => idlePure)
      fun _ _ _ _ grows supplied is => by
        cases is
        exact withFieldsHolds (suppliedMore grows (holdsAppend.mp held).1) supplied
  | .add left right, _, held, done => by
    refine laysThen (makeLays inside left (holdsAppend.mp held).1 done) fun v answers grows first =>
      laysLast (makeLays inside right (suppliedMore grows (holdsAppend.mp held).2) (suppliedMore grows done)) (fun w => ?_)
        fun answers' s w sum grows' second is => sumSupplied (suppliedMore grows' first) second is
    split
    · exact idlePure
    · exact idleThrow
  | .html (.mk template values line _), _, held, done =>
    laysThen (makeAllLays inside values held done) fun _ _ _ supplied => tracedLays inside supplied

theorem makeAllLays (inside : InnerLays ours nested inner) : (items : List Recipe) → {base : List Answer} →
    Supplied ours base (Recipe.heldAll items) → Supplied ours base (Value.heldAll results) →
    Lays ours base Value.heldAll f (makeAll nested results items) (makeAllLog nested (eventLog nested inner) results items)
  | [], _, _, _ => laysIdle idlePure fun _ _ _ _ _ is => by
    cases is
    exact holdsNone
  | r :: rest, _, held, done =>
    laysThen (makeLays inside r (holdsAppend.mp held).1 done) fun _ _ grows first =>
      laysLast (makeAllLays inside rest (suppliedMore grows (holdsAppend.mp held).2) (suppliedMore grows done))
        (fun _ => idlePure) fun _ _ _ _ grows' others is => by
          cases is
          exact holdsAppend.mpr ⟨suppliedMore grows' first, others⟩

theorem makeEntriesLays (inside : InnerLays ours nested inner) (before : List (Value × Value)) :
    (entries : List (Recipe × Recipe)) → {base : List Answer} → Supplied ours base (Recipe.heldEntries entries) →
    Supplied ours base (Value.heldAll results) → Supplied ours base (Value.heldEntries before) →
    Lays ours base Value.heldEntries f (makeEntries nested results before entries)
      (makeEntriesLog nested (eventLog nested inner) results before entries)
  | [], _, _, _, own => laysIdle idlePure fun _ _ _ grows _ is => by
    cases is
    exact suppliedMore grows own
  | (k, v) :: rest, _, held, done, own => by
    obtain ⟨first, others⟩ := holdsAppend.mp held
    obtain ⟨key, value⟩ := holdsAppend.mp first
    refine laysThen (makeLays inside k key done) fun key' _ grows keyed =>
      laysThen (makeLays inside v (suppliedMore grows value) (suppliedMore grows done)) fun value' _ grows' valued =>
        laysAfter (idleKey key') fun key'' s is => ?_
    have same : key'' = key' := keyResult (Prod.ext is rfl)
    have both := grows.trans grows'
    refine makeEntriesLays inside _ rest (suppliedMore both others) (suppliedMore both done) ?_
    exact insertHolds (same ▸ suppliedMore grows' keyed) valued (suppliedMore both own)

theorem makeFieldsLays (inside : InnerLays ours nested inner) : (fields : List (String × Recipe)) → {base : List Answer} →
    Supplied ours base (Recipe.heldFields fields) → Supplied ours base (Value.heldAll results) →
    Lays ours base Value.heldFields f (makeFields nested results fields)
      (makeFieldsLog nested (eventLog nested inner) results fields)
  | [], _, _, _ => laysIdle idlePure fun _ _ _ _ _ is => by
    cases is
    exact holdsNone
  | (_, r) :: rest, _, held, done =>
    laysThen (makeLays inside r (holdsAppend.mp held).1 done) fun _ _ grows first =>
      laysLast (makeFieldsLays inside rest (suppliedMore grows (holdsAppend.mp held).2) (suppliedMore grows done))
        (fun _ => idlePure) fun _ _ _ _ grows' others is => by
          cases is
          exact holdsAppend.mpr ⟨suppliedMore grows' first, others⟩

end

end Recipes

section Components

variable {ours : String → Prop} {nested : Nested} {inner : NestedLog Event} {request? : Option String}

end Components

end LiveMarkup.Render
