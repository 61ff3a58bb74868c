import LiveMarkup.Proofs.Render.Woven
/-! What a run has to do with texts and elements that carry identifiers of their own. A template call without
such incidents comes to the same whatever identifiers are given out. -/
namespace LiveMarkup.Render
open Analysis Client Markup

inductive Incident where
  | wrote (text : String)
  | keyed (v : Value)
  | settled (f : Factory) (tree : List Node)
  | served (f : Factory) (s : State)

def Incident.Quiet : Incident → Prop
  | .wrote text => ¬Named text
  | .keyed v => Unnamed v
  | .settled f tree => Anonymous f tree
  | .served _ _ => True

instance : DecidablePred Incident.Quiet
  | .wrote text => inferInstanceAs (Decidable (¬Named text))
  | .keyed v => inferInstanceAs (Decidable (Unnamed v))
  | .settled f tree => inferInstanceAs (Decidable (Anonymous f tree))
  | .served _ _ => inferInstanceAs (Decidable True)

def servedIn (es : List Incident) : List (Factory × State) :=
  es.filterMap fun
    | .served f s => some (f, s)
    | _ => none

theorem servedAppend {a b : List Incident} : servedIn (a ++ b) = servedIn a ++ servedIn b := List.filterMap_append

theorem servedNone {es : List Incident} (other : ∀ e ∈ es, ∀ f s, e ≠ .served f s) : servedIn es = [] := by
  refine List.filterMap_eq_nil_iff.mpr fun e mem => ?_
  cases e with
  | served f s => exact absurd rfl (other _ mem f s)
  | _ => rfl

abbrev NestedTrail := Component → Page → List Incident

def Trail.chain {α ε : Type} (t : Trail ε) (m : Rendering α) (next : α → Trail ε) : Trail ε :=
  fun f s => t f s ++ Trail.behind m next f s

section Define

variable (nested : Nested) (inner : NestedTrail)

def pieceTrail : Piece → Trail Incident
  | .plain _ => .silent
  | .placeholder key => fun _ s =>
    match s.deferred.find? (·.1 == key) with
    | some (_, .component c) => inner c s.page
    | _ => []

def piecesTrail : List Piece → Trail Incident
  | [] => .silent
  | p :: rest => .chain (pieceTrail inner p) (spliced nested p) fun _ => piecesTrail rest

def spliceTrail (markup : String) : Trail Incident := fun f =>
  piecesTrail nested inner (Piece.split f.number markup) f

def filledTrail (template : String) (values : List Value) (line : Int) : Trail Incident := fun f s =>
  (filledTexts template values line f s).map .wrote

def liveTrail (markup : String) : Trail Incident := fun f _ =>
  match readTree markup with
  | .error _ => []
  | .ok tree => [.settled f tree]

def callTrail (template : String) (values : List Value) (line : Int) : Trail Incident :=
  .chain (filledTrail template values line) (filled template values line) fun markup f s =>
    if s.live.isEmpty then spliceTrail nested inner markup f s
    else Trail.chain (liveTrail markup) (settleLive markup) (spliceTrail nested inner) f s

end Define

variable {α β γ δ : Type} {k : Nat} {f f' : Factory} {s s' : State}

section Pair

structure Answers (k : Nat) (x x' : Factory × State) : Prop where
  peers : Peers x.1 x'.1
  records : Renumbered k x.2.records x'.2.records

theorem answersAppend {a a' b b' : List Incident} (h : List.Forall₂ (Answers k) (servedIn a) (servedIn a'))
    (h' : List.Forall₂ (Answers k) (servedIn b) (servedIn b')) :
    List.Forall₂ (Answers k) (servedIn (a ++ b)) (servedIn (a' ++ b')) := by
  rw [servedAppend, servedAppend]
  exact List.rel_append h h'

structure Pairs (k : Nat) (f : Factory) (Q : α → β → Prop) (r : Except RenderError α × State)
    (r' : Except RenderError β × State) (es es' : List Incident) : Prop where
  ends : Ends k f Q r r'
  served : List.Forall₂ (Answers k) (servedIn es) (servedIn es')

def Paired (k : Nat) (f f' : Factory) (Q : α → β → Prop) (m : Rendering α) (m' : Rendering β)
    (t t' : Trail Incident) : Prop :=
  ∀ s s', Shifted k f s s' → (∀ e ∈ t f s, e.Quiet) →
    Pairs k f Q (out m f s) (out m' f' s') (t f s) (t' f' s')

variable {Q : α → β → Prop} {R : γ → δ → Prop} {m : Rendering α} {m' : Rendering β} {g : α → Rendering γ}
  {g' : β → Rendering δ} {t t' : Trail Incident} {u : α → Trail Incident} {u' : β → Trail Incident}

theorem pairedTwins (h : Twins k f f' Q m m') : Paired k f f' Q m m' .silent .silent :=
  fun s s' shifted _ => ⟨h s s' shifted, .nil⟩

theorem pairedChain (first : Paired k f f' Q m m' t t')
    (rest : ∀ a b, Q a b → Paired k f f' R (g a) (g' b) (u a) (u' b)) :
    Paired k f f' R (m >>= g) (m' >>= g') (.chain t m u) (.chain t' m' u') := by
  intro s s' shifted quiet
  rw [Trail.chain] at quiet
  obtain ⟨here, later⟩ := List.forall_mem_append.mp quiet
  obtain ⟨⟨results, states⟩, served⟩ := first s s' shifted here
  rw [outBind, outBind, Trail.chain, Trail.chain, Trail.behind, Trail.behind]
  rw [Trail.behind] at later
  rcases ran : out m f s with ⟨r, s₁⟩
  rcases ran' : out m' f' s' with ⟨r', s₁'⟩
  rw [ran, ran'] at results states
  rw [ran] at later
  cases results with
  | error => exact ⟨endsThrow states, answersAppend served .nil⟩
  | ok related =>
    obtain ⟨ends, others⟩ := rest _ _ related s₁ s₁' states later
    exact ⟨ends, answersAppend served others⟩

theorem pairedBehind (first : Twins k f f' Q m m')
    (rest : ∀ a b, Q a b → Paired k f f' R (g a) (g' b) (u a) (u' b)) :
    Paired k f f' R (m >>= g) (m' >>= g') (.behind m u) (.behind m' u') := pairedChain (pairedTwins first) rest

theorem chainSilent : Trail.chain t m (fun _ => .silent) = t := by
  funext f s
  rw [Trail.chain, Trail.behind]
  rcases out m f s with ⟨_ | _, _⟩
  · exact List.append_nil _
  · exact List.append_nil _

theorem pairedRead {g : Factory → Rendering γ} {g' : Factory → Rendering δ} {u u' : Factory → Trail Incident}
    (rest : Paired k f f' R (g f) (g' f') (u f) (u' f')) :
    Paired k f f' R (read >>= g) (read >>= g') (fun f => u f f) fun f => u' f f := rest

theorem pairedLast (first : Paired k f f' Q m m' t t') (rest : ∀ a b, Q a b → Twins k f f' R (g a) (g' b)) :
    Paired k f f' R (m >>= g) (m' >>= g') t t' := by
  have both := pairedChain first fun a b related => pairedTwins (rest a b related)
  rwa [chainSilent, chainSilent] at both

end Pair

section Nested

structure Visits (k : Nat) (r r' : Except RenderError String × Page) (es es' : List Incident) :
    Prop where
  results : Matches Kin r.1 r'.1
  page : r'.2 = { r.2 with nextId := r.2.nextId + k }
  served : List.Forall₂ (Answers k) (servedIn es) (servedIn es')

def NestedPaired (k : Nat) (nested : Nested) (inner : NestedTrail) : Prop :=
  ∀ c fields page, NearFields c.fields fields → (∀ e ∈ inner c page, e.Quiet) →
    Visits k ((nested c).run page)
      ((nested (c.withFields fields)).run { page with nextId := page.nextId + k }) (inner c page)
      (inner (c.withFields fields) { page with nextId := page.nextId + k })

variable {nested : Nested} {inner : NestedTrail}

theorem outNested {c : Component} : out (renderNested nested c) f s =
    (((nested c).run s.page).1, { s with page := ((nested c).run s.page).2 }) := by
  rw [renderNested, outBind, outGet]
  simp only
  rcases (nested c).run s.page with ⟨_ | _, _⟩
  · rfl
  · rfl

theorem putContent {key key' : String} {content content' : Deferred} (put : Put (key, content) (key', content')) :
    key' = key := by
  cases put with
  | markup => rfl
  | component => rfl

theorem deferredFound (shifted : Shifted k f s s') (key : String) :
    Option.Rel Put (s.deferred.find? (·.1 == key)) (s'.deferred.find? (·.1 == key)) := by
  have deferred := shifted.deferred
  generalize s.deferred = ds, s'.deferred = ds' at deferred
  induction deferred with
  | nil => exact .none
  | @cons d d' _ _ first _ ih =>
    rw [List.find?_cons, List.find?_cons, show d'.1 = d.1 from putContent first]
    cases d.1 == key with
    | true => exact .some first
    | false => exact ih

theorem deferredLeft (shifted : Shifted k f s s') (key : String) :
    List.Forall₂ Put (s.deferred.filter (·.1 != key)) (s'.deferred.filter (·.1 != key)) := by
  have deferred := shifted.deferred
  generalize s.deferred = ds, s'.deferred = ds' at deferred
  induction deferred with
  | nil => exact .nil
  | @cons d d' _ _ first _ ih =>
    rw [List.filter_cons, List.filter_cons, show d'.1 = d.1 from putContent first]
    split
    · exact .cons first ih
    · exact ih

theorem outTaken {key : String} : out (takeDeferred? key) f s = match s.deferred.find? (·.1 == key) with
    | none => (.ok none, s)
    | some (_, content) => (.ok (some content), { s with deferred := s.deferred.filter (·.1 != key) }) := by
  rw [takeDeferred?, outBind, outGet]
  cases found : s.deferred.find? (·.1 == key) with
  | none =>
    simp only [found]
    rfl
  | some d =>
    simp only [found]
    rfl

theorem pairedSpliced {p p' : Piece} (inside : NestedPaired k nested inner) (facing : Facing p p') :
    Paired k f f' Kin (spliced nested p) (spliced nested p') (pieceTrail inner p) (pieceTrail inner p') := by
  cases facing with
  | plain kin => exact pairedTwins (twinsPure kin)
  | @placeholder key =>
    intro s s' shifted quiet
    have found := deferredFound shifted key
    have left := { shifted with deferred := deferredLeft shifted key : Shifted k f
      { s with deferred := s.deferred.filter (·.1 != key) } { s' with deferred := s'.deferred.filter (·.1 != key) } }
    rw [spliced, outBind, outBind, outTaken, outTaken]
    simp only [pieceTrail] at quiet ⊢
    revert quiet found
    generalize s.deferred.find? (·.1 == key) = d?, s'.deferred.find? (·.1 == key) = d'?
    rintro quiet (put | _)
    · cases put with
      | markup kin => exact ⟨endsPure kin left, .nil⟩
      | @component _ c fields held =>
        simp only at quiet ⊢
        have visits := inside c fields s.page held quiet
        rw [← shifted.page] at visits
        rw [outNested, outNested]
        exact ⟨⟨visits.results, { left with page := visits.page }⟩, visits.served⟩
    · exact ⟨endsPure .same shifted, .nil⟩

theorem pairedPieces {ps ps' : List Piece} (inside : NestedPaired k nested inner)
    (facing : List.Forall₂ Facing ps ps') :
    Paired k f f' (List.Forall₂ Kin) (ps.mapM (spliced nested)) (ps'.mapM (spliced nested))
      (piecesTrail nested inner ps) (piecesTrail nested inner ps') := by
  induction facing with
  | nil => exact pairedTwins (twinsPure .nil)
  | cons first _ ih =>
    rw [List.mapM_cons, List.mapM_cons]
    exact pairedChain (pairedSpliced inside first) fun _ _ kin => pairedLast ih fun _ _ others =>
      twinsPure (.cons kin others)

theorem pairedSplice {markup markup' : String} (twin : Twin f f') (inside : NestedPaired k nested inner)
    (woven : Woven markup.toList markup'.toList) :
    Paired k f f' Kin (splice nested markup) (splice nested markup') (spliceTrail nested inner markup)
      (spliceTrail nested inner markup') := by
  have pieces := @pairedPieces k f f' nested inner _ _ inside (@facingSplit f.number _ _ woven)
  have joined := pairedLast pieces fun _ _ kin => twinsPure (kinJoin kin)
  unfold splice spliceTrail
  refine pairedRead ?_
  rw [twin.number]
  exact joined

end Nested

section Script

variable {r r' : Records}

theorem renumberedMentions (h : Renumbered k r r') : r'.mentions = r.mentions := by
  obtain ⟨bindings, handlers, chains⟩ := h
  have mapped {β γ : Type} {g : β → List γ} {P : β → β → Prop} (same : ∀ b b', P b b' → g b' = g b) {bs bs' : List β}
      (all : List.Forall₂ P bs bs') : bs'.flatMap g = bs.flatMap g := by
    induction all with
    | nil => rfl
    | cons first _ ih => rw [List.flatMap_cons, List.flatMap_cons, same _ _ first, ih]
  rw [Records.mentions, Records.mentions, mapped (fun _ _ h => by rw [h.2]) bindings,
    mapped (fun _ _ h => by rw [h.2]) handlers, mapped (fun _ _ h => by rw [h.2]) handlers,
    mapped (fun _ _ h => by rw [h.2]) chains]

theorem renumberedEmpty (h : Renumbered k r r') : r'.isEmpty = r.isEmpty := by
  have lengths {β γ : Type} {P : β → γ → Prop} {bs : List β} {cs : List γ} (all : List.Forall₂ P bs cs) :
      cs.isEmpty = bs.isEmpty := by
    cases all with
    | nil => rfl
    | cons => rfl
  rw [Records.isEmpty, Records.isEmpty, lengths h.bindings, lengths h.handlers, lengths h.asyncBindings]

theorem nearEntries {fs gs : List (String × Value)} (held : NearFields fs gs) :
    NearEntries (fs.map fun (key, v) => (.text key, v)) (gs.map fun (key, v) => (.text key, v)) := by
  induction fs generalizing gs with
  | nil =>
    cases held
    exact .nil
  | cons field fs ih =>
    cases held with
    | cons near rest => exact .cons .same near (ih rest)

theorem nearGet {c c' : Component} (held : NearFields c.fields c'.fields) (name : String) :
    Option.Rel Near (c.get? name) (c'.get? name) := by
  have found := nearField held name
  have all := nearEntries held
  unfold Component.get?
  revert found all
  generalize c.fields.find? (·.1 == name) = v?, c'.fields.find? (·.1 == name) = w?
  rcases v? with _ | ⟨_, v⟩
  · rcases w? with _ | ⟨_, w⟩
    · intro _ all
      simp only
      split
      · exact .some (.dict all)
      · cases Component.inherited? name with
        | none => exact .none
        | some v => exact .some .same
    · rintro ⟨⟩
  · rcases w? with _ | ⟨_, w⟩
    · rintro ⟨⟩
    · rintro ⟨⟩ _
      exact .some ‹_›

theorem declaredAlike (twin : Twin f f') (field : String) :
    Agrees (declareField f.component field) (declareField f'.component field) := by
  have literal : Agrees (fieldLiteral f.component field) (fieldLiteral f'.component field) := by
    have found := nearGet twin.held field
    rw [fieldLiteral, fieldLiteral, twin.className]
    split
    · exact .error
    revert found
    generalize f.component.get? field = v?, f'.component.get? field = w?
    rintro (near | _)
    · have literal := nearLiteral near
      simp only [nearType near]
      revert literal
      generalize Value.literal _ = r, Value.literal _ = r'
      rintro (_ | _)
      · exact .ok trivial
      · exact .error
    · exact .error
  exact matchesBind literal fun _ _ _ => .ok trivial

theorem scriptAlike (twin : Twin f f') (renumbered : Renumbered k r r') :
    Agrees (script f.component r) (script f'.component r') := by
  rw [script, script, renumberedMentions renumbered]
  refine matchesBind (R := fun _ _ => True) ?_ fun _ _ _ => .ok trivial
  induction distinct r.mentions with
  | nil => exact .ok trivial
  | cons field rest ih =>
    rw [List.mapM_cons, List.mapM_cons]
    exact matchesBind (declaredAlike twin field) fun _ _ _ => matchesBind ih fun _ _ _ => .ok trivial

theorem namedJoin {text : String} {texts : List String} (mem : text ∈ texts) (named : Named text) :
    Named (String.join texts) := by
  obtain ⟨before, behind, rfl⟩ := List.append_of_mem mem
  rw [String.join_append, String.join_cons]
  exact namedBeside (.inr (namedBeside (.inl named)))

theorem scriptNamed {c : Component} {text : String} (some : r.isEmpty = false) (made : script c r = .ok text) :
    Named text := by
  obtain ⟨id, mem⟩ : ∃ id, id ∈ r.ids := by
    rcases r with ⟨_ | ⟨b, _⟩, _ | ⟨h, _⟩, _ | ⟨a, _⟩⟩
    · cases some
    all_goals exact ⟨_, List.mem_cons_self⟩
  obtain ⟨fields, _, written⟩ := bindOk.mp made
  obtain rfl := pureOk.mp written
  have found : Named ("  const " ++ id ++ " = document.querySelector('[" ++ idAttribute) :=
    namedBeside (.inr (List.infix_refl _))
  have line : Named (Client.lookUp id) := namedBeside (.inl (namedBeside (.inl (namedBeside (.inl found)))))
  have lines : Named (String.join ((distinct r.ids).map Client.lookUp)) :=
    namedJoin (List.mem_map_of_mem (memDistinct.mpr mem)) line
  -- Eight parts of a script stand behind its look-ups.
  iterate 8 refine namedBeside (.inl ?_)
  exact namedBeside (.inr lines)

end Script

section Call

variable {nested : Nested} {inner : NestedTrail} {markup markup' template : String} {vs ws : List Value} {line : Int}

theorem leftShifted (shifted : Shifted k f s s') (keys : List String) :
    List.Forall₂ Shown (keys.filterMap s.live?) (keys.filterMap s'.live?) := by
  induction keys with
  | nil => exact .nil
  | cons key rest ih =>
    have found := liveShifted shifted key
    rw [List.filterMap_cons, List.filterMap_cons]
    revert found
    generalize s.live? key = live?, s'.live? key = live'?
    rintro (shown | _)
    · exact .cons shown ih
    · exact ih

theorem twinsLive (twin : Twin f f') (anonymous : ∀ tree, readTree markup = .ok tree → Anonymous f tree) :
    Twins k f f' (fun markup markup' => Woven markup.toList markup'.toList) (settleLive markup)
      (settleLive markup) := by
  refine twinsRead ?_
  simp only [twin.number, twin.className]
  cases read : readTree markup with
  | error e => exact twinsStop
  | ok tree =>
    refine twinsBind (Q := fun read read' => read = tree ∧ read' = tree) (twinsPure ⟨rfl, rfl⟩) ?_
    rintro _ _ ⟨rfl, rfl⟩
    refine twinsBind (twinsTree twin (anonymous _ read)) fun final final' stamped => ?_
    refine twinsGet fun s s' shifted => ?_
    have woven := wovenTree stamped
    rw [show placeholders f.number (writeTree final') = placeholders f.number (writeTree final) from
      facingKeys (facingSplit woven)]
    have left := leftShifted shifted (placeholders f.number (writeTree final))
    have done : Shifted k f { s with live := [] } { s' with live := [] } :=
      { shifted with live := .nil, keyed := fun _ mem => absurd mem List.not_mem_nil }
    refine endsBind (Q := fun _ _ => True) ⟨.ok trivial, done⟩ fun _ _ _ _ _ _ done => ?_
    revert left
    generalize (placeholders f.number (writeTree final)).filterMap s.live? = lives,
      (placeholders f.number (writeTree final)).filterMap s'.live? = lives'
    rintro (_ | ⟨shown, _⟩)
    · exact endsPure woven done
    · simp only [shown.slot]
      exact endsThrow done

theorem pairedFinished (twin : Twin f f') (inside : NestedPaired k nested inner)
    (woven : Woven markup.toList markup'.toList) :
    Paired k f f' Near (finished nested markup) (finished nested markup') (spliceTrail nested inner markup)
      (spliceTrail nested inner markup') := by
  intro s s' shifted quiet
  rw [finished, finished, outBind, outBind, outRead, outRead]
  refine pairedLast (pairedSplice twin inside woven) (fun body body' kin => ?_) s s' shifted quiet
  refine twinsGet fun s s' shifted => ?_
  simp only [twin.number, renumberedEmpty shifted.records]
  split
  · exact endsPure (.rendered kin kin) shifted
  next some =>
  have alike := scriptAlike twin shifted.records
  cases made : script f.component s.records with
  | error e =>
    rw [made] at alike
    generalize script f'.component s'.records = r' at alike
    cases alike
    exact endsThrow shifted
  | ok text =>
    rw [made] at alike
    cases made' : script f'.component s'.records with
    | error e =>
      rw [made'] at alike
      cases alike
    | ok text' =>
      have empty : s.records.isEmpty = false := by simpa using some
      have named := scriptNamed empty made
      have named' := scriptNamed ((renumberedEmpty shifted.records).trans empty) made'
      exact endsPure (.rendered (.named (namedBeside (.inr named)) (namedBeside (.inr named'))) kin) shifted

theorem pairedFilled (twin : Twin f f') (near : NearAll vs ws) :
    Paired k f f' Eq (filled template vs line) (filled template ws line) (filledTrail template vs line)
      (filledTrail template ws line) := by
  intro s s' shifted quiet
  have clear : ∀ t ∈ filledTexts template vs line f s, ¬Named t :=
    fun t mem => quiet (.wrote t) (List.mem_map_of_mem mem)
  have none {ts : List String} : servedIn (ts.map .wrote) = [] :=
    servedNone (List.forall_mem_map.mpr fun _ _ _ _ => nofun)
  refine ⟨endsFilled twin near shifted clear, ?_⟩
  rw [filledTrail, filledTrail, none, none]
  exact .nil

theorem pairedLive (twin : Twin f f') :
    Paired k f f' (fun markup markup' => Woven markup.toList markup'.toList) (settleLive markup) (settleLive markup)
      (liveTrail markup) (liveTrail markup) := by
  intro s s' shifted quiet
  refine ⟨twinsLive twin (fun tree read => ?_) s s' shifted, ?_⟩
  · rw [liveTrail, read] at quiet
    exact quiet _ List.mem_cons_self
  · rw [liveTrail, liveTrail]
    split
    · exact .nil
    · exact .nil

theorem liveLeft (shifted : Shifted k f s s') : s'.live.isEmpty = s.live.isEmpty := by
  have live := shifted.live
  generalize s.live = ls, s'.live = ls' at live
  cases live with
  | nil => rfl
  | cons => rfl

theorem pairedCall (twin : Twin f f') (inside : NestedPaired k nested inner) (near : NearAll vs ws) :
    Paired k f f' Near (call nested template vs line) (call nested template ws line)
      (callTrail nested inner template vs line) (callTrail nested inner template ws line) := by
  refine pairedChain (pairedFilled twin near) fun markup _ same => ?_
  subst same
  intro s s' shifted quiet
  rw [outBind, outBind, outGet, outGet]
  simp only [liveLeft shifted] at quiet ⊢
  split at quiet
  · next empty =>
    simp only [empty, if_true]
    exact pairedFinished twin inside (wovenSelf _) s s' shifted quiet
  · next pending =>
    simp only [pending]
    exact pairedChain (pairedLive twin) (fun _ _ woven => pairedFinished twin inside woven) s s' shifted quiet

theorem pairedTraced (twin : Twin f f') (inside : NestedPaired k nested inner) (near : NearAll vs ws) :
    Paired k f f' Near (tracedCall nested template vs line) (tracedCall nested template ws line)
      (callTrail nested inner template vs line) (callTrail nested inner template ws line) := by
  intro s s' shifted quiet
  obtain ⟨⟨results, states⟩, served⟩ := pairedCall twin inside near s s' shifted quiet
  rw [outNoted, outNoted]
  refine ⟨?_, served⟩
  rcases ran : out (call nested template vs line) f s with ⟨r, s₁⟩
  rcases ran' : out (call nested template ws line) f' s' with ⟨r', s₁'⟩
  rw [ran, ran'] at results states
  obtain ⟨page, written, next, records, live, deferred, keyed⟩ := states
  cases results with
  | error => exact ⟨.error, page, written, next, records, live, deferred, keyed⟩
  | ok near => exact ⟨.ok near, page, written, next, records, live, deferred, keyed⟩

end Call

end LiveMarkup.Render
