import LiveMarkup.Proofs.Render.Private
import LiveMarkup.Proofs.Value.Near
/-! Two runs of the same calls, one behind the other by some identifiers. Filling a template takes both to the
same markup if no text that is written into it names an element. -/
namespace LiveMarkup.Render
open Analysis Client Markup

def Later (k : Nat) (id id' : String) : Prop := ∃ n, id = idText n ∧ id' = idText (n + k)

structure Renumbered (k : Nat) (r r' : Records) : Prop where
  bindings : List.Forall₂ (fun b b' => Later k b.id b'.id ∧ b' = { b with id := b'.id }) r.bindings r'.bindings
  handlers : List.Forall₂ (fun h h' => Later k h.id h'.id ∧ h' = { h with id := h'.id }) r.handlers r'.handlers
  asyncBindings : List.Forall₂ (fun a a' => Later k a.id a'.id ∧ a' = { a with id := a'.id }) r.asyncBindings
    r'.asyncBindings

structure Shown (l l' : Live) : Prop where
  slot : l'.slot = l.slot
  now : clientText l'.value = clientText l.value
  shown : l'.value.shown = l.value.shown
  drawn : ∀ name literal attributes,
    showAttribute (some l') name literal attributes = showAttribute (some l) name literal attributes

inductive Put : String × Deferred → String × Deferred → Prop where
  | markup {key s t} (kin : Kin s t) : Put (key, .markup s) (key, .markup t)
  | component {key c fields} (held : NearFields c.fields fields) :
      Put (key, .component c) (key, .component (c.withFields fields))

structure Shifted (k : Nat) (f : Factory) (s s' : State) : Prop where
  page : s'.page = { s.page with nextId := s.page.nextId + k }
  written : s'.written = s.written
  next : s'.nextPlaceholder = s.nextPlaceholder
  records : Renumbered k s.records s'.records
  live : List.Forall₂ (fun l l' => l'.1 = l.1 ∧ Shown l.2 l'.2) s.live s'.live
  deferred : List.Forall₂ Put s.deferred s'.deferred
  keyed : ∀ l ∈ s.live, isPlaceholder f.number l.1 = true

structure Twin (f f' : Factory) : Prop extends Peers f f' where
  request : f'.request? = f.request?
  held : NearFields f.component.fields f'.component.fields

structure Ends {α β : Type} (k : Nat) (f : Factory) (Q : α → β → Prop) (r : Except RenderError α × State)
    (r' : Except RenderError β × State) : Prop where
  results : Matches Q r.1 r'.1
  states : Shifted k f r.2 r'.2

def Twins {α β : Type} (k : Nat) (f f' : Factory) (Q : α → β → Prop) (m : Rendering α) (m' : Rendering β) : Prop :=
  ∀ s s', Shifted k f s s' → Ends k f Q (out m f s) (out m' f' s')

variable {α β γ δ : Type} {k : Nat} {f f' : Factory} {s s' : State}

section Steps

variable {Q : α → β → Prop} {R : γ → δ → Prop} {m : Rendering α} {m' : Rendering β} {g : α → Rendering γ}
  {g' : β → Rendering δ}

theorem endsPure {a : α} {b : β} (related : Q a b) (shifted : Shifted k f s s') :
    Ends k f Q (.ok a, s) (.ok b, s') := ⟨.ok related, shifted⟩

theorem endsThrow {e : RenderError} (shifted : Shifted k f s s') : Ends k f Q (.error e, s) (.error e, s') :=
  ⟨.error, shifted⟩

theorem endsBind (first : Ends k f Q (out m f s) (out m' f' s'))
    (rest : ∀ a b s₁ s₁', out m f s = (.ok a, s₁) → Q a b → Shifted k f s₁ s₁' →
      Ends k f R (out (g a) f s₁) (out (g' b) f' s₁')) :
    Ends k f R (out (m >>= g) f s) (out (m' >>= g') f' s') := by
  rw [outBind, outBind]
  obtain ⟨results, states⟩ := first
  rcases ran : out m f s with ⟨r, s₁⟩
  rcases ran' : out m' f' s' with ⟨r', s₁'⟩
  rw [ran, ran'] at results states
  cases results with
  | error => exact endsThrow states
  | ok related => exact rest _ _ _ _ ran related states

theorem twinsPure {a : α} {b : β} (related : Q a b) : Twins k f f' Q (pure a) (pure b) :=
  fun _ _ => endsPure related

theorem twinsThrow {e : RenderError} : Twins k f f' Q (throw e) (throw e) := fun _ _ => endsThrow

theorem twinsStop {e : RenderError} : Twins k f f' R (throw e >>= g) (throw e >>= g') := fun _ _ => endsThrow

theorem twinsBind (first : Twins k f f' Q m m') (rest : ∀ a b, Q a b → Twins k f f' R (g a) (g' b)) :
    Twins k f f' R (m >>= g) (m' >>= g') :=
  fun s s' shifted => endsBind (first s s' shifted) fun a b s₁ s₁' _ related => rest a b related s₁ s₁'

theorem twinsGet {g : State → Rendering γ} {g' : State → Rendering δ}
    (rest : ∀ s s', Shifted k f s s' → Ends k f R (out (g s) f s) (out (g' s') f' s')) :
    Twins k f f' R (get >>= g) (get >>= g') := rest

theorem twinsRead {g : Factory → Rendering γ} {g' : Factory → Rendering δ} (rest : Twins k f f' R (g f) (g' f')) :
    Twins k f f' R (read >>= g) (read >>= g') := rest

theorem twinsModify {h h' : State → State} (rest : ∀ s s', Shifted k f s s' → Shifted k f (h s) (h' s')) :
    Twins k f f' (fun _ _ => True) (modify h) (modify h') := fun s s' shifted => ⟨.ok trivial, rest s s' shifted⟩

theorem twinsFold {S : γ → δ → Prop} {h : α → γ → Rendering α} {h' : β → δ → Rendering β}
    (step : ∀ a b c d, Q a b → S c d → Twins k f f' Q (h a c) (h' b d)) {cs : List γ} {ds : List δ}
    (all : List.Forall₂ S cs ds) {a : α} {b : β} (start : Q a b) : Twins k f f' Q (cs.foldlM h a) (ds.foldlM h' b) := by
  induction all generalizing a b with
  | nil => exact twinsPure start
  | cons first _ ih =>
    rw [List.foldlM_cons, List.foldlM_cons]
    exact twinsBind (step _ _ _ _ start first) fun _ _ related => ih related

end Steps

section Values

variable {v w : Value}

theorem nearNow (h : Near v w) : Kin (clientText v) (clientText w) := by
  have plain := nearPlain h
  cases h with
  | same => exact .same
  | _ => exact plain

theorem nearShows {slot slot' : Slot} {name literal : String} {attributes : List Attribute} (h : Near v w) :
    showAttribute (some ⟨w, slot'⟩) name literal attributes =
      showAttribute (some ⟨v, slot⟩) name literal attributes := by
  cases h with
  | same => cases v <;> rfl
  | _ => rfl

theorem nearContent {slot : Slot} (h : Near v w) : isContent w slot = isContent v slot := by
  have safe := nearIsSafe h
  unfold isContent
  split
  · rfl
  · cases h with
    | same | list | tuple | generator | component => rfl
    | _ => exact safe

theorem nearRemoves (h : Near v w) : removesAttribute w = removesAttribute v := by
  cases h with
  | _ => rfl

def unquoted (v : Value) (quote? : Option Char) : String :=
  if !v.isSafe && quote? == some '\'' then String.ofList (v.escaped.toList.flatMap escapeApostrophe) else v.escaped

theorem nearUnquoted {quote? : Option Char} (h : Near v w) : Kin (unquoted v quote?) (unquoted w quote?) := by
  have escaped := nearEscaped h
  rw [unquoted, unquoted, nearIsSafe h]
  split
  · refine @kinOf _ _ (fun s => String.ofList (s.toList.flatMap escapeApostrophe)) escaped fun s named => ?_
    rw [Named, String.toList_ofList]
    exact namedEncoded (by decide) named
  · exact escaped

theorem attributeOther {quote? : Option Char} (other : v ≠ .truth true) : attributeText v quote? =
    match quote? with
    | some _ => unquoted v quote?
    | none => "\"" ++ unquoted v quote? ++ "\"" := by
  cases v with
  | truth b =>
    cases b with
    | true => exact absurd rfl other
    | false => cases quote? <;> rfl
  | _ => cases quote? <;> rfl

theorem nearAttribute {quote? : Option Char} (h : Near v w) :
    Kin (attributeText v quote?) (attributeText w quote?) := by
  by_cases shown : v = .truth true
  · subst shown
    cases h
    exact .same
  · have other : w ≠ .truth true := by
      rintro rfl
      cases h
      exact shown rfl
    rw [attributeOther shown, attributeOther other]
    cases quote? with
    | some q => exact nearUnquoted h
    | none => exact kinAround (nearUnquoted h)

end Values

section Fill

abbrev Trail (ε : Type) := Factory → State → List ε

namespace Trail

variable {ε : Type}

def silent : Trail ε := fun _ _ => []

def behind (m : Rendering α) (next : α → Trail ε) : Trail ε := fun f s =>
  match out m f s with
  | (.ok a, s') => next a f s'
  | (.error _, _) => []

end Trail

mutual

def inlineTexts : Value → List String
  | .list items => inlineTextsAll items
  | .tuple items => inlineTextsAll items
  | .generator items => inlineTextsAll items
  | .component _ => []
  | .rendered _ _ _ => []
  | v => if v.isSafe then [] else [v.escaped]

def inlineTextsAll : List Value → List String
  | [] => []
  | v :: rest => inlineTexts v ++ inlineTextsAll rest

end

def plainTexts (markup : String) (v : Value) : List String :=
  match Template.attributePlace? markup.toList with
  | none => inlineTexts v
  | some place => if removesAttribute v then [] else [attributeText v place.quote?]

def isMarked (s : State) (v : Value) : Option Slot → Bool
  | some slot => s.isLive slot && !isContent v slot
  | none => false

def slotTexts (s : State) (markup : String) (v : Value) (slot? : Option Slot) : List String :=
  if isMarked s v slot? then [clientText v, v.shown] else plainTexts markup v

def fillOne (f : Factory) (s : State) (markup : String) (v : Value) (slot? : Option Slot) (following : String) :
    Rendering String :=
  match slot? with
  | some slot =>
    if s.isLive slot && !isContent v slot then fillLive markup v slot following else fillPlain f markup v following
  | none => fillPlain f markup v following

def fillTexts (markup : String) : List Value → List (Option Slot) → List String → Trail String
  | v :: values, slot? :: slots, following :: texts => fun f s =>
    slotTexts s markup v slot? ++ Trail.behind (fillOne f s markup v slot? following)
      (fun markup => fillTexts markup values slots texts) f s
  | _, _, _ => Trail.silent

def filledTexts (template : String) (values : List Value) (line : Int) : Trail String := fun f =>
  match Template.split template with
  | .error _ => Trail.silent f
  | .ok segments =>
    if segments.length - 1 ≠ values.length then Trail.silent f
    else fillTexts (segments.headD "") values (knownSlots f template values line) (segments.drop 1) f

theorem outFill {markup following : String} {v : Value} {values : List Value} {slot? : Option Slot}
    {slots : List (Option Slot)} {texts : List String} :
    out (fill f markup (v :: values) (slot? :: slots) (following :: texts)) f s =
      out (fillOne f s markup v slot? following >>= fun markup => fill f markup values slots texts) f s := by
  rw [fill, outBind, outGet]
  simp only
  cases slot? with
  | none => rfl
  | some slot =>
    simp only [fillOne]
    split
    · rfl
    · rfl

variable {v w : Value} {vs ws : List Value}

def spreads : Value → Bool
  | .list _ | .tuple _ | .generator _ | .component _ | .rendered _ _ _ => true
  | _ => false

theorem nearSpreads (h : Near v w) : spreads w = spreads v := by
  cases h with
  | _ => rfl

theorem inlineOther (other : spreads v = false) : inline f v =
    match v.safeHtml? with
    | some s => defer (.markup s)
    | none => return v.escaped := by
  cases v with
  | list | tuple | generator | component | rendered => cases other
  | _ => rfl

theorem textsOther (other : spreads v = false) : inlineTexts v = if v.isSafe then [] else [v.escaped] := by
  cases v with
  | list | tuple | generator | component | rendered => cases other
  | _ => rfl

theorem endsDefer {content content' : Deferred} (twin : Twin f f')
    (put : ∀ key, Put (key, content) (key, content')) : Twins k f f' Eq (defer content) (defer content') := by
  intro s s' shifted
  rw [outDefer, outDefer, twin.number, shifted.next]
  refine ⟨.ok rfl, shifted.page, shifted.written, rfl, shifted.records, shifted.live, ?_, shifted.keyed⟩
  exact List.rel_append shifted.deferred (.cons (put _) .nil)

theorem twinsOther (twin : Twin f f') (near : Near v w) (other : spreads v = false)
    (clear : ∀ t ∈ inlineTexts v, ¬Named t) : Twins k f f' Eq (inline f v) (inline f' w) := by
  have safe := nearSafe near
  have escaped := nearEscaped near
  rw [textsOther other] at clear
  rw [inlineOther other, inlineOther ((nearSpreads near).trans other)]
  unfold Value.isSafe at clear
  revert clear safe
  generalize v.safeHtml? = s?, w.safeHtml? = t?
  rintro clear (kin | _)
  · exact endsDefer twin fun _ => .markup kin
  · exact twinsPure (kinSame escaped (clear _ List.mem_cons_self)).symm

mutual

theorem twinsInline (twin : Twin f f') : (v w : Value) → Near v w → (∀ t ∈ inlineTexts v, ¬Named t) →
    Twins k f f' Eq (inline f v) (inline f' w)
  | .list items, w, near, clear => by
    obtain ⟨others, rfl, all⟩ := nearList near
    exact twinsInlineAll twin items others all clear
  | .tuple items, w, near, clear => by
    obtain ⟨others, rfl, all⟩ := nearTuple near
    exact twinsInlineAll twin items others all clear
  | .generator items, w, near, clear => by
    obtain ⟨others, rfl, all⟩ := nearGenerator near
    exact twinsInlineAll twin items others all clear
  | .component c, w, near, clear => by
    obtain ⟨fields, rfl, held⟩ := nearComponent near
    exact endsDefer twin fun _ => .component held
  | .rendered output body owner, w, near, _ => by
    cases near with
    | same =>
      rw [inline, inline, twin.number]
      exact endsDefer twin fun _ => .markup .same
    | rendered whole part =>
      rw [inline, inline, twin.number]
      refine endsDefer twin fun _ => .markup ?_
      split
      · exact part
      · exact whole
  | .none, w, near, clear | .truth _, w, near, clear | .whole _, w, near, clear | .real _, w, near, clear
  | .text _, w, near, clear | .bytes _, w, near, clear | .set _, w, near, clear | .dict _, w, near, clear
  | .markup _, w, near, clear | .safe _, w, near, clear | .object _, w, near, clear
  | .promise _ _ _, w, near, clear => twinsOther twin near rfl clear

theorem twinsInlineAll (twin : Twin f f') : (vs ws : List Value) → NearAll vs ws →
    (∀ t ∈ inlineTextsAll vs, ¬Named t) → Twins k f f' Eq (inlineAll f vs) (inlineAll f' ws)
  | [], _, .nil, _ => twinsPure rfl
  | v :: rest, _, .cons first others, clear => by
    obtain ⟨here, later⟩ := List.forall_mem_append.mp clear
    refine twinsBind (twinsInline twin v _ first here) fun _ _ same => ?_
    refine twinsBind (twinsInlineAll twin rest _ others later) fun _ _ same' => ?_
    exact twinsPure (by rw [same, same'])

end

theorem twinsPlain {markup following : String} (twin : Twin f f') (near : Near v w)
    (clear : ∀ t ∈ plainTexts markup v, ¬Named t) :
    Twins k f f' Eq (fillPlain f markup v following) (fillPlain f' markup w following) := by
  unfold plainTexts at clear
  unfold fillPlain
  rw [nearRemoves near]
  cases at' : Template.attributePlace? markup.toList with
  | none =>
    rw [at'] at clear
    refine twinsBind (twinsInline twin v w near clear) fun _ _ same => twinsPure ?_
    rw [same]
  | some place =>
    rw [at'] at clear
    simp only at clear ⊢
    split
    · split
      · exact twinsPure rfl
      split
      · exact twinsPure rfl
      · exact twinsPure rfl
    · next shown =>
      rw [if_neg shown] at clear
      refine twinsPure ?_
      rw [kinSame (nearAttribute near) (clear _ List.mem_cons_self)]

theorem twinsMark {slot : Slot} (twin : Twin f f') (near : Near v w) (now : ¬Named (clientText v))
    (shown : ¬Named v.shown) : Twins k f f' Eq (mark v slot) (mark w slot) := by
  intro s s' shifted
  cases translatable : slot.translatable with
  | false =>
    rw [mark, mark, outBind, outBind, outRead, outRead]
    simp only [translatable, Bool.not_false, if_true, twin.className]
    exact endsThrow shifted
  | true =>
    rw [outMark translatable, outMark translatable, twin.number, shifted.next]
    have shows : Shown ⟨v, slot⟩ ⟨w, slot⟩ :=
      ⟨rfl, kinSame (nearNow near) now, kinSame (nearShown near) shown, fun _ _ _ => nearShows near⟩
    refine ⟨.ok rfl, shifted.page, shifted.written, rfl, shifted.records, ?_, shifted.deferred, ?_⟩
    · exact List.rel_append shifted.live (.cons ⟨rfl, shows⟩ .nil)
    · exact forallAppended shifted.keyed (placeholderFront textFront)

theorem isLiveShifted {slot : Slot} (shifted : Shifted k f s s') : s'.isLive slot = s.isLive slot := by
  rw [State.isLive, State.isLive, State.isReactive, State.isReactive, shifted.written]

theorem twinsOne {markup following : String} {slot? : Option Slot} (twin : Twin f f') (near : Near v w)
    (shifted : Shifted k f s s') (clear : ∀ t ∈ slotTexts s markup v slot?, ¬Named t) :
    Twins k f f' Eq (fillOne f s markup v slot? following) (fillOne f' s' markup w slot? following) := by
  unfold slotTexts isMarked at clear
  unfold fillOne
  cases slot? with
  | none => exact twinsPlain twin near clear
  | some slot =>
    simp only [isLiveShifted shifted, nearContent near] at clear ⊢
    split
    · next live =>
      rw [if_pos live] at clear
      have now := clear _ List.mem_cons_self
      have shown := clear _ (List.mem_cons_of_mem _ List.mem_cons_self)
      refine twinsBind (twinsMark twin near now shown) fun key key' same => twinsPure ?_
      rw [same]
    · next dead =>
      rw [if_neg dead] at clear
      exact twinsPlain twin near clear

theorem endsFill {slots : List (Option Slot)} {texts : List String} {markup : String} (twin : Twin f f')
    (near : NearAll vs ws) (shifted : Shifted k f s s')
    (clear : ∀ t ∈ fillTexts markup vs slots texts f s, ¬Named t) :
    Ends k f Eq (out (fill f markup vs slots texts) f s) (out (fill f' markup ws slots texts) f' s') := by
  induction vs generalizing ws slots texts markup s s' with
  | nil =>
    cases near
    exact endsPure rfl shifted
  | cons v vs ih =>
    cases near with
    | cons first others =>
      rcases slots with _ | ⟨slot?, slots⟩
      · exact endsPure rfl shifted
      rcases texts with _ | ⟨following, texts⟩
      · exact endsPure rfl shifted
      rw [fillTexts] at clear
      obtain ⟨here, later⟩ := List.forall_mem_append.mp clear
      rw [outFill, outFill]
      refine endsBind (twinsOne twin first shifted here s s' shifted) fun filled filled' s₁ s₁' ran same shifted' => ?_
      rw [Trail.behind, ran] at later
      rw [← same]
      exact ih others shifted' later

theorem endsFilled {template : String} {line : Int} (twin : Twin f f') (near : NearAll vs ws)
    (shifted : Shifted k f s s') (clear : ∀ t ∈ filledTexts template vs line f s, ¬Named t) :
    Ends k f Eq (out (filled template vs line) f s) (out (filled template ws line) f' s') := by
  have known : knownSlots f' template ws line = knownSlots f template vs line := by
    have lengths := nearLength near
    unfold knownSlots
    rw [lengths, twin.slots]
    split
    · rfl
    · rw [List.map_const', List.map_const', lengths]
  rw [filled, filled, outBind, outBind, outRead, outRead]
  unfold filledTexts at clear
  simp only [known, nearLength near]
  cases split : Template.split template with
  | error e => exact endsThrow shifted
  | ok segments =>
    simp only [split] at clear
    rw [outBind, outBind, show out (pure segments) f s = (.ok segments, s) from rfl,
      show out (pure segments) f' s' = (.ok segments, s') from rfl]
    simp only
    split
    · exact endsThrow shifted
    · next fits =>
      rw [if_neg fits] at clear
      exact endsFill twin near shifted clear

end Fill

end LiveMarkup.Render
