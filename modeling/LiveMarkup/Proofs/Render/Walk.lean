import LiveMarkup.Proofs.Render.Run
/-! What a template call does, step by step: it keeps whatever the few steps keep that touch the state. -/
namespace LiveMarkup.Render
open Analysis Client Markup

variable {f : Factory} {I : State → Prop}

section Tree

mutual

theorem keepsElements {change : List Attribute → Rendering (List Attribute)}
    (h : ∀ attributes, Keeps I f (change attributes)) : (n : Node) → Keeps I f (onElements change n)
  | .text _ _ => keepsPure
  | .element _ attributes children =>
    keepsBind (h attributes) fun _ => keepsBind (keepsAllElements h children) fun _ => keepsPure

theorem keepsAllElements {change : List Attribute → Rendering (List Attribute)}
    (h : ∀ attributes, Keeps I f (change attributes)) :
    (nodes : List Node) → Keeps I f (onAllElements change nodes)
  | [] => keepsPure
  | n :: rest =>
    keepsBind (keepsElements h n) fun _ => keepsBind (keepsAllElements h rest) fun _ => keepsPure

end

theorem outSettle {s : State} {chunk : String} :
    out (settle chunk) f s = (.ok (compose f.number s chunk), s) ∧
        (∃ key ∈ placeholders f.number chunk, (s.live? key).isSome) ∨
      out (settle chunk) f s = (.ok ⟨chunk, none, []⟩, s) := by
  rw [settle, outBind, outRead]
  simp only
  rw [outBind, outGet]
  simp only
  split
  · next live => exact .inl ⟨rfl, List.any_eq_true.mp live⟩
  · exact .inr rfl

def chunksIn (f : Factory) (s : State) (text : String) : List String :=
  if (placeholders f.number text).isEmpty then [text]
  else if (splitDeferred f.number s text).length ≤ 1 then [text] else splitDeferred f.number s text

theorem outChunks {s : State} {text : String} :
    out (chunksOf text) f s = (.ok (chunksIn f s text), s) := by
  rw [chunksOf, outBind, outRead]
  simp only
  rw [outBind, outGet, chunksIn]
  simp only
  split
  · rfl
  · rfl

theorem keepsChunks {β : Type} {text : String} {k : List String → Rendering β}
    (h : ∀ parts, Keeps I f (k parts)) : Keeps I f (chunksOf text >>= k) := by
  intro s hs
  rw [outBind, outChunks]
  exact h _ s hs

def Mixed (children : List Node) : Prop := ∀ text, children ≠ [.text .plain text]

theorem onlyOrMixed (children : List Node) :
    (∃ text, children = [.text .plain text]) ∨ Mixed children := by
  by_cases h : ∃ text, children = [.text .plain text]
  · exact .inl h
  · exact .inr (not_exists.mp h)

theorem mixedTexts {name : String} {attributes : List Attribute} {children : List Node}
    (h : Mixed children) : bindElementTexts (.element name attributes children) =
      (do return [.element name attributes (← bindTexts children)]) := by
  rw [bindElementTexts]
  exact h

theorem onlyText {name text : String} {attributes : List Attribute} :
    bindElementTexts (.element name attributes [.text .plain text]) = (do
      match ← chunksOf text with
      | [chunk] => return [← bindOnlyText name attributes chunk]
      | parts => return [.element name attributes (← parts.mapM wrapChunk)]) := by
  rfl

inductive BindsTexts (f : Factory) (s : State) : Node → List Node → State → Prop where
  | plain {text nodes s'} (wrapped : out ((chunksIn f s text).mapM wrapChunk) f s = (.ok nodes, s')) :
      BindsTexts f s (.text .plain text) nodes s'
  | still {kind text} (other : kind ≠ .plain) : BindsTexts f s (.text kind text) [.text kind text] s
  | only {name attributes text chunk n s'} (single : chunksIn f s text = [chunk])
      (bound : out (bindOnlyText name attributes chunk) f s = (.ok n, s')) :
      BindsTexts f s (.element name attributes [.text .plain text]) [n] s'
  | several {name attributes text parts s'} (several : ∀ chunk, chunksIn f s text ≠ [chunk])
      (wrapped : out ((chunksIn f s text).mapM wrapChunk) f s = (.ok parts, s')) :
      BindsTexts f s (.element name attributes [.text .plain text]) [.element name attributes parts] s'
  | mixed {name attributes children parts s'} (mixed : Mixed children)
      (bound : out (bindTexts children) f s = (.ok parts, s')) :
      BindsTexts f s (.element name attributes children) [.element name attributes parts] s'

theorem bindsTexts {s s' : State} {n : Node} {nodes : List Node}
    (h : out (bindElementTexts n) f s = (.ok nodes, s')) : BindsTexts f s n nodes s' := by
  cases n with
  | text kind text =>
    cases kind with
    | plain =>
      rw [bindElementTexts, outBind, outChunks] at h
      exact .plain h
    | hidden | aside =>
      cases h
      exact .still nofun
  | element name attributes children =>
    rcases onlyOrMixed children with ⟨text, rfl⟩ | mixed
    · rw [onlyText, outBind, outChunks] at h
      simp only at h
      split at h
      · next single =>
        obtain ⟨_, _, bound, h⟩ := outOk.mp h
        cases h
        exact .only single bound
      · next several =>
        obtain ⟨_, _, wrapped, h⟩ := outOk.mp h
        cases h
        exact .several several wrapped
    · rw [mixedTexts mixed] at h
      obtain ⟨_, _, bound, h⟩ := outOk.mp h
      cases h
      exact .mixed mixed bound

mutual

theorem keepsElementTexts (wrap : ∀ chunk, Keeps I f (wrapChunk chunk))
    (only : ∀ name attributes chunk, Keeps I f (bindOnlyText name attributes chunk)) :
    (n : Node) → Keeps I f (bindElementTexts n)
  | .text .plain _ => keepsChunks fun parts => keepsMap wrap parts
  | .text .hidden _ => keepsPure
  | .text (.aside _) _ => keepsPure
  | .element name attributes children => by
    have inner := keepsTexts wrap only children
    rcases onlyOrMixed children with ⟨text, rfl⟩ | mixed
    · rw [onlyText]
      refine keepsChunks fun parts => ?_
      split
      · exact keepsBind (only _ _ _) fun _ => keepsPure
      · exact keepsBind (keepsMap wrap _) fun _ => keepsPure
    · rw [mixedTexts mixed]
      exact keepsBind inner fun _ => keepsPure

theorem keepsTexts (wrap : ∀ chunk, Keeps I f (wrapChunk chunk))
    (only : ∀ name attributes chunk, Keeps I f (bindOnlyText name attributes chunk)) :
    (nodes : List Node) → Keeps I f (bindTexts nodes)
  | [] => keepsPure
  | n :: rest =>
    keepsBind (keepsElementTexts wrap only n) fun _ =>
      keepsBind (keepsTexts wrap only rest) fun _ => keepsPure

end

theorem keepsTree {tree : List Node} (event : ∀ attributes a, Keeps I f (bindEvent attributes a))
    (dynamic : ∀ attributes a, Keeps I f (bindAttribute attributes a))
    (texts : ∀ tree, Keeps I f (bindTexts tree)) (anchor : ∀ attributes, Keeps I f (bindAnchor attributes)) :
    Keeps I f (settleTree tree) :=
  keepsBind (keepsAllElements (fun attributes => keepsFold event attributes attributes) tree) fun tree =>
    keepsBind (keepsAllElements (fun attributes => keepsFold dynamic attributes attributes) tree) fun tree =>
      keepsBind (texts tree) (keepsAllElements anchor)

end Tree

section Sites

theorem sitesKnown {slots : List Slot} : ∀ site ∈ sitesOf slots, ∀ r ∈ site.slots, r ∈ slots := by
  induction slots with
  | nil => exact fun _ h => absurd h List.not_mem_nil
  | cons s rest ih =>
    have alone (r : Slot) (h : r ∈ [s]) : r ∈ s :: rest :=
      List.mem_singleton.mp h ▸ List.mem_cons_self
    have later (site : Site) (h : site ∈ sitesOf rest) (r : Slot) (hr : r ∈ site.slots) :
        r ∈ s :: rest := List.mem_cons_of_mem _ (ih site h r hr)
    unfold sitesOf
    split
    · exact List.forall_mem_singleton.mpr alone
    · next site sites others =>
      have known (other : Site) (h : other ∈ sites) := later other (others ▸ List.mem_cons_of_mem _ h)
      have first := later site (others ▸ List.mem_cons_self)
      split
      · next found =>
        split
        · refine List.forall_mem_cons.mpr ⟨alone, List.forall_mem_cons.mpr ⟨first, known⟩⟩
        · refine List.forall_mem_cons.mpr ⟨fun r hr => ?_, known⟩
          rcases List.mem_cons.mp hr with rfl | hr
          · exact List.mem_cons_self
          · exact first r hr
      · exact List.forall_mem_cons.mpr ⟨alone, known⟩

theorem laterOf {sites : List Site} {site : Site} :
    sites.foldl Site.later site = site ∨ sites.foldl Site.later site ∈ sites := by
  induction sites generalizing site with
  | nil => exact .inl rfl
  | cons next rest ih =>
    rcases @ih (site.later next) with same | found
    · rw [List.foldl_cons, same, Site.later]
      split
      · exact .inr List.mem_cons_self
      · exact .inl rfl
    · exact .inr (List.mem_cons_of_mem _ found)

theorem siteFound {slots : List Slot} {template : String} {count : Nat} {line : Int} {site : Site}
    (h : siteFor? slots template count line = some site) :
    site ∈ (sitesOf slots).filter fun site => site.template == template && site.slots.length == count := by
  unfold siteFor? at h
  simp only at h
  split at h
  · cases h
  · next first rest candidates =>
    split at h
    · cases h
      exact candidates ▸ List.mem_cons_self
    split at h
    · cases h
      exact candidates ▸ List.mem_cons_self
    · next above =>
      cases h
      have found := above.symm ▸ List.mem_cons.mpr laterOf
      exact (List.mem_filter.mp found).1

theorem siteKnown {slots : List Slot} {template : String} {count : Nat} {line : Int} {site : Site}
    (h : siteFor? slots template count line = some site) : ∀ r ∈ site.slots, r ∈ slots :=
  sitesKnown site (List.mem_filter.mp (siteFound h)).1

theorem slotsKnown {template : String} {values : List Value} {line : Int} {slot : Slot}
    (h : some slot ∈ knownSlots f template values line) : slot ∈ f.slots := by
  unfold knownSlots at h
  split at h
  · next site found =>
    obtain ⟨r, hr, same⟩ := List.mem_map.mp h
    cases same
    exact siteKnown found slot hr
  · obtain ⟨_, _, same⟩ := List.mem_map.mp h
    cases same

theorem knownLength {template : String} {values : List Value} {line : Int} :
    (knownSlots f template values line).length = values.length := by
  unfold knownSlots
  split
  · next site found =>
    have fits := (List.mem_filter.mp (siteFound found)).2
    rw [Bool.and_eq_true, beq_iff_eq, beq_iff_eq] at fits
    rw [List.length_map]
    exact fits.2
  · rw [List.length_map]

end Sites

mutual

theorem keepsInline (put : ∀ content, Keeps I f (defer content)) : (v : Value) → Keeps I f (inline f v)
  | .list items | .tuple items | .generator items => keepsInlineAll put items
  | .component _ | .rendered _ _ _ => put _
  | .none | .truth _ | .whole _ | .real _ | .text _ | .bytes _ | .set _ | .dict _ | .markup _ | .safe _
  | .object _ | .promise _ _ _ => by
    unfold inline
    split
    · exact put _
    · exact keepsPure

theorem keepsInlineAll (put : ∀ content, Keeps I f (defer content)) :
    (vs : List Value) → Keeps I f (inlineAll f vs)
  | [] => keepsPure
  | v :: rest =>
    keepsBind (keepsInline put v) fun _ => keepsBind (keepsInlineAll put rest) fun _ => keepsPure

end

section Fill

variable (put : ∀ content, Keeps I f (defer content))

include put

theorem keepsPlain {markup following : String} {v : Value} :
    Keeps I f (fillPlain f markup v following) := by
  unfold fillPlain
  split
  · exact keepsBind (keepsInline put v) fun _ => keepsPure
  split
  · split
    · exact keepsPure
    split
    · exact keepsPure
    · exact keepsPure
  · exact keepsPure

variable (marked : ∀ v slot s, slot ∈ f.slots → s.isLive slot = true → I s → I (out (mark v slot) f s).2)

include marked

theorem keepsFill {values : List Value} {slots : List (Option Slot)} {texts : List String}
    {markup : String} (h : ∀ slot, some slot ∈ slots → slot ∈ f.slots) :
    Keeps I f (fill f markup values slots texts) := by
  induction values generalizing slots texts markup with
  | nil => exact keepsPure
  | cons v values ih =>
    rcases slots with _ | ⟨slot?, slots⟩
    · exact keepsPure
    rcases texts with _ | ⟨following, texts⟩
    · exact keepsPure
    refine keepsGet fun s hs => ?_
    have rest (markup : String) : Keeps I f (fill f markup values slots texts) :=
      ih fun slot later => h slot (List.mem_cons_of_mem _ later)
    cases slot? with
    | none => exact keepsBind (keepsPlain put) rest s hs
    | some slot =>
      simp only
      split
      · next both =>
        have live : s.isLive slot = true := ((Bool.and_eq_true _ _).mp both).1
        have kept := marked v slot s (h slot List.mem_cons_self) live hs
        rw [fillLive, outBind, outBind]
        revert kept
        rcases out (mark v slot) f s with ⟨_ | key, s'⟩
        · exact id
        · exact rest _ s'
      · exact keepsBind (keepsPlain put) rest s hs

theorem keepsFilledLive {template : String} {values : List Value} {line : Int} :
    Keeps I f (filled template values line) := by
  refine keepsRead ?_
  cases Template.split template with
  | error e => exact keepsThrow
  | ok segments =>
    refine keepsBind keepsPure fun segments => ?_
    simp only
    split
    · exact keepsThrow
    · exact keepsFill put marked fun _ given => slotsKnown given

omit marked

theorem keepsFilled (always : ∀ v slot, slot ∈ f.slots → Keeps I f (mark v slot)) {template : String}
    {values : List Value} {line : Int} : Keeps I f (filled template values line) :=
  keepsFilledLive put fun v slot s known _ => always v slot known s

end Fill

theorem keepsLive {markup : String} (tree : ∀ nodes, Keeps I f (settleTree nodes))
    (emptied : ∀ s, I s → I { s with live := [] }) : Keeps I f (settleLive markup) := by
  refine keepsRead ?_
  cases readTree markup
  all_goals
    refine keepsBind (by first | exact keepsThrow | exact keepsPure) fun nodes => ?_
    refine keepsBind (tree nodes) fun final => keepsGet fun s hs => ?_
    refine keepsBind (keepsModify emptied) (fun _ => ?_) s hs
    split
    · exact keepsPure
    · exact keepsThrow

theorem keepsSplice {nested : Nested} {markup : String} (taken : ∀ key, Keeps I f (takeDeferred? key))
    (inner : ∀ c, Keeps I f (renderNested nested c)) : Keeps I f (splice nested markup) := by
  have piece (p : Piece) : Keeps I f (spliced nested p) := by
    cases p with
    | plain text => exact keepsPure
    | placeholder key =>
      refine keepsBind (taken key) fun content => ?_
      split
      · exact keepsPure
      · exact keepsPure
      · exact inner _
  exact keepsRead (keepsBind (keepsMap piece _) fun _ => keepsPure)

theorem keepsFinished {nested : Nested} {markup : String}
    (taken : ∀ key, Keeps I f (takeDeferred? key)) (inner : ∀ c, Keeps I f (renderNested nested c)) :
    Keeps I f (finished nested markup) := by
  refine keepsRead (keepsBind (keepsSplice taken inner) fun body => keepsGet fun s hs => ?_)
  split
  · exact hs
  split
  · exact hs
  · exact hs

theorem keepsCall {nested : Nested} {template : String} {values : List Value} {line : Int}
    (filling : Keeps I f (filled template values line)) (live : ∀ markup, Keeps I f (settleLive markup))
    (last : ∀ markup, Keeps I f (finished nested markup)) : Keeps I f (call nested template values line) := by
  refine keepsBind filling fun markup => keepsGet fun s hs => ?_
  split
  · exact keepsBind keepsPure last s hs
  · exact keepsBind (live markup) last s hs

end LiveMarkup.Render
