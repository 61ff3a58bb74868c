import LiveMarkup.Proofs.Client.Script
import LiveMarkup.Proofs.Render.Log
/-! What a component holds stays on the server, but for the fields that its records mention: calls with the
same values on two components of one class run alike. -/
namespace LiveMarkup.Render
open Analysis Client Markup

variable {α β : Type} {f f' : Factory}

section Alone

structure Peers (f f' : Factory) : Prop where
  number : f'.number = f.number
  slots : f'.slots = f.slots
  className : f'.component.className = f.component.className

def Same (f f' : Factory) (m m' : Rendering α) : Prop := ∀ s, out m' f' s = out m f s

theorem samePure {a : α} : Same f f' (pure a) (pure a) := fun _ => rfl

theorem sameThrow {e : RenderError} : Same f f' (throw e : Rendering α) (throw e) := fun _ => rfl

theorem sameModify {g : State → State} : Same f f' (modify g) (modify g) := fun _ => rfl

theorem sameBind {m m' : Rendering α} {k k' : α → Rendering β} (first : Same f f' m m')
    (rest : ∀ a, Same f f' (k a) (k' a)) : Same f f' (m >>= k) (m' >>= k') := by
  intro s
  rw [outBind, outBind, first s]
  rcases out m f s with ⟨_ | a, s'⟩
  · rfl
  · exact rest a s'

theorem sameStop {e : RenderError} {k k' : α → Rendering β} : Same f f' (throw e >>= k) (throw e >>= k') :=
  fun _ => rfl

theorem sameGet {k k' : State → Rendering β} (rest : ∀ s, Same f f' (k s) (k' s)) :
    Same f f' (get >>= k) (get >>= k') := sameBind (fun _ => rfl) rest

theorem sameRead {k k' : Factory → Rendering β} (rest : Same f f' (k f) (k' f')) :
    Same f f' (read >>= k) (read >>= k') := by
  intro s
  rw [outBind, outBind, outRead, outRead]
  exact rest s

theorem sameFold {k : β → α → Rendering β} (step : ∀ b a, Same f f' (k b a) (k b a)) (as : List α) (b : β) :
    Same f f' (as.foldlM k b) (as.foldlM k b) := by
  induction as generalizing b with
  | nil => exact samePure
  | cons a rest ih =>
    rw [List.foldlM_cons]
    exact sameBind (step b a) ih

theorem sameMap {k : α → Rendering β} (step : ∀ a, Same f f' (k a) (k a)) (as : List α) :
    Same f f' (as.mapM k) (as.mapM k) := by
  induction as with
  | nil => exact samePure
  | cons a rest ih =>
    rw [List.mapM_cons]
    exact sameBind (step a) fun _ => sameBind ih fun _ => samePure

end Alone

section Call

variable (peers : Peers f f')

include peers

theorem samePlaceholder : Same f f' newPlaceholder newPlaceholder := by
  refine sameRead ?_
  simp only [peers.number]
  exact sameGet fun _ _ => rfl

theorem sameDefer (content : Deferred) : Same f f' (defer content) (defer content) :=
  sameBind (samePlaceholder peers) fun _ _ => rfl

theorem sameMark (v : Value) (slot : Slot) : Same f f' (mark v slot) (mark v slot) := by
  refine sameRead ?_
  simp only [peers.className]
  split
  · exact sameStop
  · exact sameBind (samePlaceholder peers) fun _ => sameBind sameModify fun _ => samePure

omit peers in
mutual

theorem sameInline (peers : Peers f f') : (v : Value) → Same f f' (inline f v) (inline f' v)
  | .list items | .tuple items | .generator items => sameInlineAll peers items
  | .component c => sameDefer peers _
  | .rendered output body owner => by
    unfold inline
    rw [peers.number]
    exact sameDefer peers _
  | .none | .truth _ | .whole _ | .real _ | .text _ | .bytes _ | .set _ | .dict _ | .markup _ | .safe _
  | .object _ | .promise _ _ _ => by
    unfold inline
    split
    · exact sameDefer peers _
    · exact samePure

theorem sameInlineAll (peers : Peers f f') : (vs : List Value) → Same f f' (inlineAll f vs) (inlineAll f' vs)
  | [] => samePure
  | v :: rest => sameBind (sameInline peers v) fun _ => sameBind (sameInlineAll peers rest) fun _ => samePure

end

theorem samePlain (markup : String) (v : Value) (following : String) :
    Same f f' (fillPlain f markup v following) (fillPlain f' markup v following) := by
  unfold fillPlain
  split
  · exact sameBind (sameInline peers v) fun _ => samePure
  · exact fun s => by split <;> (try split) <;> (try split) <;> rfl

theorem sameFill {values : List Value} {slots : List (Option Slot)} {texts : List String} {markup : String} :
    Same f f' (fill f markup values slots texts) (fill f' markup values slots texts) := by
  induction values generalizing slots texts markup with
  | nil => exact samePure
  | cons v values ih =>
    rcases slots with _ | ⟨slot?, slots⟩
    · exact samePure
    rcases texts with _ | ⟨following, texts⟩
    · exact samePure
    refine sameGet fun s => ?_
    cases slot? with
    | none => exact sameBind (samePlain peers _ v _) fun _ => ih
    | some slot =>
      simp only
      split
      · exact sameBind (sameBind (sameMark peers v slot) fun _ => samePure) fun _ => ih
      · exact sameBind (samePlain peers _ v _) fun _ => ih

theorem sameFilled {template : String} {values : List Value} {line : Int} :
    Same f f' (filled template values line) (filled template values line) := by
  have known : knownSlots f' template values line = knownSlots f template values line := by
    rw [knownSlots, knownSlots, peers.slots]
  refine sameRead ?_
  cases Template.split template with
  | error e => exact sameStop
  | ok segments =>
    refine sameBind samePure fun segments => ?_
    simp only [known]
    split
    · exact sameStop
    · exact sameFill peers

theorem sameIdentify (attributes : List Attribute) : Same f f' (identify attributes) (identify attributes) := by
  refine sameRead ?_
  simp only [peers.number]
  split
  · exact samePure
  · exact fun _ => rfl

theorem sameEvent (attributes : List Attribute) (a : Attribute) :
    Same f f' (bindEvent attributes a) (bindEvent attributes a) := by
  refine sameGet fun s => ?_
  split
  · exact samePure
  split
  · exact samePure
  · exact sameBind (sameIdentify peers _) fun _ _ => rfl

theorem sameAttribute (attributes : List Attribute) (a : Attribute) :
    Same f f' (bindAttribute attributes a) (bindAttribute attributes a) := by
  refine sameRead ?_
  rw [peers.number]
  split
  · exact samePure
  refine sameGet fun s => ?_
  simp only
  split
  · exact samePure
  · exact sameBind (sameIdentify peers _) fun _ _ => rfl

theorem sameSettle (chunk : String) : Same f f' (settle chunk) (settle chunk) := by
  refine sameRead (sameGet fun s => ?_)
  rw [peers.number]
  split
  · exact samePure
  · exact samePure

theorem sameWrap (chunk : String) : Same f f' (wrapChunk chunk) (wrapChunk chunk) := by
  refine sameBind (sameSettle peers chunk) fun c => ?_
  simp only
  split
  · exact samePure
  · exact sameBind (sameIdentify peers _) fun _ _ => rfl

theorem sameOnly (name : String) (attributes : List Attribute) (chunk : String) :
    Same f f' (bindOnlyText name attributes chunk) (bindOnlyText name attributes chunk) := by
  refine sameBind (sameSettle peers chunk) fun c => ?_
  simp only
  split
  · exact samePure
  · exact sameBind (sameIdentify peers _) fun _ _ => rfl

theorem sameChunks (text : String) : Same f f' (chunksOf text) (chunksOf text) := by
  intro s
  rw [outChunks, outChunks, chunksIn, chunksIn, peers.number]

omit peers in
mutual

theorem sameElements {change : List Attribute → Rendering (List Attribute)}
    (h : ∀ attributes, Same f f' (change attributes) (change attributes)) :
    (n : Node) → Same f f' (onElements change n) (onElements change n)
  | .text _ _ => samePure
  | .element _ attributes children =>
    sameBind (h attributes) fun _ => sameBind (sameAllElements h children) fun _ => samePure

theorem sameAllElements {change : List Attribute → Rendering (List Attribute)}
    (h : ∀ attributes, Same f f' (change attributes) (change attributes)) :
    (nodes : List Node) → Same f f' (onAllElements change nodes) (onAllElements change nodes)
  | [] => samePure
  | n :: rest => sameBind (sameElements h n) fun _ => sameBind (sameAllElements h rest) fun _ => samePure

end

omit peers in
mutual

theorem sameElementTexts (peers : Peers f f') : (n : Node) → Same f f' (bindElementTexts n) (bindElementTexts n)
  | .text .plain text => sameBind (sameChunks peers text) (sameMap (sameWrap peers))
  | .text .hidden _ => samePure
  | .text (.aside _) _ => samePure
  | .element name attributes children => by
    have inner := sameTexts peers children
    rcases onlyOrMixed children with ⟨text, rfl⟩ | mixed
    · rw [onlyText]
      refine sameBind (sameChunks peers text) fun parts => ?_
      split
      · exact sameBind (sameOnly peers _ _ _) fun _ => samePure
      · exact sameBind (sameMap (sameWrap peers) _) fun _ => samePure
    · rw [mixedTexts mixed]
      exact sameBind inner fun _ => samePure

theorem sameTexts (peers : Peers f f') : (nodes : List Node) → Same f f' (bindTexts nodes) (bindTexts nodes)
  | [] => samePure
  | n :: rest => sameBind (sameElementTexts peers n) fun _ => sameBind (sameTexts peers rest) fun _ => samePure

end

theorem sameTree (tree : List Node) : Same f f' (settleTree tree) (settleTree tree) := by
  have events (attributes : List Attribute) := sameFold (sameEvent peers) attributes attributes
  have bound (attributes : List Attribute) := sameFold (sameAttribute peers) attributes attributes
  refine sameBind (sameAllElements events tree) fun tree => ?_
  refine sameBind (sameAllElements bound tree) fun tree => ?_
  have anchors (attributes : List Attribute) : Same f f' (bindAnchor attributes) (bindAnchor attributes) :=
    sameGet fun s _ => by split <;> rfl
  exact sameBind (sameTexts peers tree) (sameAllElements anchors)

theorem sameSettled (markup : String) : Same f f' (settleLive markup) (settleLive markup) := by
  refine sameRead ?_
  simp only [peers.number, peers.className]
  cases readTree markup with
  | error e => exact sameStop
  | ok tree =>
    refine sameBind samePure fun tree => sameBind (sameTree peers tree) fun final => sameGet fun s => ?_
    refine sameBind sameModify fun _ => ?_
    split
    · exact samePure
    · exact sameThrow

omit peers in
theorem sameSpliced {nested : Nested} (p : Piece) : Same f f' (spliced nested p) (spliced nested p) := by
  have taken (key : String) : Same f f' (takeDeferred? key) (takeDeferred? key) :=
    sameGet fun s _ => by split <;> rfl
  have inner (c : Component) : Same f f' (renderNested nested c) (renderNested nested c) :=
    sameGet fun s _ => by
      rcases (nested c).run s.page with ⟨_ | _, page⟩
      · rfl
      · rfl
  cases p with
  | plain text => exact samePure
  | placeholder key =>
    refine sameBind (taken key) fun content => ?_
    split
    · exact samePure
    · exact samePure
    · exact inner _

theorem sameSplice {nested : Nested} (markup : String) : Same f f' (splice nested markup) (splice nested markup) := by
  refine sameRead ?_
  rw [peers.number]
  exact sameBind (sameMap (sameSpliced) _) fun _ => samePure

end Call

section Fields

variable {s : State} {r : Records} {nested : Nested}

def Agreed (f f' : Factory) (r : Records) : Prop :=
  ∀ field ∈ r.mentions, f'.component.get? field = f.component.get? field

theorem declaredSame {c c' : Component} {field : String} (className : c'.className = c.className)
    (agreed : c'.get? field = c.get? field) : declareField c' field = declareField c field := by
  rw [declareField, declareField, fieldLiteral, fieldLiteral, className, agreed]

theorem scriptSame (peers : Peers f f') (agreed : Agreed f f' r) :
    script f'.component r = script f.component r := by
  have declared : (distinct r.mentions).mapM (declareField f'.component) =
      (distinct r.mentions).mapM (declareField f.component) := by
    have each : ∀ field ∈ distinct r.mentions, declareField f'.component field = declareField f.component field :=
      fun field mem => declaredSame peers.className (agreed field (memDistinct.mp mem))
    generalize distinct r.mentions = names at each
    induction names with
    | nil => rfl
    | cons field rest ih =>
      obtain ⟨here, later⟩ := List.forall_mem_cons.mp each
      rw [List.mapM_cons, List.mapM_cons, here, ih later]
  rw [script, script, declared]

def Mentioned (field : String) (s : State) : Prop := field ∈ s.records.mentions

variable {field : String}

theorem mentionsBinding {b : Binding} : Keeps (Mentioned field) f (addBinding b) := by
  refine keepsModify fun s h => ?_
  simp only [Mentioned, Records.mentions, List.flatMap_append, List.mem_append] at h ⊢
  grind

theorem mentionsNewId : Keeps (Mentioned field) f newId := keepsGet fun _ h => h

theorem mentionsIdentify {attributes : List Attribute} : Keeps (Mentioned field) f (identify attributes) := by
  refine keepsRead ?_
  simp only
  split
  · exact keepsPure
  · exact keepsBind mentionsNewId fun _ => keepsPure

theorem mentionsEvent (attributes : List Attribute) (a : Attribute) :
    Keeps (Mentioned field) f (bindEvent attributes a) := by
  refine keepsGet fun s h => ?_
  split
  · exact h
  split
  · exact h
  · refine keepsBind mentionsIdentify (fun p => keepsBind (keepsModify fun s' h' => ?_) fun _ => keepsPure) s h
    simp only [Mentioned, Records.mentions, List.flatMap_append, List.mem_append] at h' ⊢
    grind

theorem mentionsAttribute (attributes : List Attribute) (a : Attribute) :
    Keeps (Mentioned field) f (bindAttribute attributes a) := by
  refine keepsRead ?_
  split
  · exact keepsPure
  refine keepsGet fun s h => ?_
  simp only
  split
  · exact h
  · exact keepsBind mentionsIdentify (fun _ => keepsBind mentionsBinding fun _ => keepsPure) s h

theorem mentionsSettle (chunk : String) : Keeps (Mentioned field) f (settle chunk) := by
  refine keepsRead (keepsGet fun s h => ?_)
  split
  · exact h
  · exact h

theorem mentionsWrap (chunk : String) : Keeps (Mentioned field) f (wrapChunk chunk) := by
  refine keepsBind (mentionsSettle chunk) fun c => ?_
  simp only
  split
  · exact keepsPure
  · exact keepsBind mentionsIdentify fun _ => keepsBind mentionsBinding fun _ => keepsPure

theorem mentionsOnly (name : String) (attributes : List Attribute) (chunk : String) :
    Keeps (Mentioned field) f (bindOnlyText name attributes chunk) := by
  refine keepsBind (mentionsSettle chunk) fun c => ?_
  simp only
  split
  · exact keepsPure
  · exact keepsBind mentionsIdentify fun _ => keepsBind mentionsBinding fun _ => keepsPure

theorem mentionsAnchor (attributes : List Attribute) : Keeps (Mentioned field) f (bindAnchor attributes) := by
  refine keepsGet fun s h => ?_
  split
  · exact h
  · refine keepsBind mentionsNewId (fun id => keepsBind (keepsModify fun s' h' => ?_) fun _ => keepsPure) s h
    simp only [Mentioned, Records.mentions, List.flatMap_append, List.mem_append] at h' ⊢
    grind

theorem mentionsLive {markup : String} : Keeps (Mentioned field) f (settleLive markup) :=
  keepsLive (fun _ => keepsTree mentionsEvent mentionsAttribute (keepsTexts mentionsWrap mentionsOnly) mentionsAnchor)
    fun _ h => h

theorem mentionsFilled {template : String} {values : List Value} {line : Int} :
    Keeps (Mentioned field) f (filled template values line) := by
  refine keepsFilled (fun content s h => h) fun v slot _ s h => ?_
  cases translatable : slot.translatable with
  | false =>
    rw [mark, outBind, outRead]
    simp only [translatable, Bool.not_false, if_true]
    exact h
  | true =>
    rw [outMark translatable]
    exact h

theorem mentionsSplice {markup : String} : Keeps (Mentioned field) f (splice nested markup) := by
  refine keepsSplice (fun key => keepsGet fun s h => ?_) fun c => keepsGet fun s h => ?_
  · split
    · exact h
    · exact h
  · rcases (nested c).run s.page with ⟨_ | _, page⟩
    · exact h
    · exact h

def Closely (f f' : Factory) (m m' : Rendering α) : Prop :=
  ∀ s, Agreed f f' (out m f s).2.records → out m' f' s = out m f s ∧ Agreed f f' s.records

theorem closelySame {m m' : Rendering α} (same : Same f f' m m')
    (kept : ∀ field, Keeps (Mentioned field) f m) : Closely f f' m m' :=
  fun s agreed => ⟨same s, fun field mem => agreed field (kept field s mem)⟩

theorem closelyPure {a : α} : Closely f f' (pure a) (pure a) := closelySame samePure fun _ => keepsPure

theorem closelyBind {m m' : Rendering α} {k k' : α → Rendering β} (first : Closely f f' m m')
    (rest : ∀ a, Closely f f' (k a) (k' a)) : Closely f f' (m >>= k) (m' >>= k') := by
  intro s agreed
  rw [outBind] at agreed
  rw [outBind, outBind]
  have begins := first s
  rcases ran : out m f s with ⟨e | a, s'⟩
  · rw [ran] at agreed begins
    obtain ⟨same, before⟩ := begins agreed
    exact ⟨by rw [same], before⟩
  · rw [ran] at agreed begins
    obtain ⟨later, middle⟩ := rest a s' agreed
    obtain ⟨same, before⟩ := begins middle
    exact ⟨by rw [same]; exact later, before⟩

theorem closelyTry {m m' : Rendering α} {handler handler' : RenderError → Rendering α} (first : Closely f f' m m')
    (rest : ∀ e, Closely f f' (handler e) (handler' e)) :
    Closely f f' (tryCatch m handler) (tryCatch m' handler') := by
  intro s agreed
  rw [outTry] at agreed
  rw [outTry, outTry]
  have begins := first s
  rcases ran : out m f s with ⟨e | a, s'⟩
  · rw [ran] at agreed begins
    obtain ⟨later, middle⟩ := rest e s' agreed
    obtain ⟨same, before⟩ := begins middle
    exact ⟨by rw [same]; exact later, before⟩
  · rw [ran] at agreed begins
    obtain ⟨same, before⟩ := begins agreed
    exact ⟨by rw [same], before⟩

theorem closelyRead {k k' : Factory → Rendering β} (rest : Closely f f' (k f) (k' f')) :
    Closely f f' (read >>= k) (read >>= k') := by
  intro s agreed
  rw [outBind, outRead] at agreed
  rw [outBind, outBind, outRead, outRead]
  exact rest s agreed

theorem closelyGet {k k' : State → Rendering β}
    (rest : ∀ s, Agreed f f' (out (k s) f s).2.records → out (k' s) f' s = out (k s) f s ∧ Agreed f f' s.records) :
    Closely f f' (get >>= k) (get >>= k') := rest

theorem closelyFinished {markup : String} (peers : Peers f f') :
    Closely f f' (finished nested markup) (finished nested markup) := by
  refine closelyRead (closelyBind (closelySame (sameSplice peers markup) fun _ => mentionsSplice) fun body => ?_)
  simp only [peers.number]
  refine closelyGet fun s => ?_
  split
  · exact closelyPure s
  cases made : script f.component s.records with
  | error e =>
    intro (agreed : Agreed f f' s.records)
    rw [scriptSame peers agreed, made]
    exact ⟨rfl, agreed⟩
  | ok text =>
    intro (agreed : Agreed f f' s.records)
    rw [scriptSame peers agreed, made]
    exact ⟨rfl, agreed⟩

theorem closelyCall {template : String} {values : List Value} {line : Int} (peers : Peers f f') :
    Closely f f' (call nested template values line) (call nested template values line) := by
  refine closelyBind (closelySame (sameFilled peers) fun _ => mentionsFilled) fun markup => closelyGet fun s => ?_
  split
  · exact closelyBind closelyPure (fun _ => closelyFinished peers) s
  · exact closelyBind (closelySame (sameSettled peers markup) fun _ => mentionsLive) (fun _ => closelyFinished peers) s

def noted : Except RenderError Value × State → Except RenderError Value × State
  | (.ok v, s) =>
    let r := s.records
    (.ok v, { s with trace := s.trace ++
      [.done v.plain r.bindings.length r.handlers.length r.asyncBindings.length] })
  | (.error e, s) => (.error e, { s with trace := s.trace ++ [.failed e] })

theorem outNoted {template : String} {values : List Value} {line : Int} :
    out (tracedCall nested template values line) f s = noted (out (call nested template values line) f s) := by
  rw [tracedCall, outBind, outTry, outBind]
  rcases out (call nested template values line) f s with ⟨_ | _, s'⟩
  · rfl
  · rfl

theorem notedRecords {r : Except RenderError Value × State} : (noted r).2.records = r.2.records := by
  rcases r with ⟨_ | _, _⟩
  · rfl
  · rfl

theorem closelyTraced {template : String} {values : List Value} {line : Int} (peers : Peers f f') :
    Closely f f' (tracedCall nested template values line) (tracedCall nested template values line) := by
  intro s agreed
  rw [outNoted, notedRecords] at agreed
  obtain ⟨same, before⟩ := closelyCall peers s agreed
  exact ⟨by rw [outNoted, outNoted, same], before⟩

end Fields

section Turns

variable {nested : Nested} {results : Results}

structure Turn where
  template : String
  values : List Value
  line : Int

def Turn.step (t : Turn) : Step := .mk t.template (t.values.map .value) t.line false

theorem outGiven {values : List Value} {s : State} :
    out (makeAll nested results (values.map .value)) f s = (.ok values, s) := by
  induction values with
  | nil => rfl
  | cons v rest ih =>
    rw [List.map_cons, makeAll, outBind, show out (make nested results (.value v)) f s = (.ok v, s) from rfl]
    simp only
    rw [outBind, ih]
    rfl

theorem closelyTurn {t : Turn} (peers : Peers f f') :
    Closely f f' (runStep nested results t.step) (runStep nested results t.step) := by
  refine closelyBind (closelySame (fun s => ?_) fun field s h => ?_) fun _ => closelyTraced peers
  · rw [outGiven, outGiven]
  · rwa [outGiven]

theorem closelyReplies {turns : List Turn} (peers : Peers f f') :
    Closely f f' (replies nested results (turns.map Turn.step)) (replies nested results (turns.map Turn.step)) := by
  induction turns generalizing results with
  | nil => exact closelyPure
  | cons t rest ih =>
    have result : Closely f f'
        (tryCatch (do return Except.ok (← runStep nested results t.step)) fun e => return Except.error e)
        (tryCatch (do return Except.ok (← runStep nested results t.step)) fun e => return Except.error e) :=
      closelyTry (closelyBind (closelyTurn peers) fun _ => closelyPure) fun _ => closelyPure
    refine closelyBind result fun result => closelyGet fun s => ?_
    exact closelyBind ih (fun _ => closelyPure) s

theorem slotsHeld {c : Component} {fields : List (String × Value)} : slotsOf (c.withFields fields) = slotsOf c := by
  have kept : (c.withFields fields).source? = c.source? ∧ (c.withFields fields).className = c.className ∧
      (c.withFields fields).firstLine = c.firstLine ∧ (c.withFields fields).file = c.file := by
    obtain ⟨⟩ := c
    exact ⟨rfl, rfl, rfl, rfl⟩
  obtain ⟨source, className, firstLine, file⟩ := kept
  rw [slotsOf, slotsOf, source, className, firstLine, file]

/-- Two components of one class get the same slots or fail alike, and any calls with the same values have the same
results, records and errors on both, if the components hold the same in the fields that the records mention in
the end. -/
theorem fieldsPrivate {c : Component} {fields : List (String × Value)} {request? : Option String} {page : Page} :
    newFactory (c.withFields fields) request? page =
        (newFactory c request? page).map (fun (f, s) => ({ f with component := c.withFields fields }, s)) ∧
      ∀ f s, newFactory c request? page = .ok (f, s) → ∀ nested (turns : List Turn),
        (∀ field ∈ (out (replies nested [] (turns.map Turn.step)) f s).2.records.mentions,
          (c.withFields fields).get? field = c.get? field) →
        out (replies nested [] (turns.map Turn.step)) { f with component := c.withFields fields } s =
          out (replies nested [] (turns.map Turn.step)) f s := by
  refine ⟨?_, fun f s made nested turns agreed => ?_⟩
  · rw [newFactory, newFactory, slotsHeld]
    cases slotsOf c with
    | error e => rfl
    | ok found => rfl
  · obtain ⟨rfl, _⟩ := newFactoryOk made
    have className : (f.component.withFields fields).className = f.component.className := by
      rcases f with ⟨⟨⟩, _⟩
      rfl
    have peers : Peers f { f with component := f.component.withFields fields } := ⟨rfl, rfl, className⟩
    exact (closelyReplies peers s agreed).1

def withSecret (secret : String) : List (String × Value) := [("count", .whole 0), ("secret", .text secret)]

def guarded : Component := counter.withFields (withSecret "a")

def guardedFactory : Factory := factoryOf guarded counterSlots

def guardedState : State := startOf guarded counterSlots

def guardedTurns : List Turn := [⟨"<p>\x7b", [], 2⟩, ⟨counterTemplate, [], 2⟩, ⟨counterTemplate, counterValues, 2⟩]

theorem guardedMade : newFactory guarded none {} = .ok (guardedFactory, guardedState) :=
  factoryMade (slotsHeld ▸ counterAnalyzed)

theorem secretPrivate :
    newFactory guarded none {} = .ok (guardedFactory, guardedState) ∧
      (out (replies (fun _ => return "") [] (guardedTurns.map Turn.step)) guardedFactory guardedState).2.records.mentions =
        ["count", "count", "count"] ∧
      out (replies (fun _ => return "") [] (guardedTurns.map Turn.step))
          { guardedFactory with component := guarded.withFields (withSecret "b") } guardedState =
        out (replies (fun _ => return "") [] (guardedTurns.map Turn.step)) guardedFactory guardedState := by
  have mentions :
      (out (replies (fun _ => return "") [] (guardedTurns.map Turn.step)) guardedFactory guardedState).2.records.mentions =
        ["count", "count", "count"] := by decide +kernel
  refine ⟨guardedMade, mentions, fieldsPrivate.2 guardedFactory guardedState guardedMade _ _ fun field mem => ?_⟩
  rw [mentions] at mem
  obtain rfl : field = "count" := by simpa using mem
  rfl

end Turns

end LiveMarkup.Render
