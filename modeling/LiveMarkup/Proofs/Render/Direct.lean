import LiveMarkup.Proofs.Markup.Reference
import LiveMarkup.Proofs.Render.Nonce
import LiveMarkup.Proofs.Render.Ordered
/-! Calls without live values. Their contents are put off and spliced in at the end, and what comes out is
what the values give that are put in directly. -/
namespace LiveMarkup.Render
open Analysis Client

section Direct

variable (f : Factory) (nested : Nested)

mutual

def direct : Value → ExceptT RenderError (StateM Page) String
  | .none | .truth false => return ""
  | .list items | .tuple items | .generator items => directAll items
  | .component c => nested c
  | .rendered output body owner => return if owner = some f.number then body else output
  | v =>
    match v.safeHtml? with
    | some html => return html
    | none => return Markup.escape v.shown

def directAll : List Value → ExceptT RenderError (StateM Page) String
  | [] => return ""
  | v :: rest => do
    let first ← direct v
    return first ++ (← directAll rest)

end

def directBody : List String → List Value → ExceptT RenderError (StateM Page) String
  | segment :: segments, v :: values => do
    let shown ← direct f nested v
    return segment ++ shown ++ (← directBody segments values)
  | segments, _ => return String.join segments

mutual

def escapedText : Value → String
  | .list items | .tuple items | .generator items => escapedTexts items
  | .component _ => ""
  | v => if v.isSafe then "" else v.escaped

def escapedTexts : List Value → String
  | [] => ""
  | v :: rest => escapedText v ++ escapedTexts rest

end

def interleaved : List String → List Value → String
  | segment :: segments, v :: values => segment ++ escapedText v ++ interleaved segments values
  | segments, _ => String.join segments

def Inert (s : State) (template : String) (values : List Value) (line : Int) : Prop :=
  ∀ p ∈ values.zip (knownSlots f template values line), p.2.all (fun slot => !s.isLive slot || isContent p.1 slot)

instance (s template values line) : Decidable (Inert f s template values line) := by unfold Inert; infer_instance

/-- No slot stands in a tag: in the static text up to it, with `before` in front, the last angle is no opening
one. -/
def InText (before : String) (segments : List String) (values : List Value) : Prop :=
  ∀ n < values.length, Template.endsInTag (before ++ String.join (segments.take (n + 1))).toList = false

instance (before segments values) : Decidable (InText before segments values) := by unfold InText; infer_instance

end Direct

section Shards

inductive Shard where
  | text (s : String)
  | content (d : Deferred)

mutual

def shards (number : Nat) : Value → List Shard
  | .list items | .tuple items | .generator items => shardsAll number items
  | .component c => [.content (.component c)]
  | .rendered output body owner => [.content (.markup (if owner = some number then body else output))]
  | v =>
    match v.safeHtml? with
    | some html => [.content (.markup html)]
    | none => [.text v.escaped]

def shardsAll (number : Nat) : List Value → List Shard
  | [] => []
  | v :: rest => shards number v ++ shardsAll number rest

end

def callShards (number : Nat) : List String → List Value → List Shard
  | segment :: segments, v :: values => .text segment :: (shards number v ++ callShards number segments values)
  | segments, _ => segments.map .text

namespace Shard

def pieces (number : Nat) : (next : Nat) → List Shard → List Piece
  | _, [] => []
  | next, .text s :: rest => .plain s :: pieces number next rest
  | next, .content _ :: rest => .placeholder (Placeholder.text number next) :: pieces number (next + 1) rest

def contents (number : Nat) : (next : Nat) → List Shard → List (String × Deferred)
  | _, [] => []
  | next, .text _ :: rest => contents number next rest
  | next, .content d :: rest => (Placeholder.text number next, d) :: contents number (next + 1) rest

def behind : (next : Nat) → List Shard → Nat
  | next, [] => next
  | next, .text _ :: rest => behind next rest
  | next, .content _ :: rest => behind (next + 1) rest

def markup (number next : Nat) (ds : List Shard) : String := String.join ((pieces number next ds).map (·.text))

def laid (f : Factory) (s : State) (ds : List Shard) : State :=
  { s with
    nextPlaceholder := behind s.nextPlaceholder ds
    deferred := s.deferred ++ contents f.number s.nextPlaceholder ds }

def become (nested : Nested) : Shard → ExceptT RenderError (StateM Page) String
  | .text s => return s
  | .content (.markup s) => return s
  | .content (.component c) => nested c

def becomeAll (nested : Nested) : List Shard → ExceptT RenderError (StateM Page) String
  | [] => return ""
  | d :: rest => do
    let first ← become nested d
    return first ++ (← becomeAll nested rest)

variable {number next : Nat} {as bs ds : List Shard} {nested : Nested} {f : Factory} {s : State}

theorem behindAppend : behind next (as ++ bs) = behind (behind next as) bs := by
  induction as generalizing next with
  | nil => rfl
  | cons d rest ih =>
    cases d with
    | text _ => exact ih
    | content _ => exact ih

theorem piecesAppend : pieces number next (as ++ bs) = pieces number next as ++ pieces number (behind next as) bs := by
  induction as generalizing next with
  | nil => rfl
  | cons d rest ih =>
    cases d with
    | text _ => exact congrArg _ ih
    | content _ => exact congrArg _ ih

theorem contentsAppend :
    contents number next (as ++ bs) = contents number next as ++ contents number (behind next as) bs := by
  induction as generalizing next with
  | nil => rfl
  | cons d rest ih =>
    cases d with
    | text _ => exact ih
    | content _ => exact congrArg _ ih

theorem markupAppend :
    markup number next (as ++ bs) = markup number next as ++ markup number (behind next as) bs := by
  rw [markup, piecesAppend, List.map_append, String.join_append]
  rfl

theorem markupText {text : String} : markup number next (.text text :: ds) = text ++ markup number next ds := by
  rw [markup, pieces, List.map_cons, String.join_cons]
  rfl

theorem markupNone : markup number next [] = "" := rfl

theorem laidNone : laid f s [] = s := by
  rw [laid, behind, contents, List.append_nil]

theorem laidText {text : String} : laid f s (.text text :: ds) = laid f s ds := rfl

theorem laidAppend : laid f (laid f s as) bs = laid f s (as ++ bs) := by
  simp only [laid, behindAppend, contentsAppend, List.append_assoc]

theorem becomeAppend : becomeAll nested (as ++ bs) = (do
    let first ← becomeAll nested as
    return first ++ (← becomeAll nested bs)) := by
  induction as with
  | nil => simp only [List.nil_append, becomeAll, pure_bind, String.empty_append, bind_pure]
  | cons d rest ih => simp only [List.cons_append, becomeAll, ih, bind_assoc, pure_bind, String.append_assoc]

theorem becomeText {text : String} :
    becomeAll nested (.text text :: ds) = (do return text ++ (← becomeAll nested ds)) := by
  simp only [becomeAll, become, pure_bind]

end Shard

open Shard

variable {f : Factory} {nested : Nested} {s s' : State} {segments : List String} {values : List Value}

mutual

theorem directShards : (v : Value) → direct f nested v = becomeAll nested (shards f.number v)
  | .list items | .tuple items | .generator items => by
    rw [direct, shards]
    exact directShardsAll items
  | .component c => by simp only [direct, shards, becomeAll, become, String.append_empty, pure_bind, bind_pure]
  | .rendered output body owner => by
    simp only [direct, shards, becomeAll, become, String.append_empty, pure_bind]
  | .none | .truth false => rfl
  | .markup html | .safe html => by simp only [direct, shards, Value.safeHtml?, becomeAll, become, String.append_empty, pure_bind]
  | .truth true | .whole _ | .real _ | .text _ | .bytes _ | .set _ | .dict _ | .object _ | .promise _ _ _ => by
    simp only [direct, shards, Value.safeHtml?, becomeAll, become, String.append_empty, pure_bind]
    rfl

theorem directShardsAll : (vs : List Value) → directAll f nested vs = becomeAll nested (shardsAll f.number vs)
  | [] => rfl
  | v :: rest => by
    rw [directAll, shardsAll, becomeAppend, directShards v, directShardsAll rest]

end

theorem bodyShards :
    directBody f nested segments values = becomeAll nested (callShards f.number segments values) := by
  have texts (segments : List String) :
      becomeAll nested (segments.map .text) = (do return String.join segments) := by
    induction segments with
    | nil => rfl
    | cons segment rest ih =>
      rw [List.map_cons, becomeText, ih, String.join_cons]
      simp only [pure_bind]
  induction values generalizing segments with
  | nil => cases segments <;> simp only [directBody, callShards, texts]
  | cons v values ih =>
    cases segments with
    | nil => simp only [directBody, callShards, texts]
    | cons segment segments =>
      rw [directBody, callShards, becomeText, becomeAppend, directShards, ih]
      simp only [bind_assoc, pure_bind, String.append_assoc]

theorem deferLaid {content : Deferred} : out (defer content) f s =
    (.ok (markup f.number s.nextPlaceholder [.content content]), laid f s [.content content]) := by
  rw [outDefer, markup, pieces, pieces, List.map_singleton, String.join_cons, String.join_nil, String.append_empty]
  rfl

theorem textLaid {text : String} : out (pure text) f s =
    (.ok (markup f.number s.nextPlaceholder [.text text]), laid f s [.text text]) := by
  rw [markupText, markupNone, String.append_empty, laid, contents, contents, List.append_nil]
  rfl

mutual

theorem inlineLaid : (v : Value) → (s : State) → out (inline f v) f s =
    (.ok (markup f.number s.nextPlaceholder (shards f.number v)), laid f s (shards f.number v))
  | .list items, s | .tuple items, s | .generator items, s => by
    rw [inline, shards]
    exact inlineAllLaid items s
  | .component c, s => deferLaid
  | .rendered output body owner, s => deferLaid
  | .markup html, s | .safe html, s => deferLaid
  | .none, s | .truth _, s | .whole _, s | .real _, s | .text _, s | .bytes _, s | .set _, s | .dict _, s
  | .object _, s | .promise _ _ _, s => textLaid

theorem inlineAllLaid : (vs : List Value) → (s : State) → out (inlineAll f vs) f s =
    (.ok (markup f.number s.nextPlaceholder (shardsAll f.number vs)), laid f s (shardsAll f.number vs))
  | [], s => by rw [shardsAll, laidNone]; rfl
  | v :: rest, s => by
    rw [inlineAll, outBind, inlineLaid v s]
    simp only
    rw [outBind, inlineAllLaid rest, shardsAll, laidAppend, markupAppend]
    rfl

end

end Shards

section Angles

def angles (text : String) : List Char := text.toList.filter fun c => c == '<' || c == '>'

theorem anglesAppend {a b : String} : angles (a ++ b) = angles a ++ angles b := by
  rw [angles, String.toList_append, List.filter_append]
  rfl

theorem endsAngle {text : String} : Template.endsInTag text.toList = ((angles text).getLast? == some '<') := by
  rw [Template.endsInTag, angles, ← List.head?_reverse, ← List.filter_reverse, List.head?_filter]

theorem angleless {text : String} (h : ∀ c ∈ text.toList, (c == '<' || c == '>') = false) : angles text = [] :=
  List.filter_eq_nil_iff.mpr fun c mem => by simp [h c mem]

theorem anglesKey {number n : Nat} : angles (Placeholder.text number n) = [] := by
  refine angleless fun c mem => ?_
  have word : c ≠ '<' ∧ c ≠ '>' := by
    refine ⟨?_, ?_⟩ <;> rintro rfl <;> exact absurd mem (dividesFront (by decide) textFront)
  simp [word]

theorem anglesEscape {text : String} : angles (Markup.escape text) = [] := by
  refine angleless fun c mem => ?_
  rw [Markup.escape, String.toList_ofList] at mem
  obtain ⟨d, _, mem⟩ := List.mem_flatMap.mp mem
  have clear := @Markup.escapeFree d
  grind

def Angleless (ds : List Shard) : Prop := ∀ text, .text text ∈ ds → angles text = []

theorem anglelessAppend {as bs : List Shard} (ha : Angleless as) (hb : Angleless bs) : Angleless (as ++ bs) :=
  fun text mem => (List.mem_append.mp mem).elim (ha text) (hb text)

theorem anglelessText {text : String} : Angleless [.text (Markup.escape text)] := by
  intro _ mem
  obtain rfl := Shard.text.inj (List.mem_singleton.mp mem)
  exact anglesEscape

mutual

theorem shardsAngleless {number : Nat} : (v : Value) → Angleless (shards number v)
  | .list items | .tuple items | .generator items => by
    rw [shards]
    exact shardsAllAngleless items
  | .component _ | .rendered _ _ _ | .markup _ | .safe _ => fun _ mem => nomatch List.mem_singleton.mp mem
  | .none | .truth _ | .whole _ | .real _ | .text _ | .bytes _ | .set _ | .dict _ | .object _
  | .promise _ _ _ => anglelessText

theorem shardsAllAngleless {number : Nat} : (vs : List Value) → Angleless (shardsAll number vs)
  | [] => fun _ mem => absurd mem List.not_mem_nil
  | v :: rest => anglelessAppend (shardsAngleless v) (shardsAllAngleless rest)

end

theorem anglesMarkup {number next : Nat} {ds : List Shard} (h : Angleless ds) :
    angles (Shard.markup number next ds) = [] := by
  induction ds generalizing next with
  | nil => rfl
  | cons d rest ih =>
    have later : Angleless rest := fun text mem => h text (List.mem_cons_of_mem _ mem)
    cases d with
    | text text => rw [Shard.markupText, anglesAppend, h text List.mem_cons_self, ih later, List.append_nil]
    | content d =>
      have split : Shard.markup number next (.content d :: rest) =
          Placeholder.text number next ++ Shard.markup number (next + 1) rest := by
        rw [Shard.markup, Shard.pieces, List.map_cons, String.join_cons]
        rfl
      rw [split, anglesAppend, anglesKey, ih later, List.append_nil]

end Angles

section Filling

open Shard

variable {f : Factory} {nested : Nested} {s s' : State} {segments : List String} {values : List Value}
  {template : String} {line : Int}

theorem plainLaid {markup following : String} {v : Value} (outside : Template.endsInTag markup.toList = false) :
    out (fillPlain f markup v following) f s =
      (.ok (markup ++ Shard.markup f.number s.nextPlaceholder (shards f.number v) ++ following),
        laid f s (shards f.number v)) := by
  have none : Template.attributePlace? markup.toList = none := by
    rw [Template.attributePlace?, outside, if_neg Bool.false_ne_true]
  unfold fillPlain
  rw [none]
  simp only
  rw [outBind, inlineLaid v s]
  rfl

theorem fillInert {markup following : String} {v : Value} {slot? : Option Slot} {slots : List (Option Slot)}
    (apart : slot?.all fun slot => !s.isLive slot || isContent v slot) :
    out (fill f markup (v :: values) (slot? :: slots) (following :: segments)) f s =
      out (fillPlain f markup v following >>= fun markup => fill f markup values slots segments) f s := by
  rw [fill, outBind, outGet]
  cases slot? with
  | none => rfl
  | some slot =>
    have off : (s.isLive slot && !isContent v slot) = false := by
      rw [Option.all_some, Bool.or_eq_true, Bool.not_eq_true'] at apart
      rcases apart with off | content
      · rw [off, Bool.false_and]
      · rw [content, Bool.not_true, Bool.and_false]
    simp only [off, Bool.false_eq_true, if_false]

theorem fillLaid {slots : List (Option Slot)} {front before segment : String} (same : slots.length = values.length)
    (texts : segments.length = values.length) (angled : angles front = angles before)
    (inert : ∀ p ∈ values.zip slots, p.2.all fun slot => !s.isLive slot || isContent p.1 slot)
    (inText : InText before (segment :: segments) values) :
    out (fill f (front ++ segment) values slots segments) f s =
      (.ok (front ++ Shard.markup f.number s.nextPlaceholder (callShards f.number (segment :: segments) values)),
        laid f s (callShards f.number (segment :: segments) values)) := by
  induction values generalizing s slots segments front before segment with
  | nil =>
    obtain rfl := List.length_eq_zero_iff.mp texts
    have one : callShards f.number [segment] [] = [.text segment] := rfl
    rw [one, markupText, markupNone, String.append_empty, laidText, laidNone]
    unfold fill
    rfl
  | cons v values ih =>
    obtain ⟨slot?, slots, rfl⟩ := List.exists_cons_of_length_eq_add_one same
    obtain ⟨following, segments, rfl⟩ := List.exists_cons_of_length_eq_add_one texts
    have outside : Template.endsInTag (front ++ segment).toList = false := by
      have static := inText 0 (Nat.zero_lt_succ _)
      rw [endsAngle, anglesAppend, angled, ← anglesAppend, ← endsAngle]
      simpa using static
    have angled' : angles (front ++ segment ++ Shard.markup f.number s.nextPlaceholder (shards f.number v)) =
        angles (before ++ segment) := by
      rw [anglesAppend, anglesMarkup (shardsAngleless v), List.append_nil, anglesAppend, anglesAppend, angled]
    have inText' : InText (before ++ segment) (following :: segments) values := by
      intro n short
      have static := inText (n + 1) (Nat.succ_lt_succ short)
      rwa [List.take_succ_cons, String.join_cons, ← String.append_assoc] at static
    have inert' : ∀ p ∈ values.zip slots,
        p.2.all fun slot => !(laid f s (shards f.number v)).isLive slot || isContent p.1 slot :=
      fun p mem => inert p (List.mem_cons_of_mem _ mem)
    have rest := ih (Nat.succ.inj same) (Nat.succ.inj texts) angled' inert' inText'
    rw [fillInert (inert (v, slot?) List.mem_cons_self), outBind, plainLaid outside]
    simp only
    rw [rest, laidAppend, callShards, laidText, markupText, markupAppend]
    simp only [String.append_assoc]
    rfl

theorem filledLaid {markup : String} {s₁ : State} (split : Template.split template = .ok segments)
    (inert : Inert f s template values line) (inText : InText "" segments values)
    (done : out (filled template values line) f s = (.ok markup, s₁)) :
    markup = Shard.markup f.number s.nextPlaceholder (callShards f.number segments values) ∧
      s₁ = laid f s (callShards f.number segments values) := by
  rw [filled, outBind, outRead] at done
  simp only [split] at done
  obtain ⟨_, _, same, done⟩ := outOk.mp done
  cases same
  split at done
  · cases done
  · next count =>
    have texts : segments.length - 1 = values.length := Decidable.of_not_not count
    cases segments with
    | nil =>
      obtain rfl := List.length_eq_zero_iff.mp texts.symm
      unfold fill at done
      cases done
      exact ⟨rfl, laidNone.symm⟩
    | cons segment segments =>
      have filling := @fillLaid f s segments values _ "" "" segment knownLength texts rfl inert inText
      rw [String.empty_append, String.empty_append] at filling
      cases done.symm.trans filling
      exact ⟨rfl, rfl⟩

end Filling

section Splicing

open Shard

variable {f : Factory} {nested : Nested} {s s' : State} {segments : List String} {values : List Value}
  {number next : Nat} {ds : List Shard}

theorem piecesFront : ∀ key, .placeholder key ∈ pieces number next ds → Front number key.toList := by
  induction ds generalizing next with
  | nil => exact fun key mem => absurd mem List.not_mem_nil
  | cons d rest ih =>
    intro key mem
    cases d with
    | text text =>
      rcases List.mem_cons.mp mem with same | mem
      · cases same
      · exact ih key mem
    | content d =>
      rcases List.mem_cons.mp mem with same | mem
      · obtain rfl := Piece.placeholder.inj same
        exact textFront
      · exact ih key mem

theorem plainAppend {ps qs : List Piece} : plainChars (ps ++ qs) = plainChars ps ++ plainChars qs :=
  List.flatMap_append

mutual

theorem plainShards : (v : Value) → (next : Nat) →
    plainChars (pieces number next (shards number v)) = (escapedText v).toList
  | .list items, next | .tuple items, next | .generator items, next => by
    rw [shards, escapedText]
    exact plainShardsAll items next
  | .component _, _ | .rendered _ _ _, _ | .markup _, _ | .safe _, _ => rfl
  | .none, _ | .truth _, _ | .whole _, _ | .real _, _ | .text _, _ | .bytes _, _ | .set _, _ | .dict _, _
  | .object _, _ | .promise _ _ _, _ => List.append_nil _

theorem plainShardsAll : (vs : List Value) → (next : Nat) →
    plainChars (pieces number next (shardsAll number vs)) = (escapedTexts vs).toList
  | [], _ => rfl
  | v :: rest, next => by
    rw [shardsAll, piecesAppend, plainAppend, plainShards v, plainShardsAll rest, escapedTexts, String.toList_append]

end

theorem plainInterleaved :
    plainChars (pieces number next (callShards number segments values)) = (interleaved segments values).toList := by
  have texts (segments : List String) (next : Nat) :
      plainChars (pieces number next (segments.map .text)) = (String.join segments).toList := by
    induction segments with
    | nil => rfl
    | cons segment rest ih =>
      rw [String.join_cons, String.toList_append, ← ih]
      rfl
  induction values generalizing segments next with
  | nil => cases segments <;> simp only [interleaved, callShards, texts]
  | cons v values ih =>
    cases segments with
    | nil => simp only [interleaved, callShards, texts]
    | cons segment segments =>
      have first : plainChars (pieces number next (callShards number (segment :: segments) (v :: values))) =
          segment.toList ++ plainChars (pieces number next (shards number v ++ callShards number segments values)) := rfl
      rw [first, piecesAppend, plainAppend, plainShards, ih, interleaved, String.toList_append, String.toList_append,
        List.append_assoc]

theorem splicedTidy {done : List Char} {ps : List Piece} {texts : List String}
    (h : out ((tidy done ps).mapM (spliced nested)) f s = (.ok texts, s')) :
    ∃ texts', out (ps.mapM (spliced nested)) f s = (.ok texts', s') ∧
      String.join texts = String.ofList done ++ String.join texts' := by
  induction ps generalizing done s texts with
  | nil =>
    cases h
    exact ⟨[], rfl, String.join_cons⟩
  | cons p rest ih =>
    cases p with
    | plain text =>
      obtain ⟨texts', spliced, same⟩ := ih h
      refine ⟨text :: texts', ?_, ?_⟩
      · rw [List.mapM_cons]
        exact outOk.mpr ⟨text, s, rfl, outOk.mpr ⟨texts', s', spliced, rfl⟩⟩
      · rw [same, String.join_cons, String.ofList_append, String.ofList_toList, String.append_assoc]
    | placeholder key =>
      rw [tidy, List.mapM_cons, List.mapM_cons] at h
      obtain ⟨_, _, first, h⟩ := outOk.mp h
      cases first
      obtain ⟨behind, _, h, last⟩ := outOk.mp h
      cases last
      obtain ⟨content, s₁, own, h⟩ := outOk.mp h
      obtain ⟨others, _, h, last⟩ := outOk.mp h
      cases last
      obtain ⟨texts', spliced, same⟩ := ih h
      refine ⟨content :: texts', ?_, ?_⟩
      · rw [List.mapM_cons]
        exact outOk.mpr ⟨content, s₁, own, outOk.mpr ⟨texts', s', spliced, rfl⟩⟩
      · have empty : String.ofList [] = "" := rfl
        rw [String.join_cons, String.join_cons, String.join_cons, same, empty, String.empty_append]

def Older (number next : Nat) (old : List (String × Deferred)) : Prop :=
  ∀ d ∈ old, ∃ n < next, d.1 = Placeholder.text number n

theorem laterKeys : ∀ d ∈ contents number next ds, ∃ n ≥ next, d.1 = Placeholder.text number n := by
  induction ds generalizing next with
  | nil => exact fun d mem => absurd mem List.not_mem_nil
  | cons d rest ih =>
    cases d with
    | text _ => exact ih
    | content d =>
      refine List.forall_mem_cons.mpr ⟨⟨next, Nat.le_refl _, rfl⟩, fun d mem => ?_⟩
      obtain ⟨n, less, same⟩ := ih d mem
      exact ⟨n, Nat.le_of_succ_le less, same⟩

theorem contentTaken {old : List (String × Deferred)} {d : Deferred} (older : Older f.number next old)
    (store : s.deferred = old ++ contents f.number next (.content d :: ds)) :
    out (takeDeferred? (Placeholder.text f.number next)) f s =
      (.ok (some d), { s with deferred := old ++ contents f.number (next + 1) ds }) := by
  have apart : ∀ d ∈ old, (d.1 == Placeholder.text f.number next) = false := by
    intro d mem
    obtain ⟨n, less, same⟩ := older d mem
    rw [same]
    exact beq_eq_false_iff_ne.mpr fun keys => Nat.ne_of_lt less (textInjective keys)
  have apart' : ∀ d ∈ contents f.number (next + 1) ds, (d.1 == Placeholder.text f.number next) = false := by
    intro d mem
    obtain ⟨n, less, same⟩ := laterKeys d mem
    rw [same]
    exact beq_eq_false_iff_ne.mpr fun keys => Nat.ne_of_gt less (textInjective keys)
  have found : s.deferred.find? (·.1 == Placeholder.text f.number next) = some (Placeholder.text f.number next, d) := by
    rw [store, List.find?_append, List.find?_eq_none.mpr fun d mem => by simp [apart d mem], Option.none_or, contents]
    exact List.find?_cons_of_pos (beq_self_eq_true _)
  have left : s.deferred.filter (·.1 != Placeholder.text f.number next) = old ++ contents f.number (next + 1) ds := by
    rw [store, List.filter_append, contents, List.filter_cons_of_neg (by simp),
      List.filter_eq_self.mpr fun d mem => by rw [bne, apart d mem, Bool.not_false],
      List.filter_eq_self.mpr fun d mem => by rw [bne, apart' d mem, Bool.not_false]]
  rw [takeDeferred?, outBind, outGet]
  simp only [found, left]
  rfl

theorem nestedShown {c : Component} {output : String} (h : out (renderNested nested c) f s = (.ok output, s')) :
    outcome (nested c) s.page = (.ok output, s'.page) ∧ s' = { s with page := s'.page } := by
  obtain ⟨result, page, shown⟩ : ∃ result page, outcome (nested c) s.page = (result, page) := ⟨_, _, rfl⟩
  have ran : (nested c).run s.page = (result, page) := shown
  rw [renderNested, outBind, outGet] at h
  simp only [ran] at h
  rw [shown]
  cases result with
  | error e => cases h
  | ok output =>
    cases h
    exact ⟨rfl, rfl⟩

theorem splicedShards {old : List (String × Deferred)} {texts : List String} (older : Older f.number next old)
    (store : s.deferred = old ++ contents f.number next ds)
    (h : out ((pieces f.number next ds).mapM (spliced nested)) f s = (.ok texts, s')) :
    outcome (becomeAll nested ds) s.page = (.ok (String.join texts), s'.page) ∧
      s' = { s with page := s'.page, deferred := old } := by
  induction ds generalizing next s texts with
  | nil =>
    rw [contents, List.append_nil] at store
    cases h
    exact ⟨rfl, by rw [← store]⟩
  | cons d rest ih =>
    cases d with
    | text text =>
      rw [pieces, List.mapM_cons] at h
      obtain ⟨_, _, first, h⟩ := outOk.mp h
      cases first
      obtain ⟨others, _, h, last⟩ := outOk.mp h
      cases last
      obtain ⟨shown, same⟩ := ih older store h
      refine ⟨?_, same⟩
      rw [becomeText, String.join_cons]
      exact outcomeOk.mpr ⟨_, _, shown, rfl⟩
    | content d =>
      have older' : Older f.number (next + 1) old := fun d mem => by
        obtain ⟨n, less, same⟩ := older d mem
        exact ⟨n, Nat.lt_succ_of_lt less, same⟩
      rw [pieces, List.mapM_cons] at h
      obtain ⟨content, s₁, first, h⟩ := outOk.mp h
      obtain ⟨others, _, h, last⟩ := outOk.mp h
      cases last
      rw [spliced, outBind, contentTaken older store] at first
      have own : outcome (become nested (.content d)) s.page = (.ok content, s₁.page) ∧
          s₁ = { s with page := s₁.page, deferred := old ++ contents f.number (next + 1) rest } := by
        cases d with
        | markup html =>
          cases first
          exact ⟨rfl, rfl⟩
        | component c => exact nestedShown first
      obtain ⟨shown, same⟩ := ih older' (congrArg State.deferred own.2) h
      refine ⟨?_, ?_⟩
      · rw [String.join_cons]
        exact outcomeOk.mpr ⟨content, s₁.page, own.1, outcomeOk.mpr ⟨_, _, shown, rfl⟩⟩
      · rw [own.2] at same
        exact same

def scripted (f : Factory) (r : Records) (body : String) : Except RenderError Value :=
  if r.isEmpty then .ok (.rendered body body (some f.number))
  else
    match Client.script f.component r with
    | .ok script => .ok (.rendered (body ++ script) body (some f.number))
    | .error e => .error (.script e)

theorem outFinished {markup body : String} (splicing : out (splice nested markup) f s = (.ok body, s')) :
    out (finished nested markup) f s = (scripted f s'.records body, s') := by
  rw [finished, outBind, outRead]
  simp only
  rw [outBind, splicing]
  simp only
  rw [outBind, outGet]
  unfold scripted
  simp only
  split
  · rfl
  · cases Client.script f.component s'.records <;> rfl

theorem finishedScripted {markup : String} {v : Value} (done : out (finished nested markup) f s = (.ok v, s')) :
    ∃ body, out (splice nested markup) f s = (.ok body, s') ∧ scripted f s'.records body = .ok v := by
  have read := done
  rw [finished, outBind, outRead] at read
  obtain ⟨body, s₁, splicing, _⟩ := outOk.mp read
  obtain ⟨result, same⟩ := Prod.mk.inj ((outFinished splicing).symm.trans done)
  exact ⟨body, same ▸ splicing, same ▸ result⟩

theorem finishedBody {markup : String} {v : Value} (done : out (finished nested markup) f s = (.ok v, s')) :
    ∃ output body, v = .rendered output body (some f.number) ∧ out (splice nested markup) f s = (.ok body, s') := by
  obtain ⟨body, splicing, result⟩ := finishedScripted done
  unfold scripted at result
  split at result
  · cases result
    exact ⟨body, body, rfl, splicing⟩
  · split at result
    · next script _ =>
      cases result
      exact ⟨body ++ script, body, rfl, splicing⟩
    · cases result

theorem spliceParts {markup body : String} (splicing : out (splice nested markup) f s = (.ok body, s')) :
    ∃ texts, out ((Piece.split f.number markup).mapM (spliced nested)) f s = (.ok texts, s') ∧
      body = String.join texts := by
  obtain ⟨_, _, own, splicing⟩ := outOk.mp splicing
  cases own
  obtain ⟨texts, _, splicing, joined⟩ := outOk.mp splicing
  cases joined
  exact ⟨texts, splicing, rfl⟩

/-- A call with no live slot pending and with inert values only, all of them outside of tags: if it succeeds,
and nothing that it writes out reads like the nonce of its factory, its body is what the values give that are
put in directly. All that changes is the page, as the components inside change it, and the number of the next
placeholder. -/
theorem callDirect {template : String} {line : Int} {v : Value} (reached : Reached f s) (still : s.live = [])
    (split : Template.split template = .ok segments) (inText : InText "" segments values)
    (inert : Inert f s template values line) (clear : ¬nonce f.number <:+: (interleaved segments values).toList)
    (done : out (call nested template values line) f s = (.ok v, s')) :
    ∃ output body, v = .rendered output body (some f.number) ∧
      outcome (directBody f nested segments values) s.page = (.ok body, s'.page) ∧
      s' = { s with page := s'.page, nextPlaceholder := s'.nextPlaceholder } := by
  obtain ⟨markup, s₁, filling, done⟩ := outOk.mp done
  obtain ⟨rfl, rfl⟩ := filledLaid split inert inText filling
  rw [outBind, outGet] at done
  simp only [laid, still, List.isEmpty_nil, if_true] at done
  obtain ⟨_, _, same, done⟩ := outOk.mp done
  cases same
  obtain ⟨output, body, rfl, splicing⟩ := finishedBody done
  obtain ⟨texts, taken, rfl⟩ := spliceParts splicing
  have whole : (Shard.markup f.number s.nextPlaceholder (callShards f.number segments values)).toList =
      charsOf (pieces f.number s.nextPlaceholder (callShards f.number segments values)) := charsJoin
  rw [splitTidy whole piecesFront (plainInterleaved ▸ clear)] at taken
  obtain ⟨texts', splicing, joined⟩ := splicedTidy taken
  obtain ⟨shown, same⟩ := splicedShards (soundReached reached).keyed.deferred rfl splicing
  have empty : String.ofList [] = "" := rfl
  rw [joined, empty, String.empty_append]
  refine ⟨output, _, rfl, ?_, ?_⟩
  · rw [bodyShards]
    exact shown
  · rw [same]
    simp [still]

def listingTemplate : String := "<ul>\x7b\x7d</ul>\x7b\x7d"

def listing : Component :=
  .mk "Listing" [("items", .list []), ("tail", .none)]
    (some ("def render(self, ctx):\n    return ctx.html('" ++ listingTemplate ++ "', self.items, self.tail)\n"))
    1 "listing.py" [] none

def listingSlots : List Slot :=
  [{ signals := ["items"], source := "this.items", expression := "self.items", template := listingTemplate, line := 2 },
   { signals := ["tail"], source := "this.tail", expression := "self.tail", template := listingTemplate, slot := 1,
     line := 2 }]

abbrev listingFactory : Factory := factoryOf listing listingSlots

abbrev listingState : State := startOf listing listingSlots

def listingValues : List Value :=
  [.list [.text "a<b", .component listing, .tuple [.markup "<i>", .none, .component listing]],
   .rendered "<b></b><script></script>" "<b></b>" (some 0)]

def ruled : Nested := fun _ => do
  let page ← get
  set { page with nextId := page.nextId + 1 }
  return "<hr data-zid=\"" ++ idText page.nextId ++ "\">"

def listingBody : String := "<ul>a&lt;b<hr data-zid=\"_0\"><i><hr data-zid=\"_1\"></ul><b></b>"

theorem listingDirect :
    ∃ output s', out (call ruled listingTemplate listingValues 2) listingFactory listingState =
        (.ok (.rendered output listingBody (some 0)), s') ∧
      outcome (directBody listingFactory ruled ["<ul>", "</ul>", ""] listingValues) listingState.page =
        (.ok listingBody, s'.page) ∧
      s' = { listingState with page := s'.page, nextPlaceholder := s'.nextPlaceholder } := by
  have given : bodyOf? (out (call ruled listingTemplate listingValues 2) listingFactory listingState).1 =
      some listingBody := by decide +kernel
  obtain ⟨output, result⟩ := bodyReturned given
  obtain ⟨s', ended⟩ : ∃ s', (out (call ruled listingTemplate listingValues 2) listingFactory listingState).2 = s' :=
    ⟨_, rfl⟩
  have split : Template.split listingTemplate = .ok ["<ul>", "</ul>", ""] := by rfl
  have started : Reached listingFactory listingState :=
    startedOf (slotsListed rfl (listedAppend (listedAppend (listedText rfl) rfl) rfl) rfl (by decide +kernel))
  obtain ⟨_, _, same, shown, kept⟩ := callDirect started rfl split (by decide +kernel) (by decide +kernel)
    (by decide +kernel) (Prod.ext result ended)
  cases same
  exact ⟨output, s', Prod.ext result ended, shown, kept⟩

end Splicing

end LiveMarkup.Render
