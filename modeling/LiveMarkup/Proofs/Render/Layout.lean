import LiveMarkup.Proofs.Render.Direct
import LiveMarkup.Proofs.Render.Standing
import LiveMarkup.Proofs.Template.Place
/-! The markup of a call before it is settled: the pieces it is written in, and the contents that are put off for
some of its placeholders. Placeholders have increasing numbers, in the order of the slots. -/
namespace LiveMarkup.Render
open Analysis Client

def keysOf (ps : List Piece) : List String := ps.filterMap (·.key?)

structure Layout where
  pieces : List Piece
  contents : List (String × Deferred)
  next : Nat

namespace Layout

def text (s : String) (l : Layout) : Layout := { l with pieces := l.pieces ++ [.plain s] }

def content (number : Nat) (v : Value) (l : Layout) : Layout where
  pieces := l.pieces ++ Shard.pieces number l.next (shards number v)
  contents := l.contents ++ Shard.contents number l.next (shards number v)
  next := Shard.behind l.next (shards number v)

def live (number : Nat) (slot : Slot) (l : Layout) : Layout :=
  let key := Placeholder.text number l.next
  { l with
    pieces := l.pieces ++ if slot.isAsync
      then [.plain ("<span " ++ idAttribute ++ "=\""), .placeholder key, .plain "\"></span>"]
      else [.placeholder key]
    next := l.next + 1 }

def upTo : (length : Nat) → List Piece → List Piece
  | _, [] => []
  | length, p :: rest =>
    if p.text.toList.length ≤ length then p :: upTo (length - p.text.toList.length) rest
    else [.plain (String.ofList (p.text.toList.take length))]

def cut (length : Nat) (l : Layout) : Layout := { l with pieces := upTo length l.pieces }

def plain (number : Nat) (v : Value) (following : String) (l : Layout) : Layout :=
  match Template.attributePlace? (charsOf l.pieces) with
  | none => (l.content number v).text following
  | some place =>
    if removesAttribute v then
      match place.quote? with
      | none => (l.cut place.before.length).text following
      | some q =>
        if following.toList.head? == some q then
          (l.cut place.before.length).text (String.ofList (following.toList.drop 1))
        else l.text following
    else (l.text (attributeText v place.quote?)).text following

def slot (f : Factory) (s : State) (v : Value) (slot? : Option Slot) (following : String) (l : Layout) : Layout :=
  match slot? with
  | some slot =>
    if s.isLive slot && !isContent v slot then (l.live f.number slot).text following
    else l.plain f.number v following
  | none => l.plain f.number v following

def fill (f : Factory) (s : State) (l : Layout) : List Value → List (Option Slot) → List String → Layout
  | v :: values, slot? :: slots, following :: texts => fill f s (l.slot f s v slot? following) values slots texts
  | _, _, _ => l

end Layout

def layout (template : String) (values : List Value) (line : Int) (f : Factory) (s : State) : Layout :=
  match Template.split template with
  | .error _ => ⟨[], [], s.nextPlaceholder⟩
  | .ok segments =>
    Layout.fill f s ⟨[.plain (segments.headD "")], [], s.nextPlaceholder⟩ values (knownSlots f template values line)
      (segments.drop 1)

variable {f : Factory} {s s₁ s' : State} {l : Layout} {ps qs : List Piece} {markup following : String} {v : Value}

section Keys

variable {number next : Nat} {ds : List Shard}

theorem keysAppend : keysOf (ps ++ qs) = keysOf ps ++ keysOf qs := List.filterMap_append

theorem keysUpTo {length : Nat} : (keysOf (Layout.upTo length ps)).Sublist (keysOf ps) := by
  induction ps generalizing length with
  | nil => exact List.Sublist.refl _
  | cons p rest ih =>
    have split (ps : List Piece) : keysOf (p :: ps) = p.key?.toList ++ keysOf ps := by
      rw [keysOf, List.filterMap_cons]
      cases p.key? <;> rfl
    rw [Layout.upTo]
    split
    · rw [split, split]
      exact ih.append_left _
    · exact List.nil_sublist _

theorem shardKept : keysOf (Shard.pieces number next ds) = (Shard.contents number next ds).map (·.1) := by
  induction ds generalizing next with
  | nil => rfl
  | cons d rest ih =>
    cases d with
    | text _ => exact ih
    | content _ => exact congrArg (Placeholder.text number next :: ·) ih

end Keys

section Written

theorem charsAppend : charsOf (ps ++ qs) = charsOf ps ++ charsOf qs := List.flatMap_append

theorem charsOne {p : Piece} : charsOf [p] = p.text.toList := List.append_nil _

theorem charsUpTo {length : Nat} : charsOf (Layout.upTo length ps) = (charsOf ps).take length := by
  induction ps generalizing length with
  | nil => exact List.take_nil.symm
  | cons p rest ih =>
    have split : charsOf (p :: rest) = p.text.toList ++ charsOf rest := rfl
    rw [Layout.upTo, split, List.take_append]
    split
    · next short =>
      have whole : charsOf (p :: Layout.upTo (length - p.text.toList.length) rest) =
          p.text.toList ++ charsOf (Layout.upTo (length - p.text.toList.length) rest) := rfl
      rw [whole, ih, List.take_of_length_le short]
    · next long =>
      have none : length - p.text.toList.length = 0 := by omega
      rw [charsOne, Piece.text, String.toList_ofList, none, List.take_zero, List.append_nil]

structure Spelt (s : State) (l : Layout) (markup : String) (s' : State) : Prop where
  chars : markup.toList = charsOf l.pieces
  deferred : s'.deferred = s.deferred ++ l.contents
  next : s'.nextPlaceholder = l.next
  written : s'.written = s.written
  known : ∀ key ∈ keysOf l.pieces, key ∈ l.contents.map (·.1) ∨ key ∈ s'.live.map (·.1)

theorem speltText {text : String} (spelt : Spelt s l markup s') : Spelt s (l.text text) (markup ++ text) s' := by
  refine ⟨?_, spelt.deferred, spelt.next, spelt.written, fun key mem => spelt.known key ?_⟩
  · rw [String.toList_append, spelt.chars, Layout.text, charsAppend, charsOne]
    rfl
  · rw [Layout.text, keysAppend] at mem
    exact (List.mem_append.mp mem).resolve_right List.not_mem_nil

theorem speltContent (spelt : Spelt s l markup s₁) :
    ∃ inside s', out (inline f v) f s₁ = (.ok inside, s') ∧ Spelt s (l.content f.number v) (markup ++ inside) s' := by
  refine ⟨_, _, inlineLaid v s₁, ?_, ?_, ?_, spelt.written, fun key mem => ?_⟩
  · rw [String.toList_append, spelt.chars, Shard.markup, charsJoin, Layout.content, charsAppend, spelt.next]
  · rw [Shard.laid, Layout.content, spelt.deferred, List.append_assoc, spelt.next]
  · rw [Shard.laid, Layout.content, spelt.next]
  · rw [Layout.content, keysAppend, shardKept] at mem
    rw [Layout.content, List.map_append, List.mem_append]
    rcases List.mem_append.mp mem with old | new
    · exact (spelt.known key old).imp_left .inl
    · exact .inl (.inr new)

theorem speltCut {before : List Char} (spelt : Spelt s l markup s') (front : before <+: markup.toList) :
    Spelt s (l.cut before.length) (String.ofList before) s' := by
  refine ⟨?_, spelt.deferred, spelt.next, spelt.written, fun key mem => spelt.known key (keysUpTo.subset mem)⟩
  rw [String.toList_ofList, Layout.cut, charsUpTo, ← spelt.chars]
  exact List.prefix_iff_eq_take.mp front

theorem speltPlain (spelt : Spelt s l markup s₁)
    (h : out (fillPlain f markup v following) f s₁ = (.ok markup', s')) :
    Spelt s (l.plain f.number v following) markup' s' := by
  unfold fillPlain at h
  unfold Layout.plain
  rw [← spelt.chars]
  generalize found : Template.attributePlace? markup.toList = place? at h ⊢
  cases place? with
  | none =>
    obtain ⟨inside, s₂, inlined, spelt'⟩ := speltContent (f := f) (v := v) spelt
    simp only at h
    rw [outBind, inlined] at h
    cases h
    exact speltText spelt'
  | some place =>
    simp only at h ⊢
    have front : place.before <+: markup.toList := by
      obtain ⟨o, open'⟩ := Template.recognized found
      obtain ⟨broken, whole, _⟩ := open'.text
      exact ⟨o.chars ++ broken, by rw [whole, List.append_assoc]⟩
    by_cases removes : removesAttribute v = true
    · rw [if_pos removes] at h ⊢
      generalize place.quote? = quote? at h ⊢
      cases quote? with
      | none =>
        cases h
        exact speltText (speltCut spelt front)
      | some q =>
        simp only at h ⊢
        by_cases same : (following.toList.head? == some q) = true
        · rw [if_pos same] at h ⊢
          cases h
          exact speltText (speltCut spelt front)
        · rw [if_neg same] at h ⊢
          cases h
          exact speltText spelt
    · rw [if_neg removes] at h ⊢
      cases h
      exact speltText (speltText spelt)

theorem liveKeys {key : String} {slot : Slot} : keysOf (if slot.isAsync then
    [.plain ("<span " ++ idAttribute ++ "=\""), .placeholder key, .plain "\"></span>"] else [.placeholder key]) = [key] := by
  split <;> rfl

theorem speltLive {slot : Slot} (spelt : Spelt s l markup s₁)
    (h : out (fillLive markup v slot following) f s₁ = (.ok markup', s')) :
    Spelt s ((l.live f.number slot).text following) markup' s' := by
  cases translatable : slot.translatable with
  | false =>
    rw [fillLive, mark, outBind, outBind, outRead] at h
    simp only [translatable, Bool.not_false, if_true] at h
    cases h
  | true =>
    rw [fillLive, outBind, outMark translatable] at h
    obtain ⟨written, rfl⟩ := Prod.mk.inj h
    obtain rfl := Except.ok.inj written
    refine speltText ⟨?_, spelt.deferred, congrArg (· + 1) spelt.next, spelt.written, fun key mem => ?_⟩
    · rw [String.toList_append, spelt.chars, Layout.live, charsAppend, spelt.next]
      refine congrArg _ ?_
      split
      · simp only [String.toList_append, List.append_assoc]
        rfl
      · rw [charsOne, Piece.text]
    · rw [Layout.live, keysAppend, liveKeys] at mem
      rw [List.map_append, List.mem_append, spelt.next]
      rcases List.mem_append.mp mem with old | new
      · exact (spelt.known key old).imp_right .inl
      · exact .inr (.inr new)

theorem sameLive {slot : Slot} (written : s'.written = s.written) : s'.isLive slot = s.isLive slot := by
  unfold State.isLive State.isReactive
  rw [written]

theorem speltFill {values : List Value} {slots : List (Option Slot)} {texts : List String} (spelt : Spelt s l markup s₁)
    (h : out (fill f markup values slots texts) f s₁ = (.ok markup', s')) :
    Spelt s (Layout.fill f s l values slots texts) markup' s' := by
  induction values generalizing l markup s₁ slots texts with
  | nil =>
    unfold fill at h
    cases h
    exact spelt
  | cons v values ih =>
    rcases slots with _ | ⟨slot?, slots⟩
    · cases h
      exact spelt
    rcases texts with _ | ⟨following, texts⟩
    · cases h
      exact spelt
    rw [fill, outBind, outGet] at h
    simp only at h
    cases slot? with
    | none =>
      obtain ⟨markup₁, s₂, first, h⟩ := outOk.mp h
      exact ih (speltPlain spelt first) h
    | some slot =>
      simp only [sameLive spelt.written] at h
      rw [Layout.fill, Layout.slot]
      split at h
      · next live =>
        obtain ⟨markup₁, s₂, first, h⟩ := outOk.mp h
        rw [if_pos live]
        exact ih (speltLive spelt first) h
      · next other =>
        obtain ⟨markup₁, s₂, first, h⟩ := outOk.mp h
        rw [if_neg other]
        exact ih (speltPlain spelt first) h

theorem filledSpelt {template : String} {values : List Value} {line : Int}
    (h : out (filled template values line) f s = (.ok markup, s')) :
    Spelt s (layout template values line f s) markup s' := by
  rw [filled, outBind, outRead] at h
  unfold layout
  simp only at h
  split at h
  · next segments split =>
    rw [split]
    obtain ⟨_, _, same, h⟩ := outOk.mp h
    cases same
    split at h
    · cases h
    · exact speltFill ⟨(List.append_nil _).symm, (List.append_nil _).symm, rfl, rfl, fun _ none => absurd none List.not_mem_nil⟩ h
  · obtain ⟨_, _, failed, _⟩ := outOk.mp h
    cases failed

end Written

section Numbers

variable {number first middle last length : Nat} {ds : List Shard}

def givenKeys (number first last : Nat) : List String :=
  (List.range' first (last - first)).map (Placeholder.text number)

theorem givenSame : givenKeys number first first = [] := by rw [givenKeys, Nat.sub_self]; rfl

theorem givenNext : givenKeys number first (first + 1) = [Placeholder.text number first] := by
  rw [givenKeys, Nat.add_sub_cancel_left]
  rfl

theorem givenAppend (low : first ≤ middle) (high : middle ≤ last) :
    givenKeys number first last = givenKeys number first middle ++ givenKeys number middle last := by
  have total : last - first = (middle - first) + (last - middle) := by omega
  have start : first + (middle - first) = middle := by omega
  rw [givenKeys, givenKeys, givenKeys, ← List.map_append, total, ← List.range'_append_1, start]

theorem givenNodup : (givenKeys number first last).Nodup :=
  List.Pairwise.map _ (fun _ _ differ same => differ (textInjective same)) List.nodup_range'

theorem behindLater : first ≤ Shard.behind first ds := by
  induction ds generalizing first with
  | nil => exact Nat.le_refl _
  | cons d rest ih =>
    cases d with
    | text _ => exact ih
    | content _ => exact Nat.le_of_succ_le ih

theorem shardKeys : keysOf (Shard.pieces number first ds) = givenKeys number first (Shard.behind first ds) ∧
    (Shard.contents number first ds).map (·.1) = givenKeys number first (Shard.behind first ds) := by
  induction ds generalizing first with
  | nil => exact ⟨givenSame.symm, givenSame.symm⟩
  | cons d rest ih =>
    cases d with
    | text _ => exact ih
    | content _ =>
      rw [Shard.behind, givenAppend (Nat.le_succ first) behindLater, givenNext]
      exact ⟨congrArg (Placeholder.text number first :: ·) ih.1, congrArg (Placeholder.text number first :: ·) ih.2⟩

structure InOrder (number first : Nat) (l : Layout) : Prop where
  later : first ≤ l.next
  pieces : (keysOf l.pieces).Sublist (givenKeys number first l.next)
  contents : (l.contents.map (·.1)).Sublist (givenKeys number first l.next)

theorem inOrderText {text : String} (h : InOrder number first l) : InOrder number first (l.text text) := by
  refine ⟨h.later, ?_, h.contents⟩
  rw [Layout.text, keysAppend]
  exact (List.append_nil _).symm ▸ h.pieces

theorem inOrderContent (h : InOrder number first l) : InOrder number first (l.content number v) := by
  obtain ⟨keys, contents⟩ := @shardKeys number l.next (shards number v)
  have later : l.next ≤ Shard.behind l.next (shards number v) := behindLater
  refine ⟨Nat.le_trans h.later later, ?_, ?_⟩
  · rw [Layout.content, givenAppend h.later later, keysAppend, keys]
    exact h.pieces.append_right _
  · rw [Layout.content, givenAppend h.later later, List.map_append, contents]
    exact h.contents.append_right _

theorem inOrderLive {slot : Slot} (h : InOrder number first l) : InOrder number first (l.live number slot) := by
  have given : givenKeys number first (l.next + 1) = givenKeys number first l.next ++ [Placeholder.text number l.next] := by
    rw [givenAppend h.later (Nat.le_succ _), givenNext]
  refine ⟨Nat.le_succ_of_le h.later, ?_, ?_⟩
  · rw [Layout.live, given, keysAppend, liveKeys]
    exact h.pieces.append_right _
  · rw [Layout.live, given]
    exact h.contents.trans (List.sublist_append_left _ _)

theorem inOrderCut (h : InOrder number first l) : InOrder number first (l.cut length) :=
  ⟨h.later, keysUpTo.trans h.pieces, h.contents⟩

theorem inOrderPlain (h : InOrder number first l) : InOrder number first (l.plain number v following) := by
  unfold Layout.plain
  split
  · exact inOrderText (inOrderContent h)
  split
  · split
    · exact inOrderText (inOrderCut h)
    · split
      · exact inOrderText (inOrderCut h)
      · exact inOrderText h
  · exact inOrderText (inOrderText h)

theorem inOrderSlot {slot? : Option Slot} (h : InOrder f.number first l) :
    InOrder f.number first (l.slot f s v slot? following) := by
  unfold Layout.slot
  split
  · split
    · exact inOrderText (inOrderLive h)
    · exact inOrderPlain h
  · exact inOrderPlain h

theorem inOrderFill {values : List Value} {slots : List (Option Slot)} {texts : List String}
    (h : InOrder f.number first l) : InOrder f.number first (Layout.fill f s l values slots texts) := by
  induction values generalizing l slots texts with
  | nil =>
    unfold Layout.fill
    exact h
  | cons v values ih =>
    rcases slots with _ | ⟨slot?, slots⟩
    · exact h
    rcases texts with _ | ⟨following, texts⟩
    · exact h
    exact ih (inOrderSlot h)

theorem layoutInOrder {template : String} {values : List Value} {line : Int} :
    InOrder f.number s.nextPlaceholder (layout template values line f s) := by
  have start {ps : List Piece} (none : keysOf ps = []) :
      InOrder f.number s.nextPlaceholder ⟨ps, [], s.nextPlaceholder⟩ :=
    ⟨Nat.le_refl _, none ▸ List.nil_sublist _, List.nil_sublist _⟩
  unfold layout
  split
  · exact start rfl
  · exact inOrderFill (start rfl)

end Numbers

end LiveMarkup.Render
