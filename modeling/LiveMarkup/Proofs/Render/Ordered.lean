import LiveMarkup.Proofs.Markup.Origin
import LiveMarkup.Proofs.Render.Evaluated
import LiveMarkup.Proofs.Render.Nonce
import Mathlib.Data.List.Infix
/-! The identifiers of a page. Its calls take them one after the other, each call before the components in
it; and where the markup has none of its own, each goes to one element, in the order of the passes. -/
namespace LiveMarkup.Render
open Analysis Client Markup

section Numbers

namespace Settled

def numbers (x : Settled) : List Nat :=
  List.range' x.before.page.nextId (x.after.page.nextId - x.before.page.nextId)

def ids (x : Settled) : List String := x.numbers.map idText

end Settled

namespace Entry

def own? : Entry → Option Settled
  | mk own? _ => own?

def inside : Entry → List Entry
  | mk _ inside => inside

end Entry

mutual

def callsOf : Entry → List Entry
  | .mk own? inside => .mk own? inside :: callsIn inside

def callsIn : List Entry → List Entry
  | [] => []
  | e :: rest => callsOf e ++ callsIn rest

end

def settledIn (log : List Entry) : List Settled := (callsIn log).filterMap (·.own?)

variable {log : List Entry} {own? : Option Settled} {inside others : List Entry} {x : Settled} {n m : Nat}

theorem callsCons : callsIn (.mk own? inside :: others) = .mk own? inside :: (callsIn inside ++ callsIn others) := by
  rw [callsIn, callsOf, List.cons_append]

theorem settledCons : settledIn (.mk own? inside :: others) = own?.toList ++ settledIn inside ++ settledIn others := by
  rw [settledIn, callsCons, List.filterMap_cons, List.filterMap_append]
  cases own? <;> rfl

theorem realReady (real : Real x) : Ready x.factory x.before ∧
    ∃ receiver, AllClassified { receiver, tag := "html" } x.factory.slots := by
  obtain ⟨s, template, values, line, reached, filling⟩ := real.filling
  exact ⟨(readyFilled reached filling).1, reachedClassified reached⟩

theorem realLater (real : Real x) : x.before.page.nextId ≤ x.after.page.nextId := by
  obtain ⟨new, change⟩ := treePlaced (realReady real).1 real.settling.settled
  exact change.later

theorem ownLater (own : OwnTold own? n m) : n ≤ m := by
  cases own? with
  | none => exact Nat.le_of_eq own.symm
  | some x =>
    obtain ⟨real, rfl, rfl⟩ := own
    exact realLater real

theorem toldLater (told : Told log n m) : n ≤ m := by
  induction told with
  | none => exact Nat.le_refl _
  | entry own _ _ ih ih' => exact Nat.le_trans (ownLater own) (Nat.le_trans ih ih')

theorem rangeJoin {a b c : Nat} (h : a ≤ b) (h' : b ≤ c) :
    List.range' a (b - a) ++ List.range' b (c - b) = List.range' a (c - a) := by
  have middle : a + (b - a) = b := by omega
  have total : c - a = b - a + (c - b) := by omega
  rw [total, ← List.range'_append_1, middle]

theorem ownNumbers (own : OwnTold own? n m) : own?.toList.flatMap Settled.numbers = List.range' n (m - n) := by
  cases own? with
  | none =>
    obtain rfl : m = n := own
    rw [Nat.sub_self]
    rfl
  | some x =>
    obtain ⟨_, rfl, rfl⟩ := own
    exact List.append_nil _

theorem toldNumbers (told : Told log n m) : (settledIn log).flatMap Settled.numbers = List.range' n (m - n) := by
  induction told with
  | none =>
    rw [Nat.sub_self]
    rfl
  | entry own within rest ih ih' =>
    rw [settledCons, List.flatMap_append, List.flatMap_append, ownNumbers own, ih, ih',
      rangeJoin (ownLater own) (toldLater within),
      rangeJoin (Nat.le_trans (ownLater own) (toldLater within)) (toldLater rest)]

structure Taken (e : Entry) (n k m : Nat) : Prop where
  own : OwnTold e.own? n k
  inside : Told e.inside k m

theorem toldTaken (told : Told log n m) : ∀ e ∈ callsIn log, ∃ a b c, n ≤ a ∧ Taken e a b c ∧ c ≤ m := by
  induction told with
  | none => exact fun e he => absurd he List.not_mem_nil
  | entry own within rest ih ih' =>
    have first := ownLater own
    have second := toldLater within
    have third := toldLater rest
    rw [callsCons]
    refine List.forall_mem_cons.mpr ⟨⟨_, _, _, Nat.le_refl _, ⟨own, within⟩, third⟩, ?_⟩
    refine List.forall_mem_append.mpr ⟨fun e he => ?_, fun e he => ?_⟩
    · obtain ⟨a, b, c, low, taken, high⟩ := ih e he
      exact ⟨a, b, c, Nat.le_trans first low, taken, Nat.le_trans high third⟩
    · obtain ⟨a, b, c, low, taken, high⟩ := ih' e he
      exact ⟨a, b, c, Nat.le_trans first (Nat.le_trans second low), taken, high⟩

theorem toldSettledIn (told : Told log n m) (mem : x ∈ settledIn log) :
    Real x ∧ n ≤ x.before.page.nextId ∧ x.after.page.nextId ≤ m := by
  obtain ⟨e, he, own⟩ := List.mem_filterMap.mp mem
  obtain ⟨a, b, c, low, taken, high⟩ := toldTaken told e he
  have given := taken.own
  rw [own] at given
  obtain ⟨real, rfl, rfl⟩ := given
  exact ⟨real, low, Nat.le_trans (toldLater taken.inside) high⟩

theorem numbersWithin (mem : n ∈ x.numbers) : x.before.page.nextId ≤ n ∧ n < x.after.page.nextId := by
  have bounds := List.mem_range'_1.mp mem
  omega

theorem toldInside {e : Entry} {y : Settled} (told : Told log n m) (he : e ∈ callsIn log) (own : e.own? = some x)
    (mem : y ∈ settledIn e.inside) {i j : Nat} (hi : i ∈ x.numbers) (hj : j ∈ y.numbers) : i < j := by
  obtain ⟨a, b, c, _, taken, _⟩ := toldTaken told e he
  have given := taken.own
  rw [own] at given
  obtain ⟨_, rfl, rfl⟩ := given
  have later := (toldSettledIn taken.inside mem).2.1
  have mine := numbersWithin hi
  have its := numbersWithin hj
  omega

theorem toldApart (told : Told log n m) : (settledIn log).Pairwise fun x y => ∀ id ∈ x.ids, id ∉ y.ids := by
  have distinct : ((settledIn log).flatMap Settled.numbers).Nodup := by
    rw [toldNumbers told]
    exact List.nodup_range'
  refine (List.pairwise_flatMap.mp distinct).2.imp fun apart id hx hy => ?_
  obtain ⟨i, hi, rfl⟩ := List.mem_map.mp hx
  obtain ⟨j, hj, same⟩ := List.mem_map.mp hy
  exact apart i hi j hj (idInjective same).symm

end Numbers

section Order

/-- No element has an identifier that the markup gives it: none is written there, and where a placeholder stands
for one it is not a handler's. -/
def Unclaimed (f : Factory) (s : State) (tree : List Node) : Prop := idsOf f tree = [] ∧ ∀ e ∈ elements tree, Clean s e.1

def OnlyAnchors (s : State) (tree : List Node) : Prop :=
  ∀ e ∈ elements tree, ∀ a ∈ e.1, a.name = idAttribute → (s.live? a.value).any (·.slot.isAsync) = true

/-- How the identifiers of a settled tree are given to its elements: to those with handlers first, then to
those with bound attributes, to those with bound texts and to those of promise chains. -/
structure Ordered (x : Settled) (new : Records) (events attributes texts anchors : List String) : Prop where
  whole : x.ids = events ++ attributes ++ texts ++ anchors
  once : (idsOf x.factory x.final).Perm x.ids
  single : ∀ id ∈ x.ids, ∃ e, named id x.final = [e]
  sorted : ∀ pass ∈ [events, attributes, texts, anchors], pass.Sublist (idsOf x.factory x.final)
  appended : x.after.records = x.before.records ++ new
  handled : ∀ id, id ∈ events ↔ ∃ h ∈ new.handlers, h.id = id
  bound : ∀ id, id ∈ attributes ↔ id ∉ events ∧ ∃ b ∈ new.bindings, b.id = id ∧ b.attribute?.isSome
  shown : ∀ id, id ∈ texts ↔ id ∉ events ∧ id ∉ attributes ∧ ∃ b ∈ new.bindings, b.id = id ∧ b.attribute? = none
  chained : anchors = new.asyncBindings.map (·.id)

variable {f : Factory} {s s' : State} {tree final : List Node} {x : Settled}

theorem anchorsUnclaimed {receiver : String} (ready : Ready f s)
    (classified : AllClassified { receiver, tag := "html" } f.slots) (only : OnlyAnchors s tree) :
    Unclaimed f s tree := by
  refine ⟨List.filterMap_eq_nil_iff.mpr fun e he => ?_, fun e he a ha named => ?_⟩
  · cases own : ownId? f e.1 with
    | none => rfl
    | some id =>
      obtain ⟨a, found, rfl⟩ := Option.map_eq_some_iff.mp (ownGet own)
      have named : a.name = idAttribute := by simpa using List.find?_some found
      obtain ⟨live, given, _⟩ := (Option.any_eq_true _ _).mp (only e he a (List.mem_of_find?_eq_some found) named)
      have marked : liveAt s e.1 = none := @marksOwn f s e.1 e.1 a.value ready.keyed own
      rw [liveAt, ownGet own, Option.getD_some, given] at marked
      cases marked
  · obtain ⟨live, given, async⟩ := (Option.any_eq_true _ _).mp (only e he a ha named)
    obtain ⟨mem, translatable⟩ := liveKnown ready.known given
    have other : live.slot.isEvent = false := by
      obtain ⟨shape, c⟩ := classified live.slot mem translatable
      cases c with
      | chain _ _ _ _ _ _ _ kind _ => exact kind.2.1
      | function _ _ _ _ _ kind _ => rw [kind.1] at async; cases async
      | plain _ _ _ kind _ => exact kind.2.1
    rw [eventAt, given, Option.filter_some, if_neg (by simp [other])]

section Stages

variable {first second : List Binding} {id : String}

theorem onlyHandlers {r : Records} {hs : List Handler} (h : r.unnamed = { handlers := hs }) :
    r = { handlers := r.handlers } := by
  obtain ⟨bindings, handlers, chains⟩ := r
  injection h with hb _ hc
  obtain rfl := List.map_eq_nil_iff.mp hb
  obtain rfl := List.map_eq_nil_iff.mp hc
  rfl

theorem onlyBindings {r : Records} {bs : List Binding} (h : r.unnamed = { bindings := bs }) :
    r = { bindings := r.bindings } ∧ ∀ b ∈ r.bindings, ∃ b' ∈ bs, b'.attribute? = b.attribute? := by
  obtain ⟨bindings, handlers, chains⟩ := r
  injection h with hb hh hc
  obtain rfl := List.map_eq_nil_iff.mp hh
  obtain rfl := List.map_eq_nil_iff.mp hc
  exact ⟨rfl, fun b mem => ⟨{ b with id := "" }, hb ▸ List.mem_map_of_mem mem, rfl⟩⟩

theorem onlyChains {r : Records} {cs : List AsyncBinding} (h : r.unnamed = { asyncBindings := cs }) :
    r = { asyncBindings := r.asyncBindings } := by
  obtain ⟨bindings, handlers, chains⟩ := r
  injection h with hb hh _
  obtain rfl := List.map_eq_nil_iff.mp hb
  obtain rfl := List.map_eq_nil_iff.mp hh
  rfl

theorem attributesNamed {r : Records} (attributes : List (List Attribute))
    (h : r.unnamed = { bindings := attributes.flatMap (·.filterMap (bindingAt f s)) }) :
    r = { bindings := r.bindings } ∧ ∀ b ∈ r.bindings, b.attribute?.isSome = true := by
  obtain ⟨only, names⟩ := onlyBindings h
  refine ⟨only, fun b hb => ?_⟩
  obtain ⟨b', mem, same⟩ := names b hb
  obtain ⟨_, _, made⟩ := List.mem_flatMap.mp mem
  obtain ⟨a, _, made⟩ := List.mem_filterMap.mp made
  rw [← same]
  unfold bindingAt at made
  split at made
  · cases made
  · obtain ⟨source, _, rfl⟩ := Option.map_eq_some_iff.mp made
    rfl

theorem textsUnnamed {r : Records} {texts : List String}
    (h : r.unnamed = { bindings := texts.flatMap (textBindings f s) }) :
    r = { bindings := r.bindings } ∧ ∀ b ∈ r.bindings, b.attribute? = none := by
  obtain ⟨only, names⟩ := onlyBindings h
  refine ⟨only, fun b hb => ?_⟩
  obtain ⟨b', mem, same⟩ := names b hb
  obtain ⟨_, _, made⟩ := List.mem_flatMap.mp mem
  obtain ⟨chunk, _, made⟩ := List.mem_filterMap.mp made
  obtain ⟨source, _, rfl⟩ := Option.map_eq_some_iff.mp made
  exact same.symm

theorem idBinding : id ∈ ({ bindings := first } : Records).ids ↔ ∃ b ∈ first, b.id = id := by
  simp [Records.ids]

theorem boundFirst (bound : ∀ b ∈ first, b.attribute?.isSome = true) (shown : ∀ b ∈ second, b.attribute? = none) :
    (∃ b ∈ first ++ second, b.id = id ∧ b.attribute?.isSome = true) ↔ ∃ b ∈ first, b.id = id := by
  constructor
  · rintro ⟨b, mem, same, named⟩
    rcases List.mem_append.mp mem with hb | hb
    · exact ⟨b, hb, same⟩
    · rw [shown b hb] at named
      cases named
  · rintro ⟨b, hb, same⟩
    exact ⟨b, List.mem_append_left _ hb, same, bound b hb⟩

theorem shownSecond (bound : ∀ b ∈ first, b.attribute?.isSome = true) (shown : ∀ b ∈ second, b.attribute? = none) :
    (∃ b ∈ first ++ second, b.id = id ∧ b.attribute? = none) ↔ ∃ b ∈ second, b.id = id := by
  constructor
  · rintro ⟨b, mem, same, unnamed⟩
    rcases List.mem_append.mp mem with hb | hb
    · have named := bound b hb
      rw [unnamed] at named
      cases named
    · exact ⟨b, hb, same⟩
  · rintro ⟨b, hb, same⟩
    exact ⟨b, List.mem_append_right _ hb, same, shown b hb⟩

structure Stage (s s₁ s' : State) (before after : List String) (new : Records) : Prop where
  later : s.page.nextId ≤ s'.page.nextId
  all : after.Perm (freshIds s s')
  named : ∀ id, id ∈ freshIds s₁ s' ↔ id ∉ freshIds s s₁ ∧ id ∈ new.ids
  kept : before.Sublist after
  sorted : (freshIds s₁ s').Sublist after

theorem stageOf {s₁ : State} {before after : List String} {new gained : Records}
    (later : s.page.nextId ≤ s₁.page.nextId) (all : before.Perm (freshIds s s₁)) (change : Change s₁ s' new gained)
    (stamps : Stamps s₁ s' before after new) : Stage s s₁ s' before after new := by
  have whole := freshAppend later change.later
  have joined : after.Perm (freshIds s s₁ ++ freshIds s₁ s') := stamps.mixes.perm.trans (all.append_right _)
  have distinct : (freshIds s s₁ ++ freshIds s₁ s').Nodup := whole ▸ freshNodup
  refine ⟨Nat.le_trans later change.later, whole ▸ joined, fun id => ⟨fun mem => ⟨fun old => ?_, ?_⟩, ?_⟩,
    stamps.mixes.sublists.1, stamps.mixes.sublists.2⟩
  · exact (List.nodup_append.mp distinct).2.2 id old id mem rfl
  · exact stamps.named id mem
  · rintro ⟨other, mem⟩
    rcases List.mem_append.mp (joined.mem_iff.mp (stamps.within id mem)) with old | new
    · exact absurd old other
    · exact new

theorem singleOf {ids : List String} (once : (idsOf f final).Perm ids) (distinct : ids.Nodup) :
    ∀ id ∈ ids, ∃ e, named id final = [e] := by
  intro id mem
  obtain ⟨e, he, own⟩ := List.mem_filterMap.mp (once.mem_iff.mpr mem)
  exact ⟨e, namedOnce (once.nodup_iff.mpr distinct) he own⟩

theorem orderedTree {markup : String} (ready : Ready f s) (unclaimed : Unclaimed f s tree)
    (h : out (settleTree tree) f s = (.ok final, s')) :
    ∃ new events attributes texts anchors,
      Ordered ⟨f, markup, s, tree, final, s'⟩ new events attributes texts anchors := by
  obtain ⟨s₁, s₂, s₃, first, second, third, stages⟩ := treeStages ready h
  obtain ⟨new₁, change₁, stamps₁⟩ := stages.events
  obtain ⟨new₂, change₂, stamps₂⟩ := stages.attributes
  obtain ⟨new₃, change₃, stamps₃⟩ := stages.texts
  obtain ⟨new₄, change₄, stamps₄⟩ := stages.anchors
  have start : (idsOf f tree).Perm (freshIds s s) := by rw [unclaimed.1, freshSame rfl]
  have stage₁ := stageOf (Nat.le_refl _) start change₁ (stamps₁ unclaimed.2)
  have stage₂ := stageOf stage₁.later stage₁.all change₂ (stamps₂ trivial)
  have stage₃ := stageOf stage₂.later stage₂.all change₃ (stamps₃ trivial)
  have stage₄ := stageOf stage₃.later stage₃.all change₄ (stamps₄ trivial)
  have two := freshAppend stage₁.later change₂.later
  have three := freshAppend stage₂.later change₃.later
  have four := freshAppend stage₃.later change₄.later
  obtain ⟨bindings₁, handlers₁, chains₁⟩ := new₁
  obtain ⟨bindings₂, handlers₂, chains₂⟩ := new₂
  obtain ⟨bindings₃, handlers₃, chains₃⟩ := new₃
  obtain ⟨bindings₄, handlers₄, chains₄⟩ := new₄
  cases onlyHandlers change₁.gained
  obtain ⟨only₂, bound⟩ := attributesNamed ((elements tree).map fun e => unhandled s e.1)
    (by rw [change₂.gained, List.flatMap_map])
  obtain ⟨only₃, shown⟩ := textsUnnamed change₃.gained
  cases only₂
  cases only₃
  cases onlyChains change₄.gained
  have whole := (changeTrans change₁ (changeTrans change₂ (changeTrans change₃ change₄))).same
  rw [Records.joinPasses] at whole
  refine ⟨⟨bindings₂ ++ bindings₃, handlers₁, chains₄⟩, freshIds s s₁, freshIds s₁ s₂, freshIds s₂ s₃,
    freshIds s₃ s', ?_, stage₄.all, singleOf stage₄.all freshNodup, ?_, congrArg State.records whole, fun id => ?_, fun id => ?_, fun id => ?_, ?_⟩
  · show freshIds s s' = _
    rw [four, three, two]
  · simp only [List.forall_mem_cons]
    refine ⟨?_, ?_, ?_, stage₄.sorted, fun _ h => absurd h List.not_mem_nil⟩
    · exact stage₁.sorted.trans (stage₂.kept.trans (stage₃.kept.trans stage₄.kept))
    · exact stage₂.sorted.trans (stage₃.kept.trans stage₄.kept)
    · exact stage₃.sorted.trans stage₄.kept
  · rw [stage₁.named, freshSame rfl]
    simp [Records.ids]
  · rw [stage₂.named, idBinding, boundFirst bound shown]
  · rw [stage₃.named, idBinding, shownSecond bound shown, two, List.mem_append, not_or, and_assoc]
  · have chained := stages.chained.ids
    rw [change₄.same] at chained
    exact (List.append_cancel_left ((List.map_append ..).symm.trans chained)).symm

end Stages

end Order

section Written

variable {f : Factory} {s : State} {value rest : List Char}

def Anchors (s : State) (behind : List Char) : Prop :=
  ∃ l ∈ s.live, (s.live? l.1).any (·.slot.isAsync) = true ∧ '=' :: '"' :: (l.1.toList ++ ['"']) <+: behind

/-- The markup names no element: wherever it reads like the name of the attribute, in any letter case, it writes
the element of a promise chain. -/
def WritesAnchors (s : State) (markup : String) : Prop :=
  ∀ name behind, name ++ behind <:+ markup.toList → Text.lower name = idAttribute.toList → Anchors s behind

theorem lowerLength {before : Bool} {cs : List Char} (undotted : Char.ofNat 0x307 ∉ Text.lowerFrom before cs) :
    (Text.lowerFrom before cs).length = cs.length := by
  induction cs generalizing before with
  | nil => rfl
  | cons c rest ih =>
    rw [Text.lowerFrom] at undotted ⊢
    split at undotted
    · exact absurd (List.mem_cons_of_mem _ List.mem_cons_self) undotted
    next plain =>
    rw [if_neg plain]
    split at undotted
    · next sigma =>
      rw [if_pos sigma, List.length_cons, List.length_cons, ih (List.not_mem_of_not_mem_cons undotted)]
    · next other =>
      rw [if_neg other, List.length_cons, List.length_cons, ih (List.not_mem_of_not_mem_cons undotted)]

def asyncKeys (s : State) : List String := (s.live.filter fun l => (s.live? l.1).any (·.slot.isAsync)).map (·.1)

def onlyKeyed (keys : List String) (text : List Char) : Bool :=
  text.tails.all fun t => decide (Text.lower (t.take idAttribute.length) = idAttribute.toList →
    ∃ key ∈ keys, '=' :: '"' :: (key.toList ++ ['"']) <+: t.drop idAttribute.length)

theorem anchorsKeyed {behind : List Char} :
    Anchors s behind ↔ ∃ key ∈ asyncKeys s, '=' :: '"' :: (key.toList ++ ['"']) <+: behind := by
  simp only [Anchors, asyncKeys, List.mem_map, List.mem_filter]
  constructor
  · rintro ⟨l, mem, async, front⟩
    exact ⟨l.1, ⟨l, ⟨mem, async⟩, rfl⟩, front⟩
  · rintro ⟨_, ⟨l, ⟨mem, async⟩, rfl⟩, front⟩
    exact ⟨l, mem, async, front⟩

theorem writesIff {markup : String} : WritesAnchors s markup ↔ onlyKeyed (asyncKeys s) markup.toList = true := by
  simp only [onlyKeyed, List.all_eq_true, decide_eq_true_eq, ← anchorsKeyed]
  constructor
  · intro writes text mem lowered
    exact writes _ _ (by rw [List.take_append_drop]; exact (List.mem_tails ..).mp mem) lowered
  · intro all name behind inside lowered
    have size : idAttribute.length = name.length := by
      have kept := @lowerLength false name (by rw [← Text.lower, lowered]; decide)
      rwa [← Text.lower, lowered, String.length_toList] at kept
    have anchored := all (name ++ behind) ((List.mem_tails ..).mpr inside)
    rw [size, List.take_left, List.drop_left] at anchored
    exact anchored lowered

theorem cutQuote (h : '"' ∉ value) : Text.cut? ['"'] (value ++ '"' :: rest) = some (value, rest) := by
  induction value with
  | nil => rfl
  | cons c value ih =>
    obtain ⟨other, later⟩ := not_or.mp (mt List.mem_cons.mpr h)
    rw [List.cons_append, Text.cut?, if_neg, ih later]
    · rfl
    · simpa using other

theorem valueQuoted (h : '"' ∉ value) :
    Tag.valueAndRest ('=' :: '"' :: (value ++ '"' :: rest)) = (value, rest) := by
  have equals : Text.isBlank '=' = false := by decide
  have quote : Text.isBlank '"' = false := by decide
  unfold Tag.valueAndRest
  simp [equals, quote, cutQuote h]

theorem decodePlain (h : '&' ∉ value) : Entity.decode value = value := by
  rw [Entity.decode]
  induction value with
  | nil => rfl
  | cons c value ih =>
    obtain ⟨other, later⟩ := not_or.mp (mt List.mem_cons.mpr h)
    rw [List.length_cons, Entity.decodeFrom, ih later]
    exact fun is => other is.symm

theorem writesOnly {markup : String} {tree : List Node} (keyed : Keyed f s) (read : readTree markup = .ok tree)
    (writes : WritesAnchors s markup) : OnlyAnchors s tree := by
  intro e he a ha named
  obtain ⟨written, behind, inside, same, valued⟩ := treeStands read e he a ha
  have lowered : Text.lower written = idAttribute.toList := by
    rw [← named, same, Tag.lowerText, String.toList_ofList]
  obtain ⟨l, hl, async, rest, rfl⟩ := writes written behind inside lowered
  obtain ⟨n, _, given⟩ := keyed.live l hl
  have quote : '"' ∉ l.1.toList := given ▸ dividesFront (by decide) textFront
  have sign : '&' ∉ l.1.toList := given ▸ dividesFront (by decide) textFront
  have shape : '=' :: '"' :: (l.1.toList ++ ['"']) ++ rest = '=' :: '"' :: (l.1.toList ++ '"' :: rest) := by simp
  rw [shape, valueQuoted quote, decodePlain sign, String.ofList_toList] at valued
  rw [valued]
  exact async

end Written

section Pages

structure Numbered (page page' : Page) (log : List Entry) : Prop where
  consecutive : (settledIn log).flatMap Settled.numbers = List.range' page.nextId (page'.nextId - page.nextId)
  apart : (settledIn log).Pairwise fun x y => ∀ id ∈ x.ids, id ∉ y.ids
  nested : ∀ e ∈ callsIn log, ∀ x, e.own? = some x → ∀ y ∈ settledIn e.inside, ∀ n ∈ x.numbers, ∀ m ∈ y.numbers, n < m

/-- On every page the identifiers are unique. Where a call's markup has none of its own, each goes to one element:
first to those with handlers, then to those with bound attributes and texts, and to promise chains last. -/
theorem pageOrdered {page : Page} {components : List Component} :
    Numbered page (renderPage page components).2 (pageLog page components) ∧
      ∀ x ∈ settledIn (pageLog page components), Real x ∧
        (WritesAnchors x.before x.markup → Unclaimed x.factory x.before x.tree) ∧
        (Unclaimed x.factory x.before x.tree →
          ∃ new events attributes texts anchors, Ordered x new events attributes texts anchors) := by
  have told := @pageTells components page
  refine ⟨⟨toldNumbers told, toldApart told, ?_⟩, fun x mem => ?_⟩
  · exact fun e he x own y mem n hn m hm => toldInside told he own mem hn hm
  · have real := (toldSettledIn told mem).1
    obtain ⟨ready, receiver, classified⟩ := realReady real
    exact ⟨real, fun writes => anchorsUnclaimed ready classified (writesOnly ready.keyed real.settling.read writes),
      fun unclaimed => orderedTree ready unclaimed real.settling.settled⟩

def waitingTemplate : String := "{}<b onclick={}></b>{}"

def waiting (content : Recipe) : Component :=
  .mk "Waiting" []
    (some ("def render(self, ctx):
  return ctx.html('" ++ waitingTemplate ++ "', f().then(g), lambda: 0, 0)
"))
    1 "waiting.py"
    [.mk waitingTemplate
      [.promise (.value (.text "/")) none [.onSuccess], .value (.object "function"), content] 2 false] none

def waitingPage : List Component := [waiting (.value (.component (waiting (.value (.whole 0)))))]

def waitingSlots : List Slot :=
  [{ isAsync := true, source := "f().then(g)", promiseSource := some "f()", thenCallback := some "g",
     expression := "f().then(g)", template := waitingTemplate, line := 2 },
   { isFunction := true, isEvent := true, eventName := some "onclick", source := "() => 0", bodySource := some "0",
     expression := "lambda: 0", template := waitingTemplate, slot := 1, line := 2 },
   { source := "0", expression := "0", template := waitingTemplate, slot := 2, line := 2 }]

theorem waitingAnalyzed : ∀ k ∈ [(waiting (.value .none), waitingSlots)], (slotsOf k.1).toOption = some k.2 :=
  List.forall_mem_singleton.mpr
    (slotsListed rfl (listedAppend (listedAppend (listedText rfl) rfl) rfl) rfl (by decide +kernel))

theorem waitingOrdered :
    (settledIn (pageLog {} waitingPage)).map Settled.numbers = [[0, 1], [2, 3]] ∧
      ∀ x ∈ settledIn (pageLog {} waitingPage), WritesAnchors x.before x.markup ∧
        ∃ new events attributes texts anchors, Ordered x new events attributes texts anchors := by
  let seen (x : Settled) := (x.numbers, asyncKeys x.before, x.markup)
  have evaluated : (settledIn (pageLog {} waitingPage)).map seen =
      [([0, 1], ["__zinc_00000000_0__"],
        "<span data-zid=\"__zinc_00000000_0__\"></span><b onclick=__zinc_00000000_1__></b>__zinc_00000000_2__"),
        ([2, 3], ["__zinc_00000001_0__"],
        "<span data-zid=\"__zinc_00000001_0__\"></span><b onclick=__zinc_00000001_1__></b>0")] := by
    rw [waitingPage, pageLog, pageLog, List.append_nil, logGiven waitingAnalyzed]
    decide +kernel
  refine ⟨?_, fun x mem => ?_⟩
  · have numbers := congrArg (List.map (·.1)) evaluated
    rwa [List.map_map] at numbers
  have writes : WritesAnchors x.before x.markup := by
    have known := List.mem_map_of_mem (f := seen) mem
    rw [evaluated] at known
    rw [writesIff]
    rcases List.mem_pair.mp known with is | is
    all_goals
      obtain ⟨_, keys, markup⟩ := Prod.ext_iff.mp is |>.imp_right Prod.ext_iff.mp
      rw [show asyncKeys x.before = _ from keys, show x.markup = _ from markup, listedText rfl]
      decide +kernel
  obtain ⟨_, unclaimed, ordered⟩ := pageOrdered.2 x mem
  exact ⟨writes, ordered (unclaimed writes)⟩

/-- Neither the template nor the text in it names an element. -/
theorem forgedTwice :
    (∀ t ∈ [joinedTemplate, "data"], ¬idAttribute.toList <:+: t.toList) ∧
      (settledIn (pageLog {} [joined])).map (fun x => (x.ids, (named "_0" x.final).length)) = [(["_0"], 2)] := by
  refine ⟨by decide +kernel, ?_⟩
  rw [pageLog, pageLog, List.append_nil, logGiven joinedAnalyzed]
  decide +kernel

end Pages

end LiveMarkup.Render
