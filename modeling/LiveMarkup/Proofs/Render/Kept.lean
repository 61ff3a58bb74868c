import Mathlib.Data.List.Forall2
import Mathlib.Data.List.Nodup
import LiveMarkup.Proofs.Markup.Cells
import LiveMarkup.Proofs.Render.Failed
import LiveMarkup.Proofs.Render.Layout
import LiveMarkup.Proofs.Render.Shown
import LiveMarkup.Proofs.Runs
/-! Contents in a live call. Its markup is read, settled and written again, and the contents are spliced in at the
end. Where a placeholder comes into a text of the tree, the body has the content in its place as it is. -/
namespace LiveMarkup.Render
open Analysis Client Markup

section Lists

variable {α : Type} [DecidableEq α] {as bs cs : List α}

theorem sublistMembers (nodup : cs.Nodup) (h : as.Sublist cs) : as = cs.filter (· ∈ as) := by
  induction h with
  | slnil => rfl
  | @cons as cs a h ih =>
    obtain ⟨new, nodup⟩ := List.nodup_cons.mp nodup
    rw [List.filter_cons_of_neg (by simpa using fun mem => new (h.subset mem))]
    exact ih nodup
  | @cons_cons as cs a h ih =>
    obtain ⟨new, nodup⟩ := List.nodup_cons.mp nodup
    rw [List.filter_cons_of_pos (by simp)]
    refine congrArg (a :: ·) ((ih nodup).trans (List.filter_congr fun b mem => ?_))
    have other : b ≠ a := fun same => new (same ▸ mem)
    simp [other]

theorem sublistsSame (nodup : cs.Nodup) (h : as.Sublist cs) (h' : bs.Sublist cs) (same : ∀ a, a ∈ as ↔ a ∈ bs) :
    as = bs := by
  rw [sublistMembers nodup h, sublistMembers nodup h']
  exact List.filter_congr fun a _ => by simp [same a]

end Lists

section Splicing

variable {f : Factory} {s s' : State} {nested : Nested} {kept : List (String × Deferred)} {ps : List Piece}
  {texts : List String}

def ComesTo (nested : Nested) : Deferred → String → Prop
  | .markup html, text => text = html
  | .component c, text => ∃ page page', outcome (nested c) page = (.ok text, page')

def Shows (nested : Nested) (kept : List (String × Deferred)) : Piece → String → Prop
  | .plain s, text => text = s
  | .placeholder key, text => ∀ content, (key, content) ∈ kept → ComesTo nested content text

theorem otherWaits {p : Piece} {text key : String} (other : p.key? ≠ some key)
    (h : out (spliced nested p) f s = (.ok text, s')) :
    s'.deferred.find? (·.1 == key) = s.deferred.find? (·.1 == key) := by
  cases p with
  | plain text =>
    cases h
    rfl
  | placeholder own =>
    have apart : own ≠ key := fun same => other (same ▸ rfl)
    have left : (s.deferred.filter (·.1 != own)).find? (·.1 == key) = s.deferred.find? (·.1 == key) := by
      rw [List.find?_filter]
      refine congrArg (List.find? · s.deferred) (funext fun d => ?_)
      by_cases same : d.1 = key
      · simp [same, apart.symm]
      · simp [same]
    rw [spliced, takeDeferred?, outBind, outBind, outGet] at h
    simp only at h
    cases found : s.deferred.find? (·.1 == own) with
    | none =>
      rw [found] at h
      cases h
      rfl
    | some entry =>
      rw [found] at h
      obtain ⟨_, content⟩ := entry
      cases content with
      | markup html =>
        cases h
        exact left
      | component c =>
        rw [congrArg State.deferred (nestedShown h).2]
        exact left

theorem ownShown {key text : String} {content : Deferred} (waits : s.deferred.find? (·.1 == key) = some (key, content))
    (h : out (spliced nested (.placeholder key)) f s = (.ok text, s')) : ComesTo nested content text := by
  rw [spliced, takeDeferred?, outBind, outBind, outGet] at h
  simp only [waits] at h
  cases content with
  | markup html =>
    cases h
    rfl
  | component c => exact ⟨_, _, (nestedShown h).1⟩

theorem piecesShown (waiting : ∀ d ∈ kept, d.1 ∈ keysOf ps →
      s.deferred.find? (·.1 == d.1) = some d ∧ (keysOf ps).count d.1 = 1)
    (h : out (ps.mapM (spliced nested)) f s = (.ok texts, s')) : List.Forall₂ (Shows nested kept) ps texts := by
  induction ps generalizing s texts with
  | nil =>
    cases h
    exact .nil
  | cons p rest ih =>
    rw [List.mapM_cons] at h
    obtain ⟨text, s₁, first, h⟩ := outOk.mp h
    obtain ⟨others, _, behind, last⟩ := outOk.mp h
    cases last
    have split : keysOf (p :: rest) = p.key?.toList ++ keysOf rest := by
      rw [keysOf, List.filterMap_cons]
      cases p.key? <;> rfl
    refine .cons ?_ (ih (fun d hd later => ?_) behind)
    · cases p with
      | plain s =>
        cases first
        rfl
      | placeholder key =>
        intro content mem
        exact ownShown (waiting _ mem (split ▸ List.mem_cons_self)).1 first
    · obtain ⟨waits, once⟩ := waiting d hd (split ▸ List.mem_append_right _ later)
      rw [split, List.count_append] at once
      have more := List.count_pos_iff.mpr later
      have other : p.key? ≠ some d.1 := by
        intro same
        rw [same, Option.toList_some, List.count_singleton_self] at once
        omega
      refine ⟨(otherWaits other first).trans waits, ?_⟩
      have none : p.key?.toList.count d.1 = 0 := by
        rw [List.count_eq_zero, Option.mem_toList]
        exact other
      omega

end Splicing

section Course

variable {template markup : String} {values : List Value} {line : Int} {f : Factory} {s s₁ s₂ s' : State}
  {tokens : List Token} {final : List Node} {nested : Nested} {v : Value}

/-- The course of a call up to the splicing of contents: the markup that it writes, the tokens that are read of it,
and the tree that is written for them. -/
structure Course (template : String) (values : List Value) (line : Int) (f : Factory) (s : State) (markup : String)
    (s₁ : State) (tokens : List Token) (final : List Node) (s₂ : State) : Prop where
  filling : out (filled template values line) f s = (.ok markup, s₁)
  read : readTokens markup.toList = .ok tokens
  settled : out (settleTree (Tree.ofTokens tokens)) f s₁ = (.ok final, s₂)

def tagKeys (number : Nat) (nodes : List Node) : List String :=
  (tagsOf (cells false nodes)).flatMap (placeholders number)

/-- No text of the call is mistaken for a placeholder: none that is written into the markup, none where texts are
joined as they are read, none that is shown for a live slot, none in a tag, and none where texts are written again. -/
structure Unmistaken (f : Factory) (s₁ : State) (ps : List Piece) (markup : String) (tokens : List Token)
    (final : List Node) : Prop where
  written : standing f.number markup.toList = keysOf ps
  joined : Seamless f.number {} tokens
  shown : UnforgedIn f s₁ (Tree.ofTokens tokens)
  tags : ∀ key ∈ textKeys f.number (Tree.ofTokens tokens), key ∉ tagKeys f.number final
  rejoined : placeholders f.number (writeTree final) =
    (cells false final).flatMap fun c => placeholders f.number c.written

def contentsIn (number : Nat) (l : Layout) (tree : List Node) : List (String × Deferred) :=
  l.contents.filter fun d => (textKeys number tree).contains d.1

def FreeOf (number : Nat) (kept : List (String × Deferred)) (e : List Attribute × List Node) : Prop :=
  ∀ d ∈ kept, d.1 ∉ textKeys number e.2

/-- Contents come through a call as they are: the placeholder of each stands once in the tree that is written, they
stand in the order of the slots and outside of the elements that the bindings of texts are for, which are all that
these name if no element has an identifier of its own, and the body is what is written with the contents in their
places. -/
structure Kept (nested : Nested) (f : Factory) (kept : List (String × Deferred)) (new : List Binding)
    (tree final : List Node) (body : String) : Prop where
  once : ∀ d ∈ kept, (placeholders f.number (writeTree final)).count d.1 = 1
  ordered : (kept.map (·.1)).Sublist (placeholders f.number (writeTree final))
  outside : ∀ b ∈ new, b.attribute? = none →
    (∃ e ∈ elements final, ownId? f e.1 = some b.id ∧ (∃ literal, e.2 = [.text .plain literal]) ∧ FreeOf f.number kept e) ∧
    (idsOf f tree = [] → ∀ e ∈ named b.id final, FreeOf f.number kept e)
  spliced : ∃ texts, body = String.join texts ∧
    List.Forall₂ (Shows nested kept) (Piece.split f.number (writeTree final)) texts

theorem cellsFiltered {number : Nat} {cs : List Cell} {p : String → Bool}
    (tags : ∀ key ∈ (tagsOf cs).flatMap (placeholders number), p key = false) :
    (cs.flatMap fun c => placeholders number c.written).filter p =
      ((textsOf cs).flatMap (placeholders number)).filter p := by
  induction cs with
  | nil => rfl
  | cons c rest ih =>
    cases c with
    | tag text =>
      have split : tagsOf (.tag text :: rest) = text :: tagsOf rest := rfl
      rw [split, List.flatMap_cons] at tags
      obtain ⟨own, others⟩ := List.forall_mem_append.mp tags
      have none : (placeholders number text).filter p = [] :=
        List.filter_eq_nil_iff.mpr fun key mem => Bool.eq_false_iff.mp (own key mem)
      rw [List.flatMap_cons, List.filter_append, ih others]
      exact (congrArg (· ++ _) none).trans rfl
    | text text =>
      have split : textsOf (.text text :: rest) = text :: textsOf rest := rfl
      rw [List.flatMap_cons, List.filter_append, ih tags, split, List.flatMap_cons, List.filter_append]
      rfl

theorem textsGiven (course : Course template values line f s markup s₁ tokens final s₂)
    (plain : Unmistaken f s₁ (layout template values line f s).pieces markup tokens final) :
    (textKeys f.number (Tree.ofTokens tokens)).Sublist
      (givenKeys f.number s.nextPlaceholder (layout template values line f s).next) := by
  rw [treeKeys plain.joined]
  exact (plain.written ▸ tokensDrawn course.read).trans layoutInOrder.pieces

theorem contentsWait (keyed : Keyed f s) (course : Course template values line f s markup s₁ tokens final s₂)
    (plain : Unmistaken f s₁ (layout template values line f s).pieces markup tokens final) :
    (contentsIn f.number (layout template values line f s) (Tree.ofTokens tokens)).map (·.1) =
      (textKeys f.number (Tree.ofTokens tokens)).filter s₁.defers := by
  have given := textsGiven course plain
  have own : ((contentsIn f.number (layout template values line f s) (Tree.ofTokens tokens)).map (·.1)).Sublist _ :=
    (List.filter_sublist.map _).trans layoutInOrder.contents
  have store := (filledSpelt course.filling).deferred
  refine sublistsSame givenNodup own (List.filter_sublist.trans given) fun key => ?_
  rw [List.mem_filter, State.defers, store, List.any_append, Bool.or_eq_true]
  constructor
  · rintro mem
    obtain ⟨d, hd, rfl⟩ := List.mem_map.mp mem
    obtain ⟨hd, inside⟩ := List.mem_filter.mp hd
    exact ⟨List.contains_iff_mem.mp inside, .inr (List.any_eq_true.mpr ⟨d, hd, beq_self_eq_true _⟩)⟩
  · rintro ⟨inside, waits | waits⟩
    · obtain ⟨d, hd, same⟩ := List.any_eq_true.mp waits
      obtain ⟨n, less, is⟩ := keyed.deferred d hd
      obtain ⟨m, range, is'⟩ := List.mem_map.mp (given.subset inside)
      rw [textInjective (is'.trans ((beq_iff_eq.mp same).symm.trans is))] at range
      exact absurd (List.mem_range'_1.mp range).1 (Nat.not_le_of_lt less)
    · obtain ⟨d, hd, same⟩ := List.any_eq_true.mp waits
      obtain rfl := beq_iff_eq.mp same
      exact List.mem_map_of_mem (List.mem_filter.mpr ⟨hd, List.contains_iff_mem.mpr inside⟩)

theorem writtenWait (ready : Ready f s₁) (course : Course template values line f s markup s₁ tokens final s₂)
    (plain : Unmistaken f s₁ (layout template values line f s).pieces markup tokens final) :
    (placeholders f.number (writeTree final)).filter
        (fun key => s₁.defers key && (textKeys f.number (Tree.ofTokens tokens)).contains key) =
      (textKeys f.number (Tree.ofTokens tokens)).filter s₁.defers := by
  have both (keys : List String) : keys.filter
      (fun key => s₁.defers key && (textKeys f.number (Tree.ofTokens tokens)).contains key) =
      (keys.filter s₁.defers).filter fun key => (textKeys f.number (Tree.ofTokens tokens)).contains key := by
    rw [List.filter_filter]
    exact List.filter_congr fun key _ => Bool.and_comm _ _
  rw [plain.rejoined, cellsFiltered, cellsKeys, both, settledKeys ready plain.shown course.settled]
  · refine List.filter_eq_self.mpr fun key mem => ?_
    exact List.contains_iff_mem.mpr (List.mem_filter.mp mem).1
  · intro key mem
    rw [Bool.and_eq_false_iff]
    refine .inr (Bool.eq_false_iff.mpr fun inside => ?_)
    exact plain.tags key (List.contains_iff_mem.mp inside) mem

theorem contentsOnce (reached : Reached f s) (course : Course template values line f s markup s₁ tokens final s₂)
    (plain : Unmistaken f s₁ (layout template values line f s).pieces markup tokens final) :
    (∀ d ∈ contentsIn f.number (layout template values line f s) (Tree.ofTokens tokens),
        (placeholders f.number (writeTree final)).count d.1 = 1) ∧
      ((contentsIn f.number (layout template values line f s) (Tree.ofTokens tokens)).map (·.1)).Sublist
        (placeholders f.number (writeTree final)) := by
  obtain ⟨ready, _⟩ := readyFilled reached course.filling
  have wait := contentsWait (soundReached reached).keyed course plain
  have written := writtenWait ready course plain
  have nodup : ((textKeys f.number (Tree.ofTokens tokens)).filter s₁.defers).Nodup :=
    (givenNodup.sublist (textsGiven course plain)).filter _
  refine ⟨fun d hd => ?_, wait ▸ written ▸ List.filter_sublist⟩
  have mem : d.1 ∈ (textKeys f.number (Tree.ofTokens tokens)).filter s₁.defers := wait ▸ List.mem_map_of_mem hd
  have chosen : (s₁.defers d.1 && (textKeys f.number (Tree.ofTokens tokens)).contains d.1) = true := by
    obtain ⟨inside, waits⟩ := List.mem_filter.mp mem
    rw [waits, List.contains_iff_mem.mpr inside]
    rfl
  have counted := @List.count_filter _ _ _ (fun key => s₁.defers key &&
    (textKeys f.number (Tree.ofTokens tokens)).contains key) d.1 (placeholders f.number (writeTree final)) chosen
  rw [← counted, written]
  exact List.count_eq_one_of_mem nodup mem

theorem contentFound {tree : List Node} {d : String × Deferred} (reached : Reached f s)
    (filling : out (filled template values line) f s = (.ok markup, s₁))
    (hd : d ∈ contentsIn f.number (layout template values line f s) tree) :
    s₁.deferred.find? (·.1 == d.1) = some d := by
  have mem := (List.mem_filter.mp hd).1
  have numbered := (@layoutInOrder f s template values line).contents
  -- Contents that wait already have older placeholders.
  have older : s.deferred.find? (·.1 == d.1) = none := by
    refine List.find?_eq_none.mpr fun old ho same => ?_
    obtain ⟨n, less, is⟩ := (soundReached reached).keyed.deferred old ho
    obtain ⟨m, range, is'⟩ := List.mem_map.mp (numbered.subset (List.mem_map_of_mem mem))
    rw [textInjective (is'.trans ((beq_iff_eq.mp same).symm.trans is))] at range
    exact absurd (List.mem_range'_1.mp range).1 (Nat.not_le_of_lt less)
  rw [(filledSpelt filling).deferred, List.find?_append, older, Option.none_or]
  exact foundOnce (givenNodup.sublist numbered) mem

theorem seatFree {b : Binding} {e : Element} (reached : Reached f s)
    (course : Course template values line f s markup s₁ tokens final s₂)
    (plain : Unmistaken f s₁ (layout template values line f s).pieces markup tokens final) (seat : Seat f s₁ b e) :
    FreeOf f.number (contentsIn f.number (layout template values line f s) (Tree.ofTokens tokens)) e := by
  intro d hd waits
  have off := seat.clear d.1 waits
  have mem := contentsWait (soundReached reached).keyed course plain ▸ List.mem_map_of_mem hd
  rw [(List.mem_filter.mp mem).2] at off
  cases off

/-- A live call that succeeds keeps the contents whose placeholders the parser puts into texts, as long as no text is
mistaken for a placeholder. -/
theorem contentsKept (reached : Reached f s) (live : (out (filled template values line) f s).2.live ≠ [])
    (done : out (call nested template values line) f s = (.ok v, s')) :
    ∃ markup s₁ tokens final s₂ output body new, Course template values line f s markup s₁ tokens final s₂ ∧
      v = .rendered output body (some f.number) ∧ s'.records.bindings = s.records.bindings ++ new ∧
      (Unmistaken f s₁ (layout template values line f s).pieces markup tokens final →
        Kept nested f (contentsIn f.number (layout template values line f s) (Tree.ofTokens tokens)) new
          (Tree.ofTokens tokens) final body) := by
  cases callSucceeds done with
  | still filling none =>
    rw [filling] at live
    exact absurd none live
  | @settled markup s₁ tree final s₂ filling settling left ended records =>
    obtain ⟨tokens, read, same⟩ := bindOk.mp settling.read
    obtain rfl : Tree.ofTokens tokens = tree := pureOk.mp same
    have course : Course template values line f s markup s₁ tokens final s₂ := ⟨filling, read, settling.settled⟩
    obtain ⟨ready, _, _, fills⟩ := readyFilled reached filling
    obtain ⟨gained, change⟩ := treePlaced ready settling.settled
    obtain ⟨output, body, rfl, splicing⟩ := finishedBody ended
    refine ⟨markup, s₁, tokens, final, s₂, output, body, gained.bindings, course, rfl, ?_, fun plain => ?_⟩
    · rw [records, change.same, ← fillsRecords fills]
      rfl
    obtain ⟨once, ordered⟩ := contentsOnce reached course plain
    refine ⟨once, ordered, fun b hb text => ⟨?_, fun unnamed e he => ?_⟩, ?_⟩
    · obtain ⟨new, appended, seats⟩ := boundSeat ready plain.shown settling.settled
      obtain rfl : gained.bindings = new := by
        rw [change.same] at appended
        exact List.append_cancel_left appended
      obtain ⟨e, he, seat⟩ := seats b hb text
      exact ⟨e, he, seat.own, seat.alone, seatFree reached course plain seat⟩
    · obtain ⟨new, appended, seats⟩ := boundOutside ready unnamed plain.shown settling.settled
      obtain rfl : gained.bindings = new := by
        rw [change.same] at appended
        exact List.append_cancel_left appended
      exact seatFree reached course plain (seats b hb text e he)
    · obtain ⟨texts, taken, rfl⟩ := spliceParts splicing
      refine ⟨texts, rfl, piecesShown (fun d hd _ => ⟨?_, once d hd⟩) taken⟩
      have found := contentFound reached filling hd
      show s₂.deferred.find? (·.1 == d.1) = some d
      rw [change.same]
      exact found

end Course

section Mixed

instance (f chunk literal) : Decidable (Unforged f chunk literal) := by unfold Unforged; infer_instance

instance (f s tree) : Decidable (UnforgedIn f s tree) := by unfold UnforgedIn; infer_instance

instance (f s₁ ps markup tokens final) : Decidable (Unmistaken f s₁ ps markup tokens final) :=
  decidable_of_iff (standing f.number markup.toList = keysOf ps ∧ Seamless f.number {} tokens ∧
      UnforgedIn f s₁ (Tree.ofTokens tokens) ∧
      (∀ key ∈ textKeys f.number (Tree.ofTokens tokens), key ∉ tagKeys f.number final) ∧
      placeholders f.number (writeTree final) = (cells false final).flatMap fun c => placeholders f.number c.written)
    ⟨fun ⟨written, joined, shown, tags, rejoined⟩ => ⟨written, joined, shown, tags, rejoined⟩,
      fun h => ⟨h.written, h.joined, h.shown, h.tags, h.rejoined⟩⟩

def course? (template : String) (values : List Value) (line : Int) (f : Factory) (s : State) :
    Option (String × State × List Token × List Node) :=
  match out (filled template values line) f s with
  | (.error _, _) => none
  | (.ok markup, s₁) =>
    match readTokens markup.toList with
    | .error _ => none
    | .ok tokens =>
      match out (settleTree (Tree.ofTokens tokens)) f s₁ with
      | (.error _, _) => none
      | (.ok final, _) => some (markup, s₁, tokens, final)

theorem courseTaken {template markup : String} {values : List Value} {line : Int} {f : Factory} {s s₁ s₂ : State}
    {tokens : List Token} {final : List Node} (course : Course template values line f s markup s₁ tokens final s₂) :
    course? template values line f s = some (markup, s₁, tokens, final) := by
  rw [course?, course.filling]
  simp only [course.read, course.settled]

def mixedTemplate : String := "<p>\x7b\x7d and \x7b\x7d</p>"

def mixed : Component :=
  .mk "Mixed" [("n", .whole 1)]
    (some ("def render(self, ctx):\n    ctx.html('<b onclick=\x7b\x7d></b>', lambda: setattr(self, 'n', 2))\n" ++
      "    return ctx.html('" ++ mixedTemplate ++ "', self.n, ctx.marks)\n"))
    1 "mixed.py" [] none

def mixedSlots : List Slot :=
  [{ signals := ["n"], writes := ["n"], isFunction := true, isEvent := true, eventName := some "onclick",
     source := "() => this.n = 2", bodySource := some "this.n = 2", expression := "lambda: setattr(self, 'n', 2)",
     template := "<b onclick=\x7b\x7d></b>", line := 2 },
   { signals := ["n"], source := "this.n", expression := "self.n", template := mixedTemplate, line := 3 },
   { source := "ctx.marks", expression := "ctx.marks", template := mixedTemplate, slot := 1, line := 3 }]

abbrev mixedFactory : Factory := factoryOf mixed mixedSlots

abbrev mixedState : State := startOf mixed mixedSlots

def mixedValues : List Value := [.whole 1, .list [.markup "<b>&</b>", .text "&", .safe "<i>"]]

def mixedCall : Rendering Value := call (fun _ => return "") mixedTemplate mixedValues 3

theorem sequenceKept :
    ∃ s' output kept new tree final, Reached mixedFactory mixedState ∧
      out mixedCall mixedFactory mixedState = (.ok (.rendered output
        "<p><span data-zid=\"_0\">1 and </span><b>&</b>&amp;<i></p>" (some mixedFactory.number)), s') ∧
      s'.records.bindings = new ∧ new.length = 1 ∧
      kept.map (·.1) = ["__zinc_00000000_1__", "__zinc_00000000_2__"] ∧
      Kept (fun _ => return "") mixedFactory kept new tree final
        "<p><span data-zid=\"_0\">1 and </span><b>&</b>&amp;<i></p>" := by
  have started : Reached mixedFactory mixedState :=
    startedOf (slotsListed rfl
      (listedAppend (listedAppend (listedAppend (listedText rfl) rfl) rfl) rfl) rfl (by decide +kernel))
  -- The call is evaluated once for all that is said of it.
  obtain ⟨live, shown, one, plain⟩ :
      (out (filled mixedTemplate mixedValues 3) mixedFactory mixedState).2.live.isEmpty = false ∧
      bodyOf? (out mixedCall mixedFactory mixedState).1 =
        some "<p><span data-zid=\"_0\">1 and </span><b>&</b>&amp;<i></p>" ∧
      (out mixedCall mixedFactory mixedState).2.records.bindings.length = 1 ∧
      (course? mixedTemplate mixedValues 3 mixedFactory mixedState).all (fun c =>
        decide (Unmistaken mixedFactory c.2.1 (layout mixedTemplate mixedValues 3 mixedFactory mixedState).pieces c.1
          c.2.2.1 c.2.2.2) &&
        (contentsIn mixedFactory.number (layout mixedTemplate mixedValues 3 mixedFactory mixedState)
          (Tree.ofTokens c.2.2.1)).map (·.1) == ["__zinc_00000000_1__", "__zinc_00000000_2__"]) = true := by
    decide +kernel
  obtain ⟨output, called⟩ := bodyReturned shown
  obtain ⟨s', ended⟩ : ∃ s', (out mixedCall mixedFactory mixedState).2 = s' := ⟨_, rfl⟩
  rw [ended] at one
  have done : out mixedCall mixedFactory mixedState = (.ok (.rendered output _ (some 0)), s') := Prod.ext called ended
  obtain ⟨markup, s₁, tokens, final, s₂, _, _, new, course, same, appended, keeps⟩ :=
    contentsKept started (List.isEmpty_eq_false_iff.mp live) done
  cases same
  rw [courseTaken course, Option.all_some, Bool.and_eq_true, decide_eq_true_eq, beq_iff_eq] at plain
  have none : mixedState.records.bindings = [] := rfl
  rw [none, List.nil_append] at appended
  exact ⟨s', output, _, new, _, final, started, done, appended, appended ▸ one, plain.2,
    keeps plain.1⟩

def forgingValues : List Value := [.text "__zinc_00000000_1__", .markup "<b>x</b>"]

/-- If the text of a live slot reads as the placeholder of a content, this is spliced in where the text is shown,
and the text comes out in its place. -/
theorem placeholderTwice :
    ∃ f s s' output b e markup s₁ tokens final, Reached f s ∧
      out (call (fun _ => return "") forgingTemplate forgingValues 4) f s = (.ok (.rendered output
        "<p data-zid=\"_0\"><b>x</b></p><i>__zinc_00000000_1__</i>" (some f.number)), s') ∧
      s'.records.bindings = [b] ∧ b.attribute? = none ∧
      course? forgingTemplate forgingValues 4 f s = some (markup, s₁, tokens, final) ∧
      (contentsIn f.number (layout forgingTemplate forgingValues 4 f s) (Tree.ofTokens tokens)).map (·.1) =
        ["__zinc_00000000_1__"] ∧
      (placeholders f.number (writeTree final)).count "__zinc_00000000_1__" = 2 ∧
      named b.id final = [e] ∧ textKeys f.number e.2 = ["__zinc_00000000_1__"] := by
  obtain ⟨shown, bound, taken⟩ :
      bodyOf? (out (call (fun _ => return "") forgingTemplate forgingValues 4) showingFactory showingState).1 =
        some "<p data-zid=\"_0\"><b>x</b></p><i>__zinc_00000000_1__</i>" ∧
      (out (call (fun _ => return "") forgingTemplate forgingValues 4) showingFactory showingState).2.records.bindings =
        [{ id := "_0", signals := ["text"], source := "this.text" }] ∧
      (course? forgingTemplate forgingValues 4 showingFactory showingState).any (fun c =>
        (contentsIn 0 (layout forgingTemplate forgingValues 4 showingFactory showingState)
          (Tree.ofTokens c.2.2.1)).map (·.1) == ["__zinc_00000000_1__"] &&
        (placeholders 0 (writeTree c.2.2.2)).count "__zinc_00000000_1__" == 2 &&
        (named "_0" c.2.2.2).map (textKeys 0 ·.2) == [["__zinc_00000000_1__"]]) = true := by decide +kernel
  obtain ⟨s', ended⟩ : ∃ s', (out (call (fun _ => return "") forgingTemplate forgingValues 4) showingFactory
    showingState).2 = s' := ⟨_, rfl⟩
  rw [ended] at bound
  obtain ⟨output, result⟩ := bodyReturned shown
  obtain ⟨⟨markup, s₁, tokens, final⟩, course, holds⟩ := (Option.any_eq_true _ _).mp taken
  simp only [Bool.and_eq_true, beq_iff_eq] at holds
  obtain ⟨⟨waits, twice⟩, inside⟩ := holds
  obtain ⟨e, one, keys⟩ := List.map_eq_singleton_iff.mp inside
  exact ⟨showingFactory, showingState, s', output, _, e, markup, s₁, tokens, final, showingStarted,
    Prod.ext result ended, bound, rfl, course, waits, twice, one, keys⟩

end Mixed

end LiveMarkup.Render
