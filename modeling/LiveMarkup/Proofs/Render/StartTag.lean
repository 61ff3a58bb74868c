import LiveMarkup.Proofs.Markup.Reference
import LiveMarkup.Proofs.Render.Direct
import LiveMarkup.Proofs.Render.Index
import LiveMarkup.Proofs.Render.Quoting
/-! Start tags whose attributes get their values from slots. The slots are filled one after the other, behind markup
that grows; each finds the front of its own attribute there, whatever the values before it were. -/
namespace LiveMarkup.Template.Opening

def bare (o : Opening) : List Char := o.blank :: (o.name ++ (o.lead ++ '=' :: o.trail))

def delimiter (o : Opening) : Char := o.quote?.getD '"'

theorem charsBare {o : Opening} : o.chars = o.bare ++ o.quote?.toList := by simp [chars, bare]

end LiveMarkup.Template.Opening

namespace LiveMarkup.Render
open Analysis Client Template Text Markup

variable {f : Factory} {s : State} {v : Value} {o : Opening} {before head tail shown : List Char}

structure SlotAttribute where
  gap : List Char
  front : Opening
  valid : front.Valid isBlank
  angleless : ∀ c ∈ gap, c ≠ '<' ∧ c ≠ '>'

/-- What a value makes of an attribute: nothing is left of it, or it has a value in quotes that holds no quote of the
same kind and no angle, and that means the text of the value. -/
inductive Attributed (o : Opening) (v : Value) : List Char → Prop where
  | removed (falsy : v = .none ∨ v = .truth false) : Attributed o v []
  | valued {text : List Char} (kept : v ≠ .none ∧ v ≠ .truth false) (quote : o.delimiter ∉ text)
      (angles : '<' ∉ text ∧ '>' ∉ text) (empty : v = .truth true → text = [])
      (decoded : v ≠ .truth true → Entity.decode text = v.plain.toList) :
      Attributed o v (o.bare ++ o.delimiter :: (text ++ [o.delimiter]))

section Places

theorem inTagBehind {text : List Char} (angleless : ∀ c ∈ text, c ≠ '<' ∧ c ≠ '>') :
    endsInTag (before ++ text) = endsInTag before := by
  have none : text.reverse.find? (fun c => c == '<' || c == '>') = .none :=
    List.find?_eq_none.mpr fun c mem => by simp [angleless c (List.mem_reverse.mp mem)]
  rw [endsInTag, List.reverse_append, List.find?_append, none, Option.none_or, endsInTag]

theorem blankNoAngle {c : Char} (blank : isBlank c) : c ≠ '<' ∧ c ≠ '>' := by
  refine ⟨?_, ?_⟩ <;> rintro rfl <;> exact absurd blank (by decide)

theorem bareAngleless (valid : o.Valid isBlank) : ∀ c ∈ o.bare, c ≠ '<' ∧ c ≠ '>' := by
  intro c mem
  simp only [Opening.bare, List.mem_cons, List.mem_append] at mem
  rcases mem with rfl | mem | mem | rfl | mem
  · exact blankNoAngle valid.blank
  · exact ⟨(plainChar (valid.plain c mem)).2.2.1, (plainChar (valid.plain c mem)).2.2.2.1⟩
  · exact blankNoAngle (valid.lead c mem)
  · decide
  · exact blankNoAngle (valid.trail c mem)

theorem quoteNoAngle {q : Char} (quote : isQuote q) : q ≠ '<' ∧ q ≠ '>' := by
  refine ⟨?_, ?_⟩ <;> rintro rfl <;> cases quote

theorem delimiterQuote (valid : o.Valid isBlank) : isQuote o.delimiter := by
  unfold Opening.delimiter
  cases given : o.quote? with
  | none => rfl
  | some q => exact valid.quote q given

theorem attributedInTag (valid : o.Valid isBlank) (h : Attributed o v shown) :
    endsInTag (before ++ shown) = endsInTag before := by
  refine inTagBehind fun c mem => ?_
  cases h with
  | removed falsy => exact absurd mem List.not_mem_nil
  | @valued text _ _ angles _ _ =>
    simp only [List.mem_append, List.mem_cons, List.not_mem_nil, or_false] at mem
    rcases mem with mem | rfl | mem | rfl
    · exact bareAngleless valid c mem
    · exact quoteNoAngle (delimiterQuote valid)
    · refine ⟨?_, ?_⟩ <;> rintro rfl
      · exact angles.1 mem
      · exact angles.2 mem
    · exact quoteNoAngle (delimiterQuote valid)

theorem placeOf (valid : o.Valid isBlank) (inTag : endsInTag before) :
    attributePlace? (before ++ o.chars) = some ⟨before, o.quote?⟩ := by
  have quoted : ∀ c ∈ o.chars, c ≠ '<' ∧ c ≠ '>' := by
    intro c mem
    rcases List.mem_append.mp (Opening.charsBare ▸ mem) with mem | mem
    · exact bareAngleless valid c mem
    · exact quoteNoAngle (valid.quote c (Option.mem_toList.mp mem))
  rw [attributePlace?, inTagBehind quoted, if_pos inTag, formOpen valid]

end Places

section Values

variable {quote? : Option Char} {c : Char}

def attributeChar (quote? : Option Char) (c : Char) : List Char :=
  if quote? = some '\'' then (escapeChar c).flatMap escapeApostrophe else escapeChar c

theorem attributeCharWritten : Written (attributeChar quote?) := by
  intro c
  unfold attributeChar
  split
  · by_cases same : c = '\''
    · subst same
      exact .inr ⟨['#', '3', '9'], by simp [references], rfl⟩
    · rcases escapeWritten c with ⟨other, is⟩ | ⟨name, known, is⟩
      · exact .inl ⟨other, by simp [is, escapeApostrophe, same]⟩
      · refine .inr ⟨name, known, ?_⟩
        simp only [references, List.mem_cons, Prod.mk.injEq, List.not_mem_nil, or_false] at known
        rcases known with ⟨rfl, rfl⟩ | ⟨rfl, rfl⟩ | ⟨rfl, rfl⟩ | ⟨rfl, rfl⟩ | ⟨rfl, rfl⟩ <;>
          first | exact absurd rfl same | decide
  · exact escapeWritten c

theorem attributeCharClear : '<' ∉ attributeChar quote? c ∧ '>' ∉ attributeChar quote? c := by
  unfold attributeChar
  split
  · unfold escapeApostrophe
    have clear := @escapeFree c
    grind
  · exact escapeFree.2

theorem attributeCharQuote (quote : isQuote (quote?.getD '"')) : quote?.getD '"' ∉ attributeChar quote? c := by
  unfold attributeChar
  split
  · next apostrophe =>
    rw [apostrophe]
    exact apostropheEscaped
  · next other =>
    have double : quote?.getD '"' = '"' := by
      cases quote? with
      | none => rfl
      | some q =>
        simp only [Option.getD_some, isQuote, Bool.or_eq_true, beq_iff_eq] at quote ⊢
        exact quote.resolve_right fun same => other (congrArg some same)
    rw [double]
    exact escapeFree.1

theorem mappedClear {text : List Char} {e : Char → List Char} (clear : ∀ d, c ∉ e d) : c ∉ text.flatMap e := by
  intro mem
  obtain ⟨d, -, inside⟩ := List.mem_flatMap.mp mem
  exact clear d inside

theorem escapedMapped (plain : v.isSafe = false) (other : v ≠ .none) (given : ∀ b, v ≠ .truth b) :
    v.escaped.toList = v.plain.toList.flatMap escapeChar := by
  have none : v.safeHtml? = Option.none := by
    simpa [Value.isSafe] using plain
  have shown : v.shown = v.plain := by
    unfold Value.shown
    split
    · exact absurd rfl other
    · exact absurd rfl (given _)
    · rfl
  rw [Value.escaped, none, shown]
  simp [escape]

theorem attributeQuoted (plain : v.isSafe = false) (other : v ≠ .none) (given : ∀ b, v ≠ .truth b) :
    o.chars ++ (attributeText v o.quote?).toList ++ o.quote?.toList =
      o.bare ++ o.delimiter :: (v.plain.toList.flatMap (attributeChar o.quote?) ++ [o.delimiter]) := by
  have text : (if (!v.isSafe && o.quote? == some '\'') = true then
      String.ofList (v.escaped.toList.flatMap escapeApostrophe) else v.escaped).toList =
        v.plain.toList.flatMap (attributeChar o.quote?) := by
    have mapped := escapedMapped plain other given
    by_cases apostrophe : o.quote? = some '\''
    · have each : attributeChar (some '\'') = fun c => (escapeChar c).flatMap escapeApostrophe :=
        funext fun c => if_pos rfl
      simp [plain, apostrophe, mapped, each, List.flatMap_assoc]
    · have each : attributeChar o.quote? = escapeChar := funext fun c => if_neg apostrophe
      simp [apostrophe, mapped, each]
  rw [← text, Opening.charsBare, Opening.delimiter]
  unfold attributeText
  cases v with
  | truth b => exact absurd rfl (given b)
  | _ => cases o.quote? <;> simp

theorem attributeValued (valid : o.Valid isBlank) (plain : v.isSafe = false) (kept : removesAttribute v = false) :
    Attributed o v (o.chars ++ (attributeText v o.quote?).toList ++ o.quote?.toList) := by
  have other : v ≠ .none ∧ v ≠ .truth false := by
    refine ⟨?_, ?_⟩ <;> rintro rfl <;> cases kept
  by_cases true : v = .truth true
  · have quoted : o.chars ++ (attributeText v o.quote?).toList ++ o.quote?.toList =
        o.bare ++ o.delimiter :: ([] ++ [o.delimiter]) := by
      rw [true, Opening.charsBare, Opening.delimiter]
      cases o.quote? <;> simp [attributeText]
    rw [quoted]
    exact .valued other List.not_mem_nil ⟨List.not_mem_nil, List.not_mem_nil⟩ (fun _ => rfl) fun is => absurd true is
  · have given : ∀ b, v ≠ .truth b := by
      rintro (_ | _) is
      · exact other.2 is
      · exact true is
    rw [attributeQuoted plain other.1 given]
    refine .valued other (mappedClear fun d => attributeCharQuote (delimiterQuote valid))
      ⟨mappedClear fun d => attributeCharClear.1, mappedClear fun d => attributeCharClear.2⟩ (fun is => absurd is true) fun _ => ?_
    exact decodeCoded (codedMap attributeCharWritten _) (Nat.le_refl _)

theorem slotFilled (valid : o.Valid isBlank) (inTag : endsInTag before) (plain : v.isSafe = false) :
    ∃ shown, Attributed o v shown ∧ ∀ following : List Char,
      fillPlain f (String.ofList (before ++ o.chars)) v (String.ofList (o.quote?.toList ++ following)) =
        pure (String.ofList (before ++ shown ++ following)) := by
  have place := placeOf valid inTag
  cases removes : removesAttribute v with
  | false =>
    refine ⟨_, attributeValued valid plain removes, fun following => ?_⟩
    simp [fillPlain, place, removes, String.ofList_append, String.append_assoc]
  | true =>
    have falsy : v = .none ∨ v = .truth false := by
      unfold removesAttribute at removes
      split at removes
      · exact .inl rfl
      · exact .inr rfl
      · cases removes
    refine ⟨[], .removed falsy, fun following => ?_⟩
    cases quote : o.quote? <;> simp [fillPlain, place, removes, quote, String.ofList_append]

end Values

section Tags

variable {attributes : List SlotAttribute} {values : List Value}

def nextText (tail : List Char) : List SlotAttribute → List Char
  | [] => tail
  | a :: _ => a.gap ++ a.front.chars

def laterTexts (tail : List Char) : List SlotAttribute → List (List Char)
  | [] => []
  | a :: rest => (a.front.quote?.toList ++ nextText tail rest) :: laterTexts tail rest

def tagTexts (head tail : List Char) (attributes : List SlotAttribute) : List (List Char) :=
  (head ++ nextText tail attributes) :: laterTexts tail attributes

def tagChars (attributes : List SlotAttribute) (shown : List (List Char)) : List Char :=
  (attributes.zip shown).flatMap fun p => p.1.gap ++ p.2

theorem laterLength : (laterTexts tail attributes).length = attributes.length := by
  induction attributes with
  | nil => rfl
  | cons a rest ih => rw [laterTexts, List.length_cons, ih, List.length_cons]

theorem fillTag {slots : List (Option Analysis.Slot)} (inTag : endsInTag before)
    (count : values.length = attributes.length) (same : slots.length = values.length)
    (plain : ∀ v ∈ values, v.isSafe = false)
    (inert : ∀ p ∈ values.zip slots, p.2.all fun slot => !s.isLive slot || isContent p.1 slot) :
    ∃ shown, List.Forall₂ (fun p text => Attributed p.1.front p.2 text) (attributes.zip values) shown ∧
      out (fill f (String.ofList (before ++ nextText tail attributes)) values slots
        ((laterTexts tail attributes).map String.ofList)) f s =
          (.ok (String.ofList (before ++ tagChars attributes shown ++ tail)), s) := by
  induction attributes generalizing values slots before with
  | nil =>
    obtain rfl := List.length_eq_zero_iff.mp count
    refine ⟨[], .nil, ?_⟩
    unfold fill
    simp only [nextText, tagChars, List.zip_nil_left, List.flatMap_nil, List.append_nil]
    rfl
  | cons a rest ih =>
    obtain ⟨v, values, rfl⟩ := List.exists_cons_of_length_eq_add_one count
    obtain ⟨slot?, slots, rfl⟩ := List.exists_cons_of_length_eq_add_one same
    have front : endsInTag (before ++ a.gap) := by rwa [inTagBehind a.angleless]
    obtain ⟨text, attributed, filled⟩ := @slotFilled f v _ _ a.valid front (plain v List.mem_cons_self)
    have behind : endsInTag (before ++ a.gap ++ text) := by rwa [attributedInTag a.valid attributed]
    obtain ⟨shown, each, done⟩ := ih behind (Nat.succ.inj count) (Nat.succ.inj same)
      (fun v mem => plain v (List.mem_cons_of_mem _ mem)) fun p mem => inert p (List.mem_cons_of_mem _ mem)
    refine ⟨text :: shown, .cons attributed each, ?_⟩
    rw [laterTexts, List.map_cons, fillInert (inert (v, slot?) List.mem_cons_self), nextText, ← List.append_assoc, filled,
      pure_bind, done]
    simp [tagChars, List.append_assoc]

theorem splicedSame {nested : Nested} {text : String} (undeferred : Undeferred f s text) :
    out (splice nested text) f s = (.ok text, s) := by
  have pieces {ps : List Piece} (waiting : ∀ key, .placeholder key ∈ ps → s.deferred.any (·.1 == key) = false) :
      out (ps.mapM (spliced nested)) f s = (.ok (ps.map (·.text)), s) := by
    induction ps with
    | nil => rfl
    | cons p rest ih =>
      have first : out (spliced nested p) f s = (.ok p.text, s) := by
        cases p with
        | plain text => rfl
        | placeholder key =>
          have none : s.deferred.find? (·.1 == key) = none :=
            List.find?_eq_none.mpr fun d mem => by
              simpa using List.any_eq_false.mp (waiting key List.mem_cons_self) d mem
          rw [spliced, outBind, takeDeferred?, outBind, outGet]
          simp only [none]
          rfl
      rw [List.mapM_cons, outBind, first]
      simp only
      rw [outBind, ih fun key mem => waiting key (List.mem_cons_of_mem _ mem)]
      rfl
  have known : ∀ key, .placeholder key ∈ Piece.split f.number text → s.deferred.any (·.1 == key) = false :=
    fun key mem => undeferred key (List.mem_filterMap.mpr ⟨_, mem, rfl⟩)
  rw [splice, outBind, outRead]
  simp only
  rw [outBind, pieces known]
  simp only [joinSplit]
  rfl

/-- A start tag whose attributes are slots, filled with values that the client has no part in: each attribute becomes what
its value makes of it, and all other text stays as it is. If none of that text reads as a placeholder of the factory whose
content is waiting, this is the body that the call gives back, and the factory is left as it was. -/
theorem attributesShown {template : String} {line : Int} (nested : Nested)
    (split : Template.split template = .ok ((tagTexts head tail attributes).map String.ofList)) (inTag : endsInTag head)
    (count : values.length = attributes.length) (plain : ∀ v ∈ values, v.isSafe = false)
    (inert : Inert f s template values line) (still : s.live = []) :
    ∃ shown, List.Forall₂ (fun p text => Attributed p.1.front p.2 text) (attributes.zip values) shown ∧
      out (filled template values line) f s = (.ok (String.ofList (head ++ tagChars attributes shown ++ tail)), s) ∧
      (Undeferred f s (String.ofList (head ++ tagChars attributes shown ++ tail)) →
        out (call nested template values line) f s =
          (scripted f s.records (String.ofList (head ++ tagChars attributes shown ++ tail)), s)) := by
  obtain ⟨shown, each, done⟩ := @fillTag f s _ tail attributes values _ inTag count knownLength plain inert
  have length : ((tagTexts head tail attributes).map String.ofList).length = values.length + 1 := by
    rw [List.length_map, tagTexts, List.length_cons, laterLength, count]
  have filling := (@outFilled f s template values line _ split length).trans done
  refine ⟨shown, each, filling, fun undeferred => ?_⟩
  have empty : s.live.isEmpty = true := by rw [still]; rfl
  rw [call, outBind, filling]
  simp only
  rw [outBind, outGet]
  simp only [empty, if_true]
  rw [outBind, show ∀ markup : String, out (pure markup) f s = (.ok markup, s) from fun _ => rfl]
  simp only
  exact outFinished (splicedSame undeferred)

def slotAttribute (name : String) (quote? : Option Char) (named : name.toList ≠ [])
    (plain : ∀ c ∈ name.toList, isAttributeNameChar c) (quote : ∀ q ∈ quote?, isQuote q) : SlotAttribute :=
  ⟨[], ⟨' ', name.toList, [], [], quote?⟩, ⟨rfl, by simp, by simp, named, plain, quote⟩, by simp⟩

def styledTemplate : String := "<p class=\x7b\x7d title='\x7b\x7d' lang=\"\x7b\x7d\">x</p>"

def styledAttributes : List SlotAttribute :=
  [slotAttribute "class" none (by simp) (List.all_eq_true.mp rfl) (by simp [isQuote]),
    slotAttribute "title" (some '\'') (by simp) (List.all_eq_true.mp rfl) (by simp [isQuote]),
    slotAttribute "lang" (some '"') (by simp) (List.all_eq_true.mp rfl) (by simp [isQuote])]

def styledValues : List Value := [.truth true, .text "it's <b>", .none]

theorem styledShown : ∃ shown,
    List.Forall₂ (fun p text => Attributed p.1.front p.2 text) (styledAttributes.zip styledValues) shown ∧
      out (call (fun _ => pure "") styledTemplate styledValues 2) rowFactory rowState =
        (scripted rowFactory {} (String.ofList ("<p".toList ++ tagChars styledAttributes shown ++ ">x</p>".toList)), rowState) ∧
      rowOutput styledTemplate styledValues = some "<p class=\"\" title='it&#39;s &lt;b&gt;'>x</p>" := by
  obtain ⟨shown, each, _, called⟩ := @attributesShown rowFactory rowState "<p".toList ">x</p>".toList styledAttributes
    styledValues styledTemplate 2 (fun _ => pure "") (by decide +kernel) (by decide) rfl (by decide) (by decide +kernel) rfl
  exact ⟨shown, each, called fun _ _ => rfl, by decide +kernel⟩

def droppingTemplate : String := "<p \x7b\x7d=\x7b\x7d>x</p>"

def dropping : Component :=
  .mk "Tag" [] (some ("def render(self, ctx, a, b):\n    return ctx.html('" ++ droppingTemplate ++ "', a, b)\n")) 1 "tag.py" [] none

def droppingSlots : List Analysis.Slot :=
  [{ source := "a", expression := "a", template := droppingTemplate, line := 2 },
   { source := "b", expression := "b", template := droppingTemplate, slot := 1, line := 2 }]

abbrev droppingFactory : Factory := factoryOf dropping droppingSlots

abbrev leftoverState : State :=
  (out (call (fun _ => pure "") droppingTemplate [.markup "*", .none] 2) droppingFactory (startOf dropping droppingSlots)).2

def titleTemplate : String := "<p title=\"\x7b\x7d\">x</p>"

def titleAttribute : SlotAttribute := slotAttribute "title" (some '"') (by simp) (List.all_eq_true.mp rfl) (by simp [isQuote])

def tokenText : Value := .text "__zinc_00000000_0__"

/-- A text that reads as a placeholder whose content is waiting does not come out as itself. -/
theorem tokenSpliced :
    Reached droppingFactory leftoverState ∧ leftoverState.live.isEmpty ∧ leftoverState.records.isEmpty ∧
      Template.split titleTemplate = .ok ((tagTexts "<p".toList ">x</p>".toList [titleAttribute]).map String.ofList) ∧
      tokenText.isSafe = false ∧ Inert droppingFactory leftoverState titleTemplate [tokenText] 3 ∧
      ¬∃ shown, Attributed titleAttribute.front tokenText shown ∧
        (out (call (fun _ => pure "") titleTemplate [tokenText] 3) droppingFactory leftoverState).1.toOption.map Value.plain =
          some (String.ofList ("<p".toList ++ shown ++ ">x</p>".toList)) := by
  have started : Reached droppingFactory (startOf dropping droppingSlots) :=
    startedOf (slotsListed rfl (listedAppend (listedAppend (listedText rfl) rfl) rfl) rfl (by decide +kernel))
  refine ⟨.call _ _ _ _ started, by decide +kernel, by decide +kernel, by decide +kernel, rfl, by decide +kernel, ?_⟩
  rintro ⟨shown, attributed, output⟩
  have given : (out (call (fun _ => pure "") titleTemplate [tokenText] 3) droppingFactory
      leftoverState).1.toOption.map Value.plain = some (String.ofList "<p title=\"*\">x</p>".toList) := by decide +kernel
  have chars : "<p".toList ++ " title=\"*\"".toList ++ ">x</p>".toList = "<p".toList ++ shown ++ ">x</p>".toList :=
    String.ofList_injective (Option.some.inj (given.symm.trans output))
  have star : shown = " title=\"*\"".toList := (List.append_cancel_left (List.append_cancel_right chars)).symm
  cases attributed with
  | removed falsy => cases star
  | @valued text _ _ _ _ decoded =>
    have quoted : " title=\"".toList ++ (text ++ ['"']) = " title=\"".toList ++ (['*'] ++ ['"']) := star
    have read : text = ['*'] := List.append_cancel_right (List.append_cancel_left quoted)
    have same := decoded (by simp [tokenText])
    rw [read] at same
    exact absurd same (by decide)

end Tags

end LiveMarkup.Render
