import LiveMarkup.Proofs.Outcome
import LiveMarkup.Template.Named
/-! Templates by the static texts that they are written from: braces are doubled, and slots stand between the
texts. Reading such a template gives the texts back, and nothing else is a template. -/
namespace LiveMarkup.Template

def doubled (s : List Char) : List Char :=
  s.flatMap fun c => if c = '\x7b' ∨ c = '\x7d' then [c, c] else [c]

inductive SlotForm where
  | bare
  | format
  | conversion
  | both
  deriving DecidableEq, Repr

namespace SlotForm

def body : SlotForm → List Char
  | bare => ['\x7d']
  | format => [':', '\x7d']
  | conversion => ['!', '\x00', '\x7d']
  | both => ['!', '\x00', ':', '\x7d']

def write (slot : SlotForm) : List Char := '\x7b' :: slot.body

end SlotForm

def woven (first : List Char) (more : List (SlotForm × List Char)) : List Char :=
  doubled first ++ more.flatMap fun (slot, text) => slot.write ++ doubled text

def joined (texts : List String) : String :=
  "\x7b\x7d".intercalate (texts.map fun s => String.ofList (doubled s.toList))

def Field.isBare (f : Field) : Bool := f.name.isEmpty && f.format.isEmpty && f.conversion.isNone

def texts : List Piece → Option BraceError → Except BraceError (List (List Char))
  | [], none => .ok [[]]
  | [], some e => .error e
  | .letter c :: rest, fault? => (texts rest fault?).map (consFirst c)
  | .field f :: rest, fault? =>
    if f.isBare then (texts rest fault?).map ([] :: ·) else .error (.notBare f.name)

section Writing

variable {a b text : List Char} {rest : List Char} {c : Char} {parts : List (List Char)}

theorem doubledNil : doubled [] = [] := rfl

theorem doubledBrace (brace : c = '\x7b' ∨ c = '\x7d') : doubled (c :: a) = c :: c :: doubled a := by
  rw [doubled, List.flatMap_cons, if_pos brace]
  rfl

theorem doubledOther (other : ¬(c = '\x7b' ∨ c = '\x7d')) : doubled (c :: a) = c :: doubled a := by
  rw [doubled, List.flatMap_cons, if_neg other]
  rfl

def prependFirst (text : List Char) (parts : List (List Char)) : List (List Char) := text.foldr consFirst parts

theorem prependSome {first : List Char} : prependFirst text (first :: parts) = (text ++ first) :: parts := by
  induction text with
  | nil => rfl
  | cons c text ih => exact congrArg (consFirst c) ih

theorem segmentsOther (other : ¬(c = '\x7b' ∨ c = '\x7d')) :
    segments (c :: rest) = (segments rest).map (consFirst c) := by
  obtain ⟨opening, closing⟩ := not_or.mp other
  rw [segments] <;> simp_all

theorem segmentsBrace (brace : c = '\x7b' ∨ c = '\x7d') :
    segments (c :: c :: rest) = (segments rest).map (consFirst c) := by
  obtain rfl | rfl := brace <;> rw [segments]

theorem segmentsDoubled : segments (doubled text ++ rest) = (segments rest).map (prependFirst text) := by
  have mapped {f g : List (List Char) → List (List Char)} {x : Except BraceError (List (List Char))} :
      (x.map f).map g = x.map (g ∘ f) := by cases x <;> rfl
  induction text with
  | nil => cases h : segments rest <;> rw [doubledNil, List.nil_append, h] <;> rfl
  | cons c text ih =>
    by_cases brace : c = '\x7b' ∨ c = '\x7d'
    · rw [doubledBrace brace, List.cons_append, List.cons_append, segmentsBrace brace, ih, mapped]
      rfl
    · rw [doubledOther brace, List.cons_append, segmentsOther brace, ih, mapped]
      rfl

theorem segmentsSlot {slot : SlotForm} : segments (slot.write ++ rest) = (segments rest).map ([] :: ·) := by
  cases slot <;> exact segments.eq_def _

theorem segmentsWoven {first : List Char} {more : List (SlotForm × List Char)} :
    segments (woven first more) = .ok (first :: more.map (·.2)) := by
  induction more generalizing first with
  | nil =>
    rw [woven, List.flatMap_nil, segmentsDoubled]
    exact congrArg Except.ok (prependSome.trans (by rw [List.append_nil]; rfl))
  | cons entry more ih =>
    obtain ⟨slot, text⟩ := entry
    have behind : segments (slot.write ++ woven text more) = .ok ([] :: text :: more.map (·.2)) := by
      rw [segmentsSlot, ih]
      rfl
    rw [woven, List.flatMap_cons, List.append_assoc, ← woven, segmentsDoubled, behind]
    exact congrArg Except.ok (prependSome.trans (by rw [List.append_nil]; rfl))

end Writing

section Reading

variable {s rest name format : List Char} {f : Field} {ending : Char} {parts : List (List Char)}

theorem nameKept {bracketed : Bool} {done : List Char} (h : fieldName bracketed done s = .ok (name, ending, rest)) :
    done.reverse <+: name := by
  induction s generalizing bracketed done with
  | nil => cases h
  | cons c s ih =>
    have further {bracketed : Bool} (h : fieldName bracketed (c :: done) s = .ok (name, ending, rest)) :
        done.reverse <+: name := by
      refine List.IsPrefix.trans ?_ (ih h)
      rw [List.reverse_cons]
      exact List.prefix_append ..
    unfold fieldName at h
    split at h
    · exact further h
    · split at h
      · cases h
      · split at h
        · cases h
          exact List.prefix_rfl
        · exact further h

theorem formatKept {depth : Nat} {done : List Char} (h : formatText depth done s = .ok (format, rest)) :
    done.reverse <+: format := by
  induction s generalizing depth done with
  | nil => cases h
  | cons c s ih =>
    have further {depth : Nat} (h : formatText depth (c :: done) s = .ok (format, rest)) : done.reverse <+: format := by
      refine List.IsPrefix.trans ?_ (ih h)
      rw [List.reverse_cons]
      exact List.prefix_append ..
    unfold formatText at h
    split at h
    · cases h
    · next same => cases same; exact further h
    · next same =>
      cases same
      split at h
      · cases h
        exact List.prefix_rfl
      · exact further h
    · next same => cases same; exact further h

theorem nameEmpty (h : fieldName false [] s = .ok ([], ending, rest)) :
    s = ending :: rest ∧ (ending = '\x7d' ∨ ending = ':' ∨ ending = '!') := by
  cases s with
  | nil => cases h
  | cons c s =>
    unfold fieldName at h
    split at h
    · contradiction
    · split at h
      · cases h
      · split at h
        · next ends =>
          cases h
          exact ⟨rfl, by simpa [or_assoc] using ends⟩
        · exact absurd (nameKept h).length_le (by simp)

theorem formatEmpty (h : formatText 0 [] s = .ok ([], rest)) : s = '\x7d' :: rest := by
  cases s with
  | nil => cases h
  | cons c s =>
    unfold formatText at h
    split at h
    · cases h
    · exact absurd (formatKept h).length_le (by simp)
    · next same =>
      cases same
      cases h
      rfl
    · next same =>
      cases same
      exact absurd (formatKept h).length_le (by simp)

theorem fieldBody {slot : SlotForm} : field (slot.body ++ rest) = .ok (⟨[], none, []⟩, rest) := by cases slot <;> rfl

theorem isBareEq : f.isBare = true ↔ f = ⟨[], none, []⟩ := by
  obtain ⟨name, conversion, format⟩ := f
  simp [Field.isBare, and_assoc, and_comm]

theorem noConversion {c : Char} (h : (if c == '\x00' then none else some c) = none) : c = '\x00' := by
  split at h
  · next null => exact eq_of_beq null
  · cases h

theorem bareBody (h : field s = .ok (⟨[], none, []⟩, rest)) : ∃ slot : SlotForm, s = slot.body ++ rest := by
  obtain ⟨⟨name, ending, behind⟩, named, h⟩ := bindOk.mp h
  dsimp only at h
  split at h
  · next closed =>
    obtain ⟨⟩ := pureOk.mp h
    exact ⟨.bare, by simpa [SlotForm.body, eq_of_beq closed] using (nameEmpty named).1⟩
  split at h
  · next colon =>
    obtain ⟨⟨format, after⟩, formatted, h⟩ := bindOk.mp h
    obtain ⟨⟩ := pureOk.mp h
    exact ⟨.format, by simpa [SlotForm.body, eq_of_beq colon, formatEmpty formatted] using (nameEmpty named).1⟩
  · next unclosed uncoloned =>
    cases behind with
    | nil => cases h
    | cons c behind =>
      have marked (named : fieldName false [] s = .ok ([], ending, c :: behind)) : s = '!' :: c :: behind := by
        obtain ⟨shape, rfl | rfl | rfl⟩ := nameEmpty named
        · exact absurd rfl unclosed
        · exact absurd rfl uncoloned
        · exact shape
      dsimp only at h
      split at h
      · have same := pureOk.mp h
        simp only [Prod.mk.injEq, Field.mk.injEq, and_true] at same
        obtain ⟨⟨rfl, null⟩, rfl⟩ := same
        exact ⟨.conversion, by rw [marked named, noConversion null]; rfl⟩
      · obtain ⟨⟨format, after⟩, formatted, h⟩ := bindOk.mp h
        have same := pureOk.mp h
        simp only [Prod.mk.injEq, Field.mk.injEq] at same
        obtain ⟨⟨rfl, null, rfl⟩, rfl⟩ := same
        exact ⟨.both, by rw [marked named, noConversion null, formatEmpty formatted]; rfl⟩
      · cases h
      · cases h

theorem piecesOther {c : Char} (other : ¬(c = '\x7b' ∨ c = '\x7d')) :
    pieces (c :: rest) = (.letter c :: (pieces rest).1, (pieces rest).2) := by
  rw [pieces]
  all_goals simp_all

theorem piecesError {e : BraceError} (apart : s ≠ [] ∧ s.head? ≠ some '\x7b') (failed : field s = .error e) :
    pieces ('\x7b' :: s) = ([], some e) := by
  obtain ⟨c, s, rfl⟩ := List.exists_cons_of_ne_nil apart.1
  have other : c ≠ '\x7b' := fun same => apart.2 (congrArg some same)
  rw [pieces]
  · split
    · next failed' => rw [failed] at failed'; cases failed'; rfl
    · next found => rw [failed] at found; cases found
  all_goals simp [other]

theorem piecesField (apart : s ≠ [] ∧ s.head? ≠ some '\x7b') (found : field s = .ok (f, rest)) :
    pieces ('\x7b' :: s) = (.field f :: (pieces rest).1, (pieces rest).2) := by
  obtain ⟨c, s, rfl⟩ := List.exists_cons_of_ne_nil apart.1
  have other : c ≠ '\x7b' := fun same => apart.2 (congrArg some same)
  rw [pieces]
  · split
    · next failed => rw [found] at failed; cases failed
    · next found' => rw [found] at found'; cases found'; rfl
  all_goals simp [other]

theorem piecesSlot {slot : SlotForm} :
    pieces (slot.write ++ rest) = (.field ⟨[], none, []⟩ :: (pieces rest).1, (pieces rest).2) := by
  refine piecesField ?_ fieldBody
  cases slot <;> exact ⟨nofun, by simp [SlotForm.body]⟩

theorem textsSlot {slot : SlotForm} (ih : segments rest = texts (pieces rest).1 (pieces rest).2) :
    (segments rest).map ([] :: ·) = texts (pieces (slot.write ++ rest)).1 (pieces (slot.write ++ rest)).2 := by
  rw [piecesSlot, ih]
  rfl

theorem segmentsTexts : segments s = texts (pieces s).1 (pieces s).2 := by
  fun_induction segments s with
  | case1 => rw [pieces]; rfl
  | case2 rest ih => rw [pieces, ih]; rfl
  | case3 rest ih => rw [pieces, ih]; rfl
  | case4 rest other => rw [pieces]; rfl; simpa using other
  | case5 rest ih => exact @textsSlot rest .bare ih
  | case6 rest ih => exact @textsSlot rest .format ih
  | case7 rest ih => exact @textsSlot rest .conversion ih
  | case8 rest ih => exact @textsSlot rest .both ih
  | case9 => rw [pieces]; rfl
  | case10 rest opening closing format conversion both some =>
    have apart : rest ≠ [] ∧ rest.head? ≠ .some '\x7b' := by
      refine ⟨some, fun brace => ?_⟩
      obtain ⟨rest, rfl⟩ := List.head?_eq_some_iff.mp brace
      exact opening rest rfl
    cases read : field rest with
    | error e =>
      rw [fieldError, read, piecesError apart read]
      rfl
    | ok found =>
      obtain ⟨f, behind⟩ := found
      have said : f.isBare = false := by
        refine Bool.eq_false_iff.mpr fun bare => ?_
        obtain ⟨slot, rfl⟩ := bareBody (isBareEq.mp bare ▸ read)
        cases slot
        · exact closing behind rfl
        · exact format behind rfl
        · exact conversion behind rfl
        · exact both behind rfl
      rw [fieldError, read, piecesField apart read, texts, if_neg (by simp [said])]
  | case11 c rest _ _ closing _ _ _ _ _ opening ih =>
    rw [piecesOther (not_or.mpr ⟨opening, closing⟩), ih]
    rfl

end Reading

section Woven

variable {s text first : List Char} {parts : List (List Char)} {more : List (SlotForm × List Char)} {c : Char}

theorem wovenBrace (brace : c = '\x7b' ∨ c = '\x7d') : woven (c :: first) more = c :: c :: woven first more :=
  congrArg (· ++ _) (doubledBrace brace)

theorem wovenOther (other : ¬(c = '\x7b' ∨ c = '\x7d')) : woven (c :: first) more = c :: woven first more :=
  congrArg (· ++ _) (doubledOther other)

theorem wovenSlot {slot : SlotForm} : woven [] ((slot, first) :: more) = slot.write ++ woven first more := by
  rw [woven, doubledNil, List.nil_append, List.flatMap_cons, List.append_assoc]
  rfl

def Weaves (s : List Char) (parts : List (List Char)) : Prop :=
  ∃ first more, s = woven first more ∧ parts = first :: more.map (·.2)

theorem weavesBrace (brace : c = '\x7b' ∨ c = '\x7d') (h : Weaves s parts) : Weaves (c :: c :: s) (consFirst c parts) := by
  obtain ⟨first, more, rfl, rfl⟩ := h
  exact ⟨c :: first, more, (wovenBrace brace).symm, rfl⟩

theorem weavesOther (other : ¬(c = '\x7b' ∨ c = '\x7d')) (h : Weaves s parts) : Weaves (c :: s) (consFirst c parts) := by
  obtain ⟨first, more, rfl, rfl⟩ := h
  exact ⟨c :: first, more, (wovenOther other).symm, rfl⟩

theorem weavesSlot (slot : SlotForm) (h : Weaves s parts) : Weaves (slot.write ++ s) ([] :: parts) := by
  obtain ⟨first, more, rfl, rfl⟩ := h
  exact ⟨[], (slot, first) :: more, wovenSlot.symm, rfl⟩

theorem segmentsWeave (h : segments s = .ok parts) : Weaves s parts := by
  fun_induction segments s generalizing parts with
  | case1 =>
    cases h
    exact ⟨[], [], rfl, rfl⟩
  | case2 rest ih =>
    obtain ⟨parts, read, rfl⟩ := mapOk.mp h
    exact weavesBrace (.inl rfl) (ih read)
  | case3 rest ih =>
    obtain ⟨parts, read, rfl⟩ := mapOk.mp h
    exact weavesBrace (.inr rfl) (ih read)
  | case4 => cases h
  | case5 rest ih =>
    obtain ⟨parts, read, rfl⟩ := mapOk.mp h
    exact weavesSlot .bare (ih read)
  | case6 rest ih =>
    obtain ⟨parts, read, rfl⟩ := mapOk.mp h
    exact weavesSlot .format (ih read)
  | case7 rest ih =>
    obtain ⟨parts, read, rfl⟩ := mapOk.mp h
    exact weavesSlot .conversion (ih read)
  | case8 rest ih =>
    obtain ⟨parts, read, rfl⟩ := mapOk.mp h
    exact weavesSlot .both (ih read)
  | case9 => cases h
  | case10 => cases h
  | case11 c rest _ _ closing _ _ _ _ _ opening ih =>
    obtain ⟨parts, read, rfl⟩ := mapOk.mp h
    exact weavesOther (not_or.mpr ⟨opening, closing⟩) (ih read)

theorem segmentsIff : segments s = .ok parts ↔ Weaves s parts := by
  refine ⟨segmentsWeave, ?_⟩
  rintro ⟨first, more, rfl, rfl⟩
  exact segmentsWoven

end Woven

section Joined

variable {first : List Char} {more : List (SlotForm × List Char)} {t : String} {parts : List String}

def onlyBare (more : List (SlotForm × List Char)) : List (SlotForm × List Char) := more.map fun entry => (.bare, entry.2)

theorem wovenCons {slot : SlotForm} {text : List Char} :
    woven first ((slot, text) :: more) = doubled first ++ (slot.write ++ woven text more) := by
  rw [woven, List.flatMap_cons, woven, List.append_assoc]

theorem wovenBare : woven first more = woven first (onlyBare more) ↔ ∀ entry ∈ more, entry.1 = .bare := by
  induction more generalizing first with
  | nil => exact ⟨nofun, fun _ => rfl⟩
  | cons entry more ih =>
    obtain ⟨slot, text⟩ := entry
    rw [onlyBare, List.map_cons, ← onlyBare, wovenCons, wovenCons, List.append_right_inj, List.forall_mem_cons]
    cases slot with
    | bare => rw [List.append_right_inj, ih, eq_self, true_and]
    | format | conversion | both => simp [SlotForm.write, SlotForm.body]

theorem joinedChars {first : String} {rest : List String} :
    (joined (first :: rest)).toList = woven first.toList (rest.map fun text => (.bare, text.toList)) := by
  induction rest generalizing first with
  | nil => simp [joined, woven]
  | cons text rest ih =>
    have behind : (joined (first :: text :: rest)).toList =
        doubled first.toList ++ (SlotForm.bare.write ++ (joined (text :: rest)).toList) := by
      simp [joined, String.toList_append, SlotForm.write, SlotForm.body]
    rw [behind, ih, List.map_cons, wovenCons]

/-- The template that is joined from texts splits into these texts, if there are any. -/
theorem joinedSplits (parts : List String) : split (joined parts) = .ok parts ↔ parts ≠ [] := by
  cases parts with
  | nil =>
    have empty : split (joined []) = .ok [""] := rfl
    exact ⟨fun none => by simp [empty] at none, fun some => absurd rfl some⟩
  | cons first rest =>
    refine iff_of_true ?_ (List.cons_ne_nil first rest)
    have texts : (rest.map fun text => (SlotForm.bare, text.toList)).map (·.2) = rest.map String.toList := by
      rw [List.map_map]
      rfl
    have back : (first :: rest).map (String.ofList ∘ String.toList) = first :: rest := by simp
    rw [split, joinedChars, segmentsWoven, texts, ← List.map_cons, Except.map, List.map_map, back]

/-- A template is read as any text with fields is, all of which have to be bare. It is a text that is woven from the
segments, and it is joined from them if and only if none of its slots has a format or a conversion. -/
theorem templateWoven (t : String) (parts : List String) :
    split t = (texts (pieces t.toList).1 (pieces t.toList).2).map (·.map String.ofList) ∧
      (split t = .ok parts ↔ ∃ first more, t.toList = woven first more ∧
        parts = (first :: more.map (·.2)).map String.ofList ∧
          (t = joined parts ↔ ∀ entry ∈ more, entry.1 = .bare)) := by
  refine ⟨congrArg _ segmentsTexts, ?_⟩
  constructor
  · intro accepted
    obtain ⟨chars, read, rfl⟩ := mapOk.mp accepted
    obtain ⟨first, more, shape, rfl⟩ := segmentsIff.mp read
    have behind : ((more.map (·.2)).map String.ofList).map (fun text => (SlotForm.bare, text.toList)) = onlyBare more := by
      simp [onlyBare]
    refine ⟨first, more, shape, rfl, ?_⟩
    rw [← String.toList_inj, List.map_cons, joinedChars, String.toList_ofList, behind, shape]
    exact wovenBare
  · rintro ⟨first, more, shape, rfl, -⟩
    rw [split, shape, segmentsWoven]
    rfl

theorem emptyFormatTaken :
    split "\x7b:\x7d" = .ok ["", ""] ∧ joined ["", ""] ≠ "\x7b:\x7d" :=
  ⟨rfl, by decide⟩

end Joined

end LiveMarkup.Template
