import LiveMarkup.Proofs.Markup.Reference
import LiveMarkup.Proofs.Render.Run
import LiveMarkup.Proofs.Template.Place
/-! Values in attributes: what the text that is put in for a plain value means to the tokenizer of the
HTML standard, inside a quoted value and at the start of any value. -/
namespace LiveMarkup.Render
open Template Standard Text

variable {f : Factory} {m : List Char} {v w : Value} {following : String} {q : Char}

section Places

/-- A slot is taken for the start of an attribute value just where the tokenizer is at the start of one, as
long as the attribute's front is written plainly between attributes and the last angle is an opening one. In
the middle of a quoted value nothing is added or removed unless the value ends like such a front. -/
theorem placesRead :
    (∀ before o, Recognized m before o → (AtStart (read m) (o.name.map Char.toLower) o.quote? ↔
      m = before ++ o.chars ∧ o.Valid isMarkupBlank ∧ between (read (before ++ [o.blank])).state)) ∧
    (∀ name quote?, AtStart (read m) name quote? →
      ((∃ before o, Recognized m before o ∧ o.name.map Char.toLower = name ∧ o.quote? = quote?) ↔
        endsInTag m ∧ ∃ before o, m = before ++ Opening.chars o ∧ o.Valid isMarkupBlank ∧
          o.name.map Char.toLower = name ∧ o.quote? = quote?)) ∧
    (∀ q, (read m).state = .quoted q → (read m).value ≠ [] → (read m).value ≠ ['\n'] →
      ¬ EndsInFront (read m).value → ∀ f v following, fillPlain f (String.ofList m) v following = (do
        return String.ofList m ++ (← inline f v) ++ following)) := by
  refine ⟨fun _ _ => recognizedStart, fun _ _ => startRecognized, fun q inside filled line plain f v following => ?_⟩
  unfold fillPlain
  rw [String.toList_ofList]
  cases place : attributePlace? m with
  | none => rfl
  | some p =>
    obtain ⟨o, found⟩ := recognized place
    obtain ⟨front, broken, same, ends⟩ := recognizedInside found inside ⟨filled, line⟩
    exact absurd ⟨front, o, broken, found.valid, same, ends⟩ plain

def rowFactory : Factory := ⟨.ofFields "Row" [], 0, [], none⟩

def rowState : State := rowFactory.start { nextFactory := 1 }

def rowOutput (template : String) (values : List Value) : Option String :=
  (out (call (fun _ => pure "") template values 2) rowFactory rowState).1.toOption.map Value.plain

theorem classPlaced : AtStart (read "<p title=\"a b\" class=".toList) "class".toList none ∧
    ∃ before o, Recognized "<p title=\"a b\" class=".toList before o ∧ o.name.map Char.toLower = "class".toList ∧
      o.quote? = none := by
  have start : AtStart (read "<p title=\"a b\" class=".toList) "class".toList none :=
    ⟨by decide +kernel, .inl ⟨rfl, by decide +kernel⟩⟩
  refine ⟨start, (placesRead.2.1 _ _ start).mpr ⟨by decide +kernel, "<p title=\"a b\"".toList,
    ⟨' ', "class".toList, [], [], none⟩, by simp [Opening.chars], ?_, by simp, rfl⟩⟩
  exact ⟨rfl, by simp, by simp, by simp, List.all_eq_true.mp rfl, by simp⟩

/-- An angle in an earlier value hides the start of a value, and a value may end like the front of an
attribute itself. -/
theorem placesMissed :
    AtStart (read "<p title=\"a>b\" class=".toList) "class".toList none ∧
    rowOutput "<p title=\"a>b\" class=\x7b\x7d>x</p>" [.text "x y"] = some "<p title=\"a>b\" class=x y>x</p>" ∧
    (read "<p title=\" a=".toList).state = .quoted '"' ∧
    rowOutput "<p title=\" a=\x7b\x7d\">x</p>" [.text "b"] = some "<p title=\" a=\"b\"\">x</p>" ∧
    rowOutput "<p title=\" a=\x7b\x7d\">x</p>" [.none] = some "<p title=\"\">x</p>" :=
  ⟨⟨by decide +kernel, .inl ⟨rfl, by decide +kernel⟩⟩, by decide +kernel⟩

end Places

section Values

def isPlain : Value → Bool
  | .list _ | .tuple _ | .generator _ | .component _ | .rendered .. => false
  | v => v.safeHtml?.isNone

def insertedText (m : List Char) (v : Value) : String :=
  match attributePlace? m with
  | none => v.escaped
  | some place => attributeText v place.quote?

theorem plainUnsafe (plain : isPlain v) : v.safeHtml? = none := by
  cases v <;> first | rfl | cases plain

theorem inlinePlain (plain : isPlain v) : inline f v = pure v.escaped := by
  have none := plainUnsafe plain
  cases v with
  | list | tuple | generator | component | rendered => cases plain
  | _ => simp only [inline, none]

theorem fillInserted (plain : isPlain v) (shown : removesAttribute v = false) :
    fillPlain f (String.ofList m) v following =
      pure (String.ofList m ++ insertedText m v ++ following) := by
  unfold fillPlain insertedText
  rw [String.toList_ofList]
  cases attributePlace? m with
  | none => simp [inlinePlain plain]
  | some place => simp [shown]

theorem plainEscaped (plain : isPlain v) : v.escaped.toList = v.shown.toList.flatMap Markup.escapeChar := by
  unfold Value.escaped
  rw [plainUnsafe plain]
  simp [Markup.escape]

theorem escapedClear (plain : isPlain v) : '"' ∉ v.escaped.toList := by
  rw [plainEscaped plain]
  intro mem
  obtain ⟨c, -, mem⟩ := List.mem_flatMap.mp mem
  exact Markup.escapeFree.1 mem

theorem apostropheEscaped {text : List Char} : '\'' ∉ text.flatMap escapeApostrophe := by
  intro mem
  obtain ⟨c, -, mem⟩ := List.mem_flatMap.mp mem
  unfold escapeApostrophe at mem
  split at mem
  · exact absurd mem (by decide)
  · next other =>
    obtain rfl := List.mem_singleton.mp mem
    exact other rfl

theorem quoteEscaped {text : List Char} (clear : '"' ∉ text) : '"' ∉ text.flatMap escapeApostrophe := by
  intro mem
  obtain ⟨c, inText, mem⟩ := List.mem_flatMap.mp mem
  unfold escapeApostrophe at mem
  split at mem
  · exact absurd mem (by decide)
  · obtain rfl := List.mem_singleton.mp mem
    exact clear inText

theorem quoteInserted (plain : isPlain v) :
    '"' ∈ (insertedText m v).toList ↔ ∃ p, attributePlace? m = some p ∧ p.quote? = none := by
  have clear := escapedClear plain
  unfold insertedText
  cases attributePlace? m with
  | none => simpa using clear
  | some p =>
    cases quote : p.quote? with
    | none => simp [attributeText, quote]
    | some q =>
      simp only [Option.some.injEq, exists_eq_left', quote, reduceCtorEq, iff_false]
      unfold attributeText
      split
      · simp
      · dsimp only
        split
        · rw [String.toList_ofList]
          exact quoteEscaped clear
        · exact clear

theorem apostropheKept (plain : isPlain v) {quote? : Option Char} (other : quote? ≠ some '\'') :
    '\'' ∈ (attributeText v quote?).toList ↔ '\'' ∈ v.escaped.toList := by
  have guard : (!v.isSafe && quote? == some '\'') = false := by simp [other]
  by_cases true : v = .truth true
  · subst true
    have none : '\'' ∉ (Value.truth Bool.true).escaped.toList := by decide
    cases quote? <;> simp [attributeText, none]
  · unfold attributeText
    split
    · exact absurd rfl true
    · simp only [guard]
      cases quote? <;> simp

theorem apostropheInserted (plain : isPlain v) : '\'' ∈ (insertedText m v).toList ↔
    '\'' ∈ v.escaped.toList ∧ ∀ p, attributePlace? m = some p → p.quote? ≠ some '\'' := by
  have safe : v.isSafe = false := by simp [Value.isSafe, plainUnsafe plain]
  unfold insertedText
  cases attributePlace? m with
  | none => simp
  | some p =>
    simp only [Option.some.injEq, forall_eq']
    by_cases quote : p.quote? = some '\''
    · have none : '\'' ∉ (attributeText v p.quote?).toList := by
        unfold attributeText
        rw [quote]
        split
        · simp
        · simpa [safe] using apostropheEscaped
      exact ⟨fun mem => absurd mem none, fun h => absurd quote h.2⟩
    · rw [apostropheKept plain quote]
      exact ⟨fun mem => ⟨mem, quote⟩, And.left⟩

example : insertedText "<p title='".toList (.text "it's") = "it&#39;s" ∧
    insertedText "<p title='so: ".toList (.text "it's") = "it's" := by decide +kernel

/-- The value ends like the front of an attribute without quotes. -/
def Misleading (value : List Char) : Prop :=
  ∃ front o, o.Valid isBlank ∧ o.quote? = none ∧ value = front ++ Opening.chars o

theorem misled (inside : (read m).state = .quoted q) :
    (∃ p, attributePlace? m = some p ∧ p.quote? = none) ↔ endsInTag m ∧ Misleading (read m).value := by
  have trace := traced (m := m)
  simp only [Standard.Traced, inside] at trace
  obtain ⟨quote, _, before, same, _⟩ := trace
  constructor
  · rintro ⟨p, place, none⟩
    obtain ⟨o, found⟩ := recognized place
    have bare : o.quote? = Option.none := by
      rw [← none]
      exact congrArg OpenAttribute.quote? (Option.some.inj (found.place.symm.trans place))
    have opened : openAttribute? m = some p := by
      unfold attributePlace? at place
      split at place
      · exact place
      · cases place
    have far {broken : List Char} (line : broken = [] ∨ broken = ['\n']) : (read m).value ≠ broken := by
      intro is
      rw [same, is] at opened
      rw [openQuote quote opened line] at none
      cases none
    obtain ⟨front, broken, value, line⟩ := recognizedInside found inside ⟨far (.inl rfl), far (.inr rfl)⟩
    rcases line with rfl | ⟨_, some⟩
    · exact ⟨found.inTag, front, o, found.valid, bare, by simpa using value⟩
    · rw [bare] at some
      cases some
  · rintro ⟨inTag, front, o, valid, bare, value⟩
    have opened : openAttribute? m = some ⟨before ++ q :: front, o.quote?⟩ := by
      rw [← formOpen valid]
      exact congrArg openAttribute? (same.trans (by rw [value]; simp))
    exact ⟨_, by rw [attributePlace?, if_pos inTag, opened], bare⟩

theorem apostropheShown (plain : isPlain v) : '\'' ∈ v.escaped.toList ↔ '\'' ∈ v.shown.toList := by
  rw [plainEscaped plain]
  constructor
  · intro mem
    obtain ⟨c, inText, mem⟩ := List.mem_flatMap.mp mem
    unfold Markup.escapeChar at mem
    split at mem
    · exact absurd mem (by decide)
    split at mem
    · exact absurd mem (by decide)
    split at mem
    · exact absurd mem (by decide)
    split at mem
    · exact absurd mem (by decide)
    exact List.mem_singleton.mp mem ▸ inText
  · exact fun mem => List.mem_flatMap.mpr ⟨'\'', mem, by decide⟩

theorem removedNothing (removes : removesAttribute v) : ∃ front rest : List Char, front <+: m ∧
    rest <:+ following.toList ∧
    fillPlain f (String.ofList m) v following = pure (String.ofList front ++ String.ofList rest) := by
  have plain : isPlain v ∧ v.escaped = "" := by
    cases v <;> try cases removes
    case none => exact ⟨rfl, by decide⟩
    case truth b =>
      cases b with
      | false => exact ⟨rfl, by decide⟩
      | true => cases removes
  unfold fillPlain
  rw [String.toList_ofList]
  cases place : attributePlace? m with
  | none => exact ⟨m, following.toList, List.prefix_rfl, List.suffix_rfl, by simp [inlinePlain plain.1, plain.2]⟩
  | some p =>
    obtain ⟨o, found⟩ := recognized place
    obtain ⟨broken, same, _⟩ := found.text
    have front : p.before <+: m := ⟨o.chars ++ broken, by rw [same, List.append_assoc]⟩
    simp only [removes, if_true]
    split
    · exact ⟨p.before, following.toList, front, List.suffix_rfl, by simp⟩
    · split
      · exact ⟨p.before, following.toList.drop 1, front, List.drop_suffix _ _, rfl⟩
      · exact ⟨m, following.toList, List.prefix_rfl, List.suffix_rfl, by simp⟩

/-- In a quoted value, the text of a plain value has the quote if and only if the value before it ends like
the front of an attribute, or the text has an apostrophe and does not begin the value. A text without the
quote stays in the value, and what is read later does not depend on it. -/
theorem plainInQuotes (inside : (read m).state = .quoted q) (plain : isPlain v) :
    (removesAttribute v → ∃ front rest : List Char, front <+: m ∧ rest <:+ following.toList ∧
      fillPlain f (String.ofList m) v following = pure (String.ofList front ++ String.ofList rest)) ∧
    (removesAttribute v = false →
      fillPlain f (String.ofList m) v following = pure (String.ofList m ++ insertedText m v ++ following) ∧
      (q ∈ (insertedText m v).toList ↔
        q = '"' ∧ endsInTag m ∧ Misleading (read m).value ∨
        q = '\'' ∧ '\'' ∈ v.shown.toList ∧ ∀ p, attributePlace? m = some p → p.quote? ≠ some '\'') ∧
      (q ∉ (insertedText m v).toList →
        read (m ++ (insertedText m v).toList) =
          { read m with value := (read m).value ++ (insertedText m v).toList } ∧
        ∀ w, isPlain w → q ∉ (insertedText m w).toList → ∀ rest,
          (read (m ++ (insertedText m v).toList ++ rest)).shape =
            (read (m ++ (insertedText m w).toList ++ rest)).shape)) := by
  have quote : q = '"' ∨ q = '\'' := by
    have trace := traced (m := m)
    simp only [Standard.Traced, inside] at trace
    simpa [isQuote] using trace.1
  refine ⟨removedNothing, fun shown =>
    ⟨fillInserted plain shown, ?_, fun none => ⟨readInside inside none, fun w _ none' rest => ?_⟩⟩⟩
  · rcases quote with rfl | rfl
    · simp [quoteInserted plain, misled inside]
    · simp [apostropheInserted plain, apostropheShown plain]
  · rw [readAppend (b := rest), readAppend (b := rest), readInside inside none, readInside inside none']
    exact shapeRead rfl

theorem apostropheStays : (read "<p title='".toList).state = .quoted '\'' ∧ isPlain (.text "it's") ∧
    fillPlain rowFactory (String.ofList "<p title='".toList) (.text "it's") "'>" =
      pure (String.ofList "<p title='".toList ++ "it&#39;s" ++ "'>") ∧
    read ("<p title='".toList ++ "it&#39;s".toList) =
      { read "<p title='".toList with value := "it&#39;s".toList } := by
  have inside : (read "<p title='".toList).state = .quoted '\'' := by decide +kernel
  have empty : (read "<p title='".toList).value = [] := by decide +kernel
  have text : insertedText "<p title='".toList (.text "it's") = "it&#39;s" := by decide +kernel
  obtain ⟨_, kept⟩ := @plainInQuotes rowFactory _ (.text "it's") "'>" _ inside rfl
  obtain ⟨filled, _, stays⟩ := kept rfl
  rw [text] at stays filled
  refine ⟨inside, rfl, filled, (stays (by decide)).1.trans ?_⟩
  rw [empty]
  rfl

/-- A text with an apostrophe leaves a value in apostrophes, and a second text a value in quotes, if the
first one ends like the front of an attribute. -/
theorem quotesLeft :
    (read "<p title='a ".toList).state = .quoted '\'' ∧
    rowOutput "<p title='a \x7b\x7d'>x</p>" [.text "' onclick='alert(1)"] =
      some "<p title='a ' onclick='alert(1)'>x</p>" ∧
    (read "<p title='a ' onclick='alert(1)'>".toList).tags.map Tag.attributes =
      [["onclick".toList, "title".toList]] ∧
    (read "<p title=\" onclick=".toList).state = .quoted '"' ∧
    rowOutput "<p title=\"\x7b\x7d\x7b\x7d\">x</p>" [.text " onclick=", .text "alert(1)"] =
      some "<p title=\" onclick=\"alert(1)\"\">x</p>" := by
  decide +kernel

end Values

end LiveMarkup.Render
