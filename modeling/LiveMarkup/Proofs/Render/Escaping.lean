import LiveMarkup.Proofs.Markup.Scan
import LiveMarkup.Proofs.Render.StartTag
/-! Escaped texts. Four replacements made one after the other, each over what the one before it left, come to one map on
characters, and whoever reads the result has the text again. -/
namespace LiveMarkup.Text

def replaceFrom (pattern new : List Char) : (skip : Nat) → List Char → List Char
  | _, [] => []
  | skip + 1, _ :: rest => replaceFrom pattern new skip rest
  | 0, c :: rest =>
    if pattern.isPrefixOf (c :: rest) then new ++ replaceFrom pattern new (pattern.length - 1) rest
    else c :: replaceFrom pattern new 0 rest

def replace (pattern new s : List Char) : List Char := replaceFrom pattern new 0 s

theorem replaceChar {c : Char} {new s : List Char} :
    replace [c] new s = s.flatMap fun d => if d = c then new else [d] := by
  induction s with
  | nil => rfl
  | cons d rest ih =>
    rw [replace, replaceFrom, List.flatMap_cons, ← ih]
    by_cases same : d = c
    · simp [same, List.isPrefixOf, replace]
    · simp [same, Ne.symm same, List.isPrefixOf, replace]

end LiveMarkup.Text

namespace LiveMarkup.Markup
open Reader

variable {c : Char} {s text rest before behind written : List Char} {tokens : List Token}

section Map

def entities : List (Char × List Char) :=
  [('&', ['a', 'm', 'p', ';']), ('<', ['l', 't', ';']), ('>', ['g', 't', ';']), ('"', ['q', 'u', 'o', 't', ';'])]

def escapeInTurn (s : List Char) : List Char :=
  entities.foldl (fun text e => Text.replace [e.1] ('&' :: e.2) text) s

def decodeOnce : List Char → List Char
  | '&' :: 'a' :: 'm' :: 'p' :: ';' :: rest => '&' :: decodeOnce rest
  | '&' :: 'l' :: 't' :: ';' :: rest => '<' :: decodeOnce rest
  | '&' :: 'g' :: 't' :: ';' :: rest => '>' :: decodeOnce rest
  | '&' :: 'q' :: 'u' :: 'o' :: 't' :: ';' :: rest => '"' :: decodeOnce rest
  | c :: rest => c :: decodeOnce rest
  | [] => []

theorem escapeCases (c : Char) :
    (∃ name, (c, name) ∈ entities ∧ escapeChar c = '&' :: name) ∨
      c ≠ '&' ∧ c ≠ '<' ∧ c ≠ '>' ∧ c ≠ '"' ∧ escapeChar c = [c] := by
  unfold escapeChar
  grind [entities]

theorem turnsMapped : escapeInTurn s = s.flatMap escapeChar := by
  simp only [escapeInTurn, entities, List.foldl_cons, List.foldl_nil, Text.replaceChar, List.flatMap_assoc]
  refine List.flatMap_congr fun c _ => ?_
  rcases escapeCases c with ⟨name, known, same⟩ | ⟨amp, lt, gt, quote, same⟩
  · rw [same]
    simp only [entities, List.mem_cons, Prod.mk.injEq, List.not_mem_nil, or_false] at known
    rcases known with ⟨rfl, rfl⟩ | ⟨rfl, rfl⟩ | ⟨rfl, rfl⟩ | ⟨rfl, rfl⟩ <;> rfl
  · simp [same, amp, lt, gt, quote]

theorem decodeReference {name : List Char} (known : (c, name) ∈ entities) :
    decodeOnce ('&' :: name ++ rest) = c :: decodeOnce rest := by
  simp only [entities, List.mem_cons, Prod.mk.injEq, List.not_mem_nil, or_false] at known
  rcases known with ⟨rfl, rfl⟩ | ⟨rfl, rfl⟩ | ⟨rfl, rfl⟩ | ⟨rfl, rfl⟩ <;> exact decodeOnce.eq_def _

theorem decodeOther (other : c ≠ '&') : decodeOnce (c :: rest) = c :: decodeOnce rest := by
  rw [decodeOnce] <;> simp [other]

theorem decodeEscaped : decodeOnce (s.flatMap escapeChar) = s := by
  induction s with
  | nil => rfl
  | cons c s ih =>
    rw [List.flatMap_cons]
    rcases escapeCases c with ⟨name, known, same⟩ | ⟨other, _, _, _, same⟩
    · rw [same, decodeReference known, ih]
    · rw [same, List.singleton_append, decodeOther other, ih]

theorem ampersandsKnown (found : s.flatMap escapeChar = before ++ '&' :: behind) :
    ∃ e ∈ entities, e.2 <+: behind := by
  have plain : ∀ e ∈ entities, '&' ∉ e.2 := by decide
  induction s generalizing before with
  | nil => exact absurd found.symm (by simp)
  | cons c s ih =>
    rw [List.flatMap_cons] at found
    obtain ⟨mid, rfl, tail⟩ | ⟨mid, own, tail⟩ := List.append_eq_append_iff.mp found
    · exact ih tail
    cases mid with
    | nil => exact @ih [] tail.symm
    | cons d mid =>
      obtain ⟨rfl, rfl⟩ := List.cons.inj tail
      -- The ampersand stands in what the first character came out as.
      rcases escapeCases c with ⟨name, known, same⟩ | ⟨other, _, _, _, same⟩
      · rw [same] at own
        obtain ⟨rfl, is⟩ | ⟨front, rfl, is⟩ := List.cons_eq_append_iff.mp own
        · obtain rfl := (List.cons.inj is).2
          exact ⟨_, known, List.prefix_append _ _⟩
        · exact absurd (is ▸ List.mem_append_right _ List.mem_cons_self) (plain _ known)
      · have mem : '&' ∈ [c] := same ▸ own ▸ List.mem_append_right _ List.mem_cons_self
        exact absurd (List.mem_singleton.mp mem).symm other

end Map

section Reading

def seen (tokens : List Token) : List (Char ⊕ Token) :=
  tokens.flatMap fun
    | .text s => s.toList.map .inl
    | token => [.inr token]

theorem seenText : seen (textToken s :: tokens) = s.map .inl ++ seen tokens := by
  simp [seen, textToken]

theorem seenTexts : seen (textTokens s ++ tokens) = s.map .inl ++ seen tokens := by
  cases s with
  | nil => rfl
  | cons c s => exact seenText

def Presents (written text : List Char) : Prop :=
  ∀ rest tokens, Scan none rest tokens →
    ∃ tokens', Scan none (written ++ rest) tokens' ∧ seen tokens' = text.map .inl ++ seen tokens

theorem presentsNil : Presents [] [] := fun _ tokens scan => ⟨tokens, scan, rfl⟩

theorem presentsAppend {written' text' : List Char} (h : Presents written text) (h' : Presents written' text') :
    Presents (written ++ written') (text ++ text') := by
  intro rest tokens scan
  obtain ⟨second, scan, same⟩ := h' rest tokens scan
  obtain ⟨first, scan, same'⟩ := h _ second scan
  refine ⟨first, List.append_assoc written written' rest ▸ scan, ?_⟩
  rw [same', same, List.map_append, List.append_assoc]

theorem presentsOrdinary (ordinary : isOrdinary c = true) : Presents [c] [c] := by
  intro rest tokens scan
  obtain ⟨behind, read, rfl⟩ := scanOrdinary ordinary scan
  exact ⟨_, read, by rw [seenText, seenTexts]; rfl⟩

theorem presentsReference {name : List Char} (known : (c, name) ∈ entities) : Presents ('&' :: name) [c] := by
  intro rest tokens scan
  have read : next false none ('&' :: name ++ rest) = .ok (.advance [textToken [c]] none rest) := by
    simp only [entities, List.mem_cons, Prod.mk.injEq, List.not_mem_nil, or_false] at known
    rcases known with ⟨rfl, rfl⟩ | ⟨rfl, rfl⟩ | ⟨rfl, rfl⟩ | ⟨rfl, rfl⟩
    · exact @nextReference rest ['a', 'm', 'p'] (by decide) (List.all_eq_true.mp (by decide))
    · exact @nextReference rest ['l', 't'] (by decide) (List.all_eq_true.mp (by decide))
    · exact @nextReference rest ['g', 't'] (by decide) (List.all_eq_true.mp (by decide))
    · exact @nextReference rest ['q', 'u', 'o', 't'] (by decide) (List.all_eq_true.mp (by decide))
  refine ⟨_, .step read ?_ scan, seenText⟩
  rw [List.length_append, List.length_cons]
  omega

theorem presentsEscaped : Presents (s.flatMap escapeChar) s := by
  induction s with
  | nil => exact presentsNil
  | cons c s ih =>
    have own : Presents (escapeChar c) [c] := by
      rcases escapeCases c with ⟨name, known, same⟩ | ⟨amp, lt, _, _, same⟩
      · exact same ▸ presentsReference known
      · exact same ▸ presentsOrdinary (by simp [isOrdinary, amp, lt])
    rw [List.flatMap_cons]
    exact presentsAppend own ih

theorem readEscaped : ∃ tokens, readTokens (s.flatMap escapeChar) = .ok tokens ∧ seen tokens = s.map .inl := by
  obtain ⟨tokens, scan, same⟩ := @presentsEscaped s [] [] .done
  rw [List.append_nil] at scan
  exact ⟨tokens, scanRead scan, same.trans (List.append_nil _)⟩

end Reading

section Escaping

/-- `written` is the text made safe, and nothing of the text is lost. -/
structure Exact (text written : String) : Prop where
  inTurn : written.toList = escapeInTurn text.toList
  mapped : written.toList = text.toList.flatMap escapeChar
  clear : '<' ∉ written.toList ∧ '>' ∉ written.toList ∧ '"' ∉ written.toList
  known : ∀ before behind, written.toList = before ++ '&' :: behind → ∃ e ∈ entities, e.2 <+: behind
  decoded : decodeOnce written.toList = text.toList
  asContent : ∃ tokens, readTokens written.toList = .ok tokens ∧ seen tokens = text.toList.map .inl
  asAttribute : Entity.decode written.toList = text.toList

theorem exactOf {text written : String} (mapped : written.toList = text.toList.flatMap escapeChar) :
    Exact text written where
  inTurn := by rw [mapped, turnsMapped]
  mapped := mapped
  clear := by
    have none {d : Char} (free : ∀ c, d ∉ escapeChar c) : d ∉ written.toList := by
      rw [mapped, List.mem_flatMap]
      rintro ⟨c, _, mem⟩
      exact free c mem
    exact ⟨none fun _ => escapeFree.2.1, none fun _ => escapeFree.2.2, none fun _ => escapeFree.1⟩
  known before behind found := ampersandsKnown (mapped ▸ found)
  decoded := by rw [mapped, decodeEscaped]
  asContent := by
    rw [mapped]
    exact readEscaped
  asAttribute := by
    rw [mapped]
    exact decodeCoded (codedMap escapeWritten _) (Nat.le_refl _)

/-- Escaping is exact: the four replacements in turn are one map on characters, no angle and no double quote is left, each
ampersand begins one of the four references, and whoever decodes them once has the text again, be it from left to right,
as a reader of markup or in an attribute. Texts can be escaped in parts. What holds of texts holds of the text of any value
that is no safe markup, but for nothing and the truth values. -/
theorem escapingExact :
    (∀ s : String, Exact s (Value.text s).escaped) ∧
      (∀ s t : String, (Value.text (s ++ t)).escaped = (Value.text s).escaped ++ (Value.text t).escaped) ∧
      ∀ v : Value, v.isSafe = false → v ≠ .none → (∀ b, v ≠ .truth b) → Exact v.plain v.escaped := by
  have value (v : Value) (plain : v.isSafe = false) (other : v ≠ .none) (given : ∀ b, v ≠ .truth b) :
      Exact v.plain v.escaped := exactOf (Render.escapedMapped plain other given)
  refine ⟨fun s => value (.text s) rfl (by simp) (by simp), fun s t => ?_, value⟩
  have parts : escape (s ++ t) = escape s ++ escape t := by simp [escape]
  exact parts

def tagged : Value := .list [.text "<b>", .whole 1]

theorem taggedExact : tagged.isSafe = false ∧ tagged ≠ .none ∧ (∀ b, tagged ≠ .truth b) ∧
    Exact "['<b>', 1]" "['&lt;b&gt;', 1]" ∧ Exact "&lt;" "&amp;lt;" := by
  have items : tagged.plain = "['<b>', 1]" ∧ tagged.escaped = "['&lt;b&gt;', 1]" := by decide +kernel
  obtain ⟨texts, _, values⟩ := escapingExact
  have shown := values tagged rfl (by simp [tagged]) (by simp [tagged])
  rw [items.1, items.2] at shown
  exact ⟨rfl, by simp [tagged], by simp [tagged], shown, texts "&lt;"⟩

end Escaping

end LiveMarkup.Markup
