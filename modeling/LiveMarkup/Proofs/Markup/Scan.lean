import LiveMarkup.Client.Record
import LiveMarkup.Markup.Tree
/-! Complete markup: whatever stands behind it is read as if it stood alone. Text, references and tags in
quotes are complete, and so is what they make up together. -/
namespace LiveMarkup.Markup
open Reader Client

section Scan

variable {raw : Option String} {s rest t t' : List Char} {tokens : List Token} {ids ids' : List String} {c : Char}

inductive Scan : (raw : Option String) → List Char → List Token → Prop where
  | done : Scan none [] []
  | step {raw s tokens raw' rest more} (read : next false raw s = .ok (.advance tokens raw' rest))
      (shorter : rest.length < s.length) (behind : Scan raw' rest more) : Scan raw s (tokens ++ more)

theorem scanPass {fuel : Nat} (scan : Scan raw s tokens) (enough : s.length ≤ fuel) :
    pass false fuel raw s = .ok ⟨tokens, none, []⟩ := by
  induction scan generalizing fuel with
  | done => cases fuel <;> rfl
  | @step raw s tokens raw' rest more read shorter behind ih =>
    cases s with
    | nil => cases shorter
    | cons c s =>
      cases fuel with
      | zero => cases enough
      | succ fuel =>
        have within : rest.length ≤ fuel := by
          simp only [List.length_cons] at shorter enough
          omega
        unfold Reader.pass
        simp only [read, bind, Except.bind, ih within]
        rfl

theorem scanRead (scan : Scan none s tokens) : readTokens s = .ok tokens := by
  rw [readTokens, scanPass scan (Nat.le_refl _)]
  have tail : textTokens [] = [] := rfl
  have second : pass true ([] : List Char).length none [] = .ok ⟨[], none, []⟩ := rfl
  simp only [bind, Except.bind, second, tail, Option.isSome_none, Bool.false_eq_true, if_false, List.append_nil]
  rfl

def identifier? : Token → Option String
  | .opening _ written _ => Attribute.get? (Attribute.ofWritten written) idAttribute
  | _ => none

def identifiers (tokens : List Token) : List String := tokens.filterMap identifier?

theorem identifiersAppend {more : List Token} : identifiers (tokens ++ more) = identifiers tokens ++ identifiers more :=
  List.filterMap_append

def Closed (t : List Char) (ids : List String) : Prop :=
  ∀ rest tokens, Scan none rest tokens →
    ∃ tokens', Scan none (t ++ rest) tokens' ∧ identifiers tokens' = ids ++ identifiers tokens

theorem closedNil : Closed [] [] := fun _ tokens scan => ⟨tokens, scan, rfl⟩

theorem closedAppend (h : Closed t ids) (h' : Closed t' ids') : Closed (t ++ t') (ids ++ ids') := by
  intro rest tokens scan
  obtain ⟨second, scan, same⟩ := h' rest tokens scan
  obtain ⟨first, scan, same'⟩ := h _ second scan
  refine ⟨first, List.append_assoc t t' rest ▸ scan, ?_⟩
  rw [same', same, List.append_assoc]

theorem closedStep (some : t ≠ [])
    (read : ∀ rest, next false none (t ++ rest) = .ok (.advance tokens none rest)) : Closed t (identifiers tokens) := by
  intro rest more scan
  refine ⟨tokens ++ more, .step (read rest) ?_ scan, identifiersAppend⟩
  have positive := List.length_pos_iff.mpr some
  rw [List.length_append]
  omega

theorem nextOrdinary (ordinary : isOrdinary c = true) :
    next false none (c :: rest) =
      .ok (.advance [textToken (c :: rest.takeWhile isOrdinary)] none (rest.dropWhile isOrdinary)) := by
  unfold next
  simp only [List.takeWhile_cons_of_pos ordinary, List.dropWhile_cons_of_pos ordinary, List.isEmpty_cons,
    Bool.not_false, if_true]

theorem scanBehind (scan : Scan none rest tokens) :
    ∃ behind, Scan none (rest.dropWhile isOrdinary) behind ∧ tokens = textTokens (rest.takeWhile isOrdinary) ++ behind := by
  cases rest with
  | nil => exact ⟨tokens, scan, rfl⟩
  | cons c rest =>
    cases ordinary : isOrdinary c with
    | false =>
      rw [List.dropWhile_cons_of_neg (by simp [ordinary]), List.takeWhile_cons_of_neg (by simp [ordinary])]
      exact ⟨tokens, scan, rfl⟩
    | true =>
      cases scan with
      | step read shorter behind =>
        rw [nextOrdinary ordinary] at read
        cases read
        rw [List.dropWhile_cons_of_pos ordinary, List.takeWhile_cons_of_pos ordinary]
        exact ⟨_, behind, rfl⟩

theorem scanOrdinary (ordinary : isOrdinary c = true) (scan : Scan none rest tokens) :
    ∃ behind, Scan none (c :: rest) (textToken (c :: rest.takeWhile isOrdinary) :: behind) ∧
      tokens = textTokens (rest.takeWhile isOrdinary) ++ behind := by
  obtain ⟨behind, scan, same⟩ := scanBehind scan
  refine ⟨behind, .step (nextOrdinary ordinary) ?_ scan, same⟩
  exact Nat.lt_succ_of_le (List.dropWhile_suffix isOrdinary (l := rest)).length_le

theorem identifiersTexts : identifiers (textTokens s) = [] := by
  cases s <;> rfl

theorem closedOrdinary (ordinary : isOrdinary c = true) : Closed [c] [] := by
  intro rest tokens scan
  obtain ⟨behind, read, rfl⟩ := scanOrdinary ordinary scan
  refine ⟨_, read, ?_⟩
  rw [identifiersAppend, identifiersTexts]
  rfl

theorem closedText (ordinary : ∀ c ∈ t, isOrdinary c = true) : Closed t [] := by
  induction t with
  | nil => exact closedNil
  | cons c t ih =>
    obtain ⟨own, others⟩ := List.forall_mem_cons.mp ordinary
    exact closedAppend (closedOrdinary own) (ih others)

theorem closedParts {α : Type} {parts : List α} {chars : α → List Char} (h : ∀ a ∈ parts, Closed (chars a) []) :
    Closed (parts.flatMap chars) [] := by
  induction parts with
  | nil => exact closedNil
  | cons a parts ih =>
    obtain ⟨own, others⟩ := List.forall_mem_cons.mp h
    exact closedAppend own (ih others)

theorem nextAngle : next false none ('<' :: rest) = angle false rest := by
  unfold next
  rfl

theorem nextAmpersand : next false none ('&' :: rest) = .ok (ampersand false rest) := by
  unfold next
  rfl

theorem nextReference {name : List Char} (some : name ≠ []) (letters : ∀ c ∈ name, c.isAlpha = true) :
    next false none ('&' :: name ++ [';'] ++ rest) =
      .ok (.advance [textToken ((Entity.named? name).getD ('&' :: name))] none rest) := by
  obtain ⟨first, others, rfl⟩ := List.exists_cons_of_ne_nil some
  have part : ∀ c ∈ first :: others, (c.isAlphanum || c == '-' || c == '.') = true := by
    intro c mem
    simp [Char.isAlphanum, letters c mem]
  have run : (first :: others ++ ';' :: rest).takeWhile (fun c => c.isAlphanum || c == '-' || c == '.') =
      first :: others := by
    rw [List.takeWhile_append_of_pos part, List.takeWhile_cons_of_neg (by decide), List.append_nil]
  have whole : '&' :: (first :: others) ++ [';'] ++ rest = '&' :: (first :: others ++ ';' :: rest) := by simp
  have shorter : (first :: others).length < (first :: others ++ ';' :: rest).length := by simp
  have other : first ≠ '#' := by
    rintro rfl
    exact absurd (letters '#' List.mem_cons_self) (by decide)
  rw [whole, nextAmpersand]
  unfold ampersand
  split
  · next empty => cases empty
  · next hash => exact absurd (List.cons.inj hash).1 other
  · next c tail _ same =>
    have alpha : c.isAlpha = true := (List.cons.inj same).1 ▸ letters first List.mem_cons_self
    have positive : 0 < (first :: others).length := Nat.zero_lt_succ _
    rw [if_pos alpha, run]
    simp only [if_pos shorter, if_pos positive]
    rw [List.take_length, List.drop_left]
    rfl

theorem closedReference {name : List Char} (some : name ≠ []) (letters : ∀ c ∈ name, c.isAlpha = true) :
    Closed ('&' :: name ++ [';']) [] :=
  @closedStep _ [textToken ((Entity.named? name).getD ('&' :: name))] (by simp) fun _ => nextReference some letters

end Scan

section Tags
open Tag Text

variable {value rest name behind : List Char} {q : Char}

structure Quoting where
  name : List Char
  quote : Char
  inner : List Char

namespace Quoting

def body (a : Quoting) : List Char := a.name ++ '=' :: a.quote :: (a.inner ++ [a.quote])

def chars (a : Quoting) : List Char := ' ' :: a.body

structure Valid (a : Quoting) : Prop where
  some : a.name ≠ []
  name : ∀ c ∈ a.name, isAttributeChar c = true
  quote : a.quote = '"' ∨ a.quote = '\''
  inner : a.quote ∉ a.inner

def written (a : Quoting) : Tag.Written := ⟨a.name, a.inner⟩

end Quoting

inductive Ends : List Char → Prop where
  | tag (more : List Char) : Ends ('>' :: more)
  | closed (more : List Char) : Ends ('/' :: '>' :: more)

theorem cutChar (h : q ∉ value) : cut? [q] (value ++ q :: rest) = some (value, rest) := by
  induction value with
  | nil => simp [cut?, List.isPrefixOf]
  | cons c value ih =>
    obtain ⟨other, later⟩ := not_or.mp (mt List.mem_cons.mpr h)
    rw [List.cons_append, cut?, if_neg (by simpa [List.isPrefixOf] using other), ih later]
    rfl

theorem valueBetween (quote : q = '"' ∨ q = '\'') (h : q ∉ value) :
    valueAndRest ('=' :: q :: (value ++ q :: rest)) = (value, rest) := by
  have equals : isBlank '=' = false := by decide
  have plain : isBlank q = false ∧ q ≠ '=' ∧ (q == '"' || q == '\'') = true := by
    rcases quote with rfl | rfl <;> decide
  unfold valueAndRest
  simp [equals, plain.1, plain.2.1, plain.2.2, cutChar h]

theorem skipCons {c : Char} (slash : c ≠ '/') :
    skipGap (c :: rest) = if isBlank c then skipGap rest else c :: rest := by
  conv => lhs; unfold skipGap
  split
  · next same => exact absurd (List.cons.inj same).1 slash
  · next d tail _ same =>
    obtain ⟨rfl, rfl⟩ := List.cons.inj same
    rw [beq_false_of_ne slash, Bool.or_false]
  · next empty => cases empty

theorem skipEnds (ends : Ends behind) : skipGap behind = behind := by
  cases ends with
  | tag rest => rw [skipCons (by decide), if_neg (by decide)]
  | closed rest => unfold skipGap; rfl

theorem attributeStart {c : Char} (h : isAttributeChar c = true) :
    isAttributeStart c = true ∧ isBlank c = false ∧ c ≠ '/' := by
  simp only [isAttributeChar, isAttributeStart, Bool.and_eq_true, Bool.not_eq_true', Bool.or_eq_false_iff,
    bne_iff_ne, beq_eq_false_iff_ne] at h ⊢
  exact ⟨h.1, h.1.1.1, h.1.1.2⟩

theorem skipAttribute {a : Quoting} (valid : a.Valid) : skipGap (a.chars ++ rest) = a.body ++ rest := by
  obtain ⟨c, others, same⟩ := List.exists_cons_of_ne_nil valid.some
  obtain ⟨_, blank, slash⟩ := attributeStart (valid.name c (same ▸ List.mem_cons_self))
  have front : a.body ++ rest = c :: (others ++ '=' :: a.quote :: (a.inner ++ [a.quote]) ++ rest) := by
    rw [Quoting.body, same]
    rfl
  rw [Quoting.chars, List.cons_append, skipCons (by decide), if_pos (by decide), front, skipCons slash,
    if_neg (by simp [blank])]

theorem lastFront {front : List Char} {previous : Char} :
    lastBefore previous (front ++ rest) rest = (front.getLast?).getD previous := by
  rw [lastBefore, List.length_append, Nat.add_sub_cancel, List.take_left]

theorem attributeQuoted {a : Quoting} (valid : a.Valid) {fuel : Nat} {previous : Char}
    (may : mayPrecede previous = true) :
    attributesAndRest (fuel + 1) previous (a.body ++ rest) =
      let (more, last) := attributesAndRest fuel (lastBefore previous (a.body ++ rest) (skipGap rest)) (skipGap rest)
      (a.written :: more, last) := by
  obtain ⟨c, others, same⟩ := List.exists_cons_of_ne_nil valid.some
  have named : ∀ d ∈ others, isAttributeChar d = true :=
    fun d mem => valid.name d (same ▸ List.mem_cons_of_mem _ mem)
  obtain ⟨start, _, _⟩ := attributeStart (valid.name c (same ▸ List.mem_cons_self))
  have front : a.body ++ rest = c :: (others ++ '=' :: a.quote :: (a.inner ++ a.quote :: rest)) := by
    rw [Quoting.body, same]
    simp
  have equals : isAttributeChar '=' = false := by decide
  have name : (others ++ '=' :: a.quote :: (a.inner ++ a.quote :: rest)).takeWhile isAttributeChar = others := by
    rw [List.takeWhile_append_of_pos named, List.takeWhile_cons_of_neg (by simp [equals]), List.append_nil]
  have value : (others ++ '=' :: a.quote :: (a.inner ++ a.quote :: rest)).dropWhile isAttributeChar =
      '=' :: a.quote :: (a.inner ++ a.quote :: rest) := by
    rw [List.dropWhile_append_of_pos named, List.dropWhile_cons_of_neg (by simp [equals])]
  rw [front, attributesAndRest]
  simp only [may, start, Bool.and_self, if_true, name, value, valueBetween valid.quote valid.inner]
  rw [Quoting.written, same]

theorem attributesQuoted {as : List Quoting} (valid : ∀ a ∈ as, a.Valid) (ends : Ends behind) {fuel : Nat}
    (enough : as.length ≤ fuel) {previous : Char} (may : as ≠ [] → mayPrecede previous = true) :
    attributesAndRest fuel previous (skipGap (as.flatMap (·.chars) ++ behind)) = (as.map (·.written), behind) := by
  induction as generalizing fuel previous with
  | nil =>
    rw [List.flatMap_nil, List.nil_append, skipEnds ends, List.map_nil]
    cases fuel with
    | zero => cases ends <;> rfl
    | succ fuel =>
      cases ends with
      | tag rest => rw [attributesAndRest, show isAttributeStart '>' = false by decide, Bool.and_false]; rfl
      | closed rest => rw [attributesAndRest, show isAttributeStart '/' = false by decide, Bool.and_false]; rfl
  | cons a as ih =>
    obtain ⟨own, others⟩ := List.forall_mem_cons.mp valid
    cases fuel with
    | zero => cases enough
    | succ fuel =>
      have next : as ≠ [] → mayPrecede (lastBefore previous (a.body ++ (as.flatMap (·.chars) ++ behind))
          (skipGap (as.flatMap (·.chars) ++ behind))) = true := by
        intro some
        obtain ⟨b, bs, rfl⟩ := List.exists_cons_of_ne_nil some
        have split : a.body ++ ((b :: bs).flatMap (·.chars) ++ behind) =
            (a.body ++ [' ']) ++ (b.body ++ (bs.flatMap (·.chars) ++ behind)) := by
          simp [Quoting.chars]
        have valid := others b List.mem_cons_self
        rw [split, List.flatMap_cons, List.append_assoc b.chars, skipAttribute valid, lastFront, List.getLast?_concat,
          Option.getD_some]
        decide
      rw [List.flatMap_cons, List.append_assoc, skipAttribute own, attributeQuoted own (may (List.cons_ne_nil a as)),
        ih others (Nat.le_of_succ_le_succ enough) next]
      rfl

theorem attributesShorter {as : List Quoting} (valid : ∀ a ∈ as, a.Valid) :
    as.length ≤ (skipGap (as.flatMap (·.chars) ++ behind)).length := by
  have each (as : List Quoting) : as.length ≤ (as.flatMap (·.chars)).length := by
    induction as with
    | nil => exact Nat.le_refl _
    | cons a as ih =>
      rw [List.flatMap_cons, List.length_append, Quoting.chars]
      simp only [List.length_cons]
      omega
  cases as with
  | nil => exact Nat.zero_le _
  | cons a as =>
    rw [List.flatMap_cons, List.append_assoc, skipAttribute (valid a List.mem_cons_self), Quoting.body]
    have rest := each as
    simp only [List.length_cons, List.length_append]
    omega

structure PlainName (name : List Char) : Prop where
  first : name.head?.any Char.isAlpha = true
  chars : ∀ c ∈ name, (c.isAlphanum || c == '-' || c == '.' || c == ':' || c == '_') = true

instance (name : List Char) : Decidable (PlainName name) :=
  decidable_of_iff (name.head?.any Char.isAlpha = true ∧
      name.all (fun c => c.isAlphanum || c == '-' || c == '.' || c == ':' || c == '_') = true)
    ⟨fun h => ⟨h.1, List.all_eq_true.mp h.2⟩, fun h => ⟨h.first, List.all_eq_true.mpr h.chars⟩⟩

def tagToken (name : List Char) (as : List Quoting) (closed : Bool) : Token :=
  .opening (lowerText name) (as.map fun a => a.written.attribute) closed

theorem nameEnds {as : List Quoting} (plain : PlainName name) (ends : Ends behind) :
    (name ++ (as.flatMap (·.chars) ++ behind)).takeWhile isTagNameChar = name ∧
      (name ++ (as.flatMap (·.chars) ++ behind)).dropWhile isTagNameChar = as.flatMap (·.chars) ++ behind := by
  have chars : ∀ c ∈ name, isTagNameChar c = true := by
    intro c mem
    have part := plain.chars c mem
    unfold isTagNameChar
    simp only [Bool.not_eq_true', Bool.or_eq_false_iff, beq_eq_false_iff_ne]
    refine ⟨⟨⟨⟨⟨⟨⟨?_, ?_⟩, ?_⟩, ?_⟩, ?_⟩, ?_⟩, ?_⟩, ?_⟩ <;> rintro rfl <;> exact absurd part (by decide)
  have stop : ∃ c more, as.flatMap (·.chars) ++ behind = c :: more ∧ isTagNameChar c = false := by
    cases as with
    | nil => cases ends <;> exact ⟨_, _, rfl, by decide⟩
    | cons a as => exact ⟨' ', _, rfl, by decide⟩
  obtain ⟨c, more, same, other⟩ := stop
  rw [same, List.takeWhile_append_of_pos chars, List.dropWhile_append_of_pos chars,
    List.takeWhile_cons_of_neg (by simp [other]), List.dropWhile_cons_of_neg (by simp [other]), List.append_nil]
  exact ⟨rfl, rfl⟩

theorem startQuoted {as : List Quoting} (plain : PlainName name) (valid : ∀ a ∈ as, a.Valid) (ends : Ends behind) :
    readStart (name ++ (as.flatMap (·.chars) ++ behind)) =
      match behind.dropWhile isBlank with
      | '>' :: rest => .tag (tagToken name as false) rest
      | '/' :: '>' :: rest => .tag (tagToken name as true) rest
      | [] => .incomplete
      | c :: rest => if c.isAlpha || c == '=' || c == '/' then .incomplete else .content (c :: rest) := by
  have may : as ≠ [] → mayPrecede (lastBefore 'a' (name ++ (as.flatMap (·.chars) ++ behind))
      (skipGap (as.flatMap (·.chars) ++ behind))) = true := by
    intro some
    obtain ⟨b, bs, rfl⟩ := List.exists_cons_of_ne_nil some
    have split : name ++ ((b :: bs).flatMap (·.chars) ++ behind) =
        (name ++ [' ']) ++ (b.body ++ (bs.flatMap (·.chars) ++ behind)) := by
      simp [Quoting.chars]
    rw [split, List.flatMap_cons, List.append_assoc b.chars, skipAttribute (valid b List.mem_cons_self), lastFront,
      List.getLast?_concat]
    decide
  obtain ⟨front, gap⟩ := @nameEnds name behind as plain ends
  unfold readStart
  simp only [front, gap, attributesQuoted valid ends (attributesShorter valid) may, List.map_map]
  rfl

theorem angleLetter {s : List Char} (letter : s.head?.any Char.isAlpha = true) :
    angle false s = match readStart s with
      | .tag (.opening name attributes closed) rest =>
        .ok (.advance [.opening name attributes closed]
          (if !closed && rawElements.contains name then some name else none) rest)
      | .tag token rest => .ok (.advance [token] none rest)
      | .content rest => .ok (.advance [textToken ('<' :: s.take (s.length - rest.length))] none rest)
      | .incomplete => .ok (unfinished false s) := by
  cases s with
  | nil => cases letter
  | cons c s =>
    have alpha : c.isAlpha = true := letter
    have other (d : Char) (mark : d.isAlpha = false) : c ≠ d := by
      rintro rfl
      rw [alpha] at mark
      cases mark
    unfold angle
    split
    · next empty => cases empty
    · next same => exact absurd (List.cons.inj same).1 (other '/' (by decide))
    · next same => exact absurd (List.cons.inj same).1 (other '!' (by decide))
    · next same => exact absurd (List.cons.inj same).1 (other '?' (by decide))
    · next same => exact absurd (List.cons.inj same).1 (other '!' (by decide))
    · next d tail _ _ _ _ same =>
      obtain ⟨rfl, rfl⟩ := List.cons.inj same
      exact if_pos alpha

theorem letterFront (plain : PlainName name) : (name ++ rest).head?.any Char.isAlpha = true := by
  have first := plain.first
  cases name with
  | nil => cases first
  | cons c name => exact first

theorem closedStart {as : List Quoting} (plain : PlainName name) (valid : ∀ a ∈ as, a.Valid)
    (markup : rawElements.contains (lowerText name) = false) :
    Closed ('<' :: (name ++ (as.flatMap (·.chars) ++ ['>']))) (identifiers [tagToken name as false]) := by
  refine closedStep (by simp) fun rest => ?_
  have whole : '<' :: (name ++ (as.flatMap (·.chars) ++ ['>'])) ++ rest =
      '<' :: (name ++ (as.flatMap (·.chars) ++ '>' :: rest)) := by simp
  have blank : isBlank '>' = false := by decide
  rw [whole, nextAngle, angleLetter (letterFront plain), startQuoted plain valid (.tag rest),
    List.dropWhile_cons_of_neg (by simp [blank])]
  simp only [tagToken, markup, Bool.and_false, Bool.false_eq_true, if_false]

theorem closedVoid {as : List Quoting} (plain : PlainName name) (valid : ∀ a ∈ as, a.Valid) :
    Closed ('<' :: (name ++ (as.flatMap (·.chars) ++ ['/', '>']))) (identifiers [tagToken name as true]) := by
  refine closedStep (by simp) fun rest => ?_
  have whole : '<' :: (name ++ (as.flatMap (·.chars) ++ ['/', '>'])) ++ rest =
      '<' :: (name ++ (as.flatMap (·.chars) ++ '/' :: '>' :: rest)) := by simp
  have blank : isBlank '/' = false := by decide
  rw [whole, nextAngle, angleLetter (letterFront plain), startQuoted plain valid (.closed rest),
    List.dropWhile_cons_of_neg (by simp [blank])]
  simp only [tagToken, Bool.not_true, Bool.false_and, Bool.false_eq_true, if_false]

theorem letterBlank {c : Char} (alpha : c.isAlpha = true) : isBlank c = false := by
  have range : 65 ≤ c.toNat ∧ c.toNat ≤ 122 := by
    have upper (h : c.isUpper) : 65 ≤ c.toNat ∧ c.toNat ≤ 90 := of_decide_eq_true h
    have lower (h : c.isLower) : 97 ≤ c.toNat ∧ c.toNat ≤ 122 :=
      (Bool.and_eq_true_iff.mp h).imp of_decide_eq_true of_decide_eq_true
    have letter : (c.isUpper || c.isLower) = true := alpha
    rcases Bool.or_eq_true_iff.mp letter with h | h
    · exact ⟨(upper h).1, Nat.le_trans (upper h).2 (by decide)⟩
    · exact ⟨Nat.le_trans (by decide) (lower h).1, (lower h).2⟩
  unfold isBlank
  simp only [Bool.or_eq_false_iff, Bool.and_eq_false_iff, decide_eq_false_iff_not, beq_eq_false_iff_ne]
  omega

theorem closedEnd (plain : PlainName name) : Closed ('<' :: '/' :: (name ++ ['>'])) [] := by
  have part : ∀ c ∈ name, (c.isAlphanum || c == '-' || c == '.' || c == ':' || c == '_') = true := plain.chars
  have apart : '>' ∉ name := fun mem => absurd (part '>' mem) (by decide)
  obtain ⟨c, others, same⟩ : ∃ c others, name = c :: others := by
    have first := plain.first
    cases name with
    | nil => cases first
    | cons c others => exact ⟨c, others, rfl⟩
  have alpha : c.isAlpha = true := by
    have first := plain.first
    rwa [same] at first
  refine @closedStep _ [.closing (lowerText name)] (by simp) fun rest => ?_
  have whole : '<' :: '/' :: (name ++ ['>']) ++ rest = '<' :: '/' :: (name ++ '>' :: rest) := by simp
  have found : plainEnd? (name ++ '>' :: rest) = some (lowerText name, rest) := by
    have front : (name ++ '>' :: rest).dropWhile isBlank = name ++ '>' :: rest := by
      rw [same, List.cons_append, List.dropWhile_cons_of_neg (by simp [letterBlank alpha])]
    have close : isBlank '>' = false := by decide
    unfold plainEnd?
    simp only [front]
    rw [List.dropWhile_append_of_pos part, List.dropWhile_cons_of_neg (by decide),
      List.dropWhile_cons_of_neg (by simp [close])]
    simp only [letterFront plain, if_true]
    rw [List.takeWhile_append_of_pos part, List.takeWhile_cons_of_neg (by decide), List.append_nil]
  have ended : readEnd? (name ++ '>' :: rest) = some ([.closing (lowerText name)], rest) := by
    rw [readEnd?, cutChar apart]
    simp only [found]
  rw [whole, nextAngle]
  unfold angle
  simp only [ended]

def startsEnd (element : String) : List Char → Bool
  | [] => true
  | c :: _ => isBlank c || (afterWord? (element.toList.take 1) [c]).isSome

def unended (element : String) : List Char → Bool
  | '<' :: '/' :: behind => !startsEnd element behind && unended element ('/' :: behind)
  | _ :: rest => unended element rest
  | [] => true

theorem rawOther {element : String} {s : List Char} (other : ∀ more, s ≠ '<' :: '/' :: more) :
    rawEnd? element s = none := by
  unfold rawEnd?
  split
  · next more => exact absurd rfl (other more)
  · rfl

theorem rawStarted {element : String} {behind more : List Char} (other : startsEnd element behind = false) :
    rawEnd? element ('<' :: '/' :: (behind ++ more)) = none := by
  cases behind with
  | nil => cases other
  | cons c behind =>
    obtain ⟨blank, apart⟩ := Bool.or_eq_false_iff.mp other
    have front : (c :: behind ++ more).dropWhile isBlank = c :: (behind ++ more) :=
      List.dropWhile_cons_of_neg (by simp [blank])
    unfold rawEnd?
    simp only [front]
    cases name : element.toList with
    | nil =>
      rw [name] at apart
      cases apart
    | cons w word =>
      rw [name, List.take_succ_cons, List.take_zero] at apart
      unfold afterWord? at apart ⊢
      split at apart
      · cases apart
      · next differs =>
        rw [if_neg differs]
        rfl

theorem cutRaw {element : String} {content more : List Char} (clear : unended element content = true)
    (ended : rawEnd? element ('<' :: '/' :: more) = some rest) :
    cutClosing? (rawEnd? element) (content ++ '<' :: '/' :: more) = some (content, rest) := by
  have step {c : Char} {content : List Char} (none : rawEnd? element (c :: (content ++ '<' :: '/' :: more)) = Option.none)
      (inner : cutClosing? (rawEnd? element) (content ++ '<' :: '/' :: more) = some (content, rest)) :
      cutClosing? (rawEnd? element) (c :: content ++ '<' :: '/' :: more) = some (c :: content, rest) := by
    rw [List.cons_append, cutClosing?, none, inner]
    rfl
  fun_induction unended element content with
  | case1 behind ih =>
    rw [Bool.and_eq_true_iff, Bool.not_eq_true'] at clear
    exact step (rawStarted clear.1) (ih clear.2)
  | case2 c content plain ih =>
    refine step (rawOther fun s same => ?_) (ih clear)
    obtain ⟨rfl, tail⟩ := List.cons.inj same
    cases content with
    | nil => cases tail
    | cons d content =>
      obtain ⟨rfl, _⟩ := List.cons.inj tail
      exact plain content rfl rfl
  | case3 =>
    rw [List.nil_append]
    unfold cutClosing?
    rw [ended]

theorem closedRaw {as : List Quoting} {element : String} {content : List Char} (raw : element ∈ rawElements)
    (valid : ∀ a ∈ as, a.Valid) (clear : unended element content = true) :
    Closed ('<' :: (element.toList ++ (as.flatMap (·.chars) ++ '>' :: (content ++ '<' :: '/' :: (element.toList ++ ['>'])))))
      (identifiers [tagToken element.toList as false]) := by
  obtain ⟨plain, lowered, found, ended⟩ : PlainName element.toList ∧ lowerText element.toList = element ∧
      plainEnd? (element.toList ++ ['>']) = some (element, []) ∧
      ∀ rest, rawEnd? element ('<' :: '/' :: (element.toList ++ '>' :: rest)) = some rest := by
    simp only [rawElements, List.mem_cons, List.not_mem_nil, or_false] at raw
    rcases raw with rfl | rfl <;> exact ⟨⟨by decide, List.all_eq_true.mp (by decide)⟩, by decide, by decide, fun _ => rfl⟩
  intro rest more scan
  have whole : '<' :: (element.toList ++ (as.flatMap (·.chars) ++
      '>' :: (content ++ '<' :: '/' :: (element.toList ++ ['>'])))) ++ rest =
      '<' :: (element.toList ++ (as.flatMap (·.chars) ++
        '>' :: (content ++ '<' :: '/' :: (element.toList ++ '>' :: rest)))) := by simp
  have blank : isBlank '>' = false := by decide
  have start : next false none ('<' :: (element.toList ++ (as.flatMap (·.chars) ++
      '>' :: (content ++ '<' :: '/' :: (element.toList ++ '>' :: rest))))) =
      .ok (.advance [tagToken element.toList as false] (some element)
        (content ++ '<' :: '/' :: (element.toList ++ '>' :: rest))) := by
    rw [nextAngle, angleLetter (letterFront plain), startQuoted plain valid (.tag _),
      List.dropWhile_cons_of_neg (by simp [blank])]
    simp only [tagToken, lowered, List.contains_iff_mem.mpr raw, Bool.not_false, Bool.and_self, if_true]
  have inner : next false (some element) (content ++ '<' :: '/' :: (element.toList ++ '>' :: rest)) =
      .ok (.advance (textTokens content ++ [.closing element]) none rest) := by
    have between : (('<' :: '/' :: (element.toList ++ '>' :: rest)).take
        (('<' :: '/' :: (element.toList ++ '>' :: rest)).length - rest.length)) = '<' :: '/' :: (element.toList ++ ['>']) := by
      have parts : '<' :: '/' :: (element.toList ++ '>' :: rest) = '<' :: '/' :: (element.toList ++ ['>']) ++ rest := by
        simp
      rw [parts, List.length_append, Nat.add_sub_cancel, List.take_left]
    unfold next rawStep
    simp only [cutRaw clear (ended rest), List.drop_left, List.length_append, Nat.add_sub_cancel_left] at between ⊢
    rw [between]
    simp only [List.drop_succ_cons, List.drop_zero, found, beq_self_eq_true, if_true]
  rw [whole]
  refine ⟨_, Scan.step start ?_ (Scan.step inner ?_ scan), ?_⟩
  · simp only [List.length_append, List.length_cons]
    omega
  · simp only [List.length_append, List.length_cons]
    omega
  · have text : identifiers (textTokens content ++ [.closing element]) = [] := by
      unfold textTokens
      split <;> rfl
    rw [identifiersAppend, identifiersAppend, text, List.nil_append]

end Tags

end LiveMarkup.Markup
