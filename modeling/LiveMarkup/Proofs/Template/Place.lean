import LiveMarkup.Proofs.Markup.Position
import LiveMarkup.Proofs.Markup.Scan
import LiveMarkup.Proofs.Runs
/-! Slots at the start of an attribute value: how the markup before them ends, and when the tokenizer of
the HTML standard is at the start of a value there. -/
namespace LiveMarkup.Template
open Text Standard

structure Opening where
  blank : Char
  name : List Char
  lead : List Char
  trail : List Char
  quote? : Option Char

namespace Opening

def chars (o : Opening) : List Char := o.blank :: (o.name ++ (o.lead ++ '=' :: (o.trail ++ o.quote?.toList)))

structure Valid (space : Char → Bool) (o : Opening) : Prop where
  blank : space o.blank
  lead : ∀ c ∈ o.lead, space c
  trail : ∀ c ∈ o.trail, space c
  named : o.name ≠ []
  plain : ∀ c ∈ o.name, isAttributeNameChar c
  quote : ∀ q ∈ o.quote?, isQuote q

end Opening

variable {m before broken : List Char} {o : Opening} {p : OpenAttribute} {c : Char} {name : List Char}
variable {quote? : Option Char}

theorem plainChar (h : isAttributeNameChar c) : isBlank c = false ∧ isQuote c = false ∧ c ≠ '<' ∧ c ≠ '>' ∧
    c ≠ '/' ∧ c ≠ '=' := by
  simpa [isAttributeNameChar, not_or, and_assoc] using h

theorem blankNotPlain (h : isBlank c) : isAttributeNameChar c = false := by
  simp [isAttributeNameChar, h]

theorem quoteNotBlank (h : isQuote c) : isBlank c = false := by
  simp only [isQuote, Bool.or_eq_true, beq_iff_eq] at h
  rcases h with rfl | rfl <;> decide

section Form

theorem quoteForm {reversed rest : List Char} (h : quoteAtEnd reversed = (quote?, rest)) :
    (∀ q ∈ quote?, isQuote q) ∧ ∃ broken, reversed = broken ++ quote?.toList ++ rest ∧
      (broken = [] ∨ broken = ['\n'] ∧ quote?.isSome) := by
  unfold quoteAtEnd at h
  split at h
  · split at h
    · next q rest' quote =>
      obtain ⟨rfl, rfl⟩ := Prod.mk.inj h
      exact ⟨by simpa using quote, ['\n'], rfl, .inr ⟨rfl, rfl⟩⟩
    · obtain ⟨rfl, rfl⟩ := Prod.mk.inj h
      exact ⟨by simp, [], rfl, .inl rfl⟩
  · split at h
    · next q rest' _ quote =>
      obtain ⟨rfl, rfl⟩ := Prod.mk.inj h
      exact ⟨by simpa using quote, [], rfl, .inl rfl⟩
    · obtain ⟨rfl, rfl⟩ := Prod.mk.inj h
      exact ⟨by simp, [], rfl, .inl rfl⟩
  · obtain ⟨rfl, rfl⟩ := Prod.mk.inj h
    exact ⟨by simp, [], rfl, .inl rfl⟩

theorem openForm (h : openAttribute? m = some p) : ∃ o : Opening, o.Valid isBlank ∧ o.quote? = p.quote? ∧
    ∃ broken, m = p.before ++ o.chars ++ broken ∧ (broken = [] ∨ broken = ['\n'] ∧ p.quote?.isSome) := by
  unfold openAttribute? at h
  cases ends : quoteAtEnd m.reverse with
  | mk quote? rest =>
  obtain ⟨quote, broken, whole, line⟩ := quoteForm ends
  simp only [ends] at h
  split at h
  case h_2 => cases h
  next rest₁ equals =>
  split at h
  case h_2 => cases h
  next last more blank rest₂ name behind =>
  split at h
  case isFalse => cases h
  next isBlank =>
  obtain rfl := Option.some.inj h
  obtain ⟨trail, trails, back⟩ := runSplit equals
  obtain ⟨lead, leads, middle⟩ := runSplit (rfl : rest₁.dropWhile Text.isBlank = _)
  have front := List.takeWhile_append_dropWhile (p := isAttributeNameChar) (l := rest₁.dropWhile Text.isBlank)
  have plain : ∀ c ∈ last :: more, isAttributeNameChar c := fun c mem => List.mem_takeWhile_imp (name ▸ mem)
  rw [name, behind] at front
  refine ⟨⟨blank, (last :: more).reverse, lead.reverse, trail.reverse, quote?⟩,
    ⟨isBlank, ?_, ?_, by simp, ?_, quote⟩, rfl, broken.reverse, ?_, ?_⟩
  · exact fun c mem => leads c (List.mem_reverse.mp mem)
  · exact fun c mem => trails c (List.mem_reverse.mp mem)
  · exact fun c mem => plain c (List.mem_reverse.mp mem)
  · have quoted : quote?.toList.reverse = quote?.toList := by cases quote? <;> rfl
    rw [← List.reverse_reverse m, whole, back, middle, ← front]
    simp [Opening.chars, quoted]
  · rcases line with rfl | ⟨rfl, some⟩
    · exact .inl rfl
    · exact .inr ⟨rfl, some⟩

theorem quoteNone {trail rest : List Char} (trails : ∀ c ∈ trail, isBlank c) :
    quoteAtEnd (trail ++ '=' :: rest) = (none, trail ++ '=' :: rest) := by
  have blankNoQuote {c : Char} (h : isBlank c) : isQuote c = false := by
    by_contra quote
    rw [quoteNotBlank (by simpa using quote)] at h
    cases h
  match trail, trails with
  | [], _ => rfl
  | [c], trails =>
    have other := blankNoQuote (trails c List.mem_cons_self)
    unfold quoteAtEnd
    split
    · next same =>
      obtain ⟨rfl, rfl, rfl⟩ := by simpa using same
      rfl
    · next same =>
      obtain ⟨rfl, rfl⟩ := by simpa using same
      simp [other]
    · next same => cases same
  | c :: d :: more, trails =>
    have other := blankNoQuote (trails c List.mem_cons_self)
    have second := blankNoQuote (trails d (List.mem_cons_of_mem _ List.mem_cons_self))
    unfold quoteAtEnd
    split
    · next same =>
      obtain ⟨rfl, rfl, rfl⟩ := by simpa using same
      simp [second]
    · next same =>
      obtain ⟨rfl, rfl⟩ := by simpa using same
      simp [other]
    · next same => cases same

theorem quoteFront {q : Char} {rest : List Char} (quote : isQuote q) : quoteAtEnd (q :: rest) = (some q, rest) := by
  unfold quoteAtEnd
  split
  · next same =>
    obtain ⟨rfl, _⟩ := List.cons.inj same
    cases quote
  · next same =>
    obtain ⟨rfl, rfl⟩ := List.cons.inj same
    simp [quote]
  · next same => cases same

theorem openQuote {q : Char} (quote : isQuote q) (h : openAttribute? (m ++ q :: broken) = some p)
    (line : broken = [] ∨ broken = ['\n']) : p.quote? = some q := by
  have ends : (quoteAtEnd (m ++ q :: broken).reverse).1 = some q := by
    rcases line with rfl | rfl
    · simp [quoteFront quote]
    · simp [quoteAtEnd, quote]
  unfold openAttribute? at h
  cases split : quoteAtEnd (m ++ q :: broken).reverse with
  | mk quote? rest =>
  simp only [split] at h ends
  repeat' split at h
  all_goals cases h
  exact ends

theorem formOpen (valid : o.Valid isBlank) : openAttribute? (before ++ o.chars) = some ⟨before, o.quote?⟩ := by
  obtain ⟨blank, name, lead, trail, quote?⟩ := o
  obtain ⟨isBlank, leads, trails, named, plain, quote⟩ := valid
  have reversed : (before ++ (Opening.mk blank name lead trail quote?).chars).reverse =
      quote?.toList ++ (trail.reverse ++ '=' :: (lead.reverse ++ (name.reverse ++ blank :: before.reverse))) := by
    cases quote? <;> simp [Opening.chars]
  have quoted : quoteAtEnd (before ++ (Opening.mk blank name lead trail quote?).chars).reverse =
      (quote?, trail.reverse ++ '=' :: (lead.reverse ++ (name.reverse ++ blank :: before.reverse))) := by
    rw [reversed]
    cases quote? with
    | none => exact quoteNone fun c mem => trails c (List.mem_reverse.mp mem)
    | some q => exact quoteFront (quote q rfl)
  have equals : (trail.reverse ++ '=' :: (lead.reverse ++ (name.reverse ++ blank :: before.reverse))).dropWhile
      Text.isBlank = '=' :: (lead.reverse ++ (name.reverse ++ blank :: before.reverse)) :=
    runDropped (fun c mem => trails c (List.mem_reverse.mp mem)) (by rintro _ ⟨⟩; decide)
  have plain' : ∀ c ∈ name.reverse, isAttributeNameChar c := fun c mem => plain c (List.mem_reverse.mp mem)
  have leading : (lead.reverse ++ (name.reverse ++ blank :: before.reverse)).dropWhile Text.isBlank =
      name.reverse ++ blank :: before.reverse := by
    refine runDropped (fun c mem => leads c (List.mem_reverse.mp mem)) fun c mem => ?_
    cases split : name.reverse with
    | nil => exact absurd (List.reverse_eq_nil_iff.mp split) named
    | cons d more =>
      rw [split] at mem
      obtain rfl := Option.some.inj mem
      exact (plainChar (plain' d (split ▸ List.mem_cons_self))).1
  have ends : ∀ c ∈ (blank :: before.reverse).head?, isAttributeNameChar c = false := by
    rintro _ ⟨⟩
    exact blankNotPlain isBlank
  unfold openAttribute?
  simp only [quoted, equals, leading, runTaken plain' ends, runDropped plain' ends]
  cases split : name.reverse with
  | nil => exact absurd (List.reverse_eq_nil_iff.mp split) named
  | cons d more => simp [isBlank]

end Form

section Start

/-- At the start of the value of the attribute `name`, behind the quote if there is one. -/
structure AtStart (t : Tokenizer) (name : List Char) (quote? : Option Char) : Prop where
  named : t.tag.attributes.head? = some name
  place : quote? = none ∧ t.state = .beforeValue ∨ ∃ q, quote? = some q ∧ t.state = .quoted q ∧ t.value = []

def between : State → Bool
  | .beforeAttribute | .afterAttribute => true
  | _ => false

variable {t : Tokenizer} {w : List Char}

theorem plainExtends (h : isAttributeNameChar c) : isMarkupBlank c = false ∧ c ≠ '/' ∧ c ≠ '>' ∧ c ≠ '=' := by
  obtain ⟨blank, _, _, angle, slash, equals⟩ := plainChar h
  refine ⟨?_, slash, angle, equals⟩
  by_contra markup
  rw [isBlank_of_isMarkupBlank (by simpa using markup)] at blank
  cases blank

theorem nameMore (plain : ∀ c ∈ w, isAttributeNameChar c) (inName : t.state = .attributeName)
    (named : t.tag.attributes.head? = some name) : (w.foldl Tokenizer.step t).state = .attributeName ∧
      (w.foldl Tokenizer.step t).tag.attributes.head? = some (name ++ w.map Char.toLower) := by
  induction w generalizing t name with
  | nil => simpa using ⟨inName, named⟩
  | cons c w ih =>
    obtain ⟨blank, slash, angle, equals⟩ := plainExtends (plain c List.mem_cons_self)
    have same : t.step c = t.extendAttribute c := by
      simp [Tokenizer.step, inName, blank, slash, angle, equals]
    rw [List.foldl_cons, same]
    have extended : (t.extendAttribute c).tag.attributes.head? = some (name ++ [c.toLower]) := by
      simp [Tokenizer.extendAttribute, List.head?_modifyHead, named]
    simpa using ih (t := t.extendAttribute c) (fun c mem => plain c (List.mem_cons_of_mem _ mem)) inName extended

theorem nameRead (plain : ∀ c ∈ w, isAttributeNameChar c) (filled : w ≠ []) (place : between t.state) :
    (w.foldl Tokenizer.step t).state = .attributeName ∧
      (w.foldl Tokenizer.step t).tag.attributes.head? = some (w.map Char.toLower) := by
  cases w with
  | nil => exact absurd rfl filled
  | cons c w =>
    obtain ⟨blank, slash, angle, equals⟩ := plainExtends (plain c List.mem_cons_self)
    have same : t.step c = t.beginAttribute c := by
      cases s : t.state <;> rw [s] at place <;> try cases place
      · simp [Tokenizer.step, s, Tokenizer.atAttribute, blank, slash, angle]
      · simp [Tokenizer.step, s, blank, slash, angle, equals]
    rw [List.foldl_cons, same]
    exact nameMore (t := t.beginAttribute c) (fun c mem => plain c (List.mem_cons_of_mem _ mem)) rfl rfl

theorem leadRead (blanks : ∀ c ∈ w, isMarkupBlank c) (place : t.state = .attributeName ∨ t.state = .afterAttribute) :
    ((w.foldl Tokenizer.step t).state = .attributeName ∨ (w.foldl Tokenizer.step t).state = .afterAttribute) ∧
      (w.foldl Tokenizer.step t).tag = t.tag := by
  induction w generalizing t with
  | nil => exact ⟨place, rfl⟩
  | cons c w ih =>
    have blank := blanks c List.mem_cons_self
    have same : (t.step c).state = .afterAttribute ∧ (t.step c).tag = t.tag := by
      rcases place with s | s <;> simp [Tokenizer.step, s, blank, Tokenizer.goto]
    obtain ⟨state, tag⟩ := ih (t := t.step c) (fun c mem => blanks c (List.mem_cons_of_mem _ mem)) (.inr same.1)
    exact ⟨state, tag.trans same.2⟩

theorem trailRead (blanks : ∀ c ∈ w, isMarkupBlank c) (place : t.state = .beforeValue) :
    w.foldl Tokenizer.step t = t := by
  induction w with
  | nil => rfl
  | cons c w ih =>
    have same : t.step c = t := by simp [Tokenizer.step, place, blanks c List.mem_cons_self]
    rw [List.foldl_cons, same]
    exact ih fun c mem => blanks c (List.mem_cons_of_mem _ mem)

theorem startRead (valid : o.Valid isMarkupBlank) (place : between (read (before ++ [o.blank])).state) :
    AtStart (read (before ++ o.chars)) (o.name.map Char.toLower) o.quote? := by
  obtain ⟨blank, name, lead, trail, quote?⟩ := o
  have whole : before ++ (Opening.mk blank name lead trail quote?).chars =
      before ++ [blank] ++ (name ++ (lead ++ '=' :: (trail ++ quote?.toList))) := by simp [Opening.chars]
  obtain ⟨inName, named⟩ := nameRead valid.plain valid.named place
  obtain ⟨inLead, sameTag⟩ := leadRead valid.lead (.inl inName)
  rw [whole, readAppend, List.foldl_append, List.foldl_append, List.foldl_cons, List.foldl_append]
  generalize name.foldl Tokenizer.step (read (before ++ [blank])) = t₁ at *
  generalize lead.foldl Tokenizer.step t₁ = t₂ at *
  have equals : t₂.step '=' = t₂.goto .beforeValue := by
    have blank : isMarkupBlank '=' = false := by decide
    rcases inLead with s | s <;> simp [Tokenizer.step, s, blank]
  have named' : (t₂.goto .beforeValue).tag.attributes.head? = some (name.map Char.toLower) := by
    show t₂.tag.attributes.head? = _
    rw [sameTag, named]
  rw [equals, trailRead valid.trail rfl]
  cases quote? with
  | none => exact ⟨named', .inl ⟨rfl, rfl⟩⟩
  | some q =>
    have quote := valid.quote q rfl
    have opened : (t₂.goto .beforeValue).step q = (t₂.goto .beforeValue).beginValue (.quoted q) [] := by
      simp only [isQuote, Bool.or_eq_true, beq_iff_eq] at quote
      rcases quote with rfl | rfl <;> rfl
    show AtStart ((t₂.goto .beforeValue).step q) _ _
    rw [opened]
    exact ⟨named', .inr ⟨q, rfl, rfl, rfl⟩⟩

theorem blankLower : isBlank c.toLower = isBlank c := by
  unfold Char.toLower
  split
  case isTrue upper =>
    have low := UInt32.le_iff_toNat_le.mp upper.1
    have high := UInt32.le_iff_toNat_le.mp upper.2
    have lowered : (c.val + 32).toNat = c.val.toNat + 32 := by
      simp only [UInt32.toNat_add, UInt32.reduceToNat, Char.reduceVal] at low high ⊢
      omega
    simp only [isBlank, Char.toNat]
    grind
  case isFalse => rfl

theorem frontUnique {front raw lead trail : List Char} (valid : o.Valid isBlank)
    (same : before ++ o.blank :: (o.name ++ (o.lead ++ '=' :: o.trail)) = front ++ raw ++ lead ++ '=' :: trail)
    (leads : ∀ c ∈ lead, isMarkupBlank c) (trails : ∀ c ∈ trail, isMarkupBlank c)
    (named : raw.map Char.toLower = o.name.map Char.toLower) :
    o.lead = lead ∧ o.trail = trail ∧ before ++ [o.blank] = front := by
  have blanks {l : List Char} (h : ∀ c ∈ l, isMarkupBlank c) : ∀ c ∈ l.reverse, isBlank c := fun c mem =>
    isBlank_of_isMarkupBlank (h c (List.mem_reverse.mp mem))
  have blanks' {l : List Char} (h : ∀ c ∈ l, isBlank c) : ∀ c ∈ l.reverse, isBlank c := fun c mem =>
    h c (List.mem_reverse.mp mem)
  have solid {l rest : List Char} (filled : l ≠ []) (h : ∀ c ∈ l, isBlank c = false) :
      ∀ c ∈ (l.reverse ++ rest).head?, isBlank c = false := by
    intro c mem
    cases split : l.reverse with
    | nil => exact absurd (List.reverse_eq_nil_iff.mp split) filled
    | cons d more =>
      rw [split] at mem
      obtain rfl := Option.some.inj mem
      exact h d (List.mem_reverse.mp (split ▸ List.mem_cons_self))
  have plain : ∀ c ∈ o.name, isBlank c = false := fun c mem => (plainChar (valid.plain c mem)).1
  have solidRaw : ∀ c ∈ raw, isBlank c = false := by
    intro c mem
    obtain ⟨d, inName, lower⟩ := List.mem_map.mp (named ▸ List.mem_map_of_mem mem : c.toLower ∈ o.name.map Char.toLower)
    rw [← blankLower, ← lower, blankLower]
    exact plain d inName
  have filled : raw ≠ [] := by
    rintro rfl
    exact valid.named (List.map_eq_nil_iff.mp named.symm)
  have reversed : o.trail.reverse ++ '=' :: (o.lead.reverse ++ (o.name.reverse ++ (o.blank :: before.reverse))) =
      trail.reverse ++ '=' :: (lead.reverse ++ (raw.reverse ++ front.reverse)) := by
    simpa using congrArg List.reverse same
  obtain ⟨sameTrail, rest⟩ := runUnique reversed (blanks' valid.trail) (blanks trails) (by rintro _ ⟨⟩; decide)
    (by rintro _ ⟨⟩; decide)
  obtain ⟨sameLead, rest⟩ := runUnique (List.cons.inj rest).2 (blanks' valid.lead) (blanks leads)
    (solid valid.named plain) (solid filled solidRaw)
  have lengths : o.name.reverse.length = raw.reverse.length := by
    simpa using (congrArg List.length named).symm
  obtain ⟨_, sameFront⟩ := List.append_inj rest lengths
  exact ⟨List.reverse_injective sameLead, List.reverse_injective sameTrail, by simpa using congrArg List.reverse sameFront⟩

/-- A slot behind `m` is taken for the start of the value of the attribute that `o` fronts, behind
`before`. -/
structure Recognized (m before : List Char) (o : Opening) : Prop where
  place : attributePlace? m = some ⟨before, o.quote?⟩
  valid : o.Valid isBlank
  text : ∃ broken, m = before ++ o.chars ++ broken ∧ (broken = [] ∨ broken = ['\n'] ∧ o.quote?.isSome)

theorem recognized (h : attributePlace? m = some p) : ∃ o, Recognized m p.before o := by
  have place := h
  unfold attributePlace? at h
  split at h
  · obtain ⟨o, valid, quote, text⟩ := openForm h
    exact ⟨o, by rw [place, quote], valid, by rw [quote]; exact text⟩
  · cases h

theorem Recognized.inTag (h : Recognized m before o) : endsInTag m := by
  have place := h.place
  unfold attributePlace? at place
  split at place
  · next inTag => exact inTag
  · cases place

theorem startTraced (start : AtStart (read m) name quote?) : ∃ front raw lead trail tag,
    m = front ++ raw ++ lead ++ '=' :: trail ++ quote?.toList ∧ Named front raw tag ∧
    tag.attributes.head? = some name ∧ (∀ c ∈ lead, isMarkupBlank c) ∧ (∀ c ∈ trail, isMarkupBlank c) ∧
    ∀ q ∈ quote?, isQuote q := by
  have trace := traced (m := m)
  rcases start.place with ⟨rfl, state⟩ | ⟨q, rfl, state, value⟩
  · simp only [Traced, state] at trace
    obtain ⟨front, raw, lead, trail, same, named, leads, trails⟩ := trace
    exact ⟨front, raw, lead, trail, _, by simpa using same, named, start.named, leads, trails, by simp⟩
  · simp only [Traced, state, value] at trace
    obtain ⟨quote, _, front₀, whole, before, tag⟩ := trace
    have trace₀ := traced (m := front₀)
    simp only [Traced, before] at trace₀
    obtain ⟨front, raw, lead, trail, same, named, leads, trails⟩ := trace₀
    exact ⟨front, raw, lead, trail, _, by rw [whole, same]; simp, named, tag ▸ start.named, leads, trails,
      by simpa using quote⟩

theorem entersBetween (blank : isBlank c) (enters : (read (before ++ [c])).state.enters) :
    isMarkupBlank c ∧ between (read (before ++ [c])).state := by
  have trace := traced (m := before ++ [c])
  have last {front : List Char} {d : Char} (same : before ++ [c] = front ++ [d]) : c = d := by
    simpa using (List.append_inj' same rfl).2
  cases s : (read (before ++ [c])).state <;> rw [s] at enters <;> try cases enters
  all_goals simp only [Traced, s] at trace
  case beforeAttribute =>
    obtain ⟨front, d, same, markup⟩ := trace
    exact ⟨last same ▸ markup, rfl⟩
  case afterAttribute =>
    obtain ⟨front, raw, lead, d, same, _, blanks⟩ := trace
    rw [← List.append_assoc] at same
    exact ⟨last same ▸ blanks d (by simp), rfl⟩
  case afterValue =>
    obtain ⟨front, d, same, quote⟩ := trace
    rw [last same, quoteNotBlank quote] at blank
    cases blank
  case selfClosing =>
    obtain ⟨front, same⟩ := trace
    rw [last same] at blank
    exact absurd blank (by decide)

theorem recognizedStart (h : Recognized m before o) : AtStart (read m) (o.name.map Char.toLower) o.quote? ↔
    m = before ++ o.chars ∧ o.Valid isMarkupBlank ∧ between (read (before ++ [o.blank])).state := by
  constructor
  · intro start
    obtain ⟨broken, whole, line⟩ := h.text
    obtain ⟨front, raw, lead, trail, tag, same, named, head, leads, trails, quote⟩ := startTraced start
    have none : broken = [] := by
      rcases line with none | ⟨rfl, some⟩
      · exact none
      · obtain ⟨q, is⟩ := Option.isSome_iff_exists.mp some
        rw [is] at same
        have last := congrArg List.getLast? (whole.symm.trans same)
        simp only [List.getLast?_append, Option.toList_some, List.getLast?_singleton, Option.some_or] at last
        obtain rfl := Option.some.inj last
        exact absurd (quote '\n' is) (by decide)
    subst none
    rw [List.append_nil] at whole
    have chars : before ++ o.blank :: (o.name ++ (o.lead ++ '=' :: o.trail)) ++ o.quote?.toList =
        front ++ raw ++ lead ++ '=' :: trail ++ o.quote?.toList := by
      rw [← same, whole]
      simp [Opening.chars]
    have names : raw.map Char.toLower = o.name.map Char.toLower :=
      Option.some.inj (named.name.symm.trans head)
    obtain ⟨sameLead, sameTrail, sameFront⟩ :=
      frontUnique h.valid (List.append_cancel_right chars) leads trails names
    have enters := named.enters
    rw [← sameFront] at enters
    obtain ⟨blank, place⟩ := entersBetween h.valid.blank enters
    exact ⟨whole, ⟨blank, sameLead ▸ leads, sameTrail ▸ trails, h.valid.named, h.valid.plain, h.valid.quote⟩, place⟩
  · rintro ⟨rfl, valid, place⟩
    exact startRead valid place

theorem startRecognized (start : AtStart (read m) name quote?) :
    (∃ before o, Recognized m before o ∧ o.name.map Char.toLower = name ∧ o.quote? = quote?) ↔
      endsInTag m ∧ ∃ before o, m = before ++ Opening.chars o ∧ o.Valid isMarkupBlank ∧
        o.name.map Char.toLower = name ∧ o.quote? = quote? := by
  constructor
  · rintro ⟨before, o, found, rfl, rfl⟩
    obtain ⟨same, valid, _⟩ := (recognizedStart found).mp start
    exact ⟨found.inTag, before, o, same, valid, rfl, rfl⟩
  · rintro ⟨inTag, before, o, same, valid, named, quote⟩
    have wide : o.Valid isBlank :=
      ⟨isBlank_of_isMarkupBlank valid.blank, fun c mem => isBlank_of_isMarkupBlank (valid.lead c mem),
        fun c mem => isBlank_of_isMarkupBlank (valid.trail c mem), valid.named, valid.plain, valid.quote⟩
    have place : attributePlace? m = some ⟨before, o.quote?⟩ := by
      rw [attributePlace?, if_pos inTag, same, formOpen wide]
    exact ⟨before, o, ⟨place, wide, [], by simpa using same, .inl rfl⟩, named, quote⟩

def EndsInFront (text : List Char) : Prop :=
  ∃ front o broken, o.Valid isBlank ∧ text = front ++ Opening.chars o ++ broken ∧
    (broken = [] ∨ broken = ['\n'] ∧ o.quote?.isSome)

theorem recognizedInside {q : Char} (h : Recognized m before o) (inside : (read m).state = .quoted q)
    (filled : (read m).value ≠ [] ∧ (read m).value ≠ ['\n']) :
    ∃ value broken, (read m).value = value ++ o.chars ++ broken ∧ (broken = [] ∨ broken = ['\n'] ∧ o.quote?.isSome) := by
  obtain ⟨broken, whole, line⟩ := h.text
  have trace := traced (m := m)
  simp only [Traced, inside] at trace
  obtain ⟨quote, _, front, same, _⟩ := trace
  have noQuote {c : Char} (blank : isBlank c) : c ≠ q := by
    rintro rfl
    rw [quoteNotBlank quote] at blank
    cases blank
  have equal : before ++ (o.chars ++ broken) = front ++ q :: (read m).value := by
    rw [← List.append_assoc, ← whole]
    exact same
  -- The opening quote would be the one of the front, which has at most a line break behind it.
  have short {more : List Char} (rest : o.quote?.toList ++ broken = more ++ q :: (read m).value) : False := by
    rcases line with rfl | ⟨rfl, some⟩
    · cases is : o.quote? with
      | none => simp [is] at rest
      | some d =>
        rw [is] at rest
        cases more with
        | nil => exact filled.1 (List.cons.inj rest).2.symm
        | cons e more => simp at rest
    · obtain ⟨d, is⟩ := Option.isSome_iff_exists.mp some
      rw [is] at rest
      rcases more with _ | ⟨e, _ | ⟨e', more⟩⟩
      · exact filled.2 (List.cons.inj rest).2.symm
      · obtain ⟨rfl, -⟩ := List.cons.inj (List.cons.inj rest).2
        cases quote
      · simp at rest
  rcases List.append_eq_append_iff.mp equal with ⟨more, rfl, rest⟩ | ⟨more, rfl, rest⟩
  · have split : o.chars ++ broken = (o.blank :: (o.name ++ (o.lead ++ '=' :: o.trail))) ++ (o.quote?.toList ++ broken) := by
      simp [Opening.chars]
    rw [split] at rest
    rcases List.append_eq_append_iff.mp rest with ⟨more', _, inner⟩ | ⟨more', body, inner⟩
    · exact (short inner).elim
    · cases more' with
      | nil => exact (@short [] inner.symm).elim
      | cons d more' =>
        obtain ⟨rfl, -⟩ := List.cons.inj inner
        have mem : q ∈ o.blank :: (o.name ++ (o.lead ++ '=' :: o.trail)) := by
          rw [body]
          simp
        simp only [List.mem_cons, List.mem_append] at mem
        rcases mem with rfl | mem | mem | rfl | mem
        · exact absurd rfl (noQuote h.valid.blank)
        · rw [(plainChar (h.valid.plain q mem)).2.1] at quote
          cases quote
        · exact absurd rfl (noQuote (h.valid.lead q mem))
        · cases quote
        · exact absurd rfl (noQuote (h.valid.trail q mem))
  · cases more with
    | nil => exact absurd (List.cons.inj rest).1.symm (noQuote h.valid.blank)
    | cons d value =>
      obtain ⟨-, rest⟩ := List.cons.inj rest
      exact ⟨value, broken, by rw [List.append_assoc]; exact rest, line⟩

end Start

end LiveMarkup.Template
