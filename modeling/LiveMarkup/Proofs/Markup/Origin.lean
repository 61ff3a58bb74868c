import LiveMarkup.Markup.Tree
import LiveMarkup.Proofs.Render.Elements
/-! Where the attributes of a tree come from: each stands in the markup, its name and behind that its value. -/
namespace LiveMarkup.Markup
open Text

def Stands (s : List Char) (name value : String) : Prop :=
  ∃ written behind, written ++ behind <:+ s ∧ name = Tag.lowerText written ∧
    value = String.ofList (Entity.decode (Tag.valueAndRest behind).1)

variable {s rest : List Char}

theorem standsLater {name value : String} (stands : Stands rest name value) (later : rest <:+ s) :
    Stands s name value := by
  obtain ⟨written, behind, inside, named, valued⟩ := stands
  exact ⟨written, behind, inside.trans later, named, valued⟩

section Cuts

theorem frontWhole {pattern : List Char} (fits : pattern.isPrefixOf s = true) :
    pattern ++ s.drop pattern.length <:+ s := by
  obtain ⟨rest, rfl⟩ := List.isPrefixOf_iff_prefix.mp fits
  exact ⟨[], congrArg (pattern ++ ·) List.drop_left⟩

theorem cutWhole {pattern before : List Char} (h : cut? pattern s = some (before, rest)) : pattern ++ rest <:+ s := by
  induction s generalizing before with
  | nil =>
    unfold cut? at h
    split at h
    · next fits =>
      cases h
      exact frontWhole fits
    · cases h
  | cons c s ih =>
    unfold cut? at h
    split at h
    · next fits =>
      cases h
      exact frontWhole fits
    · obtain ⟨p, found, same⟩ := Option.map_eq_some_iff.mp h
      cases same
      exact (ih found).trans (List.suffix_cons c s)

theorem cutSuffix {pattern before : List Char} (h : cut? pattern s = some (before, rest)) : rest <:+ s :=
  (List.suffix_append _ _).trans (cutWhole h)

theorem closingSuffix {pattern : List Char → Option (List Char)} {before : List Char}
    (fits : ∀ {s rest}, pattern s = some rest → rest <:+ s)
    (h : Reader.cutClosing? pattern s = some (before, rest)) : rest <:+ s := by
  induction s generalizing before with
  | nil =>
    unfold Reader.cutClosing? at h
    split at h
    · next found =>
      cases h
      exact fits found
    · cases h
  | cons c s ih =>
    unfold Reader.cutClosing? at h
    split at h
    · next found =>
      cases h
      exact fits found
    · obtain ⟨p, found, same⟩ := Option.map_eq_some_iff.mp h
      cases same
      exact (ih found).trans (List.suffix_cons c s)

theorem gapSuffix : Tag.skipGap s <:+ s := by
  induction s with
  | nil => exact List.suffix_refl _
  | cons c s ih =>
    unfold Tag.skipGap
    split
    · next same => exact ⟨[], same.symm⟩
    · next same =>
      cases same
      split
      · exact ih.trans (List.suffix_cons c s)
      · exact List.suffix_refl _
    · next none => cases none

theorem blanksSuffix {c : Char} (h : Reader.blanksThen? c s = some rest) : rest <:+ s := by
  unfold Reader.blanksThen? at h
  split at h
  · next d rest found =>
    split at h
    · cases h
      exact (List.suffix_cons d _).trans (found ▸ List.dropWhile_suffix _)
    · cases h
  · cases h

theorem commentSuffix (h : Reader.commentEnd? s = some rest) : rest <:+ s := by
  unfold Reader.commentEnd? at h
  split at h
  · exact (blanksSuffix h).trans (List.suffix_append ['-', '-'] _)
  · cases h

theorem sectionSuffix (h : Reader.sectionEnd? s = some rest) : rest <:+ s := by
  unfold Reader.sectionEnd? at h
  split at h
  · obtain ⟨middle, first, second⟩ := Option.bind_eq_some_iff.mp h
    exact (blanksSuffix second).trans ((blanksSuffix first).trans (List.suffix_cons _ _))
  · cases h

theorem conditionSuffix (h : Reader.conditionEnd? s = some rest) : rest <:+ s := by
  unfold Reader.conditionEnd? at h
  split at h
  · exact (blanksSuffix h).trans (List.suffix_cons _ _)
  · cases h

theorem wordSuffix {word : List Char} (h : Reader.afterWord? word s = some rest) : rest <:+ s := by
  induction word generalizing s with
  | nil =>
    cases h
    exact List.suffix_refl _
  | cons w word ih =>
    cases s with
    | nil => cases h
    | cons c s =>
      unfold Reader.afterWord? at h
      split at h
      · exact (ih h).trans (List.suffix_cons c s)
      · cases h

theorem rawSuffix {name : String} (h : Reader.rawEnd? name s = some rest) : rest <:+ s := by
  unfold Reader.rawEnd? at h
  split at h
  · obtain ⟨middle, first, second⟩ := Option.bind_eq_some_iff.mp h
    exact (blanksSuffix second).trans ((wordSuffix first).trans
      ((List.dropWhile_suffix _).trans (List.suffix_append ['<', '/'] _)))
  · cases h

end Cuts

section Tags

theorem valueSuffix : (Tag.valueAndRest s).2 <:+ s := by
  have signs : (s.dropWhile isBlank).drop ((s.dropWhile isBlank).takeWhile (· == '=')).length <:+ s :=
    (List.drop_suffix _ _).trans (List.dropWhile_suffix _)
  have start := (List.dropWhile_suffix isBlank).trans signs
  unfold Tag.valueAndRest
  simp only
  generalize (s.dropWhile isBlank).drop ((s.dropWhile isBlank).takeWhile (· == '=')).length = behind at signs start
  split
  · exact List.suffix_refl _
  split
  · exact List.nil_suffix
  · next q body opens =>
    rw [opens] at start
    split
    · split
      · next value rest found => exact (cutSuffix found).trans ((List.suffix_cons q body).trans start)
      · split
        · exact opens ▸ start
        split
        · exact opens ▸ (List.dropWhile_suffix _).trans start
        · exact List.suffix_refl _
    · exact opens ▸ (List.dropWhile_suffix _).trans start

theorem attributesStand {fuel : Nat} {previous : Char} :
    (∀ a ∈ (Tag.attributesAndRest fuel previous s).1, Stands s a.attribute.1 a.attribute.2) ∧
      (Tag.attributesAndRest fuel previous s).2 <:+ s := by
  induction fuel generalizing previous s with
  | zero => exact ⟨fun a h => absurd h List.not_mem_nil, List.suffix_refl _⟩
  | succ fuel ih =>
    cases s with
    | nil => exact ⟨fun a h => absurd h List.not_mem_nil, List.suffix_refl _⟩
    | cons c s =>
      unfold Tag.attributesAndRest
      split
      · simp only
        have behind : (Tag.valueAndRest (s.dropWhile Tag.isAttributeChar)).2 <:+ c :: s :=
          valueSuffix.trans ((List.dropWhile_suffix _).trans (List.suffix_cons c s))
        have later := gapSuffix.trans behind
        obtain ⟨stand, suffix⟩ := @ih (Tag.skipGap (Tag.valueAndRest (s.dropWhile Tag.isAttributeChar)).2)
          (Tag.lastBefore previous (c :: s)
            (Tag.skipGap (Tag.valueAndRest (s.dropWhile Tag.isAttributeChar)).2))
        refine ⟨List.forall_mem_cons.mpr ⟨?_, fun a h => standsLater (stand a h) later⟩, suffix.trans later⟩
        exact ⟨c :: s.takeWhile Tag.isAttributeChar, s.dropWhile Tag.isAttributeChar,
          ⟨[], congrArg (c :: ·) List.takeWhile_append_dropWhile⟩, rfl, rfl⟩
      · exact ⟨fun a h => absurd h List.not_mem_nil, List.suffix_refl _⟩

end Tags

section Tokens

structure Reads (s : List Char) (tokens : List Token) (rest : List Char) : Prop where
  stand : ∀ name attributes closed, .opening name attributes closed ∈ tokens → ∀ a ∈ attributes, Stands s a.1 a.2
  suffix : rest <:+ s

theorem readsNone (suffix : rest <:+ s) : Reads s [] rest := ⟨fun _ _ _ h => absurd h List.not_mem_nil, suffix⟩

theorem readsOther {t : Token} (other : ∀ name attributes closed, t ≠ .opening name attributes closed)
    (suffix : rest <:+ s) : Reads s [t] rest :=
  ⟨fun name attributes closed h => absurd (List.mem_singleton.mp h).symm (other name attributes closed), suffix⟩

theorem readsText {t : List Char} (suffix : rest <:+ s) : Reads s [Reader.textToken t] rest :=
  readsOther (fun _ _ _ => nofun) suffix

theorem readsLater {s' : List Char} {tokens : List Token} (reads : Reads s' tokens rest) (later : s' <:+ s) :
    Reads s tokens rest :=
  ⟨fun name attributes closed h a ha => standsLater (reads.stand name attributes closed h a ha) later,
    reads.suffix.trans later⟩

theorem readsAppend {s' : List Char} {tokens tokens' : List Token} (reads : Reads s tokens s')
    (reads' : Reads s' tokens' rest) : Reads s (tokens ++ tokens') rest := by
  refine ⟨fun name attributes closed h => ?_, reads'.suffix.trans reads.suffix⟩
  rcases List.mem_append.mp h with h | h
  · exact reads.stand name attributes closed h
  · exact (readsLater reads' reads.suffix).stand name attributes closed h

def StartReads (s : List Char) : Tag.Start → Prop
  | .tag token rest => Reads s [token] rest
  | .content rest => rest <:+ s
  | .incomplete => True

theorem startReads : StartReads s (Tag.readStart s) := by
  unfold Tag.readStart
  simp only
  have gap : Tag.skipGap (s.dropWhile Tag.isTagNameChar) <:+ s := gapSuffix.trans (List.dropWhile_suffix _)
  generalize Tag.skipGap (s.dropWhile Tag.isTagNameChar) = behind at gap
  obtain ⟨stand, suffix⟩ := @attributesStand behind behind.length (Tag.lastBefore 'a' s behind)
  generalize Tag.attributesAndRest behind.length (Tag.lastBefore 'a' s behind) behind = read at stand suffix
  have left := (List.dropWhile_suffix isBlank).trans (suffix.trans gap)
  have opened {closed : Bool} {rest : List Char} (later : rest <:+ read.2.dropWhile isBlank) :
      Reads s [.opening (Tag.lowerText (s.takeWhile Tag.isTagNameChar)) (read.1.map (·.attribute)) closed] rest := by
    refine ⟨fun name attributes closed h a ha => ?_, later.trans left⟩
    cases List.mem_singleton.mp h
    obtain ⟨written, hw, rfl⟩ := List.mem_map.mp ha
    exact standsLater (stand written hw) gap
  split
  · next opens => exact opened (opens ▸ List.suffix_cons _ _)
  · next opens => exact opened (opens ▸ List.suffix_append ['/', '>'] _)
  · trivial
  · next opens =>
    split
    · trivial
    · exact opens ▸ left

theorem endReads {tokens : List Token} (h : Tag.readEnd? s = some (tokens, rest)) : Reads s tokens rest := by
  unfold Tag.readEnd? at h
  split at h
  · cases h
  · next before after found =>
    have later := cutSuffix found
    split at h
    · next name rest plain =>
      cases h
      refine readsOther (fun _ _ _ => nofun) ?_
      unfold Tag.plainEnd? at plain
      simp only at plain
      split at plain
      · next closes =>
        split at plain
        · cases plain
          exact (List.suffix_cons _ _).trans (closes ▸ (List.dropWhile_suffix _).trans
            ((List.dropWhile_suffix _).trans (List.dropWhile_suffix _)))
        · cases plain
      · cases plain
    split at h
    · cases h
      exact readsOther (fun _ _ _ => nofun) later
    split at h
    · cases h
      exact readsNone later
    · cases h
      exact readsOther (fun _ _ _ => nofun) later

def StepReads (s : List Char) : Reader.Step → Prop
  | .advance tokens _ rest => Reads s tokens rest
  | .halt tokens rest => Reads s tokens rest

theorem unfinishedReads {final : Bool} : StepReads ('<' :: s) (Reader.unfinished final s) := by
  unfold Reader.unfinished
  split
  · exact readsNone (List.suffix_refl _)
  split
  · next found => exact readsText ((cutSuffix found).trans (List.suffix_cons _ _))
  split
  · next before after found => exact readsText ((cutWhole found).trans (List.suffix_cons _ _))
  · exact readsText (List.suffix_cons _ _)

theorem finishReads {final : Bool} {read : Option (Token × List Char)}
    (found : ∀ token rest, read = some (token, rest) → Reads ('<' :: s) [token] rest) :
    StepReads ('<' :: s) (Reader.finish final s read) := by
  unfold Reader.finish
  split
  · next token rest => exact found token rest rfl
  · exact unfinishedReads

theorem closedReads (lead : List Char) {s' : List Char} {found : Option (List Char × List Char)}
    {g : List Char × List Char → Token × List Char} (opens : s = lead ++ s')
    (later : ∀ inside rest, found = some (inside, rest) → rest <:+ s')
    (other : ∀ p, (g p).2 = p.2 ∧ ∀ name attributes closed, (g p).1 ≠ .opening name attributes closed) :
    ∀ t rest, found.map g = some (t, rest) → Reads ('<' :: s) [t] rest := by
  intro t rest read
  obtain ⟨p, cut, same⟩ := Option.map_eq_some_iff.mp read
  obtain ⟨second, first⟩ := other p
  rw [same] at first second
  refine readsOther first ?_
  rw [show rest = p.2 from second]
  exact (later p.1 p.2 cut).trans ((List.suffix_append lead s').trans (opens ▸ List.suffix_cons _ _))

theorem sectionOther (p : List Char × List Char) : p.2 = p.2 ∧
    ∀ name attributes closed, Reader.sectionToken p.1 ≠ .opening name attributes closed := by
  refine ⟨rfl, fun name attributes closed => ?_⟩
  unfold Reader.sectionToken
  simp only
  split <;> nofun

theorem sectionReads {s' : List Char} {read : Option (Token × List Char)} (opens : s = '!' :: '[' :: s')
    (h : Reader.section? s' = .ok read) : ∀ t rest, read = some (t, rest) → Reads ('<' :: s) [t] rest := by
  unfold Reader.section? at h
  simp only at h
  split at h
  · cases h
    exact fun _ _ none => nomatch none
  split at h
  · cases h
  split at h
  · cases h
    exact fun _ _ none => nomatch none
  split at h
  · cases h
    exact closedReads ['!', '['] opens (fun _ _ => closingSuffix sectionSuffix) sectionOther
  split at h
  · cases h
    exact closedReads ['!', '['] opens (fun _ _ => closingSuffix conditionSuffix) sectionOther
  · cases h

theorem declarationReads {s' : List Char} {read : Option (Token × List Char)} (opens : s = '!' :: s')
    (h : Reader.declaration? s' = .ok read) : ∀ t rest, read = some (t, rest) → Reads ('<' :: s) [t] rest := by
  unfold Reader.declaration? at h
  split at h
  · exact sectionReads opens h
  split at h
  · cases h
    exact closedReads ['!'] opens (fun _ _ found => (cutSuffix found).trans (List.drop_suffix _ _))
      fun _ => ⟨rfl, fun _ _ _ => nofun⟩
  · cases h
    exact closedReads ['!'] opens (fun _ _ => cutSuffix) fun _ => ⟨rfl, fun _ _ _ => nofun⟩

theorem angleReads {final : Bool} {step : Reader.Step} (h : Reader.angle final s = .ok step) :
    StepReads ('<' :: s) step := by
  unfold Reader.angle at h
  split at h
  · cases h
    exact readsNone (List.suffix_refl _)
  · next rest =>
    split at h
    · next found =>
      cases h
      exact readsLater (endReads found) (List.suffix_append ['<', '/'] rest)
    · cases h
      exact unfinishedReads
  · cases h
    exact finishReads (closedReads ['!', '-', '-'] rfl (fun _ _ => closingSuffix commentSuffix)
      fun _ => ⟨rfl, fun _ _ _ => nofun⟩)
  · cases h
    exact finishReads (closedReads ['?'] rfl (fun _ _ => cutSuffix) fun _ => ⟨rfl, fun _ _ _ => nofun⟩)
  · next rest _ =>
    cases found : Reader.declaration? rest with
    | error e =>
      rw [found] at h
      cases h
    | ok read =>
      rw [found] at h
      cases h
      exact finishReads (declarationReads rfl found)
  · next c rest _ _ _ _ =>
    split at h
    · have start := @startReads (c :: rest)
      split at h
      · next opens =>
        rw [opens] at start
        cases h
        exact readsLater start (List.suffix_cons _ _)
      · next opens =>
        rw [opens] at start
        cases h
        exact readsLater start (List.suffix_cons _ _)
      · next opens =>
        rw [opens] at start
        cases h
        exact readsText (start.trans (List.suffix_cons _ _))
      · cases h
        exact unfinishedReads
    · cases h
      exact readsText (List.suffix_cons _ _)

theorem referenceSuffix : Reader.afterReference s <:+ s := by
  unfold Reader.afterReference
  split
  · exact List.suffix_cons _ _
  · exact List.suffix_refl _

theorem numberedReads : StepReads ('&' :: '#' :: s) (Reader.numbered s) := by
  have whole : s <:+ '&' :: '#' :: s := List.suffix_append ['&', '#'] s
  unfold Reader.numbered
  simp only
  generalize (s.head? == some 'x' || s.head? == some 'X') = hex
  have body : (if hex then s.drop 1 else s) <:+ s := by
    cases hex with
    | true => exact List.drop_suffix _ _
    | false => exact List.suffix_refl _
  generalize (if hex then s.drop 1 else s) = body at body
  generalize (if hex then Entity.isHex else Char.isDigit) = isDigit
  split
  · exact readsText (referenceSuffix.trans ((List.dropWhile_suffix _).trans (body.trans whole)))
  split
  · exact readsText whole
  · exact readsNone (List.suffix_refl _)

theorem ampersandReads {final : Bool} : StepReads ('&' :: s) (Reader.ampersand final s) := by
  unfold Reader.ampersand
  split
  · exact readsNone (List.suffix_refl _)
  · exact numberedReads
  · next c rest _ =>
    split
    · simp only
      generalize (c :: rest).takeWhile (fun c => c.isAlphanum || c == '-' || c == '.') = run
      generalize (if run.length < (c :: rest).length then run.length else Reader.nameLengthAtEnd run) = length
      split
      · exact readsText (referenceSuffix.trans ((List.drop_suffix _ _).trans (List.suffix_cons _ _)))
      split
      · exact readsNone (List.suffix_cons _ _)
      · exact readsNone (List.suffix_refl _)
    · exact readsText (List.suffix_cons _ _)

theorem rawReads {name : String} : StepReads s (Reader.rawStep name s) := by
  unfold Reader.rawStep
  split
  · exact readsNone (List.suffix_refl _)
  · next before rest found =>
    have later : rest <:+ s := closingSuffix rawSuffix found
    simp only
    split
    · split
      · have closes : Reads s [.closing name] rest := readsOther (fun _ _ _ => nofun) later
        cases before with
        | nil => exact closes
        | cons c before => exact readsAppend (readsText (List.suffix_refl s)) closes
      · exact readsText later
    · exact readsText later

theorem nextReads {final : Bool} {raw : Option String} {step : Reader.Step} (h : Reader.next final raw s = .ok step) :
    StepReads s step := by
  unfold Reader.next at h
  split at h
  · cases h
    exact rawReads
  · simp only at h
    split at h
    · cases h
      exact readsText (List.dropWhile_suffix _)
    · next ordinary =>
      split at h
      · exact angleReads h
      · next c rest other =>
        cases h
        have is : c = '&' := by
          have stops : Reader.isOrdinary c = false := by
            simpa [List.takeWhile_cons] using ordinary
          rcases Bool.and_eq_false_iff.mp stops with angle | and
          · exact absurd (by simpa using angle) other
          · simpa using and
        exact is ▸ ampersandReads
      · cases h
        exact readsNone (List.suffix_refl _)

theorem passReads {final : Bool} {fuel : Nat} {raw : Option String} {p : Reader.Pass}
    (h : Reader.pass final fuel raw s = .ok p) : Reads s p.tokens p.rest := by
  induction fuel generalizing raw s p with
  | zero =>
    cases h
    exact readsNone (List.suffix_refl _)
  | succ fuel ih =>
    cases s with
    | nil =>
      cases h
      exact readsNone (List.suffix_refl _)
    | cons c s =>
      obtain ⟨step, found, h⟩ := bindOk.mp h
      have reads := nextReads found
      cases step with
      | halt tokens rest =>
        cases h
        exact reads
      | advance tokens raw rest =>
        obtain ⟨p, passed, h⟩ := bindOk.mp h
        cases h
        exact readsAppend reads (ih passed)

theorem tokensStand {tokens : List Token} (h : readTokens s = .ok tokens) {name : String}
    {attributes : List (String × String)} {closed : Bool} (mem : .opening name attributes closed ∈ tokens) :
    ∀ a ∈ attributes, Stands s a.1 a.2 := by
  obtain ⟨first, passed, h⟩ := bindOk.mp h
  obtain ⟨second, passed', h⟩ := bindOk.mp h
  have reads := readsAppend (passReads passed) (passReads passed')
  cases h
  rcases List.mem_append.mp mem with mem | mem
  · exact reads.stand name attributes closed mem
  · split at mem
    · cases mem
    · unfold Reader.textTokens at mem
      split at mem
      · cases mem
      · exact absurd (List.mem_singleton.mp mem) nofun

end Tokens

section Attributes

variable {a : Attribute} {attributes : List Attribute}

theorem putMem {name value : String} (h : a ∈ Attribute.put name value attributes) :
    a = { name, value } ∨ a ∈ attributes := by
  induction attributes with
  | nil => exact .inl (List.mem_singleton.mp h)
  | cons b rest ih =>
    unfold Attribute.put at h
    split at h
    · exact (List.mem_cons.mp h).imp_right (List.mem_cons_of_mem _)
    · rcases List.mem_cons.mp h with rfl | h
      · exact .inr List.mem_cons_self
      · exact (ih h).imp_right (List.mem_cons_of_mem _)

theorem foldMem {written : List (String × String)}
    (h : a ∈ written.foldl (fun done (name, value) => Attribute.put name value done) attributes) :
    (a.name, a.value) ∈ written ∨ a ∈ attributes := by
  induction written generalizing attributes with
  | nil => exact .inr h
  | cons p rest ih =>
    rcases ih h with mem | mem
    · exact .inl (List.mem_cons_of_mem _ mem)
    · rcases putMem mem with rfl | mem
      · exact .inl List.mem_cons_self
      · exact .inr mem

theorem writtenMem {written : List (String × String)} (h : a ∈ Attribute.ofWritten written) :
    (a.name, a.value) ∈ written := (foldMem h).resolve_right List.not_mem_nil

theorem encodedMem (h : a ∈ Attribute.declareEncoding attributes) :
    ∃ b ∈ attributes, b.name = a.name ∧ b.value = a.value := by
  have same (h : a ∈ attributes) : ∃ b ∈ attributes, b.name = a.name ∧ b.value = a.value := ⟨a, h, rfl, rfl⟩
  have set {name : String} {text : List Char} (h : a ∈ attributes.map fun a =>
      if a.name == name then { a with written? := some (String.ofList text) } else a) :
      ∃ b ∈ attributes, b.name = a.name ∧ b.value = a.value := by
    obtain ⟨b, hb, rfl⟩ := List.mem_map.mp h
    refine ⟨b, hb, ?_⟩
    split <;> exact ⟨rfl, rfl⟩
  unfold Attribute.declareEncoding at h
  simp only at h
  split at h
  · exact set h
  split at h
  · split at h
    · split at h
      · exact set h
      · exact same h
    · exact same h
  · exact same h

end Attributes

section Trees
open Render

variable {st : Tree.State} {n : Node} {nodes : List Node}

def AllStand (s : List Char) (nodes : List Node) : Prop :=
  ∀ e ∈ elements nodes, ∀ a ∈ e.1, Stands s a.name a.value

theorem memElements {e : Element} : e ∈ elements nodes ↔ ∃ n ∈ nodes, e ∈ elementsIn n := by
  induction nodes with
  | nil => exact ⟨fun h => absurd h List.not_mem_nil, fun ⟨_, h, _⟩ => absurd h List.not_mem_nil⟩
  | cons n rest ih => simp only [elements, List.mem_append, ih, List.mem_cons, exists_eq_or_imp]

theorem allCons (first : AllStand s [n]) (rest : AllStand s nodes) : AllStand s (n :: nodes) := by
  rw [← List.singleton_append]
  unfold AllStand
  rw [elementsAppend]
  exact List.forall_mem_append.mpr ⟨first, rest⟩

theorem allReverse (all : AllStand s nodes) : AllStand s nodes.reverse := by
  intro e he
  obtain ⟨n, hn, he⟩ := memElements.mp he
  exact all e (memElements.mpr ⟨n, List.mem_reverse.mp hn, he⟩)

structure Grown (s : List Char) (st : Tree.State) : Prop where
  stack : ∀ o ∈ st.stack, (∀ a ∈ o.attributes, Stands s a.name a.value) ∧ AllStand s o.children
  top : AllStand s st.top

theorem grownAdd (grown : Grown s st) (new : AllStand s [n]) : Grown s (st.add n) := by
  unfold Tree.State.add
  split
  · exact ⟨grown.stack, allCons new grown.top⟩
  · next o rest opens =>
    obtain ⟨innermost, others⟩ := List.forall_mem_cons.mp (opens ▸ grown.stack)
    exact ⟨List.forall_mem_cons.mpr ⟨⟨innermost.1, allCons new innermost.2⟩, others⟩, grown.top⟩

theorem grownText {kind : TextKind} {text : List Char} (grown : Grown s st) : Grown s (st.addText kind text) :=
  grownAdd grown fun _ h => absurd h List.not_mem_nil

theorem grownFlush (grown : Grown s st) : Grown s st.flush := by
  unfold Tree.State.flush
  split
  · exact grown
  · exact grownText ⟨grown.stack, grown.top⟩

theorem grownPop (grown : Grown s st) : Grown s st.pop := by
  unfold Tree.State.pop
  split
  · exact grown
  · next o rest opens =>
    obtain ⟨innermost, others⟩ := List.forall_mem_cons.mp (opens ▸ grown.stack)
    refine grownAdd ⟨others, grown.top⟩ ?_
    unfold AllStand
    rw [elements, elementsIn, elements, List.append_nil]
    exact List.forall_mem_cons.mpr ⟨innermost.1, allReverse innermost.2⟩

theorem grownMany {count : Nat} (grown : Grown s st) : Grown s (st.popMany count) := by
  induction count generalizing st with
  | zero => exact grown
  | succ count ih => exact ih (grownPop grown)

theorem grownStep {token : Token} (grown : Grown s st) (stand : ∀ name attributes closed,
    token = .opening name attributes closed → ∀ a ∈ attributes, Stands s a.1 a.2) : Grown s (st.step token) := by
  cases token with
  | text t => exact ⟨grown.stack, grown.top⟩
  | aside kind t =>
    rw [Tree.State.step]
    exact grownText (grownFlush grown)
  | closing name =>
    rw [Tree.State.step]
    split
    · exact ⟨grown.stack, grown.top⟩
    · simp only
      split
      · exact grownMany (grownFlush grown)
      · exact grownFlush grown
  | opening name written closed =>
    have given (a : Attribute) (h : a ∈ Attribute.ofWritten written) : Stands s a.name a.value :=
      stand name written closed rfl _ (writtenMem h)
    have declared : ∀ a ∈ (if name == "meta" then Attribute.declareEncoding (Attribute.ofWritten written)
        else Attribute.ofWritten written), Stands s a.name a.value := by
      intro a h
      split at h
      · obtain ⟨b, hb, named, valued⟩ := encodedMem h
        rw [← named, ← valued]
        exact given b hb
      · exact given a h
    have opened : Grown s (st.flush.push name (if name == "meta" then
        Attribute.declareEncoding (Attribute.ofWritten written) else Attribute.ofWritten written)) :=
      ⟨List.forall_mem_cons.mpr ⟨⟨declared, fun _ h => absurd h List.not_mem_nil⟩, (grownFlush grown).stack⟩,
        (grownFlush grown).top⟩
    rw [Tree.State.step]
    simp only
    split
    · exact grownPop opened
    split
    · exact ⟨(grownPop opened).stack, (grownPop opened).top⟩
    · exact opened

theorem treeStands {markup : String} {tree : List Node} (h : readTree markup = .ok tree) :
    AllStand markup.toList tree := by
  obtain ⟨tokens, read, h⟩ := bindOk.mp h
  cases h
  have stand {name : String} {attributes : List (String × String)} {closed : Bool}
      (mem : .opening name attributes closed ∈ tokens) := tokensStand read mem
  have grow (tokens' : List Token) (part : ∀ t ∈ tokens', t ∈ tokens) (st : Tree.State)
      (grown : Grown markup.toList st) : Grown markup.toList (tokens'.foldl Tree.State.step st) := by
    induction tokens' generalizing st with
    | nil => exact grown
    | cons t rest ih =>
      obtain ⟨here, later⟩ := List.forall_mem_cons.mp part
      exact ih later _ (grownStep grown fun _ _ _ same => stand (same ▸ here))
  have start : Grown markup.toList {} :=
    ⟨fun _ h => absurd h List.not_mem_nil, fun _ h => absurd h List.not_mem_nil⟩
  exact allReverse (grownMany (grownFlush (grow tokens (fun _ h => h) _ start))).top

end Trees

end LiveMarkup.Markup
