import LiveMarkup.Proofs.Markup.Origin
import LiveMarkup.Proofs.Render.Standing
/-! Texts are read where they stand. The placeholders in the texts of the tokens of some markup all stand in the
markup, in the same order. -/
namespace LiveMarkup.Markup
open Text Render

variable {number : Nat} {s s' a b t rest before : List Char}

section Copies

theorem cutCopied {pattern : List Char} (h : cut? pattern s = some (before, rest)) : s = before ++ (pattern ++ rest) := by
  have front {s : List Char} (fits : pattern.isPrefixOf s = true) : s = pattern ++ s.drop pattern.length := by
    obtain ⟨rest, rfl⟩ := List.isPrefixOf_iff_prefix.mp fits
    rw [List.drop_left]
  induction s generalizing before with
  | nil =>
    unfold cut? at h
    split at h
    · next fits =>
      cases h
      exact front fits
    · cases h
  | cons c s ih =>
    unfold cut? at h
    split at h
    · next fits =>
      cases h
      exact front fits
    · obtain ⟨p, found, same⟩ := Option.map_eq_some_iff.mp h
      cases same
      exact congrArg (c :: ·) (ih found)

theorem closingCopied {pattern : List Char → Option (List Char)} (fits : ∀ {s rest}, pattern s = some rest → rest <:+ s)
    (h : Reader.cutClosing? pattern s = some (before, rest)) : ∃ b, s = before ++ b ∧ rest <:+ b := by
  induction s generalizing before with
  | nil =>
    unfold Reader.cutClosing? at h
    split at h
    · next found =>
      cases h
      exact ⟨[], rfl, fits found⟩
    · cases h
  | cons c s ih =>
    unfold Reader.cutClosing? at h
    split at h
    · next found =>
      cases h
      exact ⟨c :: s, rfl, fits found⟩
    · obtain ⟨p, found, same⟩ := Option.map_eq_some_iff.mp h
      cases same
      obtain ⟨b, copied, later⟩ := ih found
      exact ⟨b, congrArg (c :: ·) copied, later⟩

end Copies

section Names
open Entity

theorem entryShort {item : String} : (readEntry item).2.length ≤ 2 := by
  unfold readEntry
  simp only
  split
  · exact Nat.le_succ 1
  · exact Nat.le_refl 2

theorem entriesShort {entry : String × List Char} (mem : entry ∈ entries) : entry.2.length ≤ 2 := by
  rw [entries, readAll, List.mem_toArray] at mem
  obtain ⟨item, _, rfl⟩ := List.mem_map.mp mem
  exact entryShort

theorem searchShort {name : String} {low count : Nat} {chars : List Char}
    (h : search entries name low count = some chars) : chars.length ≤ 2 := by
  generalize table : entries = entries at h
  fun_induction search entries name low count with
  | case1 => cases h
  | case2 => cases h
  | case3 _ _ _ _ _ _ _ _ ih => exact ih h
  | case4 _ _ _ _ _ _ _ _ _ ih => exact ih h
  | case5 _ _ _ _ _ _ found =>
    cases h
    exact entriesShort (table ▸ Array.mem_of_getElem? found)

theorem namedShort {name chars : List Char} (h : named? name = some chars) : chars.length ≤ 2 := by
  unfold named? at h
  split at h
  · cases h
    exact Nat.le_succ 1
  · cases h
    exact Nat.le_succ 1
  · cases h
    exact Nat.le_succ 1
  · cases h
    exact Nat.le_succ 1
  · exact searchShort h

end Names

section Draws
open Reader

def tokenKeys (number : Nat) : Token → List String
  | .text t | .aside _ t => placeholders number t
  | .opening _ _ _ | .closing _ => []

def Draws (number : Nat) (s : List Char) (tokens : List Token) (rest : List Char) : Prop :=
  (tokens.flatMap (tokenKeys number) ++ standing number rest).Sublist (standing number s)

theorem drawsNone (later : rest <:+ s) : Draws number s [] rest := standingSuffix later

theorem drawsBare {tokens : List Token} (bare : ∀ token ∈ tokens, tokenKeys number token = []) (later : rest <:+ s) :
    Draws number s tokens rest := by
  rw [Draws, List.flatMap_eq_nil_iff.mpr bare]
  exact standingSuffix later

theorem drawsCopy {token : Token} (text : tokenKeys number token = placeholders number (String.ofList t))
    (copied : s = a ++ (t ++ b)) (later : rest <:+ b) : Draws number s [token] rest := by
  rw [Draws, List.flatMap_singleton, text, copied]
  exact ((scanStanding.append (standingSuffix later)).trans standingAppend).trans standingBehind

theorem drawsText (copied : s = a ++ (t ++ b)) (later : rest <:+ b) : Draws number s [textToken t] rest :=
  drawsCopy rfl copied later

theorem drawsShort (short : t.length ≤ 2) (later : rest <:+ s) : Draws number s [textToken t] rest := by
  refine drawsBare (List.forall_mem_singleton.mpr (List.sublist_nil.mp ?_)) later
  exact @standingShort number t (by omega) ▸ scanStanding

theorem drawsLater {tokens : List Token} (draws : Draws number s' tokens rest) (later : s' <:+ s) :
    Draws number s tokens rest := draws.trans (standingSuffix later)

theorem drawsAppend {tokens tokens' : List Token} (draws : Draws number s tokens s')
    (draws' : Draws number s' tokens' rest) : Draws number s (tokens ++ tokens') rest := by
  rw [Draws, List.flatMap_append, List.append_assoc]
  exact (List.Sublist.append_left draws' _).trans draws

def StepDraws (number : Nat) (s : List Char) : Reader.Step → Prop
  | .advance tokens _ rest => Draws number s tokens rest
  | .halt tokens rest => Draws number s tokens rest

theorem unfinishedDraws {final : Bool} : StepDraws number ('<' :: s) (unfinished final s) := by
  unfold unfinished
  split
  · exact drawsNone (List.suffix_refl _)
  split
  · next before after found =>
    have copied : '<' :: s = [] ++ (('<' :: before ++ ['>']) ++ after) := by rw [cutCopied found]; simp
    exact drawsText copied (List.suffix_refl _)
  split
  · next before after found =>
    have copied : '<' :: s = [] ++ (('<' :: before) ++ ('<' :: after)) := by rw [cutCopied found]; rfl
    exact drawsText copied (List.suffix_refl _)
  · exact @drawsText number _ [] s ['<'] _ rfl (List.suffix_refl _)

theorem finishDraws {final : Bool} {read : Option (Token × List Char)}
    (found : ∀ token rest, read = some (token, rest) → Draws number ('<' :: s) [token] rest) :
    StepDraws number ('<' :: s) (finish final s read) := by
  unfold finish
  split
  · next token rest => exact found token rest rfl
  · exact unfinishedDraws

theorem closedDraws (lead : List Char) {read : Option (List Char × List Char)} {g : List Char × List Char → Token × List Char}
    (opens : s = lead ++ s') (copied : ∀ inside rest, read = some (inside, rest) → ∃ b, s' = inside ++ b ∧ rest <:+ b)
    (text : ∀ p, (g p).2 = p.2 ∧ ∃ front t, p.1 = front ++ t ∧
      tokenKeys number (g p).1 = placeholders number (String.ofList t)) :
    ∀ token rest, read.map g = some (token, rest) → Draws number ('<' :: s) [token] rest := by
  intro token rest found
  obtain ⟨⟨inside, rest⟩, cut, same⟩ := Option.map_eq_some_iff.mp found
  obtain ⟨behind, front, t, is, keys⟩ := text (inside, rest)
  rw [same] at behind keys
  obtain ⟨b, whole, later⟩ := copied inside rest cut
  cases behind
  have stands : '<' :: s = ('<' :: lead ++ front) ++ (t ++ b) := by
    rw [opens, whole, show inside = front ++ t from is]
    simp
  exact drawsCopy keys stands later

theorem cutInside {pattern : List Char} (inside rest : List Char) (h : cut? pattern s = some (inside, rest)) :
    ∃ b, s = inside ++ b ∧ rest <:+ b := ⟨pattern ++ rest, cutCopied h, List.suffix_append _ _⟩

theorem sectionText (p : List Char × List Char) : p.2 = p.2 ∧ ∃ front t, p.1 = front ++ t ∧
    tokenKeys number (sectionToken p.1) = placeholders number (String.ofList t) := by
  refine ⟨rfl, ?_⟩
  unfold sectionToken
  simp only
  split
  · exact ⟨p.1.take 6, p.1.drop 6, (List.take_append_drop 6 p.1).symm, rfl⟩
  · exact ⟨[], p.1, rfl, rfl⟩

theorem sectionDraws {read : Option (Token × List Char)} (opens : s = '!' :: '[' :: s') (h : section? s' = .ok read) :
    ∀ token rest, read = some (token, rest) → Draws number ('<' :: s) [token] rest := by
  unfold section? at h
  simp only at h
  split at h
  · cases h
    exact fun _ _ none => nomatch none
  split at h
  · cases h
  split at h
  · cases h
    exact fun _ _ none => nomatch none
  split at h
  · cases h
    exact closedDraws ['!', '['] opens (fun _ _ => closingCopied sectionSuffix) sectionText
  split at h
  · cases h
    exact closedDraws ['!', '['] opens (fun _ _ => closingCopied conditionSuffix) sectionText
  · cases h

theorem declarationDraws {read : Option (Token × List Char)} (opens : s = '!' :: s') (h : declaration? s' = .ok read) :
    ∀ token rest, read = some (token, rest) → Draws number ('<' :: s) [token] rest := by
  unfold declaration? at h
  split at h
  · exact sectionDraws opens h
  split at h
  · cases h
    have doctype : s = ('!' :: s'.take 7) ++ s'.drop 7 := by rw [opens, List.cons_append, List.take_append_drop]
    refine closedDraws ('!' :: s'.take 7) doctype cutInside fun p => ⟨rfl, p.1.take 1, p.1.drop 1, ?_, rfl⟩
    exact (List.take_append_drop 1 p.1).symm
  · cases h
    exact closedDraws ['!'] opens cutInside fun p => ⟨rfl, [], p.1, rfl, rfl⟩

theorem startBare {token : Token} (h : Tag.readStart s = .tag token rest) : tokenKeys number token = [] := by
  unfold Tag.readStart at h
  simp only at h
  split at h
  · cases h
    rfl
  · cases h
    rfl
  · cases h
  · split at h <;> cases h

theorem endDraws {tokens : List Token} (h : Tag.readEnd? s = some (tokens, rest)) : Draws number s tokens rest := by
  have later := (endReads h).suffix
  unfold Tag.readEnd? at h
  split at h
  · cases h
  · next before after found =>
    split at h
    · cases h
      exact drawsBare (List.forall_mem_singleton.mpr rfl) later
    split at h
    · cases h
      exact drawsBare (List.forall_mem_singleton.mpr rfl) later
    split at h
    · cases h
      exact drawsNone later
    · cases h
      have copied : s = before ++ (['>'] ++ rest) := cutCopied found
      exact @drawsCopy number s [] (['>'] ++ rest) before rest _ rfl copied (List.suffix_append _ _)

theorem angleDraws {final : Bool} {step : Reader.Step} (h : angle final s = .ok step) :
    StepDraws number ('<' :: s) step := by
  unfold angle at h
  split at h
  · cases h
    exact drawsNone (List.suffix_refl _)
  · next rest =>
    split at h
    · next found =>
      cases h
      exact drawsLater (endDraws found) (List.suffix_append ['<', '/'] rest)
    · cases h
      exact unfinishedDraws
  · cases h
    exact finishDraws (closedDraws ['!', '-', '-'] rfl (fun _ _ => closingCopied commentSuffix)
      fun p => ⟨rfl, [], p.1, rfl, rfl⟩)
  · cases h
    exact finishDraws (closedDraws ['?'] rfl cutInside fun p => ⟨rfl, [], p.1, rfl, rfl⟩)
  · next rest _ =>
    cases found : declaration? rest with
    | error e =>
      rw [found] at h
      cases h
    | ok read =>
      rw [found] at h
      cases h
      exact finishDraws (declarationDraws rfl found)
  · next c rest _ _ _ _ =>
    split at h
    · have start := @startReads (c :: rest)
      have bare {token : Token} {rest' : List Char} (opens : Tag.readStart (c :: rest) = .tag token rest')
          (later : rest' <:+ c :: rest) : Draws number ('<' :: c :: rest) [token] rest' :=
        drawsBare (List.forall_mem_singleton.mpr (startBare opens)) (later.trans (List.suffix_cons _ _))
      split at h
      · next opens =>
        have later := (opens ▸ start : StartReads (c :: rest) (.tag _ _)).suffix
        cases h
        exact bare opens later
      · next opens =>
        have later := (opens ▸ start : StartReads (c :: rest) (.tag _ _)).suffix
        cases h
        exact bare opens later
      · next rest' opens =>
        have later : rest' <:+ c :: rest := (opens ▸ start : StartReads (c :: rest) (.content rest'))
        cases h
        obtain ⟨taken, same⟩ := later
        have front : (c :: rest).take ((c :: rest).length - rest'.length) = taken := by
          rw [← same, List.length_append, Nat.add_sub_cancel, List.take_left]
        have copied : '<' :: c :: rest = [] ++ ('<' :: taken ++ rest') := by rw [← same]; rfl
        rw [front]
        exact drawsText copied (List.suffix_refl _)
      · cases h
        exact unfinishedDraws
    · cases h
      exact @drawsText number _ [] (c :: rest) ['<'] _ rfl (List.suffix_refl _)

theorem numberedDraws : StepDraws number ('&' :: '#' :: s) (numbered s) := by
  have reads := @numberedReads s
  revert reads
  unfold numbered
  simp only
  generalize (s.head? == some 'x' || s.head? == some 'X') = hex
  generalize (if hex then s.drop 1 else s) = body
  generalize (if hex then Entity.isHex else Char.isDigit) = isDigit
  split
  · exact fun reads : Reads _ _ _ => @drawsShort number _ [_] _ (Nat.le_succ 1) reads.suffix
  split
  · exact fun _ => @drawsText number _ [] s ['&', '#'] _ rfl (List.suffix_refl _)
  · exact fun _ => drawsNone (List.suffix_refl _)

theorem ampersandDraws {final : Bool} : StepDraws number ('&' :: s) (ampersand final s) := by
  unfold ampersand
  split
  · exact drawsNone (List.suffix_refl _)
  · exact numberedDraws
  · next c rest _ =>
    split
    · simp only
      have front := List.takeWhile_prefix (l := c :: rest) fun c => c.isAlphanum || c == '-' || c == '.'
      generalize (c :: rest).takeWhile (fun c => c.isAlphanum || c == '-' || c == '.') = run at front
      have within : (if run.length < (c :: rest).length then run.length else nameLengthAtEnd run) ≤ run.length := by
        unfold nameLengthAtEnd
        split
        · exact Nat.le_refl _
        · simp only
          omega
      generalize (if run.length < (c :: rest).length then run.length else nameLengthAtEnd run) = length at within
      split
      · have later : afterReference ((c :: rest).drop length) <:+ (c :: rest).drop length := referenceSuffix
        cases found : Entity.named? (run.take length) with
        | some chars =>
          exact drawsShort (namedShort found) (later.trans ((List.drop_suffix _ _).trans (List.suffix_cons _ _)))
        | none =>
          have name : run.take length = (c :: rest).take length := by
            obtain ⟨more, same⟩ := front
            rw [← same, List.take_append_of_le_length within]
          have copied : '&' :: c :: rest = [] ++ ('&' :: run.take length ++ (c :: rest).drop length) := by
            rw [name, List.nil_append, List.cons_append, List.take_append_drop]
          exact drawsText copied later
      split
      · exact drawsNone (List.suffix_cons _ _)
      · exact drawsNone (List.suffix_refl _)
    · exact @drawsText number _ [] (c :: rest) ['&'] _ rfl (List.suffix_refl _)

theorem rawDraws {name : String} : StepDraws number s (rawStep name s) := by
  unfold rawStep
  split
  · exact drawsNone (List.suffix_refl _)
  · next before rest found =>
    obtain ⟨b, copied, taken, rfl⟩ := closingCopied rawSuffix found
    have written : (s.drop before.length).take (s.length - before.length - rest.length) = taken := by
      have length : s.length - before.length - rest.length = taken.length := by
        rw [copied, List.length_append, List.length_append]
        omega
      rw [length, copied, List.drop_left, List.take_left]
    have whole : s = [] ++ (before ++ taken ++ rest) := by rw [copied, List.nil_append, List.append_assoc]
    simp only [written]
    split
    · split
      · have closes : Draws number (taken ++ rest) [.closing name] rest :=
          drawsBare (List.forall_mem_singleton.mpr rfl) (List.suffix_append _ _)
        cases before with
        | nil => exact copied ▸ closes
        | cons c before =>
          have text : Draws number s [textToken (c :: before)] (taken ++ rest) :=
            @drawsText number _ [] (taken ++ rest) _ _ copied (List.suffix_refl _)
          exact drawsAppend text closes
      · exact drawsText whole (List.suffix_refl _)
    · exact drawsText whole (List.suffix_refl _)

theorem nextDraws {final : Bool} {raw : Option String} {step : Reader.Step} (h : next final raw s = .ok step) :
    StepDraws number s step := by
  unfold next at h
  split at h
  · cases h
    exact rawDraws
  · simp only at h
    split at h
    · cases h
      have copied : s = [] ++ (s.takeWhile isOrdinary ++ s.dropWhile isOrdinary) := List.takeWhile_append_dropWhile.symm
      exact drawsText copied (List.suffix_refl _)
    · next ordinary =>
      split at h
      · exact angleDraws h
      · next c rest other =>
        cases h
        have is : c = '&' := by
          have stops : isOrdinary c = false := by simpa [List.takeWhile_cons] using ordinary
          rcases Bool.and_eq_false_iff.mp stops with angle | and
          · exact absurd (by simpa using angle) other
          · simpa using and
        exact is ▸ ampersandDraws
      · cases h
        exact drawsNone (List.suffix_refl _)

theorem passDraws {final : Bool} {fuel : Nat} {raw : Option String} {p : Pass}
    (h : Reader.pass final fuel raw s = .ok p) : Draws number s p.tokens p.rest := by
  induction fuel generalizing raw s p with
  | zero =>
    cases h
    exact drawsNone (List.suffix_refl _)
  | succ fuel ih =>
    cases s with
    | nil =>
      cases h
      exact drawsNone (List.suffix_refl _)
    | cons c s =>
      obtain ⟨step, found, h⟩ := bindOk.mp h
      have draws := @nextDraws number _ _ _ _ found
      cases step with
      | halt tokens rest =>
        cases h
        exact draws
      | advance tokens raw rest =>
        obtain ⟨p, passed, h⟩ := bindOk.mp h
        cases h
        exact drawsAppend draws (ih passed)

theorem tokensDrawn {tokens : List Token} (h : readTokens s = .ok tokens) :
    (tokens.flatMap (tokenKeys number)).Sublist (standing number s) := by
  obtain ⟨first, passed, h⟩ := bindOk.mp h
  obtain ⟨second, passed', h⟩ := bindOk.mp h
  have draws := drawsAppend (@passDraws number _ _ _ _ _ passed) (passDraws passed')
  have tail : Draws number second.rest (if second.raw.isSome then [] else textTokens second.rest) [] := by
    split
    · exact drawsNone List.nil_suffix
    · unfold textTokens
      split
      · exact drawsNone List.nil_suffix
      · exact @drawsText number _ [] [] _ _ (List.append_nil _).symm (List.suffix_refl _)
  cases h
  have whole := drawsAppend draws tail
  rwa [Draws, standing, List.append_nil] at whole

end Draws

end LiveMarkup.Markup
