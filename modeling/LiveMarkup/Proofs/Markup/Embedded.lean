import LiveMarkup.Proofs.Markup.Standard
import Mathlib.Data.List.Infix
/-! Where a script element ends for the tokenizer. A comment in the script may hold a script of its own,
and then the next end tag belongs to that one. -/
namespace LiveMarkup.Standard
open Text

section Comments

def dashes (x : List Char) : Nat := (x.reverse.takeWhile (· = '-')).length

def Lasting (d : List Char) : Prop := "--".toList <+: d ∧ ¬"-->".toList <:+: d

def Commented (x : List Char) : Prop := ∃ a d, x = a ++ "<!".toList ++ d ∧ Lasting d

def endsName (c : Char) : Bool := isMarkupBlank c || c = '/' || c = '>'

/-- A comment is open at the end of the text in which a script has begun. -/
def Nested (x : List Char) : Prop :=
  ∃ a b w c rest, x = a ++ "<!".toList ++ (b ++ '<' :: w ++ c :: rest) ∧ Lasting (b ++ '<' :: w ++ c :: rest) ∧
    w.map Char.toLower = "script".toList ∧ endsName c

def Endless (x : List Char) : Prop :=
  ∀ a w rest, x = a ++ '<' :: '/' :: w ++ rest → w.map Char.toLower ≠ "script".toList

variable {x y d rest : List Char} {c : Char}

theorem dashesDash : dashes (x ++ ['-']) = dashes x + 1 := by simp [dashes]

theorem dashesOther (other : c ≠ '-') : dashes (x ++ [c]) = 0 := by simp [dashes, other]

theorem dashesBehind : dashes (y ++ "<!".toList ++ d) = dashes d := by
  have stop : ∀ l : List Char,
      ((l ++ '!' :: '<' :: y.reverse).takeWhile (· = '-')).length = (l.takeWhile (· = '-')).length := by
    intro l
    induction l with
    | nil => rfl
    | cons e rest ih =>
      by_cases dash : e = '-'
      · simp [dash, ih]
      · simp [dash]
  simp [dashes, stop]

theorem twoDashes : "--".toList <:+ x ↔ 2 ≤ dashes x := by
  have front : ∀ l : List Char, "--".toList <+: l ↔ 2 ≤ (l.takeWhile (· = '-')).length := by
    intro l
    rcases l with _ | ⟨a, _ | ⟨b, rest⟩⟩
    · decide
    · by_cases dash : a = '-' <;> simp [dash]
    · by_cases dash : a = '-' <;> by_cases dash' : b = '-' <;> simp [dash, dash', eq_comm]
  rw [← List.reverse_prefix, dashes, ← front]
  rfl

theorem lastingSnoc (h : Lasting d) (lasts : ¬(c = '>' ∧ 2 ≤ dashes d)) : Lasting (d ++ [c]) := by
  refine ⟨h.1.trans (List.prefix_append d [c]), fun ended => ?_⟩
  rcases List.infix_concat_iff.mp ended with ended | ended
  · rcases List.suffix_concat_iff.mp ended with none | ⟨t, same, ended⟩
    · cases none
    · have split : t = "--".toList ∧ c = '>' := by
        have := List.append_inj' (show "--".toList ++ ['>'] = t ++ [c] from same) rfl
        exact ⟨this.1.symm, (List.singleton_injective this.2).symm⟩
      exact lasts ⟨split.2, twoDashes.mp (split.1 ▸ ended)⟩
  · exact h.2 ended

theorem lastingFront (h : Lasting (d ++ rest)) (started : "--".toList <+: d) : Lasting d :=
  ⟨started, fun ended => h.2 (ended.trans (List.prefix_append d rest).isInfix)⟩

theorem commentedSnoc (h : Commented x) (lasts : ¬(c = '>' ∧ 2 ≤ dashes x)) : Commented (x ++ [c]) := by
  obtain ⟨a, d, rfl, h⟩ := h
  rw [dashesBehind] at lasts
  exact ⟨a, d ++ [c], by simp, lastingSnoc h lasts⟩

theorem nestedSnoc (h : Nested x) (lasts : ¬(c = '>' ∧ 2 ≤ dashes x)) : Nested (x ++ [c]) := by
  obtain ⟨a, b, w, e, rest, rfl, h, script, ends⟩ := h
  rw [dashesBehind] at lasts
  have longer := lastingSnoc h lasts
  exact ⟨a, b, w, e, rest ++ [c], by simp, by simpa using longer, script, ends⟩

theorem commentedAngle (h : Commented x) (behind : ['<'] <:+ x) :
    ∃ a b, x = a ++ "<!".toList ++ (b ++ ['<']) ∧ Lasting (b ++ ['<']) := by
  obtain ⟨a, d, rfl, h⟩ := h
  obtain ⟨y, same⟩ := behind
  rcases List.eq_nil_or_concat' d with rfl | ⟨b, e, rfl⟩
  · exact absurd h.1 (by decide)
  · rw [← List.append_assoc] at same
    obtain rfl := List.singleton_injective (List.append_inj' same rfl).2
    exact ⟨a, b, rfl, h⟩

end Comments

section Places

def Content.depth : Content → Nat
  | .escaped _ => 1
  | .doubled _ => 2
  | _ => 0

def State.depth : State → Nat
  | .text k | .angle k | .closing k | .closingName k _ => k.depth
  | .doubling _ => 1
  | .undoubling _ => 2
  | _ => 0

inductive Inside (x : List Char) : Content → Prop where
  | script : Inside x .script
  | escaped (commented : Commented x) : Inside x (.escaped (dashes x))
  | doubled (nested : Nested x) : Inside x (.doubled (dashes x))

inductive Located (x : List Char) : State → Prop where
  | text {k} (inside : Inside x k) : Located x (.text k)
  | angle {k} (inside : Inside x k) (still : dashes x = 0) (behind : ['<'] <:+ x) : Located x (.angle k)
  | closing {k} (inside : Inside x k) (still : dashes x = 0) (behind : ['<', '/'] <:+ x) : Located x (.closing k)
  | closingName {k w} (inside : Inside x k) (still : dashes x = 0) (behind : '<' :: '/' :: w <:+ x) :
      Located x (.closingName k (w.map Char.toLower))
  | escape (behind : ['<', '!'] <:+ x) : Located x (.escape false)
  | escapeDash (behind : ['<', '!', '-'] <:+ x) : Located x (.escape true)
  | doubling {a b w} (same : x = a ++ "<!".toList ++ (b ++ '<' :: w)) (lasting : Lasting (b ++ '<' :: w))
      (still : dashes x = 0) : Located x (.doubling (w.map Char.toLower))
  | undoubling {w} (nested : Nested x) (still : dashes x = 0) (behind : '<' :: '/' :: w <:+ x) :
      Located x (.undoubling (w.map Char.toLower))

def Moves (x : List Char) (c : Char) (t t' : Tokenizer) (depth : Nat) : Prop :=
  ∃ s, t' = t.goto s ∧ Located (x ++ [c]) s ∧ (¬(c = '>' ∧ 2 ≤ dashes x) → depth ≤ s.depth)

variable {x w : List Char} {c : Char} {k : Content} {t : Tokenizer}

theorem letterOther (letter : c.isAlpha) : c ≠ '-' := by
  rintro rfl
  exact absurd letter (by decide)

theorem blankOther (ends : isMarkupBlank c ∨ c = '/' ∨ c = '>') : c ≠ '-' := by
  rintro rfl
  exact absurd ends (by decide)

theorem behindSnoc (behind : w <:+ x) : w ++ [c] <:+ x ++ [c] := by
  obtain ⟨y, rfl⟩ := behind
  exact ⟨y, by simp⟩

theorem insideStill (inside : Inside x k) (still : dashes x = 0) (other : c ≠ '-') : Inside (x ++ [c]) k := by
  have lasts : ¬(c = '>' ∧ 2 ≤ dashes x) := by simp [still]
  cases inside with
  | script => exact .script
  | escaped h => exact still ▸ dashesOther other ▸ .escaped (commentedSnoc h lasts)
  | doubled h => exact still ▸ dashesOther other ▸ .doubled (nestedSnoc h lasts)

theorem movesText (inside : Inside x k) : Moves x c t (t.inText k c) k.depth := by
  have angle {k : Content} (h : Inside (x ++ ['<']) k) : Located (x ++ ['<']) (.angle k) :=
    .angle h (dashesOther (by decide)) ⟨x, rfl⟩
  cases inside with
  | script =>
    by_cases open' : c = '<'
    · subst open'
      exact ⟨_, rfl, angle .script, fun _ => Nat.le_refl _⟩
    · exact ⟨_, if_neg open', .text .script, fun _ => Nat.le_refl _⟩
  | escaped h =>
    simp only [Tokenizer.inText]
    split_ifs with dash open' ended
    · subst dash
      exact ⟨_, rfl, .text (dashesDash ▸ .escaped (commentedSnoc h (by simp))), fun _ => Nat.le_refl _⟩
    · subst open'
      refine ⟨_, rfl, angle ?_, fun _ => Nat.le_refl _⟩
      exact dashesOther (x := x) dash ▸ .escaped (commentedSnoc h (by simp))
    · exact ⟨_, rfl, .text .script, fun lasts => absurd ended lasts⟩
    · exact ⟨_, rfl, .text (dashesOther (x := x) dash ▸ .escaped (commentedSnoc h ended)), fun _ => Nat.le_refl _⟩
  | doubled h =>
    simp only [Tokenizer.inText]
    split_ifs with dash open' ended
    · subst dash
      exact ⟨_, rfl, .text (dashesDash ▸ .doubled (nestedSnoc h (by simp))), fun _ => Nat.le_refl _⟩
    · subst open'
      refine ⟨_, rfl, angle ?_, fun _ => Nat.le_refl _⟩
      exact dashesOther (x := x) dash ▸ .doubled (nestedSnoc h (by simp))
    · exact ⟨_, rfl, .text .script, fun lasts => absurd ended lasts⟩
    · exact ⟨_, rfl, .text (dashesOther (x := x) dash ▸ .doubled (nestedSnoc h ended)), fun _ => Nat.le_refl _⟩

theorem movesAngle (inside : Inside x k) (still : dashes x = 0) (behind : ['<'] <:+ x) :
    Moves x c t (t.behindAngle k c) k.depth := by
  have slash {k : Content} (h : Inside x k) : Located (x ++ ['/']) (.closing k) :=
    .closing (insideStill h still (by decide)) (dashesOther (by decide)) (behindSnoc behind)
  cases inside with
  | script =>
    simp only [Tokenizer.behindAngle]
    split_ifs with closes bang
    · subst closes
      exact ⟨_, rfl, slash .script, fun _ => Nat.le_refl _⟩
    · subst bang
      exact ⟨_, rfl, .escape (behindSnoc behind), fun _ => Nat.le_refl _⟩
    · exact movesText .script
  | escaped h =>
    have escaped : Inside x (.escaped 0) := still ▸ .escaped h
    simp only [Tokenizer.behindAngle]
    split_ifs with closes letter
    · subst closes
      exact ⟨_, rfl, slash escaped, fun _ => Nat.le_refl _⟩
    · obtain ⟨a, b, rfl, lasting⟩ := commentedAngle h behind
      have lasts : ¬(c = '>' ∧ 2 ≤ dashes (b ++ ['<'])) := by simp [dashesOther (x := b) (c := '<') (by decide)]
      refine ⟨_, rfl, @Located.doubling _ a b [c] (by simp) ?_ (dashesOther (letterOther letter)), fun _ => Nat.le_refl _⟩
      simpa using lastingSnoc lasting lasts
    · exact movesText escaped
  | doubled h =>
    have doubled : Inside x (.doubled 0) := still ▸ .doubled h
    simp only [Tokenizer.behindAngle]
    split_ifs with closes
    · subst closes
      refine ⟨_, rfl, @Located.undoubling _ [] ?_ (dashesOther (by decide)) (behindSnoc behind), fun _ => Nat.le_refl _⟩
      exact nestedSnoc h (by simp)
    · exact movesText doubled

theorem movesClosing (inside : Inside x k) (still : dashes x = 0) (behind : ['<', '/'] <:+ x) :
    Moves x c t (t.behindSlash k c) k.depth := by
  have name (letter : c.isAlpha) : Located (x ++ [c]) (.closingName k [c.toLower]) := by
    have other := letterOther letter
    exact @Located.closingName _ k [c] (insideStill inside still other) (dashesOther other) (behindSnoc behind)
  have moves : Moves x c t (if c.isAlpha then t.goto (.closingName k [c.toLower]) else t.inText k c) k.depth := by
    split
    · next letter => exact ⟨_, rfl, name letter, fun _ => Nat.le_refl _⟩
    · exact movesText inside
  cases inside <;> exact moves

theorem endlessBehind (endless : Endless x) (behind : '<' :: '/' :: w <:+ x) : w.map Char.toLower ≠ "script".toList := by
  obtain ⟨y, rfl⟩ := behind
  exact endless y w [] (by simp)

theorem movesClosingName (inside : Inside x k) (still : dashes x = 0) (behind : '<' :: '/' :: w <:+ x)
    (named : t.tag.name = "script".toList) (endless : Endless x) :
    Moves x c t (t.inClosingName k (w.map Char.toLower) c) k.depth := by
  unfold Tokenizer.inClosingName
  split_ifs with letter ended
  · have other := letterOther letter
    have more : '<' :: '/' :: (w ++ [c]) <:+ x ++ [c] := behindSnoc behind
    have located := @Located.closingName _ k (w ++ [c]) (insideStill inside still other) (dashesOther other) more
    rw [List.map_append] at located
    exact ⟨_, rfl, located, fun _ => Nat.le_refl _⟩
  · exact absurd (ended.1.symm.trans named) (endlessBehind endless behind)
  · exact movesText inside

theorem movesDoubling {a b : List Char} (same : x = a ++ "<!".toList ++ (b ++ '<' :: w)) (lasting : Lasting (b ++ '<' :: w))
    (still : dashes x = 0) :
    Moves x c t (t.inScriptName .doubling (w.map Char.toLower) (.doubled 0) (.escaped 0) c) 1 := by
  have commented : Commented x := ⟨a, b ++ '<' :: w, same, lasting⟩
  have lasts : ¬(c = '>' ∧ 2 ≤ dashes (b ++ '<' :: w)) := by
    rw [← @dashesBehind a, ← same]
    simp [still]
  have longer : Lasting (b ++ '<' :: (w ++ [c])) := by simpa using lastingSnoc lasting lasts
  unfold Tokenizer.inScriptName
  split_ifs with ends script letter
  · have other := blankOther ends
    have nested : Nested (x ++ [c]) :=
      ⟨a, b, w, c, [], by simp [same], by simpa using longer, script, by simpa [endsName, or_assoc] using ends⟩
    exact ⟨_, rfl, .text (dashesOther (x := x) other ▸ .doubled nested), fun _ => Nat.le_succ _⟩
  · have other := blankOther ends
    have inside : Inside x (.escaped 0) := still ▸ .escaped commented
    exact ⟨_, rfl, .text (insideStill inside still other), fun _ => Nat.le_refl _⟩
  · have other := letterOther letter
    have located := @Located.doubling (x ++ [c]) a b (w ++ [c]) (by simp [same]) longer (dashesOther other)
    rw [List.map_append] at located
    exact ⟨_, rfl, located, fun _ => Nat.le_refl _⟩
  · exact movesText (still ▸ .escaped commented)

theorem movesUndoubling (nested : Nested x) (still : dashes x = 0) (behind : '<' :: '/' :: w <:+ x) (endless : Endless x) :
    Moves x c t (t.inScriptName .undoubling (w.map Char.toLower) (.escaped 0) (.doubled 0) c) 2 := by
  have inside : Inside x (.doubled 0) := still ▸ .doubled nested
  unfold Tokenizer.inScriptName
  split_ifs with ends script letter
  · exact absurd script (endlessBehind endless behind)
  · have other := blankOther ends
    exact ⟨_, rfl, .text (insideStill inside still other), fun _ => Nat.le_refl _⟩
  · have other := letterOther letter
    have more : '<' :: '/' :: (w ++ [c]) <:+ x ++ [c] := behindSnoc behind
    have located := @Located.undoubling _ (w ++ [c]) (nestedSnoc nested (by simp [still])) (dashesOther other) more
    rw [List.map_append] at located
    exact ⟨_, rfl, located, fun _ => Nat.le_refl _⟩
  · exact movesText inside

theorem movesStep (located : Located x t.state) (named : t.tag.name = "script".toList) (endless : Endless x) :
    Moves x c t (t.step c) t.state.depth := by
  obtain ⟨state, tag, value, tags⟩ := t
  cases located with
  | text inside => exact movesText inside
  | angle inside still behind => exact movesAngle inside still behind
  | closing inside still behind => exact movesClosing inside still behind
  | closingName inside still behind => exact movesClosingName inside still behind named endless
  | escape behind =>
    by_cases dash : c = '-'
    · subst dash
      exact ⟨_, rfl, .escapeDash (behindSnoc behind), fun _ => Nat.le_refl _⟩
    · have moves := @movesText x c .script ⟨.escape false, tag, value, tags⟩ .script
      rwa [← show Tokenizer.step ⟨.escape false, tag, value, tags⟩ c = _ from if_neg dash] at moves
  | escapeDash behind =>
    by_cases dash : c = '-'
    · subst dash
      obtain ⟨y, rfl⟩ := behind
      have split : y ++ ['<', '!', '-'] ++ ['-'] = y ++ "<!".toList ++ "--".toList := by simp
      have two : dashes (y ++ "<!".toList ++ "--".toList) = 2 := dashesBehind
      refine ⟨_, rfl, .text ?_, fun _ => Nat.zero_le _⟩
      exact split ▸ two ▸ .escaped ⟨y, "--".toList, rfl, by decide, by decide⟩
    · have moves := @movesText x c .script ⟨.escape true, tag, value, tags⟩ .script
      rwa [← show Tokenizer.step ⟨.escape true, tag, value, tags⟩ c = _ from if_neg dash] at moves
  | doubling same lasting still => exact movesDoubling same lasting still
  | undoubling nested still behind => exact movesUndoubling nested still behind endless

end Places

section Reading

def scriptTag (closing : Bool) : Tag := ⟨closing, "script".toList, []⟩

def opened : Tokenizer := ⟨.text .script, scriptTag false, [], [scriptTag false]⟩

def scriptElement (x : List Char) : List Char := "\n<script>".toList ++ x ++ "</script>".toList

/-- The script element that a text opens is closed by the end of the text, and no end tag is read before. -/
structure EndsOnce (text : List Char) : Prop where
  ended : (read text).state = .text .markup ∧ (read text).tags = [scriptTag true, scriptTag false]
  before : ∀ p, p <+: text → p ≠ text → ∀ tag ∈ (read p).tags, tag.closing = false

def within (x : List Char) : Tokenizer := x.foldl Tokenizer.step opened

variable {x y u a b d w : List Char} {c : Char} {t : Tokenizer}

theorem readWithin : read ("\n<script>".toList ++ x) = within x := readAppend

theorem withinAppend : within (x ++ y) = y.foldl Tokenizer.step (within x) := List.foldl_append

theorem withinSnoc : within (x ++ [c]) = (within x).step c := withinAppend

theorem endlessFront (h : Endless (x ++ y)) : Endless x := fun a w rest same =>
  h a w (rest ++ y) (by rw [same]; simp)

theorem withinLocated (endless : Endless x) : ∃ s, within x = opened.goto s ∧ Located x s := by
  induction x using List.reverseRecOn with
  | nil => exact ⟨.text .script, rfl, .text .script⟩
  | append_singleton x c ih =>
    obtain ⟨s, reads, located⟩ := ih (endlessFront endless)
    obtain ⟨s', moves, located', _⟩ := @movesStep x c (opened.goto s) located rfl (endlessFront endless)
    exact ⟨s', by rw [withinSnoc, reads, moves]; rfl, located'⟩

theorem depthKept (started : "--".toList <+: d) (lasting : Lasting (d ++ u))
    (endless : Endless (a ++ "<!".toList ++ (d ++ u))) :
    (within (a ++ "<!".toList ++ d)).state.depth ≤ (within (a ++ "<!".toList ++ (d ++ u))).state.depth := by
  induction u using List.reverseRecOn with
  | nil => rw [List.append_nil]
  | append_singleton u c ih =>
    have longer : a ++ "<!".toList ++ (d ++ (u ++ [c])) = a ++ "<!".toList ++ (d ++ u) ++ [c] := by simp
    rw [longer] at endless ⊢
    have lasts : Lasting (d ++ u) :=
      lastingFront (by simpa using lasting) (started.trans (List.prefix_append d u))
    refine Nat.le_trans (ih lasts (endlessFront endless)) ?_
    obtain ⟨s, reads, located⟩ := withinLocated (endlessFront endless)
    obtain ⟨s', moves, _, deep⟩ := @movesStep _ c (opened.goto s) located rfl (endlessFront endless)
    rw [withinSnoc, reads, moves]
    -- What is open is only left at the end of the comment, and the comment lasts.
    refine deep fun ⟨closes, two⟩ => lasting.2 ?_
    rw [dashesBehind] at two
    have tail : "--".toList ++ [c] <:+ d ++ u ++ [c] := behindSnoc (twoDashes.mpr two)
    subst closes
    rw [List.append_assoc] at tail
    exact tail.isInfix

theorem stepAngle (located : Located x t.state) :
    ∃ k, t.step '<' = t.goto (.angle k) ∧ k.depth = t.state.depth ∧ (k = .script ∨ ∃ n, k = .escaped n ∨ k = .doubled n) := by
  obtain ⟨state, tag, value, tags⟩ := t
  have inText {k : Content} {t : Tokenizer} (inside : Inside x k) : ∃ k', t.inText k '<' = t.goto (.angle k') ∧
      k'.depth = k.depth ∧ (k' = .script ∨ ∃ n, k' = .escaped n ∨ k' = .doubled n) := by
    cases inside with
    | script => exact ⟨_, rfl, rfl, .inl rfl⟩
    | escaped => exact ⟨_, rfl, rfl, .inr ⟨_, .inl rfl⟩⟩
    | doubled => exact ⟨_, rfl, rfl, .inr ⟨_, .inr rfl⟩⟩
  cases located with
  | text inside => exact inText inside
  | angle inside still behind =>
    cases inside with
    | script => exact ⟨_, rfl, rfl, .inl rfl⟩
    | escaped => exact ⟨_, rfl, rfl, .inr ⟨_, .inl rfl⟩⟩
    | doubled => exact ⟨_, rfl, rfl, .inr ⟨_, .inr rfl⟩⟩
  | closing inside still behind =>
    cases inside with
    | script => exact ⟨_, rfl, rfl, .inl rfl⟩
    | escaped => exact ⟨_, rfl, rfl, .inr ⟨_, .inl rfl⟩⟩
    | doubled => exact ⟨_, rfl, rfl, .inr ⟨_, .inr rfl⟩⟩
  | @closingName k w inside still behind =>
    have kept : Tokenizer.inClosingName ⟨.closingName k (w.map Char.toLower), tag, value, tags⟩ k (w.map Char.toLower) '<' =
        Tokenizer.inText ⟨.closingName k (w.map Char.toLower), tag, value, tags⟩ k '<' := by
      rw [Tokenizer.inClosingName, if_neg (by decide), if_neg fun both => absurd both.2 (by decide)]
    obtain ⟨k', angle, known⟩ := @inText k ⟨.closingName k (w.map Char.toLower), tag, value, tags⟩ inside
    exact ⟨k', kept.trans angle, known⟩
  | escape behind => exact ⟨_, rfl, rfl, .inl rfl⟩
  | escapeDash behind => exact ⟨_, rfl, rfl, .inl rfl⟩
  | doubling same lasting still => exact ⟨_, rfl, rfl, .inr ⟨_, .inl rfl⟩⟩
  | undoubling nested still behind => exact ⟨_, rfl, rfl, .inr ⟨_, .inr rfl⟩⟩

theorem frontDeep (endless : Endless a) : 1 ≤ (within (a ++ "<!".toList ++ "--".toList)).state.depth := by
  obtain ⟨s, reads, located⟩ := withinLocated endless
  obtain ⟨k, angle, _, kind⟩ := @stepAngle a (opened.goto s) located
  rw [show a ++ "<!".toList ++ "--".toList = a ++ ['<'] ++ "!--".toList by simp, withinAppend, withinSnoc, reads, angle]
  rcases kind with rfl | ⟨n, rfl | rfl⟩
  · exact Nat.le_refl 1
  · exact Nat.le_refl 1
  · exact Nat.le_succ 1

theorem lowerLetter (h : c.toLower.isAlpha) : c.isAlpha := by
  unfold Char.toLower at h
  split at h
  · next upper =>
    have letter : c.isUpper := decide_eq_true upper
    exact Bool.or_eq_true_iff.mpr (.inl letter)
  · exact h

theorem letterInName (letter : c.isAlpha) : ¬(isMarkupBlank c ∨ c = '/' ∨ c = '>') := by
  intro ends
  simp only [isMarkupBlank, Bool.or_eq_true, beq_iff_eq] at ends
  rcases ends with ((((rfl | rfl) | rfl) | rfl) | rfl) | rfl | rfl <;> exact absurd letter (by decide)

theorem readName {name : List Char} (letters : ∀ c ∈ w, c.isAlpha) :
    w.foldl Tokenizer.step (t.goto (.doubling name)) = t.goto (.doubling (name ++ w.map Char.toLower)) := by
  induction w generalizing name with
  | nil => rw [List.map_nil, List.append_nil]; rfl
  | cons c w ih =>
    obtain ⟨first, tail⟩ := List.forall_mem_cons.mp letters
    have step : (t.goto (.doubling name)).step c = t.goto (.doubling (name ++ [c.toLower])) :=
      (if_neg (letterInName first)).trans (if_pos first)
    rw [List.foldl_cons, step, ih tail, List.map_cons, List.append_assoc]
    rfl

theorem readScript {n : Nat} {e : Char} (script : w.map Char.toLower = "script".toList) (ends : endsName e) :
    (w ++ [e]).foldl Tokenizer.step (t.goto (.angle (.escaped n))) = t.goto (.text (.doubled 0)) := by
  have letters : ∀ c ∈ w, c.isAlpha := by
    intro c mem
    have known : c.toLower ∈ "script".toList := script ▸ List.mem_map_of_mem mem
    refine lowerLetter ?_
    generalize c.toLower = l at known
    simp only [String.reduceToList, List.mem_cons, List.not_mem_nil, or_false] at known
    rcases known with rfl | rfl | rfl | rfl | rfl | rfl <;> decide
  cases w with
  | nil => cases script
  | cons c w =>
    obtain ⟨first, tail⟩ := List.forall_mem_cons.mp letters
    have slash : c ≠ '/' := fun same => letterInName first (.inr (.inl same))
    have step : (t.goto (.angle (.escaped n))).step c = t.goto (.doubling [c.toLower]) :=
      (if_neg slash).trans (if_pos first)
    have ended : isMarkupBlank e ∨ e = '/' ∨ e = '>' := by simpa [endsName, or_assoc] using ends
    have last : (t.goto (.doubling ("script".toList))).step e = t.goto (.text (.doubled 0)) := if_pos ended
    have name : (c :: w).foldl Tokenizer.step (t.goto (.angle (.escaped n))) = t.goto (.doubling "script".toList) := by
      rw [List.foldl_cons, step, readName tail, List.singleton_append, ← List.map_cons, script]
    rw [List.foldl_append, name]
    exact last

theorem nestedDeep (nested : Nested x) (endless : Endless x) : 2 ≤ (within x).state.depth := by
  obtain ⟨a, b, w, e, rest, rfl, lasting, script, ends⟩ := nested
  have started : "--".toList <+: b := by
    have front := lasting.1
    rw [List.append_assoc] at front
    rcases b with _ | ⟨c, _ | ⟨c', b⟩⟩
    · exact absurd front (by simp)
    · exact absurd front (by simp)
    · simpa using front
  obtain ⟨b, rfl⟩ := started
  have first : Lasting ("--".toList ++ b) :=
    @lastingFront _ ('<' :: w ++ e :: rest) (by simpa using lasting) (List.prefix_append _ _)
  have split : a ++ "<!".toList ++ ("--".toList ++ b ++ '<' :: w ++ e :: rest) =
      a ++ "<!".toList ++ ("--".toList ++ b ++ ['<'] ++ (w ++ [e]) ++ rest) := by simp
  have lasts : Lasting ("--".toList ++ b ++ ['<'] ++ (w ++ [e]) ++ rest) := by simpa using lasting
  rw [split] at endless ⊢
  have front {u v : List Char} (h : Endless (a ++ "<!".toList ++ (u ++ v))) : Endless (a ++ "<!".toList ++ u) :=
    endlessFront (y := v) (by simpa using h)
  -- The comment is open behind its front, and so it is where the script begins.
  have shallow := Nat.le_trans (frontDeep (endlessFront (endlessFront endless)))
    (depthKept (List.prefix_refl _) first (front (front (front endless))))
  obtain ⟨s, reads, located⟩ := withinLocated (front (front (front endless)))
  obtain ⟨k, angle, same, kind⟩ := @stepAngle _ (opened.goto s) located
  have behind : within (a ++ "<!".toList ++ ("--".toList ++ b ++ ['<'])) = opened.goto (.angle k) := by
    rw [← List.append_assoc, withinSnoc, reads, angle]
    rfl
  have begun {u : List Char} : "--".toList <+: "--".toList ++ b ++ ['<'] ++ u := by simp
  have named : Lasting ("--".toList ++ b ++ ['<'] ++ (w ++ [e])) := lastingFront lasts begun
  -- There the script is opened by its name, unless another one is open already.
  have deep : 2 ≤ (within (a ++ "<!".toList ++ ("--".toList ++ b ++ ['<'] ++ (w ++ [e])))).state.depth := by
    rcases kind with rfl | ⟨n, rfl | rfl⟩
    · rw [reads] at shallow
      exact absurd (Nat.le_trans shallow (Nat.le_of_eq same.symm)) (by decide)
    · rw [← List.append_assoc, withinAppend, behind, readScript script ends]
      exact Nat.le_refl 2
    · have kept := depthKept (by simp) named (front endless)
      rw [behind] at kept
      exact kept
  exact Nat.le_trans deep (depthKept begun lasts endless)

theorem deepNested {s : State} (located : Located x s) (deep : 2 ≤ s.depth) : Nested x := by
  have inside {k : Content} (inside : Inside x k) (deep : 2 ≤ k.depth) : Nested x := by
    cases inside with
    | script => cases deep
    | escaped => exact absurd (show 2 ≤ 1 from deep) (by decide)
    | doubled nested => exact nested
  cases located with
  | text h => exact inside h deep
  | angle h => exact inside h deep
  | closing h => exact inside h deep
  | closingName h => exact inside h deep
  | undoubling nested => exact nested
  | doubling => exact absurd (show 2 ≤ 1 from deep) (by decide)
  | escape | escapeDash => exact absurd (show 2 ≤ 0 from deep) (by decide)

theorem tagsText {k : Content} : (t.inText k c).tags = t.tags := by
  cases k with
  | plain => rfl
  | _ =>
    simp only [Tokenizer.inText]
    split_ifs <;> rfl

theorem tagsAttribute : t.tags <:+ (t.atAttribute c).tags := by
  unfold Tokenizer.atAttribute
  split_ifs
  · exact List.suffix_rfl
  · exact List.suffix_rfl
  · exact List.suffix_cons _ _
  · exact List.suffix_rfl

theorem tagsSkip : (t.skip c).tags = t.tags := by
  unfold Tokenizer.skip
  split_ifs <;> rfl

theorem tagsStep : t.tags <:+ (t.step c).tags := by
  have kept {t' : Tokenizer} (same : t'.tags = t.tags) : t.tags <:+ t'.tags := same ▸ List.suffix_rfl
  have finished : t.tags <:+ t.finishTag.tags := List.suffix_cons _ _
  simp only [Tokenizer.step]
  split
  case h_1 => exact kept tagsText
  case h_2 content _ =>
    cases content <;> simp only [Tokenizer.behindAngle] <;> split_ifs <;> first | exact kept rfl | exact kept tagsText
  case h_3 content _ =>
    cases content <;> simp only [Tokenizer.behindSlash] <;> split_ifs <;>
      first | exact kept rfl | exact kept tagsText | exact kept tagsSkip
  case h_4 name _ =>
    simp only [Tokenizer.inClosingName]
    split_ifs
    · exact kept rfl
    · exact @tagsAttribute c (t.beginTag true name)
    · exact kept tagsText
  case h_6 | h_12 | h_13 => exact tagsAttribute
  case h_14 => split_ifs <;> first | exact kept rfl | exact kept tagsSkip
  case h_15 => exact kept tagsSkip
  case h_16 ending _ =>
    cases ending <;> simp only [Tokenizer.inComment] <;> split_ifs <;> exact kept rfl
  case h_17 => split_ifs <;> first | exact kept rfl | exact kept tagsText
  case h_18 | h_19 =>
    simp only [Tokenizer.inScriptName]
    split_ifs <;> first | exact kept rfl | exact kept tagsText
  all_goals split_ifs <;> first | exact kept rfl | exact finished

theorem tagsGrow : (read x).tags <:+ (read (x ++ y)).tags := by
  induction y using List.reverseRecOn with
  | nil => rw [List.append_nil]
  | append_singleton y c ih =>
    rw [← List.append_assoc, readSnoc]
    exact ih.trans tagsStep

theorem endsOnce (endless : Endless x) : EndsOnce (scriptElement x) ↔ ¬Nested x := by
  obtain ⟨s, reads, located⟩ := withinLocated endless
  obtain ⟨k, angle, same, kind⟩ := @stepAngle x (opened.goto s) located
  have tail {u : List Char} : read ("\n<script>".toList ++ x ++ '<' :: u) =
      u.foldl Tokenizer.step (opened.goto (.angle k)) := by
    rw [show "\n<script>".toList ++ x ++ '<' :: u = "\n<script>".toList ++ (x ++ ['<'] ++ u) by simp, readWithin,
      withinAppend, withinSnoc, reads, angle]
    rfl
  have whole : read (scriptElement x) = "/script>".toList.foldl Tokenizer.step (opened.goto (.angle k)) := tail
  constructor
  · -- With a script open in a comment, the end tag only leads back into the comment.
    intro once nested
    have deep := nestedDeep nested endless
    have ended := once.ended.2
    rw [reads] at deep
    rw [whole] at ended
    rcases kind with rfl | ⟨n, rfl | rfl⟩
    · exact absurd (show 2 ≤ 0 from Nat.le_trans deep (Nat.le_of_eq same.symm)) (by decide)
    · exact absurd (show 2 ≤ 1 from Nat.le_trans deep (Nat.le_of_eq same.symm)) (by decide)
    · cases ended
  · intro plain
    have shallow : k.depth < 2 := same ▸ Nat.lt_of_not_le fun deep => plain (deepNested located deep)
    have front : (read ("\n<script>".toList ++ x ++ "</script".toList)).tags = [scriptTag false] := by
      rw [show "</script".toList = '<' :: "/script".toList by rfl, tail]
      rcases kind with rfl | ⟨n, rfl | rfl⟩ <;> rfl
    refine ⟨?_, fun p ⟨rest, joined⟩ proper tag mem => ?_⟩
    · rw [whole]
      rcases kind with rfl | ⟨n, rfl | rfl⟩
      · exact ⟨rfl, rfl⟩
      · exact ⟨rfl, rfl⟩
      · exact absurd (show 2 < 2 from shallow) (by decide)
    · -- All fronts of the text but the text itself lack its last character, and with it the end tag.
      rcases List.eq_nil_or_concat' rest with rfl | ⟨u, c, rfl⟩
      · exact absurd (by simpa using joined) proper
      · have split : scriptElement x = "\n<script>".toList ++ x ++ "</script".toList ++ ['>'] :=
          (List.append_assoc _ "</script".toList ['>']).symm
        rw [split, ← List.append_assoc] at joined
        have known := (@tagsGrow p u).subset mem
        rw [(List.append_inj' joined rfl).1, front] at known
        obtain rfl := List.mem_singleton.mp known
        rfl

end Reading

end LiveMarkup.Standard
