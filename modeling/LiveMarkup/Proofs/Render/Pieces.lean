import LiveMarkup.Render.Compose
/-! The pieces of a text. They are what a scan from the left finds, and a scan of any run of them that
ends before a placeholder finds the same pieces again. -/
namespace LiveMarkup.Render
open Text

variable {number : Nat}

def Front (number : Nat) (key : List Char) : Prop :=
  key ≠ [] ∧ ∀ rest, Placeholder.atFront? number (key ++ rest) = some (key, rest)

def Free (number : Nat) (a rest : List Char) : Prop :=
  ∀ before c after, a = before ++ c :: after →
    Placeholder.atFront? number (c :: after ++ rest) = none

inductive Pieces (number : Nat) : List Char → List Piece → Prop where
  | last {a} (free : Free number a []) : Pieces number a [.plain (String.ofList a)]
  | step {a key rest ps} (free : Free number a (key ++ rest)) (front : Front number key)
      (tail : Pieces number rest ps) :
      Pieces number (a ++ (key ++ rest)) (.plain (String.ofList a) :: .placeholder (String.ofList key) :: ps)

theorem frontForm {digits rest : List Char} (some : digits ≠ []) (all : ∀ d ∈ digits, isDigit d = true) :
    Placeholder.atFront? number (Placeholder.lead number ++ digits ++ ['_', '_'] ++ rest) =
      .some (Placeholder.lead number ++ digits ++ ['_', '_'], rest) := by
  have underscore : isDigit '_' = false := by decide
  have taken : (digits ++ '_' :: '_' :: rest).takeWhile isDigit = digits := by
    rw [List.takeWhile_append_of_pos all, List.takeWhile_cons_of_neg (by simp [underscore]), List.append_nil]
  have dropped : (digits ++ '_' :: '_' :: rest).dropWhile isDigit = '_' :: '_' :: rest := by
    rw [List.dropWhile_append_of_pos all, List.dropWhile_cons_of_neg (by simp [underscore])]
  have written : Placeholder.lead number ++ digits ++ ['_', '_'] ++ rest =
      Placeholder.lead number ++ (digits ++ '_' :: '_' :: rest) := by simp
  have fronted : (Placeholder.lead number).isPrefixOf
      (Placeholder.lead number ++ (digits ++ '_' :: '_' :: rest)) = true :=
    List.isPrefixOf_iff_prefix.mpr ⟨_, rfl⟩
  rw [written, Placeholder.atFront?]
  simp only [fronted, if_true, List.drop_left, taken, dropped, List.isEmpty_eq_false_iff.mpr some,
    Bool.false_eq_true, if_false]

theorem frontOf {s key rest : List Char} (h : Placeholder.atFront? number s = some (key, rest)) :
    s = key ++ rest ∧ Front number key := by
  unfold Placeholder.atFront? at h
  simp only at h
  split at h
  · next fronted =>
    obtain ⟨body, rfl⟩ := List.isPrefixOf_iff_prefix.mp fronted
    rw [List.drop_left] at h
    split at h
    · next tail dropped =>
      split at h
      · cases h
      · next digits =>
        cases h
        have all : ∀ d ∈ body.takeWhile isDigit, isDigit d = true :=
          List.all_eq_true.mp List.all_takeWhile
        refine ⟨?_, by simp, fun rest => frontForm (by simpa using digits) all⟩
        have whole := @List.takeWhile_append_dropWhile _ isDigit body
        rw [dropped] at whole
        simp [whole]
    · cases h
  · cases h

theorem frontExtend {s more key rest : List Char} (h : Placeholder.atFront? number s = some (key, rest)) :
    Placeholder.atFront? number (s ++ more) = some (key, rest ++ more) := by
  obtain ⟨rfl, front⟩ := frontOf h
  rw [List.append_assoc]
  exact front.2 (rest ++ more)

theorem freeShort {a rest more : List Char} (h : Free number a (rest ++ more)) : Free number a rest := by
  intro before c after same
  cases found : Placeholder.atFront? number (c :: after ++ rest) with
  | none => rfl
  | some p =>
    have longer := @frontExtend number _ more _ _ found
    rw [List.append_assoc, h before c after same] at longer
    cases longer

theorem freeNil {rest : List Char} : Free number [] rest :=
  fun before c after empty => absurd empty (by simp)

theorem freeOne {c : Char} {rest : List Char} (h : Placeholder.atFront? number (c :: rest) = none) :
    Free number [c] rest := by
  intro before d after same
  obtain ⟨rfl, same⟩ | ⟨mid, rfl, empty⟩ := List.cons_eq_append_iff.mp same
  · cases same
    exact h
  · exact absurd empty.symm (by simp)

theorem freeAppend {a b rest : List Char} (ha : Free number a (b ++ rest)) (hb : Free number b rest) :
    Free number (a ++ b) rest := by
  intro before c after same
  obtain ⟨mid, rfl, tail⟩ | ⟨mid, rfl, tail⟩ := List.append_eq_append_iff.mp same
  · exact hb mid c after tail
  · cases mid with
    | nil => exact hb [] c after tail.symm
    | cons d mid =>
      obtain ⟨rfl, rfl⟩ := List.cons.inj tail
      have inside := ha before c mid rfl
      rwa [← List.append_assoc] at inside

def charsOf (ps : List Piece) : List Char := ps.flatMap (·.text.toList)

theorem charsPlain {a : List Char} {ps : List Piece} :
    charsOf (.plain (String.ofList a) :: ps) = a ++ charsOf ps := by
  simp [charsOf, Piece.text]

theorem charsKey {key : List Char} {ps : List Piece} :
    charsOf (.placeholder (String.ofList key) :: ps) = key ++ charsOf ps := by
  simp [charsOf, Piece.text]

theorem charsPieces {s : List Char} {ps : List Piece} (h : Pieces number s ps) : charsOf ps = s := by
  induction h with
  | last free => simp [charsOf, Piece.text]
  | step free front tail ih => rw [charsPlain, charsKey, ih]

theorem piecesFrom {fuel : Nat} {done s : List Char} (enough : s.length ≤ fuel)
    (free : Free number done.reverse s) :
    Pieces number (done.reverse ++ s) (Piece.splitFrom number fuel done s) := by
  induction fuel generalizing done s with
  | zero =>
    obtain rfl := List.length_eq_zero_iff.mp (Nat.le_zero.mp enough)
    rw [Piece.splitFrom, List.append_nil]
    exact .last free
  | succ fuel ih =>
    cases s with
    | nil =>
      rw [Piece.splitFrom, List.append_nil]
      exact .last free
    | cons c s =>
      rw [Piece.splitFrom]
      cases found : Placeholder.atFront? number (c :: s) with
      | some p =>
        obtain ⟨key, rest⟩ := p
        obtain ⟨same, front⟩ := frontOf found
        have shorter : rest.length ≤ fuel := by
          have lengths := congrArg List.length same
          have positive := List.length_pos_iff.mpr front.1
          simp only [List.length_cons, List.length_append] at lengths enough
          omega
        have tail := @ih [] rest shorter freeNil
        rw [same] at free ⊢
        exact .step free front tail
      | none =>
        have next := @ih (c :: done) s (Nat.le_of_succ_le_succ enough) ?_
        · rw [List.reverse_cons, List.append_assoc] at next
          exact next
        · rw [List.reverse_cons]
          exact freeAppend free (freeOne found)

theorem splitPieces {s : String} : Pieces number s.toList (Piece.split number s) :=
  @piecesFrom number s.length [] s.toList (Nat.le_of_eq String.length_toList) freeNil

theorem splitFronts {text key : String} (mem : .placeholder key ∈ Piece.split number text) :
    Front number key.toList := by
  have pieces := @splitPieces number text
  generalize Piece.split number text = ps at mem pieces
  generalize text.toList = cs at pieces
  induction pieces with
  | last => cases List.mem_singleton.mp mem
  | step free front tail ih =>
    rcases List.mem_cons.mp mem with other | mem
    · cases other
    rcases List.mem_cons.mp mem with same | mem
    · cases same
      exact String.toList_ofList ▸ front
    · exact ih mem

theorem foundFronts {text key : String} (mem : key ∈ placeholders number text) : Front number key.toList := by
  obtain ⟨p, hp, is⟩ := List.mem_filterMap.mp mem
  cases p with
  | plain text => cases is
  | placeholder own =>
    obtain rfl := Option.some.inj is
    exact splitFronts hp

theorem frontBlocks {a b key rest : List Char} (front : Front number key)
    (same : a ++ (key ++ rest) = b) : ¬Free number b [] := by
  intro free
  obtain ⟨c, after, rfl⟩ := List.exists_cons_of_ne_nil front.1
  have found := free a c (after ++ rest) same.symm
  rw [List.append_nil, ← List.cons_append, front.2] at found
  cases found

theorem frontOnce {a b key other rest more : List Char} (free : Free number b (other ++ more))
    (front : Front number key) (same : a ++ (key ++ rest) = b ++ (other ++ more)) : b.length ≤ a.length := by
  refine Nat.le_of_not_lt fun shorter => ?_
  obtain ⟨mid, rfl, tail⟩ | ⟨mid, rfl, tail⟩ := List.append_eq_append_iff.mp same
  · cases mid with
    | nil => simp at shorter
    | cons c mid =>
      have found := free a c mid rfl
      rw [List.cons_append] at tail
      rw [List.cons_append, ← tail, front.2] at found
      cases found
  · simp only [List.length_append] at shorter
    omega

theorem piecesUnique {s : List Char} {ps qs : List Piece} (hp : Pieces number s ps)
    (hq : Pieces number s qs) : ps = qs := by
  induction hp generalizing qs with
  | @last s free =>
    generalize whole : s = s' at hq
    cases hq with
    | last free' => rfl
    | step free' front tail => exact absurd free (frontBlocks front whole.symm)
  | @step a key rest ps free front tail ih =>
    generalize whole : a ++ (key ++ rest) = s' at hq
    cases hq with
    | last free' => exact absurd free' (frontBlocks front whole)
    | @step b other more qs free' front' tail' =>
      have lengths := Nat.le_antisymm (frontOnce free front' whole.symm) (frontOnce free' front whole)
      obtain ⟨rfl, behind⟩ := List.append_inj whole lengths
      have keys : some (key, rest) = some (other, more) := by
        rw [← front.2 rest, ← front'.2 more, behind]
      cases keys
      rw [ih tail']

theorem splitOf {s : String} {ps : List Piece} (h : Pieces number s.toList ps) :
    Piece.split number s = ps := piecesUnique splitPieces h

theorem splitFront {key : String} (h : Front number key.toList) :
    Piece.split number key = [.plain "", .placeholder key, .plain ""] := by
  have split := @Pieces.step number [] key.toList [] _ freeNil h (.last freeNil)
  rw [List.nil_append, List.append_nil, String.ofList_toList] at split
  exact splitOf split

theorem piecesCut {s : List Char} {before after : List Piece} {key : String}
    (h : Pieces number s (before ++ .placeholder key :: after)) :
    Pieces number (charsOf before) before ∧ Pieces number (charsOf after) after := by
  generalize whole : before ++ .placeholder key :: after = ps at h
  induction h generalizing before with
  | last free =>
    rcases before with _ | ⟨p, _ | ⟨q, rest⟩⟩
    · cases whole
    · cases whole
    · cases whole
  | @step a found rest ps free front tail ih =>
    rcases before with _ | ⟨p, _ | ⟨q, middle⟩⟩
    · cases whole
    · cases whole
      have alone : charsOf [.plain (String.ofList a)] = a := by simp [charsOf, Piece.text]
      rw [alone, charsPieces tail]
      exact ⟨.last (@freeShort number a [] (found ++ rest) free), tail⟩
    · simp only [List.cons_append, List.cons.injEq] at whole
      obtain ⟨rfl, rfl, whole⟩ := whole
      obtain ⟨inner, behind⟩ := ih whole
      refine ⟨?_, behind⟩
      rw [charsPlain, charsKey]
      refine .step ?_ front inner
      have joined : found ++ rest = found ++ charsOf middle ++ charsOf (.placeholder key :: after) := by
        rw [← charsPieces tail, ← whole, List.append_assoc]
        simp [charsOf]
      rw [joined] at free
      exact freeShort free

theorem plainFree {s : List Char} {ps : List Piece} {text : String} (h : Pieces number s ps)
    (mem : .plain text ∈ ps) : ¬Front number text.toList := by
  have whole {a rest : List Char} (free : Free number a rest) : ¬Front number a := by
    intro front
    have alone : [] ++ (a ++ []) = a := List.append_nil a
    exact frontBlocks front alone (@freeShort number a [] rest free)
  induction h with
  | last free =>
    cases List.mem_singleton.mp mem
    rw [String.toList_ofList]
    exact whole free
  | step free front tail ih =>
    rcases List.mem_cons.mp mem with same | mem
    · cases same
      rw [String.toList_ofList]
      exact whole free
    rcases List.mem_cons.mp mem with other | mem
    · cases other
    · exact ih mem

theorem charsJoin {ps : List Piece} : (String.join (ps.map (·.text))).toList = charsOf ps := by
  rw [String.toList_join, List.flatMap_map]
  rfl

theorem joinSplit {s : String} : String.join ((Piece.split number s).map (·.text)) = s := by
  rw [← String.toList_inj, charsJoin, charsPieces splitPieces]

def pending (current : String) : List String := if current.isEmpty then [] else [current]

theorem pendingJoin {current : String} : String.join (pending current) = current := by
  unfold pending
  split
  · next empty => rw [String.isEmpty_iff.mp empty, String.join_nil]
  · rw [String.join_cons, String.join_nil, String.append_empty]

theorem chunksWait {deferred : String → Bool} {current : String} {p : Piece} {ps : List Piece}
    (off : deferred p.text = true) :
    chunks deferred current (p :: ps) = pending current ++ p.text :: chunks deferred "" ps := by
  rw [chunks, if_pos off, pending]

theorem chunksStay {deferred : String → Bool} {current : String} {p : Piece} {ps : List Piece}
    (on : deferred p.text = false) :
    chunks deferred current (p :: ps) = chunks deferred (current ++ p.text) ps := by
  rw [chunks, if_neg (by simp [on])]

theorem joinChunks {deferred : String → Bool} {current : String} {ps : List Piece} :
    String.join (chunks deferred current ps) = current ++ String.join (ps.map (·.text)) := by
  induction ps generalizing current with
  | nil =>
    rw [List.map_nil, String.join_nil, String.append_empty]
    exact pendingJoin
  | cons p rest ih =>
    rw [List.map_cons, String.join_cons]
    cases off : deferred p.text with
    | true => rw [chunksWait off, String.join_append, pendingJoin, String.join_cons, ih, String.empty_append]
    | false => rw [chunksStay off, ih, String.append_assoc]

theorem splitJoined {s : List Char} {ps : List Piece} (h : Pieces number s ps) :
    Piece.split number (String.join (ps.map (·.text))) = ps :=
  splitOf (by rwa [charsJoin, charsPieces h])

theorem joinLast {ps : List Piece} {p : Piece} :
    String.join ((ps ++ [p]).map (·.text)) = String.join (ps.map (·.text)) ++ p.text := by
  rw [List.map_append, String.join_append, List.map_singleton, String.join_cons, String.join_nil, String.append_empty]

theorem chunkApart {deferred : String → Bool} {s : List Char} {seen ps : List Piece} {chunk : String}
    (fronts : ∀ key, deferred key = true → Front number key.toList) (h : Pieces number s (seen ++ ps))
    (clear : ∀ p ∈ seen, deferred p.text = false)
    (mem : chunk ∈ chunks deferred (String.join (seen.map (·.text))) ps) :
    deferred chunk = true ∨ ∀ key ∈ placeholders number chunk, deferred key = false := by
  have whole {s : List Char} {seen : List Piece} (h : Pieces number s seen)
      (clear : ∀ p ∈ seen, deferred p.text = false)
      (mem : chunk ∈ pending (String.join (seen.map (·.text)))) : ∀ key ∈ placeholders number chunk, deferred key = false := by
    unfold pending at mem
    split at mem
    · exact absurd mem List.not_mem_nil
    · obtain rfl := List.mem_singleton.mp mem
      intro key hk
      rw [placeholders, splitJoined h] at hk
      obtain ⟨p, hp, found⟩ := List.mem_filterMap.mp hk
      cases p with
      | plain text => cases found
      | placeholder text =>
        cases found
        exact clear _ hp
  -- The induction is on the pieces to come; those since the last cut are in `seen`.
  induction ps generalizing s seen with
  | nil =>
    rw [List.append_nil] at h
    exact .inr (whole h clear mem)
  | cons p rest ih =>
    cases off : deferred p.text with
    | true =>
      rw [chunksWait off] at mem
      cases p with
      | plain text => exact absurd (fronts text off) (plainFree h (by simp))
      | placeholder key =>
        obtain ⟨before, after⟩ := piecesCut h
        rcases List.mem_append.mp mem with mem | mem
        · exact .inr (whole before clear mem)
        rcases List.mem_cons.mp mem with rfl | mem
        · exact .inl off
        · exact @ih _ [] after (fun p hp => absurd hp List.not_mem_nil) mem
    | false =>
      rw [chunksStay off, ← joinLast] at mem
      refine @ih s (seen ++ [p]) (by rwa [List.append_assoc]) (fun q hq => ?_) mem
      rcases List.mem_append.mp hq with hq | hq
      · exact clear q hq
      · obtain rfl := List.mem_singleton.mp hq
        exact off

theorem digitsOf {n : Nat} : (toString n).toList = Nat.toDigits 10 n := by
  rw [Nat.toString_eq_ofList_toDigits, String.toList_ofList]

theorem digitOf {n : Nat} : ∀ d ∈ (toString n).toList, isDigit d = true := by
  intro d hd
  rw [digitsOf] at hd
  have ascii := Nat.isDigit_of_mem_toDigits (by decide) (by decide) hd
  simp only [Char.isDigit, Bool.and_eq_true, decide_eq_true_eq] at ascii
  obtain ⟨low, high⟩ := ascii
  have small : d.toNat < 128 := Nat.lt_of_le_of_lt (UInt32.le_iff_toNat_le.mp high) (by decide)
  rw [isDigit, digitValue?, if_pos small, if_pos ⟨low, high⟩]
  rfl

theorem numberOf {n m : Nat} (h : (toString n).toList = (toString m).toList) : n = m := by
  rw [digitsOf, digitsOf] at h
  have back := congrArg (Nat.ofDigitChars 10 · 0) h
  simpa only [Nat.ofDigitChars_ten_toDigits] using back

theorem textFront {n : Nat} : Front number (Placeholder.text number n).toList := by
  have some : (toString n).toList ≠ [] := digitsOf ▸ Nat.toDigits_ne_nil
  rw [Placeholder.text, String.toList_ofList]
  exact ⟨by simp, fun rest => frontForm some digitOf⟩

theorem textInjective {n m : Nat} (h : Placeholder.text number n = Placeholder.text number m) : n = m := by
  rw [Placeholder.text, Placeholder.text, String.ofList_inj] at h
  exact numberOf (List.append_cancel_left (List.append_cancel_right h))

theorem idInjective {n m : Nat} (h : idText n = idText m) : n = m := by
  have lists := congrArg String.toList h
  rw [idText, idText, String.toList_append, String.toList_append] at lists
  exact numberOf (List.append_cancel_left lists)

theorem placeholderFront {key : String} (h : Front number key.toList) : isPlaceholder number key = true := by
  have found := h.2 []
  rw [List.append_nil] at found
  rw [isPlaceholder, found]

theorem idPlain {n : Nat} : isPlaceholder number (idText n) = false := by
  have written : (idText n).toList = '_' :: (toString n).toList := by
    rw [idText, String.toList_append]
    rfl
  have lead : Placeholder.lead number = '_' :: '_' :: ("zinc_".toList ++ hexDigits 8 number ++ ['_']) := rfl
  have missed : Placeholder.atFront? number (idText n).toList = none := by
    rw [Placeholder.atFront?, if_neg]
    rw [written, lead, List.isPrefixOf_iff_prefix]
    rintro ⟨rest, same⟩
    have second : '_' ∈ (toString n).toList := by
      rw [← (List.cons.inj same).2]
      exact List.mem_cons_self
    exact absurd (digitOf '_' second) (by decide)
  rw [isPlaceholder, missed]

end LiveMarkup.Render
