import LiveMarkup.Proofs.Client.Quoted
import LiveMarkup.Proofs.Render.Pieces
/-! Texts without the nonce of a factory hold none of its placeholders. Where its placeholders stand among
such texts, a scan finds these and no others. -/
namespace LiveMarkup.Render

variable {number : Nat} {c : Char} {a w key rest more done : List Char} {ps : List Piece}

def nonce (number : Nat) : List Char := Text.hexDigits 8 number

theorem nonceLength : (nonce number).length = 8 := rfl

theorem nonceOther : ∀ c ∈ nonce number, c ≠ '_' := by
  rintro c mem rfl
  exact absurd (Client.hexLetters _ mem) (by decide)

def brand : List Char := ['_', '_', 'z', 'i', 'n', 'c', '_']

theorem leadForm : Placeholder.lead number = brand ++ (nonce number ++ ['_']) := rfl

theorem leadHex {i : Nat} (low : 7 ≤ i) (high : i ≤ 14) :
    ∃ h, (Placeholder.lead number)[i]? = some h ∧ h ≠ '_' := by
  have short : i - 7 < (nonce number).length := by rw [nonceLength]; omega
  refine ⟨(nonce number)[i - 7], ?_, nonceOther _ (List.getElem_mem short)⟩
  have inner : (nonce number ++ ['_'])[i - 7]? = some (nonce number)[i - 7] := by
    rw [List.getElem?_append_left short]
    exact List.getElem?_eq_getElem short
  rw [leadForm, List.getElem?_append_right low]
  exact inner

theorem leadHeld (h : Placeholder.lead number <+: w) : nonce number <:+: w := by
  obtain ⟨behind, rfl⟩ := h
  exact ⟨brand, '_' :: behind, by simp [leadForm]⟩

theorem leadApart (some : w ≠ []) (h : Placeholder.lead number <+: w ++ (Placeholder.lead number ++ more)) :
    nonce number <:+: w := by
  have positive := List.length_pos_iff.mpr some
  obtain ⟨behind, whole⟩ := h
  have same (i : Nat) (inside : i < 16) :
      (Placeholder.lead number)[i]? = (w ++ (Placeholder.lead number ++ more))[i]? := by
    rw [← whole, List.getElem?_append_left]
    exact inside
  have under : (Placeholder.lead number ++ more)[6]? = .some '_' := rfl
  have first : (Placeholder.lead number ++ more)[0]? = .some '_' := rfl
  by_cases long : 15 ≤ w.length
  · have start : brand ++ nonce number <+: w := by
      have front : brand ++ nonce number <+: w ++ (Placeholder.lead number ++ more) :=
        whole ▸ ⟨'_' :: behind, by simp [leadForm]⟩
      exact List.prefix_of_prefix_length_le front (List.prefix_append w _) long
    exact (List.infix_append' brand (nonce number) []).trans (by simpa using start.isInfix)
  by_cases short : w.length ≤ 8
  · obtain ⟨h, digit, other⟩ := @leadHex number (w.length + 6) (by omega) (by omega)
    rw [same _ (by omega), List.getElem?_append_right (Nat.le_add_right _ _), Nat.add_sub_cancel_left, under] at digit
    exact absurd (Option.some.inj digit).symm other
  · obtain ⟨h, digit, other⟩ := @leadHex number w.length (by omega) (by omega)
    rw [same _ (by omega), List.getElem?_append_right (Nat.le_refl _), Nat.sub_self, first] at digit
    exact absurd (Option.some.inj digit).symm other

theorem frontLead (front : Front number key) : ∃ more, key = Placeholder.lead number ++ more := by
  have found := front.2 []
  rw [List.append_nil] at found
  unfold Placeholder.atFront? at found
  simp only at found
  split at found
  · next lead =>
    obtain ⟨more, same⟩ := List.isPrefixOf_iff_prefix.mp lead
    exact ⟨more, same.symm⟩
  · cases found

theorem frontShape (front : Front number key) :
    ∃ digits, key = Placeholder.lead number ++ digits ++ ['_', '_'] ∧ digits ≠ [] ∧ ∀ d ∈ digits, Text.isDigit d = true := by
  have found := front.2 []
  unfold Placeholder.atFront? at found
  simp only at found
  split at found
  · split at found
    · split at found
      · cases found
      · next some =>
        refine ⟨_, (Prod.mk.inj (Option.some.inj found)).1.symm, ?_, List.all_eq_true.mp List.all_takeWhile⟩
        simpa using some
    · cases found
  · cases found

theorem frontChars (front : Front number key) (mem : c ∈ key) : Text.isWord c = true ∨ Text.isDigit c = true := by
  obtain ⟨digits, rfl, _, all⟩ := frontShape front
  have marks : ∀ c ∈ brand, Text.isWord c = true := List.all_eq_true.mp (by decide)
  have letters : ∀ c ∈ "0123456789abcdef".toList, Text.isWord c = true := List.all_eq_true.mp (by decide)
  rw [leadForm] at mem
  simp only [List.append_assoc, List.mem_append] at mem
  rcases mem with mem | mem | mem | mem | mem
  · exact .inl (marks c mem)
  · exact .inl (letters c (Client.hexLetters c mem))
  · exact .inl (marks c (List.mem_append_left ['_', 'z', 'i', 'n', 'c', '_'] mem))
  · exact .inr (all c mem)
  · exact .inl (marks c (List.mem_append_left ['z', 'i', 'n', 'c', '_'] mem))

theorem keyLetters {n : Nat} :
    ∀ c ∈ (Placeholder.text number n).toList, c ∈ brand ++ "0123456789abcdef".toList := by
  intro c mem
  rw [Placeholder.text, String.toList_ofList, leadForm, digitsOf] at mem
  simp only [List.append_assoc, List.mem_append] at mem
  rw [List.mem_append]
  rcases mem with mem | mem | mem | mem | mem
  · exact .inl mem
  · exact .inr (Client.hexLetters c mem)
  · exact .inl (List.mem_append_left ['_', 'z', 'i', 'n', 'c', '_'] mem)
  · have digit := Nat.isDigit_of_mem_toDigits (by decide) (by decide) mem
    simp only [Char.isDigit, Bool.and_eq_true, decide_eq_true_eq, ge_iff_le, UInt32.le_iff_toNat_le] at digit
    obtain ⟨low, high⟩ : 48 ≤ c.toNat ∧ c.toNat ≤ 57 := digit
    have letters : ∀ k < 10, Char.ofNat (48 + k) ∈ "0123456789abcdef".toList := by decide
    have one := letters (c.toNat - 48) (by omega)
    rw [Nat.add_sub_cancel' low, Char.ofNat_toNat] at one
    exact .inr one
  · exact .inl (List.mem_append_left ['z', 'i', 'n', 'c', '_'] mem)

def Divides (c : Char) : Prop := Text.isWord c = false ∧ Text.isDigit c = false

instance (c : Char) : Decidable (Divides c) := by unfold Divides; infer_instance

theorem dividesFront (divides : Divides c) (front : Front number key) : c ∉ key := by
  intro mem
  have chars := frontChars front mem
  rw [divides.1, divides.2] at chars
  simp at chars

theorem foundLead {s k : List Char} (h : Placeholder.atFront? number s = some (k, rest)) :
    Placeholder.lead number <+: s := by
  unfold Placeholder.atFront? at h
  simp only at h
  split at h
  · next lead => exact List.isPrefixOf_iff_prefix.mp lead
  · cases h

theorem freeEnd (clear : ¬nonce number <:+: a) : Free number a [] := by
  rintro before c after rfl
  rw [List.append_nil]
  cases found : Placeholder.atFront? number (c :: after) with
  | none => rfl
  | some p => exact absurd ((leadHeld (foundLead found)).trans ⟨before, [], by simp⟩) clear

theorem freeBefore (clear : ¬nonce number <:+: a) (front : Front number key) : Free number a (key ++ rest) := by
  rintro before c after rfl
  obtain ⟨more, rfl⟩ := frontLead front
  cases found : Placeholder.atFront? number (c :: after ++ (Placeholder.lead number ++ more ++ rest)) with
  | none => rfl
  | some p =>
    have lead := foundLead found
    rw [List.append_assoc (Placeholder.lead number)] at lead
    exact absurd ((leadApart (List.cons_ne_nil c after) lead).trans ⟨before, [], by simp⟩) clear

def plainChars (ps : List Piece) : List Char :=
  ps.flatMap fun
    | .plain s => s.toList
    | .placeholder _ => []

def tidy : (done : List Char) → List Piece → List Piece
  | done, [] => [.plain (String.ofList done)]
  | done, .plain s :: rest => tidy (done ++ s.toList) rest
  | done, .placeholder key :: rest => .plain (String.ofList done) :: .placeholder key :: tidy [] rest

theorem piecesTidy (fronts : ∀ key, .placeholder key ∈ ps → Front number key.toList)
    (clear : ¬nonce number <:+: done ++ plainChars ps) : Pieces number (done ++ charsOf ps) (tidy done ps) := by
  induction ps generalizing done with
  | nil =>
    have empty : plainChars [] = [] := rfl
    rw [empty, List.append_nil] at clear
    rw [charsOf, List.flatMap_nil, List.append_nil]
    exact .last (freeEnd clear)
  | cons p rest ih =>
    have later (key : String) (h : .placeholder key ∈ rest) : Front number key.toList :=
      fronts key (List.mem_cons_of_mem _ h)
    cases p with
    | plain s =>
      have plain : plainChars (.plain s :: rest) = s.toList ++ plainChars rest := rfl
      rw [plain, ← List.append_assoc] at clear
      rw [tidy, charsOf, List.flatMap_cons, ← List.append_assoc]
      exact ih later clear
    | placeholder key =>
      have plain : plainChars (.placeholder key :: rest) = plainChars rest := rfl
      rw [plain] at clear
      have front := fronts key List.mem_cons_self
      have before : ¬nonce number <:+: done := fun held => clear (held.trans (List.prefix_append _ _).isInfix)
      have behind : ¬nonce number <:+: [] ++ plainChars rest :=
        fun held => clear (held.trans (List.suffix_append _ _).isInfix)
      have step := @Pieces.step number done key.toList _ _ (freeBefore before front) front (@ih [] later behind)
      rw [String.ofList_toList, List.nil_append] at step
      exact step

theorem splitTidy {s : String} (whole : s.toList = charsOf ps)
    (fronts : ∀ key, .placeholder key ∈ ps → Front number key.toList) (clear : ¬nonce number <:+: plainChars ps) :
    Piece.split number s = tidy [] ps := splitOf (whole ▸ @piecesTidy number [] ps fronts clear)

end LiveMarkup.Render
