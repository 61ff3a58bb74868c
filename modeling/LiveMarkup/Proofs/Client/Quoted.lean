import LiveMarkup.Client.Receiver
import LiveMarkup.Text.Json
/-! Quoted texts and the stripping of the receiver. Quoting keeps the characters of `this.`, but what
stands before them may become a word character or cease to be one, and a tab is written with a `t`. -/
namespace LiveMarkup.Client
open Text Json

def hits : (inWord : Bool) → List Char → Bool
  | _, [] => false
  | w, c :: rest => (!w && c == 't' && "his.".toList.isPrefixOf rest) || hits (isWord c) rest

def endsQuoted (c : Char) : Bool := !(32 ≤ c.toNat && c.toNat < 127) || isWord c

def hitsQuoted : (inWord : Bool) → List Char → Bool
  | _, [] => false
  | w, c :: rest =>
    ((!w && c == 't' || c == '\t') && "his.".toList.isPrefixOf rest) || hitsQuoted (endsQuoted c) rest

theorem stripFromLength {w : Bool} {cs : List Char} : (stripFrom w cs).length ≤ cs.length := by
  fun_induction stripFrom w cs with
  | case1 => exact Nat.le_refl _
  | case2 rest ih => simp only [List.length_cons]; omega
  | case3 w c rest plain ih => exact Nat.succ_le_succ ih

theorem stripHits {w : Bool} {cs : List Char} : stripFrom w cs = cs ↔ hits w cs = false := by
  fun_induction stripFrom w cs with
  | case1 => simp [hits]
  | case2 rest ih =>
    constructor
    · intro same
      have shorter := @stripFromLength false rest
      have longer := congrArg List.length same
      simp only [List.length_cons] at longer
      omega
    · intro none
      simp [hits] at none
  | case3 w c rest plain ih =>
    have off : (!w && c == 't' && "his.".toList.isPrefixOf rest) = false := by
      refine Bool.eq_false_iff.mpr fun on => ?_
      simp only [Bool.and_eq_true, Bool.not_eq_true', beq_iff_eq, List.isPrefixOf_iff_prefix] at on
      obtain ⟨⟨rfl, rfl⟩, q, rfl⟩ := on
      exact plain q rfl rfl rfl
    have kept : c :: stripFrom (isWord c) rest = c :: rest ↔ stripFrom (isWord c) rest = rest :=
      ⟨fun same => (List.cons.inj same).2, congrArg (c :: ·)⟩
    rw [kept, ih, hits, off, Bool.false_or]

theorem prefixGuarded {word cs : List Char} (h : '<' ∉ word) :
    word.isPrefixOf (guardClosing cs) = word.isPrefixOf cs := by
  induction word generalizing cs with
  | nil => simp [List.isPrefixOf]
  | cons a word ih =>
    have other : (a == '<') = false := by
      refine beq_false_of_ne fun same => h (same ▸ List.mem_cons_self)
    have inner {rest : List Char} := @ih rest fun mem => h (List.mem_cons_of_mem a mem)
    fun_cases guardClosing cs with
    | case1 rest => simp [List.isPrefixOf, other]
    | case2 c rest plain => simp [List.isPrefixOf, inner]
    | case3 => rfl

theorem hitsGuarded {w : Bool} {cs : List Char} : hits w (guardClosing cs) = hits w cs := by
  fun_induction guardClosing cs generalizing w with
  | case1 rest ih => simp [hits, ih]
  | case2 c rest plain ih => rw [hits, hits, ih, prefixGuarded (by decide)]
  | case3 => rfl

theorem hexLetters {width n : Nat} : ∀ c ∈ hexDigits width n, c ∈ "0123456789abcdef".toList := by
  have digit : ∀ d, d < 16 → hexChar d ∈ "0123456789abcdef".toList := by decide
  induction width generalizing n with
  | zero => exact fun c h => absurd h List.not_mem_nil
  | succ width ih =>
    exact List.forall_mem_append.mpr ⟨ih, List.forall_mem_singleton.mpr (digit _ (Nat.mod_lt _ (by decide)))⟩

theorem allSeen {p : Char → Prop} [DecidablePred p] {cs : List Char} (seen : cs.all (fun c => p c) = true) :
    ∀ c ∈ cs, p c := fun c mem => of_decide_eq_true (List.all_eq_true.mp seen c mem)

theorem hexBlock {width n : Nat} : ∀ c ∈ hexDigits width n, c ≠ 't' ∧ isWord c = true := by
  have letters : ∀ c ∈ "0123456789abcdef".toList, c ≠ 't' ∧ isWord c = true := allSeen (by decide)
  exact fun c mem => letters c (hexLetters c mem)

def letterEscapes : List (Char × Char) :=
  [('"', '"'), ('\\', '\\'), ('\n', 'n'), ('\r', 'r'), ('\t', 't'), ('\x0c', 'f'), ('\x08', 'b')]

inductive Escaped (c : Char) : List Char → Prop where
  | letter {d : Char} (known : (c, d) ∈ letterEscapes) : Escaped c ['\\', d]
  | same (printed : 32 ≤ c.toNat ∧ c.toNat < 127) (quote : c ≠ '"') (slash : c ≠ '\\') : Escaped c [c]
  | coded (outside : ¬(32 ≤ c.toNat ∧ c.toNat < 127)) (tab : c ≠ '\t') :
      Escaped c ((units c).flatMap fun u => '\\' :: 'u' :: hexDigits 4 u)

theorem charEscaped {c : Char} : Escaped c (escapeChar c) := by
  by_cases own : ∃ p ∈ letterEscapes, p.1 = c
  · obtain ⟨p, known, rfl⟩ := own
    have table : ∀ p ∈ letterEscapes, escapeChar p.1 = ['\\', p.2] := by decide
    rw [table p known]
    exact .letter known
  -- No letter stands for `c`, so that each test before the last one fails.
  have none (d e : Char) (known : (d, e) ∈ letterEscapes) : ¬(c == d) = true := fun is =>
    own ⟨(d, e), known, (beq_iff_eq.mp is).symm⟩
  have quote := none '"' _ List.mem_cons_self
  have slash := none '\\' '\\' (by decide)
  have tab := none '\t' 't' (by decide)
  rw [escapeChar, if_neg quote, if_neg slash, if_neg (none '\n' 'n' (by decide)), if_neg (none '\r' 'r' (by decide)),
    if_neg tab, if_neg (none '\x0c' 'f' (by decide)), if_neg (none '\x08' 'b' (by decide))]
  rw [beq_iff_eq] at quote slash tab
  split
  · next printed => exact .same printed quote slash
  · next outside => exact .coded outside tab

def escapeLetters : List Char := "\"\\nrtfbu0123456789abcdef".toList

theorem escapedLetters {c d : Char} (mem : d ∈ escapeChar c) :
    d ∈ escapeLetters ∨ d = c ∧ 32 ≤ c.toNat ∧ c.toNat < 127 := by
  have letters : ∀ p ∈ letterEscapes, p.2 ∈ escapeLetters := by decide
  have hex : "0123456789abcdef".toList ⊆ escapeLetters := by decide
  have written := @charEscaped c
  generalize escapeChar c = block at mem written
  cases written with
  | letter known =>
    rcases List.mem_cons.mp mem with rfl | mem
    · exact .inl (by decide)
    · exact .inl (List.mem_singleton.mp mem ▸ letters _ known)
  | same printed => exact .inr ⟨List.mem_singleton.mp mem, printed⟩
  | coded =>
    obtain ⟨u, _, mem⟩ := List.mem_flatMap.mp mem
    rcases List.mem_cons.mp mem with rfl | mem
    · exact .inl (by decide)
    rcases List.mem_cons.mp mem with rfl | mem
    · exact .inl (by decide)
    · exact .inl (hex (hexLetters _ mem))

inductive Quoted (c : Char) : List Char → Prop where
  | same (printed : endsQuoted c = isWord c) (other : c ≠ '\t' ∧ c ≠ '\\' ∧ c ≠ '"') : Quoted c [c]
  | tab (is : c = '\t') : Quoted c ['\\', 't']
  | escaped {block d} (other : c ≠ 't' ∧ c ≠ '\t') (none : 't' ∉ block ++ [d])
      (ends : isWord d = endsQuoted c) : Quoted c ('\\' :: block ++ [d])

theorem quotedUnit {n : Nat} : ∃ block d, '\\' :: 'u' :: hexDigits 4 n = '\\' :: block ++ [d] ∧
    't' ∉ block ++ [d] ∧ isWord d = true := by
  have digits := @hexBlock 4 n
  refine ⟨'u' :: hexDigits 3 (n / 16), hexChar (n % 16), rfl, fun mem => ?_, ?_⟩
  · rcases List.mem_cons.mp mem with front | mem
    · exact absurd front (by decide)
    · exact (digits 't' mem).1 rfl
  · exact (digits _ (List.mem_append_right _ List.mem_cons_self)).2

theorem quotedUnits {c : Char} : ∃ block d, (units c).flatMap (fun u => '\\' :: 'u' :: hexDigits 4 u) =
    '\\' :: block ++ [d] ∧ 't' ∉ block ++ [d] ∧ isWord d = true := by
  unfold units
  split
  · obtain ⟨block, d, written, none, ends⟩ := @quotedUnit c.toNat
    exact ⟨block, d, by simpa using written, none, ends⟩
  · simp only [List.flatMap_cons, List.flatMap_nil, List.append_nil]
    obtain ⟨first, d, written, none, _⟩ := @quotedUnit (0xd800 + (c.toNat - 0x10000) / 0x400)
    obtain ⟨second, d', written', none', ends⟩ := @quotedUnit (0xdc00 + (c.toNat - 0x10000) % 0x400)
    rw [written, written']
    refine ⟨first ++ [d] ++ '\\' :: second, d', by simp, fun mem => ?_, ends⟩
    simp only [List.mem_append, List.mem_cons, List.not_mem_nil, or_false, not_or] at mem none none'
    rcases mem with ((mem | mem) | slash | mem) | mem
    · exact none.1 mem
    · exact none.2 mem
    · exact absurd slash (by decide)
    · exact none'.1 mem
    · exact none'.2 mem

theorem quotedChar {c : Char} : Quoted c (escapeChar c) := by
  have letters : ∀ p ∈ letterEscapes, p.1 ≠ '\t' →
      p.1 ≠ 't' ∧ 't' ≠ p.2 ∧ isWord p.2 = endsQuoted p.1 := by decide
  have tabs : ∀ p ∈ letterEscapes, p.1 = '\t' → p.2 = 't' := by decide
  have written := @charEscaped c
  generalize escapeChar c = block at written
  cases written with
  | @letter d known =>
    by_cases tab : c = '\t'
    · obtain rfl : d = 't' := tabs _ known tab
      exact .tab tab
    · obtain ⟨other, none, ends⟩ := letters _ known tab
      exact @Quoted.escaped c [] d ⟨other, tab⟩ (fun mem => none (List.mem_singleton.mp mem)) ends
  | same printed quote slash =>
    have tab : c ≠ '\t' := by
      rintro rfl
      exact absurd printed.1 (by decide)
    exact .same (by simp [endsQuoted, printed.1, printed.2]) ⟨tab, slash, quote⟩
  | coded outside tab =>
    obtain ⟨block, d, written, none, ends⟩ := @quotedUnits c
    rw [written]
    refine .escaped ⟨fun is => outside (is ▸ by decide), tab⟩ none (ends.trans ?_)
    have outside : c.toNat < 32 ∨ 127 ≤ c.toNat := by omega
    simp [endsQuoted, outside]

theorem prefixQuoted {word cs : List Char} (h : ∀ a ∈ word, escapeChar a = [a] ∧ a ≠ '\\' ∧ a ≠ '"') :
    word.isPrefixOf (cs.flatMap escapeChar ++ ['"']) = word.isPrefixOf cs := by
  induction word generalizing cs with
  | nil => simp [List.isPrefixOf]
  | cons a word ih =>
    obtain ⟨kept, slash, quote⟩ := h a List.mem_cons_self
    have inner (rest : List Char) := @ih rest fun b hb => h b (List.mem_cons_of_mem a hb)
    cases cs with
    | nil => simp [List.isPrefixOf, quote]
    | cons c rest =>
      have apart (block : List Char) (written : escapeChar c = '\\' :: block) :
          (a == c) = false := by
        refine beq_false_of_ne ?_
        rintro rfl
        rw [kept] at written
        exact slash (List.cons.inj written).1
      rw [List.flatMap_cons, List.append_assoc]
      generalize written : escapeChar c = block at apart
      cases written ▸ @quotedChar c with
      | same printed other => simp [List.isPrefixOf, inner]
      | tab is => simp [List.isPrefixOf, apart _ rfl, slash]
      | escaped other none ends => simp [List.isPrefixOf, apart _ rfl, slash]

theorem hitsBlock {w : Bool} {block rest : List Char} {d : Char} (h : 't' ∉ block ++ [d]) :
    hits w (block ++ d :: rest) = hits (isWord d) rest := by
  have pass {c : Char} {w : Bool} {cs : List Char} (other : 't' ≠ c) :
      hits w (c :: cs) = hits (isWord c) cs := by
    rw [hits, beq_false_of_ne other.symm, Bool.and_false, Bool.false_and, Bool.false_or]
  induction block generalizing w with
  | nil => exact pass fun same => h (same ▸ List.mem_cons_self)
  | cons c block ih =>
    rw [List.cons_append, pass fun same => h (same ▸ List.mem_cons_self)]
    exact ih fun mem => h (List.mem_cons_of_mem c mem)

theorem hitsEscaped {w : Bool} {cs : List Char} :
    hits w (cs.flatMap escapeChar ++ ['"']) = hitsQuoted w cs := by
  induction cs generalizing w with
  | nil => cases w <;> rfl
  | cons c rest ih =>
    have his : "his.".toList.isPrefixOf (rest.flatMap escapeChar ++ ['"']) = "his.".toList.isPrefixOf rest := by
      refine prefixQuoted fun a ha => ?_
      have letters : a = 'h' ∨ a = 'i' ∨ a = 's' ∨ a = '.' := by simpa using ha
      rcases letters with rfl | rfl | rfl | rfl <;> decide
    rw [List.flatMap_cons, List.append_assoc, hitsQuoted]
    generalize written : escapeChar c = block
    cases written ▸ @quotedChar c with
    | same printed other =>
      rw [List.singleton_append, hits, his, ih, printed, beq_false_of_ne other.1, Bool.or_false]
    | tab is =>
      subst is
      have ends : endsQuoted '\t' = isWord 't' := by decide
      have slash : isWord '\\' = false := by decide
      rw [List.cons_append, List.cons_append, List.nil_append, hits, hits, his, ih, ends, slash]
      simp
    | @escaped block d other none ends =>
      have whole : '\\' :: block ++ [d] ++ (rest.flatMap escapeChar ++ ['"']) =
          ('\\' :: block) ++ d :: (rest.flatMap escapeChar ++ ['"']) := by simp
      have clear : 't' ∉ '\\' :: block ++ [d] := fun mem => by
        rcases List.mem_cons.mp mem with front | mem
        · exact absurd front (by decide)
        · exact none mem
      rw [whole, hitsBlock clear, ih, ends, beq_false_of_ne other.1, beq_false_of_ne other.2]
      simp

theorem strippedQuoted {text : String} :
    stripReceiver (jsString text) = jsString text ↔ hitsQuoted false text.toList = false := by
  have written : (jsString text).toList = guardClosing (encode text.toList) := String.toList_ofList
  have quote : hits false (encode text.toList) = hits false (text.toList.flatMap escapeChar ++ ['"']) :=
    @hitsBlock false [] (text.toList.flatMap escapeChar ++ ['"']) '"' (by decide)
  rw [stripReceiver, ← String.toList_inj, String.toList_ofList, written, stripHits, hitsGuarded, quote,
    hitsEscaped]

end LiveMarkup.Client
