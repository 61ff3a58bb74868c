import LiveMarkup.Proofs.Runs
import LiveMarkup.Text.Name
import Mathlib.Data.Nat.Basic
import Mathlib.Tactic.SplitIfs
/-! How a browser reads arithmetic: the lexical elements and the grammar of JavaScript, as far as whole
numbers, fields of the component, `Math.floor`, operators and brackets go. -/
namespace LiveMarkup.Client
open Text

section Lexical

inductive Lexeme where
  | number (value : Nat)
  | word (name : String)
  | sign (text : String)
  deriving DecidableEq, Repr

def signs : List String :=
  [">>>=", "<!--", "...", "===", "!==", "**=", "<<=", ">>=", ">>>", "&&=", "||=", "??=", "=>", "==",
    "!=", "<=", ">=", "&&", "||", "??", "?.", "++", "--", "+=", "-=", "*=", "/=", "%=", "&=", "|=",
    "^=", "<<", ">>", "**", "//", "/*", "\x7b", "\x7d", "(", ")", "[", "]", ".", ";", ",", "<", ">",
    "+", "-", "*", "/", "%", "&", "|", "^", "!", "~", "?", ":", "=", "@", "#"]

def startsWord (c : Char) : Bool := isNameStart c || c == '$'

def inWord (c : Char) : Bool := isNamePart c || c == '$'

def readNumber (digits rest : List Char) : Option (List Lexeme × List Char) :=
  let value := Nat.ofDigitChars 10 digits 0
  if (toString value).toList = digits ∧ rest.head?.all (fun c => !inWord c && c != '.') then
    some ([.number value], rest)
  else none

def readFront : List Char → Option (List Lexeme × List Char)
  | [] => none
  | c :: rest =>
    if c = ' ' then some ([], rest)
    else if c.isDigit then readNumber (c :: rest.takeWhile Char.isDigit) (rest.dropWhile Char.isDigit)
    else if startsWord c then
      some ([.word (String.ofList (c :: rest.takeWhile inWord))], rest.dropWhile inWord)
    else (signs.find? (·.toList.isPrefixOf (c :: rest))).map fun s =>
      ([.sign s], (c :: rest).drop s.toList.length)

variable {cs rest : List Char} {ts : List Lexeme}

theorem frontShorter (h : readFront cs = some (ts, rest)) : rest.length < cs.length := by
  cases cs with
  | nil => cases h
  | cons c text =>
    have shorter (p : Char → Bool) : (text.dropWhile p).length < (c :: text).length :=
      Nat.lt_succ_of_le (List.length_dropWhile_le p text)
    simp only [readFront, readNumber] at h
    split_ifs at h
    · obtain ⟨-, rfl⟩ := Prod.mk.inj (Option.some.inj h)
      exact Nat.lt_succ_self _
    · obtain ⟨-, rfl⟩ := Prod.mk.inj (Option.some.inj h)
      exact shorter _
    · obtain ⟨-, rfl⟩ := Prod.mk.inj (Option.some.inj h)
      exact shorter _
    · obtain ⟨s, found, same⟩ := Option.map_eq_some_iff.mp h
      obtain ⟨-, rfl⟩ := Prod.mk.inj same
      have filled : ∀ s ∈ signs, 0 < s.toList.length := by decide
      have positive := filled s (List.mem_of_find?_eq_some found)
      simp only [List.length_drop, List.length_cons]
      omega

def lexemes (cs : List Char) : Option (List Lexeme) :=
  if cs = [] then some []
  else
    match _h : readFront cs with
    | some (ts, rest) => (lexemes rest).map (ts ++ ·)
    | none => none
termination_by cs.length
decreasing_by exact frontShorter _h

theorem lexemesFront (h : readFront cs = some (ts, rest)) :
    lexemes cs = (lexemes rest).map (ts ++ ·) := by
  rw [lexemes, if_neg (by rintro rfl; cases h)]
  split
  · next same =>
    obtain ⟨rfl, rfl⟩ := Prod.mk.inj (Option.some.inj (h.symm.trans same))
    rfl
  · next none => exact absurd (h.symm.trans none) (by simp)

theorem lexemesBlank : lexemes (' ' :: rest) = lexemes rest := by
  rw [@lexemesFront (' ' :: rest) rest [] rfl]
  simp

def Parted (rest : List Char) : Prop := ∀ c ∈ rest.head?, c = ' ' ∨ c = ')'

theorem Parted.ends (h : Parted rest) : ∀ c ∈ rest.head?, inWord c = false ∧ c ≠ '.' ∧ c.isDigit = false := by
  intro c hc
  rcases h c hc with rfl | rfl <;> decide

def Lexes (block : List Char) (ts : List Lexeme) : Prop :=
  ∀ rest, Parted rest → lexemes (block ++ rest) = (lexemes rest).map (ts ++ ·)

theorem lexesNumber {n : Nat} : Lexes (toString n).toList [.number n] := by
  intro rest parted
  have digits : (toString n).toList = Nat.toDigits 10 n := by
    rw [Nat.toString_eq_ofList_toDigits, String.toList_ofList]
  have all : ∀ c ∈ (toString n).toList, c.isDigit := fun c mem =>
    Nat.isDigit_of_mem_toDigits (by decide) (by decide) (digits ▸ mem)
  have value : Nat.ofDigitChars 10 (toString n).toList 0 = n := by
    rw [digits, Nat.ofDigitChars_toDigits (by decide) (by decide)]
  have filled : (toString n).toList ≠ [] := digits ▸ Nat.toDigits_ne_nil
  refine lexemesFront ?_
  cases split : (toString n).toList with
  | nil => exact absurd split filled
  | cons d more =>
    rw [split] at all value
    have digit : d.isDigit := all d List.mem_cons_self
    have other : d ≠ ' ' := by
      rintro rfl
      exact absurd digit (by decide)
    have tail : ∀ c ∈ more, c.isDigit := fun c mem => all c (List.mem_cons_of_mem d mem)
    have ends : ∀ c ∈ rest.head?, c.isDigit = false := fun c mem => (parted.ends c mem).2.2
    have free : rest.head?.all (fun c => !inWord c && c != '.') := by
      cases rest with
      | nil => rfl
      | cons c rest => simpa using ⟨(parted.ends c rfl).1, (parted.ends c rfl).2.1⟩
    rw [List.cons_append, readFront, if_neg other, if_pos digit, runTaken tail ends, runDropped tail ends,
      readNumber]
    simp only [value, split, free, and_self, if_true]

theorem inWordOfStarts {c : Char} (h : startsWord c) : inWord c := by
  simp only [startsWord, inWord, Bool.or_eq_true, beq_iff_eq] at h ⊢
  exact h.imp_left isNamePart_of_isNameStart

theorem notDigitOfStarts {c : Char} (h : startsWord c) : c ≠ ' ' ∧ c.isDigit = false := by
  by_cases small : c.toNat < 128
  · constructor
    · rintro rfl
      exact absurd h (by decide)
    · rw [startsWord, isNameStart, if_pos small] at h
      simp only [Bool.or_eq_true, beq_iff_eq] at h
      rcases h with (letter | rfl) | rfl
      · have upper (h : c.isUpper) : 65 ≤ c.toNat := (of_decide_eq_true h).1
        have lower (h : c.isLower) : 97 ≤ c.toNat := of_decide_eq_true (Bool.and_eq_true_iff.mp h).1
        have cases : (c.isUpper || c.isLower) = true := letter
        have above : 65 ≤ c.toNat := (Bool.or_eq_true_iff.mp cases).elim upper fun h => Nat.le_trans (by decide) (lower h)
        have beyond : 65 ≤ c.val.toNat := above
        simp only [Char.isDigit, Bool.and_eq_false_iff, decide_eq_false_iff_not, UInt32.le_iff_toNat_le]
        simp
        omega
      · decide
      · decide
  · constructor
    · rintro rfl
      exact small (by decide)
    · simp only [Char.isDigit, Bool.and_eq_false_iff, decide_eq_false_iff_not, UInt32.le_iff_toNat_le]
      have large : 128 ≤ c.val.toNat := Nat.le_of_not_lt small
      simp
      omega

theorem frontWord {word rest : List Char} (name : isName word) (ends : ∀ c ∈ rest.head?, inWord c = false) :
    readFront (word ++ rest) = some ([.word (String.ofList word)], rest) := by
  cases word with
  | nil => cases name
  | cons c more =>
    simp only [isName, Bool.and_eq_true, List.all_eq_true] at name
    have starts : startsWord c := by simp [startsWord, name.1]
    have all : ∀ d ∈ more, inWord d := fun d mem => by simp [inWord, name.2 d mem]
    obtain ⟨other, noDigit⟩ := notDigitOfStarts starts
    rw [List.cons_append, readFront, if_neg other, if_neg (by simp [noDigit]), if_pos starts,
      runTaken all ends, runDropped all ends]

theorem frontDot {c : Char} {rest : List Char} (other : c ≠ '.') :
    readFront ('.' :: c :: rest) = some ([.sign "."], c :: rest) := by
  have alone : (['.', '.'] : List Char).isPrefixOf (c :: rest) = false := by
    simp [List.isPrefixOf, other.symm]
  simp [readFront, startsWord, isNameStart, signs, alone, other.symm]

theorem frontMinus {c : Char} {rest : List Char} (other : c ≠ '-' ∧ c ≠ '=') :
    readFront ('-' :: c :: rest) = some ([.sign "-"], c :: rest) := by
  have alone : (['-'] : List Char).isPrefixOf (c :: rest) = false ∧
      (['='] : List Char).isPrefixOf (c :: rest) = false := by
    simp [List.isPrefixOf, other.1.symm, other.2.symm]
  simp [readFront, startsWord, isNameStart, signs, alone, other.2.symm]

theorem frontBang {c : Char} {rest : List Char} (other : c ≠ '=') :
    readFront ('!' :: c :: rest) = some ([.sign "!"], c :: rest) := by
  have alone : (['='] : List Char).isPrefixOf (c :: rest) = false := by
    simp [List.isPrefixOf, other.symm]
  simp [readFront, startsWord, isNameStart, signs, alone, other.symm]

theorem frontOpen {rest : List Char} : readFront ('(' :: rest) = some ([.sign "("], rest) := rfl

theorem frontClose {rest : List Char} : readFront (')' :: rest) = some ([.sign ")"], rest) := rfl

theorem lexesField {f : String} (name : isName f.toList) :
    Lexes ("this.".toList ++ f.toList) [.word "this", .sign ".", .word f] := by
  intro rest parted
  have word := frontWord name fun c mem => (parted.ends c mem).1
  have dot : readFront ('.' :: (f.toList ++ rest)) = some ([.sign "."], f.toList ++ rest) := by
    cases named : f.toList with
    | nil =>
      rw [named] at name
      cases name
    | cons c more =>
      refine frontDot ?_
      rintro rfl
      rw [named, isName, Bool.and_eq_true] at name
      exact absurd name.1 (by decide)
  have this : readFront ("this".toList ++ '.' :: (f.toList ++ rest)) =
      some ([.word "this"], '.' :: (f.toList ++ rest)) := by
    refine frontWord (by decide) ?_
    rintro _ ⟨⟩
    decide
  show lexemes ("this".toList ++ '.' :: (f.toList ++ rest)) = _
  rw [lexemesFront this, lexemesFront dot, lexemesFront word, Option.map_map, Option.map_map,
    String.ofList_toList]
  rfl

variable {a b : List Char} {us : List Lexeme}

theorem lexesGroup (h : Lexes a ts) : Lexes ('(' :: a ++ [')']) (.sign "(" :: ts ++ [.sign ")"]) := by
  intro rest _
  have closing : Parted (')' :: rest) := by
    rintro c ⟨⟩
    exact .inr rfl
  have same : '(' :: a ++ [')'] ++ rest = '(' :: (a ++ ')' :: rest) := by simp
  rw [same, lexemesFront frontOpen, h _ closing, lexemesFront frontClose, Option.map_map, Option.map_map]
  simp [Function.comp_def]

def Opens (a : List Char) : Prop := ∃ c more, a = c :: more ∧ c ≠ '-' ∧ c ≠ '='

theorem lexesMinus (h : Lexes a ts) (opens : Opens a) : Lexes ('-' :: a) (.sign "-" :: ts) := by
  intro rest parted
  obtain ⟨c, more, rfl, other⟩ := opens
  rw [List.cons_append, List.cons_append, lexemesFront (frontMinus other), ← List.cons_append, h rest parted,
    Option.map_map]
  rfl

theorem lexesBang (h : Lexes a ts) (opens : Opens a) : Lexes ('!' :: a) (.sign "!" :: ts) := by
  intro rest parted
  obtain ⟨c, more, rfl, other⟩ := opens
  rw [List.cons_append, List.cons_append, lexemesFront (frontBang other.2), ← List.cons_append, h rest parted,
    Option.map_map]
  rfl

def spaced : List String :=
  ["||", "&&", "===", "!==", "<", "<=", ">", ">=", "+", "-", "*", "/", "%", "?", ":"]

theorem frontSpaced {s : String} (h : s ∈ spaced) :
    readFront (s.toList ++ ' ' :: rest) = some ([.sign s], ' ' :: rest) := by
  simp only [spaced, List.mem_cons, List.not_mem_nil, or_false] at h
  rcases h with rfl | rfl | rfl | rfl | rfl | rfl | rfl | rfl | rfl | rfl | rfl | rfl | rfl | rfl | rfl <;> rfl

theorem lexesBetween {s : String} (first : Lexes a ts) (second : Lexes b us) (h : s ∈ spaced) :
    Lexes (a ++ (" " ++ s ++ " ").toList ++ b) (ts ++ .sign s :: us) := by
  intro rest parted
  have blank (more : List Char) : Parted (' ' :: more) := by
    rintro c ⟨⟩
    exact .inl rfl
  have same : a ++ (" " ++ s ++ " ").toList ++ b ++ rest = a ++ ' ' :: (s.toList ++ ' ' :: (b ++ rest)) := by
    simp
  rw [same, first _ (blank _), lexemesBlank, lexemesFront (frontSpaced h), lexemesBlank, second rest parted,
    Option.map_map, Option.map_map]
  simp [Function.comp_def]

theorem lexesFloor (h : Lexes a ts) : Lexes ("Math.floor(".toList ++ a ++ [')'])
    (.word "Math" :: .sign "." :: .word "floor" :: .sign "(" :: ts ++ [.sign ")"]) := by
  intro rest parted
  have whole : readFront ("Math".toList ++ '.' :: ("floor".toList ++ ('(' :: a ++ [')'] ++ rest))) =
      some ([.word "Math"], '.' :: ("floor".toList ++ ('(' :: a ++ [')'] ++ rest))) := by
    refine frontWord (by decide) ?_
    rintro _ ⟨⟩
    decide
  have floor : readFront ("floor".toList ++ ('(' :: a ++ [')'] ++ rest)) =
      some ([.word "floor"], '(' :: a ++ [')'] ++ rest) := by
    refine frontWord (by decide) ?_
    rintro _ ⟨⟩
    decide
  have dot : readFront ('.' :: ("floor".toList ++ ('(' :: a ++ [')'] ++ rest))) =
      some ([.sign "."], "floor".toList ++ ('(' :: a ++ [')'] ++ rest)) :=
    frontDot (by decide)
  have same : "Math.floor(".toList ++ a ++ [')'] ++ rest =
      "Math".toList ++ '.' :: ("floor".toList ++ ('(' :: a ++ [')'] ++ rest)) := by simp
  rw [same, lexemesFront whole, lexemesFront dot, lexemesFront floor, lexesGroup h rest parted, Option.map_map,
    Option.map_map, Option.map_map]
  rfl

end Lexical

section Reading

inductive Operator where
  | or
  | and
  | same
  | differs
  | less
  | lessSame
  | greater
  | greaterSame
  | plus
  | minus
  | times
  | divide
  | remainder
  deriving DecidableEq, Repr

namespace Operator

def sign : Operator → String
  | or => "||"
  | and => "&&"
  | same => "==="
  | differs => "!=="
  | less => "<"
  | lessSame => "<="
  | greater => ">"
  | greaterSame => ">="
  | plus => "+"
  | minus => "-"
  | times => "*"
  | divide => "/"
  | remainder => "%"

def rank : Operator → Nat
  | or => 5
  | and => 4
  | same | differs => 3
  | less | lessSame | greater | greaterSame => 2
  | plus | minus => 1
  | times | divide | remainder => 0

def all : List Operator :=
  [or, and, same, differs, less, lessSame, greater, greaterSame, plus, minus, times, divide, remainder]

end Operator

def operator? : Lexeme → Option Operator
  | .sign s => Operator.all.find? (·.sign == s)
  | _ => none

theorem operatorSign {op : Operator} : operator? (.sign op.sign) = some op := by cases op <;> rfl

theorem signSpaced {op : Operator} : op.sign ∈ spaced := by cases op <;> decide

inductive Formula where
  | number (n : Nat)
  | field (name : String)
  | floor (e : Formula)
  | minus (e : Formula)
  | negation (e : Formula)
  | operation (op : Operator) (left right : Formula)
  | conditional (test body orelse : Formula)
  deriving DecidableEq, Repr

abbrev Reader := List Lexeme → Option (Formula × List Lexeme)

def readClosed (inner : Reader) (form : Formula → Formula) : Reader := fun ts =>
  match inner ts with
  | some (e, .sign ")" :: rest) => some (form e, rest)
  | _ => none

def readUnary (inner : Reader) : Reader
  | .number n :: rest => some (.number n, rest)
  | .word "this" :: .sign "." :: .word f :: rest => some (.field f, rest)
  | .word "Math" :: .sign "." :: .word "floor" :: .sign "(" :: rest => readClosed inner .floor rest
  | .sign "(" :: rest => readClosed inner id rest
  | .sign "-" :: rest => (readUnary inner rest).map fun (e, rest) => (.minus e, rest)
  | .sign "!" :: rest => (readUnary inner rest).map fun (e, rest) => (.negation e, rest)
  | _ => none

def readChain (rank : Nat) (operand : Reader) : (steps : Nat) → Formula → Reader
  | steps + 1, e, t :: rest =>
    match operator? t with
    | some op =>
      if op.rank = rank then
        (operand rest).bind fun (r, rest) => readChain rank operand steps (.operation op e r) rest
      else some (e, t :: rest)
    | none => some (e, t :: rest)
  | _, e, ts => some (e, ts)

def readTight (inner : Reader) : (rank : Nat) → Reader
  | 0, ts => readUnary inner ts
  | rank + 1, ts =>
    (readTight inner rank ts).bind fun (e, rest) => readChain rank (readTight inner rank) rest.length e rest

def readExpression : (depth : Nat) → Reader
  | 0, _ => none
  | depth + 1, ts =>
    match readTight (readExpression depth) 6 ts with
    | some (test, .sign "?" :: rest) =>
      match readExpression depth rest with
      | some (body, .sign ":" :: rest) =>
        (readExpression depth rest).map fun (orelse, rest) => (.conditional test body orelse, rest)
      | _ => none
    | r => r

def readFormula (text : String) : Option Formula :=
  (lexemes text.toList).bind fun ts =>
    match readExpression (ts.length + 1) ts with
    | some (e, []) => some e
    | _ => none

def Ends (rank : Nat) (rest : List Lexeme) : Prop :=
  ∀ t ∈ rest.head?, ∀ op, operator? t = some op → rank ≤ op.rank

def Tight (inner : Reader) (rank : Nat) (ts : List Lexeme) (e : Formula) : Prop :=
  ∀ rest, Ends rank rest → readTight inner rank (ts ++ rest) = some (e, rest)

def Closed (rest : List Lexeme) : Prop := ∀ t ∈ rest.head?, operator? t = none ∧ t ≠ .sign "?"

def Atomic (ts : List Lexeme) (e : Formula) : Prop :=
  ∀ depth, ts.length ≤ depth + 1 → ∀ rest, readUnary (readExpression depth) (ts ++ rest) = some (e, rest)

def Whole (ts : List Lexeme) (e : Formula) : Prop :=
  ∀ depth, ts.length ≤ depth → ∀ rest, Closed rest → readExpression (depth + 1) (ts ++ rest) = some (e, rest)

variable {inner : Reader} {rank steps : Nat} {ts us : List Lexeme} {e f g : Formula} {rest : List Lexeme}

theorem chainEnds (h : Ends (rank + 1) rest) :
    readChain rank (readTight inner rank) steps e rest = some (e, rest) := by
  unfold readChain
  split
  · next steps e t rest =>
    split
    · next op is =>
      have looser := h t rfl op is
      rw [if_neg (by omega)]
    · rfl
  · rfl

theorem chainReads {op : Operator} (operands : List (List Lexeme × Formula))
    (all : ∀ p ∈ operands, Tight inner op.rank p.1 p.2) (enough : operands.length ≤ steps)
    (h : Ends (op.rank + 1) rest) :
    readChain op.rank (readTight inner op.rank) steps e
      (operands.flatMap (fun p => .sign op.sign :: p.1) ++ rest) =
      some (operands.foldl (fun a p => .operation op a p.2) e, rest) := by
  induction operands generalizing e steps with
  | nil => exact chainEnds h
  | cons p more ih =>
    cases steps with
    | zero => cases enough
    | succ steps =>
      have ends : Ends op.rank (more.flatMap (fun p => .sign op.sign :: p.1) ++ rest) := by
        cases more with
        | nil => exact fun t mem next is => Nat.le_of_succ_le (h t mem next is)
        | cons q more =>
          rintro t ⟨⟩ next is
          rw [operatorSign] at is
          cases is
          exact Nat.le_refl _
      have read := all p List.mem_cons_self _ ends
      rw [List.flatMap_cons, List.cons_append, List.cons_append, readChain, operatorSign]
      simp only [if_true, List.append_assoc, read, Option.bind_some]
      exact ih (fun p mem => all p (List.mem_cons_of_mem _ mem)) (Nat.le_of_succ_le_succ enough)

theorem Tight.loosen (h : Tight inner rank ts e) {higher : Nat} (le : rank ≤ higher) : Tight inner higher ts e := by
  induction le with
  | refl => exact h
  | step _ ih =>
    intro rest ends
    have inside := ih rest fun t mem op is => Nat.le_of_succ_le (ends t mem op is)
    rw [readTight, inside]
    exact chainEnds ends

theorem tightChain {op : Operator} (operands : List (List Lexeme × Formula)) (first : Tight inner op.rank ts e)
    (all : ∀ p ∈ operands, Tight inner op.rank p.1 p.2) :
    Tight inner (op.rank + 1) (ts ++ operands.flatMap (fun p => .sign op.sign :: p.1))
      (operands.foldl (fun a p => .operation op a p.2) e) := by
  intro rest ends
  have next : Ends op.rank (operands.flatMap (fun p => .sign op.sign :: p.1) ++ rest) := by
    cases operands with
    | nil => exact fun t mem other is => Nat.le_of_succ_le (ends t mem other is)
    | cons p more =>
      rintro t ⟨⟩ other is
      rw [operatorSign] at is
      cases is
      exact Nat.le_refl _
  have enough : operands.length ≤ (operands.flatMap (fun p => .sign op.sign :: p.1) ++ rest).length := by
    clear all next
    induction operands with
    | nil => exact Nat.zero_le _
    | cons p more ih =>
      simp only [List.flatMap_cons, List.cons_append, List.append_assoc, List.length_cons, List.length_append] at ih ⊢
      omega
  rw [List.append_assoc, readTight, first _ next]
  exact chainReads operands all enough ends

theorem Atomic.tight (h : Atomic ts e) {depth : Nat} (le : ts.length ≤ depth + 1) :
    Tight (readExpression depth) rank ts e := by
  have operand : Tight (readExpression depth) 0 ts e := fun rest _ => h depth le rest
  exact operand.loosen (Nat.zero_le rank)

theorem wholeOfTight (h : ∀ depth, ts.length ≤ depth + 1 → Tight (readExpression depth) 6 ts e) : Whole ts e := by
  intro depth le rest closed
  have ends : Ends 6 rest := fun t mem op is => by simp [(closed t mem).1] at is
  rw [readExpression, h depth (Nat.le_succ_of_le le) rest ends]
  split
  · next same =>
    obtain ⟨-, rfl⟩ := Prod.mk.inj (Option.some.inj same)
    exact absurd rfl (closed _ rfl).2
  · rfl

theorem Atomic.whole (h : Atomic ts e) : Whole ts e := wholeOfTight fun _ le => h.tight le

theorem atomicNumber {n : Nat} : Atomic [.number n] (.number n) := fun _ _ _ => rfl

theorem atomicField {name : String} : Atomic [.word "this", .sign ".", .word name] (.field name) := by
  intro _ _ _
  simp [readUnary]

theorem Whole.closed (h : Whole ts e) {depth : Nat} (le : ts.length + 1 ≤ depth) {form : Formula → Formula} :
    readClosed (readExpression depth) form (ts ++ .sign ")" :: rest) = some (form e, rest) := by
  cases depth with
  | zero => cases le
  | succ depth =>
    have closes : Closed (.sign ")" :: rest) := by
      rintro t ⟨⟩
      exact ⟨rfl, by decide⟩
    simp only [readClosed, h depth (Nat.le_of_succ_le_succ le) _ closes]

theorem Whole.group (h : Whole ts e) : Atomic (.sign "(" :: ts ++ [.sign ")"]) e := by
  intro depth le rest
  have inside : readClosed (readExpression depth) id (ts ++ .sign ")" :: rest) = some (e, rest) :=
    h.closed (by simpa using le)
  simpa [readUnary] using inside

theorem Whole.floor (h : Whole ts e) :
    Atomic (.word "Math" :: .sign "." :: .word "floor" :: .sign "(" :: ts ++ [.sign ")"]) (.floor e) := by
  intro depth le rest
  have inside : readClosed (readExpression depth) .floor (ts ++ .sign ")" :: rest) = some (.floor e, rest) :=
    h.closed (by simp at le; omega)
  simpa [readUnary] using inside

theorem Atomic.minus (h : Atomic ts e) : Atomic (.sign "-" :: ts) (.minus e) := by
  intro depth le rest
  have operand := h depth (Nat.le_of_succ_le le) rest
  simp [readUnary, operand]

theorem Atomic.negation (h : Atomic ts e) : Atomic (.sign "!" :: ts) (.negation e) := by
  intro depth le rest
  have operand := h depth (Nat.le_of_succ_le le) rest
  simp [readUnary, operand]

theorem Atomic.chain {op : Operator} {operands : List (List Lexeme × Formula)} (first : Atomic ts e)
    (all : ∀ p ∈ operands, Atomic p.1 p.2) : Whole (ts ++ operands.flatMap (fun p => .sign op.sign :: p.1))
      (operands.foldl (fun a p => .operation op a p.2) e) := by
  refine wholeOfTight fun depth le => ?_
  have shorter : ∀ p ∈ operands, p.1.length ≤ depth + 1 := by
    intro p mem
    obtain ⟨before, after, rfl⟩ := List.append_of_mem mem
    simp only [List.flatMap_append, List.flatMap_cons, List.length_append, List.length_cons] at le
    omega
  have ranked : op.rank + 1 ≤ 6 := by cases op <;> decide
  simp only [List.length_append] at le
  exact (tightChain operands (first.tight (by omega)) fun p mem => (all p mem).tight (shorter p mem)).loosen ranked

theorem Atomic.conditional {vs : List Lexeme} (test : Atomic ts e) (body : Atomic us f) (orelse : Atomic vs g) :
    Whole (ts ++ .sign "?" :: (us ++ .sign ":" :: vs)) (.conditional e f g) := by
  intro depth le rest closed
  simp only [List.length_append, List.length_cons] at le
  cases depth with
  | zero => omega
  | succ depth =>
    have question (more : List Lexeme) : Ends 6 (.sign "?" :: more) := by
      rintro t ⟨⟩ op is
      cases is
    have colon (more : List Lexeme) : Closed (.sign ":" :: more) := by
      rintro t ⟨⟩
      exact ⟨rfl, by decide⟩
    have first : readTight (readExpression (depth + 1)) 6 _ = _ :=
      test.tight (by omega) (.sign "?" :: (us ++ .sign ":" :: (vs ++ rest))) (question _)
    have second := body.whole depth (by omega) (.sign ":" :: (vs ++ rest)) (colon _)
    have third := orelse.whole depth (by omega) rest closed
    have same : ts ++ .sign "?" :: (us ++ .sign ":" :: vs) ++ rest =
        ts ++ .sign "?" :: (us ++ .sign ":" :: (vs ++ rest)) := by simp
    rw [readExpression, same, first]
    simp only [second, third, Option.map_some]

theorem formulaRead {text : String} (lexed : Lexes text.toList ts) (whole : Whole ts e) :
    readFormula text = some e := by
  have all := lexed [] fun c mem => nomatch mem
  have none : lexemes [] = some [] := by rw [lexemes, if_pos rfl]
  rw [List.append_nil, none, Option.map_some, List.append_nil] at all
  have read := whole ts.length (Nat.le_refl _) [] fun t mem => nomatch mem
  rw [List.append_nil] at read
  rw [readFormula, all, Option.bind_some, read]

end Reading

end LiveMarkup.Client
