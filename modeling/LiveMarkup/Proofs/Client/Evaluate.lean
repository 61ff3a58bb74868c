import LiveMarkup.Proofs.Client.Quoted
/-! How the browser reads composed code: literals and bracketed expressions with `+` between them, from
the left. Its texts are sequences of UTF-16 units. -/
namespace LiveMarkup.Client
open Text Json

def unitsOf (s : String) : List Nat := s.toList.flatMap units

inductive Scalar where
  | null
  | truth (b : Bool)
  | number (n : Int)
  | text (content : List Nat)
  deriving DecidableEq, Repr

namespace Scalar

def shown : Scalar → List Nat
  | null => unitsOf "null"
  | truth b => unitsOf (if b then "true" else "false")
  | number n => unitsOf (toString n)
  | text content => content

def number? : Scalar → Option Int
  | null => some 0
  | truth b => some (if b then 1 else 0)
  | number n => some n
  | text _ => none

def add (a b : Scalar) : Scalar :=
  match a.number?, b.number? with
  | some m, some n => number (m + n)
  | _, _ => text (a.shown ++ b.shown)

def attribute? : Scalar → Option (List Nat)
  | null | truth false => none
  | truth true => some []
  | v => some v.shown

end Scalar

section Literal

def escaped? (c : Char) : Option Nat :=
  if c == '"' || c == '\\' || c == '/' then some c.toNat
  else if c == 'n' then some 10
  else if c == 'r' then some 13
  else if c == 't' then some 9
  else if c == 'f' then some 12
  else if c == 'b' then some 8
  else none

def readUnit? (digits : List Char) : Option Nat :=
  digits.foldlM (fun n c => (hexValue? c).map (16 * n + ·)) 0

def readLiteral : List Char → Option (List Nat × List Char)
  | [] => none
  | '"' :: rest => some ([], rest)
  | '\\' :: 'u' :: a :: b :: c :: d :: rest =>
    (readUnit? [a, b, c, d]).bind fun u => (readLiteral rest).map fun (more, rest) => (u :: more, rest)
  | '\\' :: c :: rest =>
    (escaped? c).bind fun u => (readLiteral rest).map fun (more, rest) => (u :: more, rest)
  | c :: rest =>
    if c == '\n' || c == '\r' then none
    else (readLiteral rest).map fun (more, rest) => (units c ++ more, rest)

def Spells (block : List Char) (content : List Nat) : Prop :=
  ∀ rest, readLiteral (block ++ rest) = (readLiteral rest).map fun (more, rest) => (content ++ more, rest)

variable {c : Char} {n : Nat}

theorem spellsAppend {a b : List Char} {u v : List Nat} (ha : Spells a u) (hb : Spells b v) :
    Spells (a ++ b) (u ++ v) := by
  intro rest
  rw [List.append_assoc, ha, hb, Option.map_map]
  congr 1
  funext p
  simp

theorem spellsSame (h : c ≠ '"' ∧ c ≠ '\\' ∧ c ≠ '\n' ∧ c ≠ '\r') : Spells [c] (units c) := by
  obtain ⟨quote, slash, feed, back⟩ := h
  intro rest
  rw [List.singleton_append, readLiteral]
  · simp [feed, back]
  · exact fun is => quote is
  · exact fun _ _ _ _ _ is _ => slash is
  · exact fun _ _ is _ => slash is

theorem spellsEscape {u : Nat} (h : escaped? c = some u) : Spells ['\\', c] [u] := by
  have other : c ≠ 'u' := by
    rintro rfl
    cases h
  intro rest
  show readLiteral ('\\' :: c :: rest) = _
  rw [readLiteral, h]
  · rfl
  · exact fun _ _ _ _ _ is _ => other is

theorem hexRead {d : Nat} : d < 16 → hexValue? (hexChar d) = some d := by
  revert d
  decide

theorem spellsUnit (h : n < 0x10000) : Spells ('\\' :: 'u' :: hexDigits 4 n) [n] := by
  intro rest
  have digit (m : Nat) : hexValue? (hexChar (m % 16)) = some (m % 16) := hexRead (Nat.mod_lt _ (by decide))
  have read : readUnit? (hexDigits 4 n) = some n := by
    simp only [readUnit?, hexDigits, List.nil_append, List.cons_append, List.foldlM_cons, List.foldlM_nil, digit,
      Option.map_some, Option.bind_eq_bind, Option.bind_some, Option.pure_def, Option.some.injEq]
    omega
  simp only [hexDigits, List.nil_append, List.cons_append] at read ⊢
  rw [readLiteral, read]
  rfl

theorem spellsUnits : Spells ((units c).flatMap fun u => '\\' :: 'u' :: hexDigits 4 u) (units c) := by
  have valid : c.toNat < 0x110000 := by
    have small := c.valid
    unfold UInt32.isValidChar Nat.isValidChar at small
    show c.val.toNat < _
    omega
  unfold units
  split
  · next small => simpa using spellsUnit small
  · have both := spellsAppend (@spellsUnit (0xd800 + (c.toNat - 0x10000) / 0x400) (by omega))
      (@spellsUnit (0xdc00 + (c.toNat - 0x10000) % 0x400) (by omega))
    simpa using both

theorem spellsChar : Spells (escapeChar c) (units c) := by
  have letters : ∀ p ∈ letterEscapes, escaped? p.2 = some p.1.toNat ∧ units p.1 = [p.1.toNat] := by decide
  have written := @charEscaped c
  generalize escapeChar c = block at written
  cases written with
  | letter known => exact (letters _ known).2 ▸ spellsEscape (letters _ known).1
  | same printed quote slash =>
    refine spellsSame ⟨quote, slash, ?_, ?_⟩
    · rintro rfl
      exact absurd printed.1 (by decide)
    · rintro rfl
      exact absurd printed.1 (by decide)
  | coded => exact spellsUnits

theorem guardBlock {block cs : List Char} (h : '<' ∉ block) :
    guardClosing (block ++ cs) = block ++ guardClosing cs := by
  induction block with
  | nil => rfl
  | cons a block ih =>
    rw [List.cons_append, guardClosing, ih fun mem => h (List.mem_cons_of_mem a mem), List.cons_append]
    exact fun _ is _ => h (is ▸ List.mem_cons_self)

theorem escapeClear (h : c ≠ '<') : '<' ∉ escapeChar c := fun mem =>
  (escapedLetters mem).elim (fun part => absurd part (by decide)) fun same => h same.1.symm

theorem readGuarded {cs rest : List Char} : readLiteral (guardClosing ('<' :: cs) ++ rest) =
    readLiteral ('<' :: guardClosing cs ++ rest) := by
  have plain (other : ∀ more, cs ≠ '/' :: more) : guardClosing ('<' :: cs) = '<' :: guardClosing cs := by
    rw [guardClosing]
    exact fun more _ is => other more is
  rcases cs with _ | ⟨d, more⟩
  · rfl
  by_cases slash : d = '/'
  · subst slash
    have kept : guardClosing ('/' :: more) = '/' :: guardClosing more := by
      rw [guardClosing]
      exact fun _ is _ => absurd is (by decide)
    rw [kept]
    rfl
  · rw [plain fun _ is => slash (List.cons.inj is).1]

theorem literalRead {s : String} : ∃ body, (jsString s).toList = '"' :: body ∧
    ∀ rest, readLiteral (body ++ rest) = some (unitsOf s, rest) := by
  have each (cs rest : List Char) : readLiteral (guardClosing (cs.flatMap escapeChar ++ ['"']) ++ rest) =
      some (cs.flatMap units, rest) := by
    induction cs with
    | nil => rfl
    | cons c cs ih =>
      have joined : readLiteral (escapeChar c ++ (guardClosing (cs.flatMap escapeChar ++ ['"']) ++ rest)) =
          some ((c :: cs).flatMap units, rest) := by
        rw [spellsChar, ih]
        rfl
      rw [List.flatMap_cons, List.append_assoc]
      by_cases angle : c = '<'
      · subst angle
        exact readGuarded.trans joined
      · rw [guardBlock (escapeClear angle), List.append_assoc]
        exact joined
  refine ⟨guardClosing (s.toList.flatMap escapeChar ++ ['"']), ?_, fun rest => each s.toList rest⟩
  rw [jsString, String.toList_ofList, encode, List.cons_append, guardClosing]
  exact fun _ is _ => absurd is (by decide)

end Literal

section Sum

abbrev Given := List (String × Scalar)

def readOperand (given : Given) : List Char → Option (Scalar × Given × List Char)
  | '"' :: s => (readLiteral s).map fun (content, rest) => (.text content, given, rest)
  | '(' :: s =>
    match given with
    | [] => none
    | (source, v) :: given =>
      let inside := source.toList ++ [')']
      if inside.isPrefixOf s then some (v, given, s.drop inside.length) else none
  | _ => none

def plus : List Char := [' ', '+', ' ']

def sumFrom (left : Scalar) (given : Given) (s : List Char) : Option Scalar :=
  if s.isEmpty then if given.isEmpty then some left else none
  else if plus.isPrefixOf s then
    match readOperand given (s.drop plus.length) with
    | some (v, given, rest) => if rest.length < s.length then sumFrom (left.add v) given rest else none
    | none => none
  else none
termination_by s.length

def sourceValue (given : Given) (source : String) : Option Scalar :=
  let sum := (readOperand given source.toList).bind fun (v, given, rest) => sumFrom v given rest
  match given with
  | [(expression, v)] => if expression = source then some v else sum
  | _ => sum

structure Operand where
  source : String
  given : Given
  value : Scalar

def Operand.Reads (o : Operand) : Prop :=
  ∀ given rest, readOperand (o.given ++ given) (o.source.toList ++ rest) = some (o.value, given, rest)

inductive Operand.Plain : Operand → Prop where
  | literal {content source} (quoted : source.toList.head? = some '"') :
      Plain ⟨source, [], .text content⟩
  | bracketed {e v} : Plain ⟨"(" ++ e ++ ")", [(e, v)], v⟩

theorem readsLiteral {s : String} : Operand.Reads ⟨jsString s, [], .text (unitsOf s)⟩ := by
  intro given rest
  obtain ⟨body, written, read⟩ := @literalRead s
  simp [written, readOperand, read]

theorem readsBracketed {source : String} {v : Scalar} :
    Operand.Reads ⟨"(" ++ source ++ ")", [(source, v)], v⟩ := by
  intro given rest
  have written : ("(" ++ source ++ ")").toList ++ rest = '(' :: ((source.toList ++ [')']) ++ rest) := by
    simp
  rw [written, List.singleton_append, readOperand]
  simp only [List.drop_left]
  rw [if_pos (List.isPrefixOf_iff_prefix.mpr ⟨rest, rfl⟩)]

def sumOf (left : Scalar) (operands : List Operand) : Scalar := operands.foldl (fun v o => v.add o.value) left

def givenOf (operands : List Operand) : Given := operands.flatMap (·.given)

def moreOf (operands : List Operand) : List Char := operands.flatMap fun o => plus ++ o.source.toList

theorem sumRead {operands : List Operand} (reads : ∀ o ∈ operands, o.Reads) {left : Scalar} :
    sumFrom left (givenOf operands) (moreOf operands) = some (sumOf left operands) := by
  induction operands generalizing left with
  | nil => rw [sumFrom]; rfl
  | cons o rest ih =>
    have read := reads o List.mem_cons_self (givenOf rest) (moreOf rest)
    have later := @ih (fun o ho => reads o (List.mem_cons_of_mem _ ho)) (left.add o.value)
    have written : moreOf (o :: rest) = plus ++ (o.source.toList ++ moreOf rest) := by
      simp [moreOf]
    have shorter : (moreOf rest).length < (plus ++ (o.source.toList ++ moreOf rest)).length := by
      simp only [List.length_append, plus, List.length_cons, List.length_nil]
      omega
    have front : plus.isPrefixOf (plus ++ (o.source.toList ++ moreOf rest)) = true :=
      List.isPrefixOf_iff_prefix.mpr ⟨_, rfl⟩
    rw [written, sumFrom, if_neg (by simp [plus]), if_pos front, List.drop_left]
    rw [givenOf, List.flatMap_cons, ← givenOf, read]
    simp only [if_pos shorter]
    exact later

theorem sourceWithin {operands : List Operand} {o : Operand} (h : o ∈ operands) :
    o.source.length + 3 ≤ (moreOf operands).length := by
  obtain ⟨before, after, rfl⟩ := List.append_of_mem h
  simp only [moreOf, List.flatMap_append, List.flatMap_cons, List.length_append, plus, List.length_cons,
    List.length_nil, ← String.length_toList]
  omega

theorem separatedRead {operands : List Operand} {o : Operand} :
    (" + ".intercalate ((o :: operands).map (·.source))).toList = o.source.toList ++ moreOf operands := by
  induction operands generalizing o with
  | nil => simp [moreOf]
  | cons next rest ih =>
    have inner := @ih next
    rw [List.map_cons, List.map_cons, String.intercalate_cons_cons, String.toList_append, String.toList_append,
      ← List.map_cons, inner]
    simp [moreOf, plus]

theorem sumTexts {operands : List Operand} {content : List Nat} :
    sumOf (.text content) operands = .text (content ++ operands.flatMap (·.value.shown)) := by
  induction operands generalizing content with
  | nil => simp [sumOf]
  | cons o rest ih =>
    have joined : Scalar.add (.text content) o.value = .text (content ++ o.value.shown) := rfl
    rw [sumOf, List.foldl_cons, joined, ← sumOf, ih, List.flatMap_cons, List.append_assoc]

end Sum

end LiveMarkup.Client
