import LiveMarkup.Proofs.Client.Grammar
import LiveMarkup.Syntax.Expr
import LiveMarkup.Client.Scope
import Mathlib.Data.Rat.Floor
/-! Arithmetic on the server and in the browser. The operators agree, but that the browser's remainder
has the sign of the dividend and the server's that of the divisor. -/
namespace LiveMarkup.Client
open Syntax

section Browser

inductive Datum where
  | number (q : Rat)
  | truth (b : Bool)
  deriving DecidableEq, Repr

namespace Datum

def real : Datum → Rat
  | number q => q
  | truth b => if b then 1 else 0

def holds : Datum → Bool
  | number q => q ≠ 0
  | truth b => b

end Datum

def towardsZero (q : Rat) : Int := if 0 ≤ q then ⌊q⌋ else ⌈q⌉

def Operator.apply (op : Operator) (a b : Datum) : Option Datum :=
  match op with
  | .or => some (if a.holds then a else b)
  | .and => some (if a.holds then b else a)
  | .same => some (.truth (a = b))
  | .differs => some (.truth (a ≠ b))
  | .less => some (.truth (a.real < b.real))
  | .lessSame => some (.truth (a.real ≤ b.real))
  | .greater => some (.truth (b.real < a.real))
  | .greaterSame => some (.truth (b.real ≤ a.real))
  | .plus => some (.number (a.real + b.real))
  | .minus => some (.number (a.real - b.real))
  | .times => some (.number (a.real * b.real))
  | .divide => if b.real = 0 then none else some (.number (a.real / b.real))
  | .remainder =>
    if b.real = 0 then none else some (.number (a.real - b.real * towardsZero (a.real / b.real)))

def Operator.decides (op : Operator) (a : Datum) : Bool :=
  match op with
  | .or => a.holds
  | .and => !a.holds
  | _ => false

def Formula.value (fields : String → Int) : Formula → Option Datum
  | number n => some (.number n)
  | field name => some (.number (fields name))
  | floor e => (e.value fields).map fun v => .number ⌊v.real⌋
  | minus e => (e.value fields).map fun v => .number (-v.real)
  | negation e => (e.value fields).map fun v => .truth (!v.holds)
  | operation op l r =>
    (l.value fields).bind fun a => if op.decides a then some a else (r.value fields).bind (op.apply a)
  | conditional t b o => (t.value fields).bind fun v => if v.holds then b.value fields else o.value fields

end Browser

section Server

inductive Plain where
  | whole (n : Int)
  | truth (b : Bool)
  deriving DecidableEq, Repr

inductive Kind where
  | whole
  | truth
  deriving DecidableEq, Repr

namespace Plain

def kind : Plain → Kind
  | whole _ => .whole
  | truth _ => .truth

def int : Plain → Int
  | whole n => n
  | truth b => if b then 1 else 0

def holds : Plain → Bool
  | whole n => n ≠ 0
  | truth b => b

def client : Plain → Datum
  | whole n => .number n
  | truth b => .truth b

end Plain

abbrev Remainder := Int → Int → Option Int

def floored : Remainder := fun a b => if b = 0 then none else some (a.fmod b)

def truncated : Remainder := fun a b => if b = 0 then none else some (a.tmod b)

def agreed : Remainder := fun a b => if b ≠ 0 ∧ a.fmod b = a.tmod b then some (a.fmod b) else none

def arithmetic? (remainder : Remainder) (op : BinaryOp) (a b : Int) : Option Int :=
  match op with
  | .add => some (a + b)
  | .sub => some (a - b)
  | .mul => some (a * b)
  | .floorDiv => if b = 0 then none else some (a.fdiv b)
  | .mod => remainder a b
  | _ => none

def compare? (op : CompareOp) (a b : Int) : Option Bool :=
  match op with
  | .eq => some (a = b)
  | .notEq => some (a ≠ b)
  | .lt => some (a < b)
  | .le => some (a ≤ b)
  | .gt => some (b < a)
  | .ge => some (b ≤ a)
  | _ => none

mutual

def value? (s : Scope) (fields : String → Int) (remainder : Remainder) : Expr → Option Plain
  | .constant (.whole n) => some (.whole n)
  | .field (.name id) name => if s.isReceiver id then some (.whole (fields name)) else none
  | .unary .minus e => (value? s fields remainder e).map fun v => .whole (-v.int)
  | .unary .negation e => (value? s fields remainder e).map fun v => .truth (!v.holds)
  | .binary l op r =>
    (value? s fields remainder l).bind fun a => (value? s fields remainder r).bind fun b =>
      (arithmetic? remainder op a.int b.int).map .whole
  | .boolean op operands => valueOf? s fields remainder op operands
  | .compare left rest => (value? s fields remainder left).bind fun a => holds? s fields remainder a rest
  | .conditional t b o =>
    (value? s fields remainder t).bind fun v =>
      if v.holds then value? s fields remainder b else value? s fields remainder o
  | _ => none

def valueOf? (s : Scope) (fields : String → Int) (remainder : Remainder) (op : BooleanOp) :
    List Expr → Option Plain
  | [] => none
  | [e] => value? s fields remainder e
  | e :: rest =>
    (value? s fields remainder e).bind fun v =>
      if v.holds = decide (op = .or) then some v else valueOf? s fields remainder op rest

def holds? (s : Scope) (fields : String → Int) (remainder : Remainder) (left : Plain) :
    List Comparison → Option Plain
  | [] => some (.truth true)
  | .mk op right :: rest =>
    (value? s fields remainder right).bind fun r =>
      (compare? op left.int r.int).bind fun b =>
        if b then holds? s fields remainder r rest else some (.truth false)

end

inductive HasKind (s : Scope) : Expr → Kind → Prop where
  | number {n} : HasKind s (.constant (.whole n)) .whole
  | field {id name} (receiver : s.isReceiver id) (identifier : Text.isName name.toList) :
      HasKind s (.field (.name id) name) .whole
  | minus {e} (operand : HasKind s e .whole) : HasKind s (.unary .minus e) .whole
  | negation {e} (operand : HasKind s e .truth) : HasKind s (.unary .negation e) .truth
  | arithmetic {l op r} (operator : op ∈ [BinaryOp.add, .sub, .mul, .floorDiv, .mod])
      (left : HasKind s l .whole) (right : HasKind s r .whole) : HasKind s (.binary l op r) .whole
  | boolean {op e rest} (first : HasKind s e .truth) (others : ∀ e ∈ rest, HasKind s e .truth) :
      HasKind s (.boolean op (e :: rest)) .truth
  | compare {left rest k} (some : rest ≠ []) (first : HasKind s left k)
      (operators : ∀ op right, .mk op right ∈ rest → op ∈ [CompareOp.eq, .notEq, .lt, .le, .gt, .ge])
      (others : ∀ op right, .mk op right ∈ rest → HasKind s right k) :
      HasKind s (.compare left rest) .truth
  | conditional {t b o k} (test : HasKind s t .truth) (body : HasKind s b k) (orelse : HasKind s o k) :
      HasKind s (.conditional t b o) k

variable {s : Scope} {fields : String → Int} {remainder : Remainder} {e : Expr} {k : Kind} {v : Plain}

theorem holdsKind {left : Plain} {rest : List Comparison}
    (h : holds? s fields remainder left rest = some v) : v.kind = .truth := by
  induction rest generalizing left with
  | nil =>
    obtain rfl := Option.some.inj h
    rfl
  | cons c rest ih =>
    obtain ⟨op, right⟩ := c
    obtain ⟨r, -, h⟩ := Option.bind_eq_some_iff.mp h
    obtain ⟨b, -, h⟩ := Option.bind_eq_some_iff.mp h
    cases b with
    | true => exact ih h
    | false =>
      obtain rfl := Option.some.inj h
      rfl

theorem valueOfKind {op : BooleanOp} {es : List Expr}
    (all : ∀ e ∈ es, ∀ {v}, value? s fields remainder e = some v → v.kind = .truth)
    (h : valueOf? s fields remainder op es = some v) : v.kind = .truth := by
  induction es with
  | nil => cases h
  | cons e rest ih =>
    cases rest with
    | nil => exact all e List.mem_cons_self h
    | cons e' rest =>
      obtain ⟨w, is, h⟩ := Option.bind_eq_some_iff.mp h
      split at h
      · obtain rfl := Option.some.inj h
        exact all e List.mem_cons_self is
      · exact ih (fun e mem => all e (List.mem_cons_of_mem _ mem)) h

theorem valueKind (typed : HasKind s e k) (h : value? s fields remainder e = some v) : v.kind = k := by
  induction typed generalizing v with
  | number =>
    obtain rfl := Option.some.inj h
    rfl
  | field receiver =>
    rw [value?, if_pos receiver] at h
    obtain rfl := Option.some.inj h
    rfl
  | minus | negation =>
    obtain ⟨_, -, rfl⟩ := Option.map_eq_some_iff.mp h
    rfl
  | arithmetic =>
    obtain ⟨a, -, h⟩ := Option.bind_eq_some_iff.mp h
    obtain ⟨b, -, h⟩ := Option.bind_eq_some_iff.mp h
    obtain ⟨_, -, rfl⟩ := Option.map_eq_some_iff.mp h
    rfl
  | boolean first others ihFirst ihOthers =>
    refine valueOfKind (fun e mem v is => ?_) h
    rcases List.mem_cons.mp mem with rfl | mem
    · exact ihFirst is
    · exact ihOthers e mem is
  | compare =>
    obtain ⟨a, -, h⟩ := Option.bind_eq_some_iff.mp h
    exact holdsKind h
  | conditional test body orelse _ ihBody ihOrelse =>
    obtain ⟨a, -, h⟩ := Option.bind_eq_some_iff.mp h
    split at h
    · exact ihBody h
    · exact ihOrelse h

section Extends

variable {fewer more : Remainder}

def Remainder.Within (fewer more : Remainder) : Prop := ∀ a b r, fewer a b = some r → more a b = some r

theorem arithmeticExtends (within : fewer.Within more) {op : BinaryOp} {a b r : Int}
    (h : arithmetic? fewer op a b = some r) : arithmetic? more op a b = some r := by
  cases op
  case mod => exact within a b r h
  all_goals exact h

mutual

theorem valueExtends (within : fewer.Within more) : (e : Expr) → {v : Plain} →
    value? s fields fewer e = some v → value? s fields more e = some v
  | .constant k, _, h => by cases k <;> exact h
  | .field base name, _, h => by cases base <;> exact h
  | .unary op e, v, h => by
    cases op
    case minus | negation =>
      obtain ⟨w, is, same⟩ := Option.map_eq_some_iff.mp h
      exact Option.map_eq_some_iff.mpr ⟨w, valueExtends within e is, same⟩
    all_goals cases h
  | .binary l op r, v, h => by
    obtain ⟨a, first, h⟩ := Option.bind_eq_some_iff.mp h
    obtain ⟨b, second, h⟩ := Option.bind_eq_some_iff.mp h
    obtain ⟨n, is, same⟩ := Option.map_eq_some_iff.mp h
    simp only [value?, valueExtends within l first, valueExtends within r second, Option.bind_some,
      arithmeticExtends within is, Option.map_some, same]
  | .boolean op es, v, h => valueOfExtends within es h
  | .compare left rest, v, h => by
    obtain ⟨a, first, h⟩ := Option.bind_eq_some_iff.mp h
    simp only [value?, valueExtends within left first, Option.bind_some, holdsExtends within rest h]
  | .conditional t b o, v, h => by
    obtain ⟨a, first, h⟩ := Option.bind_eq_some_iff.mp h
    simp only [value?, valueExtends within t first, Option.bind_some]
    split at h
    · next holds => rw [if_pos holds, valueExtends within b h]
    · next holds => rw [if_neg holds, valueExtends within o h]
  | .name _, _, h | .subscript _ _, _, h | .slice _ _ _, _, h | .starred _, _, h | .call _ _ _ _, _, h
  | .lambda _ _, _, h | .list _, _, h | .tuple _, _, h | .set _, _, h | .dict _, _, h | .listComp _ _, _, h
  | .setComp _ _, _, h | .generator _ _, _, h | .dictComp _ _ _, _, h | .joined _, _, h
  | .formatted _ _ _, _, h | .assigned _ _, _, h | .await _, _, h | .yield _, _, h | .yieldFrom _, _, h => nomatch h

theorem valueOfExtends (within : fewer.Within more) {op : BooleanOp} : (es : List Expr) → {v : Plain} →
    valueOf? s fields fewer op es = some v → valueOf? s fields more op es = some v
  | [], _, h => nomatch h
  | [e], _, h => valueExtends within e h
  | e :: e' :: rest, v, h => by
    obtain ⟨a, first, h⟩ := Option.bind_eq_some_iff.mp h
    simp only [valueOf?, valueExtends within e first, Option.bind_some]
    split at h
    · next decides => rw [if_pos decides, h]
    · next decides => rw [if_neg decides, valueOfExtends within (e' :: rest) h]

theorem holdsExtends (within : fewer.Within more) {left : Plain} : (rest : List Comparison) →
    {v : Plain} → holds? s fields fewer left rest = some v → holds? s fields more left rest = some v
  | [], _, h => h
  | .mk op right :: rest, v, h => by
    obtain ⟨r, second, h⟩ := Option.bind_eq_some_iff.mp h
    obtain ⟨b, is, h⟩ := Option.bind_eq_some_iff.mp h
    simp only [holds?, valueExtends within right second, Option.bind_some, is]
    cases b with
    | true => exact holdsExtends within rest h
    | false => exact h

end

end Extends

end Server

section Agreement

variable {s : Scope} {fields : String → Int} {e left right : Expr} {k : Kind} {a b : Plain} {c d : Code}
variable {ts us : List Lexeme} {f g : Formula}

theorem clientWhole {n : Int} : (Plain.whole n).client = .number n := rfl

theorem realNumber {q : Rat} : (Datum.number q).real = q := rfl

theorem clientReal : a.client.real = (a.int : Rat) := by
  cases a with
  | whole n => rfl
  | truth b => cases b <;> simp [Plain.client, Datum.real, Plain.int]

theorem clientHolds : a.client.holds = a.holds := by
  cases a <;> simp [Plain.client, Datum.holds, Plain.holds]

theorem floorRatio {m n : Int} : ⌊(m : Rat) / n⌋ = m.fdiv n := by
  rcases Int.le_total 0 n with positive | negative
  · obtain ⟨d, rfl⟩ := Int.eq_ofNat_of_zero_le positive
    rw [Int.fdiv_eq_ediv_of_nonneg _ positive]
    exact Rat.floor_intCast_div_natCast m d
  · obtain ⟨d, is⟩ := Int.eq_ofNat_of_zero_le (Int.neg_nonneg.mpr negative)
    obtain rfl : n = -(d : Int) := by omega
    have flipped : (m : Rat) / ((-(d : Int) : Int) : Rat) = ((-m : Int) : Rat) / (d : Nat) := by
      push_cast
      rw [div_neg, neg_div]
    rw [flipped, Rat.floor_intCast_div_natCast, ← Int.fdiv_eq_ediv_of_nonneg _ (Int.natCast_nonneg d),
      ← Int.neg_fdiv_neg, Int.neg_neg]

theorem floorSameSign {m n : Int} (same : 0 ≤ m ∧ 0 ≤ n ∨ m ≤ 0 ∧ n ≤ 0) : m.fdiv n = m.tdiv n := by
  rcases same with ⟨hm, hn⟩ | ⟨hm, hn⟩
  · rw [Int.fdiv_eq_ediv_of_nonneg m hn, Int.tdiv_eq_ediv_of_nonneg hm]
  · have positive : 0 ≤ -m := by omega
    rw [← Int.neg_fdiv_neg, Int.fdiv_eq_ediv_of_nonneg _ (by omega), ← Int.tdiv_eq_ediv_of_nonneg positive,
      Int.neg_tdiv, Int.tdiv_neg, Int.neg_neg]

theorem towardsZeroRatio {m n : Int} : towardsZero ((m : Rat) / n) = m.tdiv n := by
  have sign : (0 ≤ (m : Rat) / n) ↔ 0 ≤ m ∧ 0 ≤ n ∨ m ≤ 0 ∧ n ≤ 0 := by
    rw [div_nonneg_iff]
    norm_cast
  unfold towardsZero
  split
  · next positive => rw [floorRatio, floorSameSign (sign.mp positive)]
  · next negative =>
    have flipped : (m : Rat) / n = -(((-m : Int) : Rat) / n) := by
      push_cast
      rw [neg_div, neg_neg]
    rw [sign] at negative
    rw [flipped, Int.ceil_neg, floorRatio, floorSameSign (by omega), Int.neg_tdiv, Int.neg_neg]

def arithmeticOperator : BinaryOp → Operator
  | .add => .plus
  | .sub => .minus
  | .mul => .times
  | .mod => .remainder
  | _ => .divide

def compareOperator : CompareOp → Operator
  | .notEq => .differs
  | .lt => .less
  | .le => .lessSame
  | .gt => .greater
  | .ge => .greaterSame
  | _ => .same

def booleanOperator : BooleanOp → Operator
  | .and => .and
  | .or => .or

theorem arithmeticApplied {op : BinaryOp} (plain : op ∈ [BinaryOp.add, .sub, .mul, .mod]) :
    (arithmeticOperator op).apply a.client b.client =
      ((arithmetic? truncated op a.int b.int).map Plain.whole).map Plain.client := by
  simp only [List.mem_cons, List.not_mem_nil, or_false] at plain
  rcases plain with rfl | rfl | rfl | rfl
  case inr.inr.inr =>
    by_cases zero : b.int = 0
    · simp [arithmeticOperator, Operator.apply, arithmetic?, truncated, clientReal, zero]
    · simp only [arithmeticOperator, Operator.apply, arithmetic?, truncated, clientReal, towardsZeroRatio,
        Int.cast_eq_zero, zero, if_false, Option.map_some, clientWhole, Int.tmod_def]
      push_cast
      rfl
  all_goals simp [arithmeticOperator, Operator.apply, arithmetic?, clientReal, clientWhole]

theorem floorApplied : (Operator.divide.apply a.client b.client).map (fun v => Datum.number ⌊v.real⌋) =
    ((arithmetic? truncated .floorDiv a.int b.int).map Plain.whole).map Plain.client := by
  by_cases zero : b.int = 0
  · simp [Operator.apply, arithmetic?, clientReal, zero]
  · simp [Operator.apply, arithmetic?, clientReal, zero, clientWhole, realNumber, floorRatio]

theorem compareApplied {op : CompareOp} (plain : op ∈ [CompareOp.eq, .notEq, .lt, .le, .gt, .ge])
    (same : a.kind = b.kind) :
    (compareOperator op).apply a.client b.client = (compare? op a.int b.int).map Datum.truth := by
  have equal : a.client = b.client ↔ a.int = b.int := by
    cases a with
    | whole m =>
      cases b with
      | whole n => simp [Plain.client, Plain.int]
      | truth y => cases same
    | truth x =>
      cases b with
      | whole n => cases same
      | truth y => cases x <;> cases y <;> simp [Plain.client, Plain.int]
  simp only [List.mem_cons, List.not_mem_nil, or_false] at plain
  rcases plain with rfl | rfl | rfl | rfl | rfl | rfl <;>
    simp [compareOperator, Operator.apply, compare?, clientReal, equal]

end Agreement

end LiveMarkup.Client
