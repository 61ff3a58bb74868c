/-! Binary floating point numbers of 64 bits, with exact rounding from ratios and decimals. -/
namespace LiveMarkup

/-- A finite number is `± significand · 2 ^ exponent`. The significand lies below `2 ^ 53`, and is
at least `2 ^ 52` unless the exponent is the smallest, `-1074`. -/
inductive Binary64 where
  | finite (negative : Bool) (significand : Nat) (exponent : Int)
  | infinite (negative : Bool)
  | undefined
  deriving DecidableEq, Repr

namespace Binary64

def zeroOf (negative : Bool) : Binary64 := .finite negative 0 (-1074)

def roundDiv (num den : Nat) : Nat :=
  let q := num / den
  let r := num % den
  if 2 * r < den then q else if den < 2 * r then q + 1 else q + q % 2

def scale (num den : Nat) (e : Int) : Nat × Nat :=
  if e < 0 then (num * Nat.pow 2 e.natAbs, den) else (num, den * Nat.pow 2 e.toNat)

def ofRatio (negative : Bool) (num den : Nat) : Binary64 :=
  if num = 0 then zeroOf negative
  else
    let guess : Int := (Nat.log2 num : Int) - Nat.log2 den - 53
    let (n, d) := scale num den guess
    let e := max (if n / d < Nat.pow 2 53 then guess else guess + 1) (-1074)
    let (n, d) := scale num den e
    let m := roundDiv n d
    let (m, e) := if m = Nat.pow 2 53 then (Nat.pow 2 52, e + 1) else (m, e)
    if 971 < e then .infinite negative else .finite negative m e

def ofDecimal (negative : Bool) (digits : Nat) (exponent : Int) : Binary64 :=
  let size : Int := (Nat.log2 digits : Int) * 30103 / 100000 + exponent
  if digits = 0 ∨ size < -400 then zeroOf negative
  else if 400 < size then .infinite negative
  else if exponent < 0 then ofRatio negative digits (Nat.pow 10 exponent.natAbs)
  else ofRatio negative (digits * Nat.pow 10 exponent.toNat) 1

def ofInt (n : Int) : Binary64 := ofRatio (decide (n < 0)) n.natAbs 1

def ratio? : Binary64 → Option (Int × Nat)
  | .finite negative m e =>
    let size := if e < 0 then m else m * Nat.pow 2 e.toNat
    some (if negative then -(size : Int) else size, if e < 0 then Nat.pow 2 e.natAbs else 1)
  | _ => none

def toInt? (x : Binary64) : Option Int :=
  match x.ratio? with
  | some (n, d) => if n % (d : Int) = 0 then some (n / (d : Int)) else none
  | none => none

def isNegative : Binary64 → Bool
  | .finite negative _ _ => negative
  | .infinite negative => negative
  | .undefined => false

def add (x y : Binary64) : Binary64 :=
  match x, y with
  | .undefined, _ => .undefined
  | _, .undefined => .undefined
  | .infinite a, .infinite b => if a = b then .infinite a else .undefined
  | .infinite a, _ => .infinite a
  | _, .infinite b => .infinite b
  | .finite .., .finite .. =>
    match x.ratio?, y.ratio? with
    | some (n, d), some (n', d') =>
      let sum := n * d' + n' * d
      ofRatio (if sum = 0 then x.isNegative && y.isNegative else decide (sum < 0)) sum.natAbs (d * d')
    | _, _ => .undefined

end Binary64

end LiveMarkup
