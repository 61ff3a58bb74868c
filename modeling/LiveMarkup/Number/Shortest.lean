import LiveMarkup.Number.Binary64
/-! The shortest decimal that reads back as a given binary number, and how numbers are written. -/
namespace LiveMarkup.Binary64

structure Decimal where
  digits : Nat
  point : Int
  deriving DecidableEq, Repr

def decimalPlace (num den : Nat) : Int :=
  let guess : Int := ((Nat.log2 num : Int) - Nat.log2 den) * 30103 / 100000
  let reaches (p : Int) : Bool :=
    if p < 0 then decide (den ≤ num * Nat.pow 10 p.natAbs) else decide (den * Nat.pow 10 p.toNat ≤ num)
  let steps := [guess + 2, guess + 1, guess, guess - 1]
  ((steps.find? reaches).getD (guess - 2)) + 1

def gridPoint? (num den low high : Nat) (closed : Bool) (unit : Int) : Option Nat :=
  let up := if unit < 0 then Nat.pow 10 unit.natAbs else 1
  let down := if unit < 0 then den else den * Nat.pow 10 unit.toNat
  let within (k : Nat) : Bool :=
    let here := k * down
    if closed then decide (low * up ≤ here ∧ here ≤ high * up)
    else decide (low * up < here ∧ here < high * up)
  let below := num * up / down
  let rest := num * up % down
  let order :=
    if 2 * rest < down ∨ (2 * rest = down ∧ below % 2 = 0) then [below, below + 1]
    else [below + 1, below]
  order.find? within

def searchGrid (num den low high : Nat) (closed : Bool) (place : Int) :
    (steps count : Nat) → Nat × Nat
  | 0, count => (num / den, count)
  | steps + 1, count =>
    match gridPoint? num den low high closed (place - count) with
    | some k => (k, count)
    | none => searchGrid num den low high closed place steps (count + 1)

def shortest (significand : Nat) (exponent : Int) : Decimal :=
  let m := 4 * significand
  let low := if significand = Nat.pow 2 52 ∧ -1074 < exponent then m - 1 else m - 2
  let e := exponent - 2
  let up := if e < 0 then 1 else Nat.pow 2 e.toNat
  let den := if e < 0 then Nat.pow 2 e.natAbs else 1
  let place := decimalPlace (m * up) den
  let (k, count) :=
    searchGrid (m * up) den (low * up) ((m + 2) * up) (significand % 2 = 0) place 17 1
  if k = Nat.pow 10 count then ⟨1, place + 1⟩ else ⟨k, place⟩

def dropZeros : List Char → List Char
  | [] => []
  | s => (s.reverse.dropWhile (· == '0')).reverse

def Decimal.write (d : Decimal) (whole : String) : String :=
  let digits := dropZeros (toString d.digits).toList
  let count : Int := digits.length
  if -4 < d.point ∧ d.point ≤ 16 then
    if d.point ≤ 0 then
      "0." ++ String.ofList (List.replicate d.point.natAbs '0' ++ digits)
    else if count ≤ d.point then
      String.ofList (digits ++ List.replicate (d.point - count).toNat '0') ++ whole
    else
      String.ofList (digits.take d.point.toNat) ++ "." ++ String.ofList (digits.drop d.point.toNat)
  else
    let e := d.point - 1
    let size := toString e.natAbs
    let mantissa := match digits with
      | [] => "0"
      | [c] => String.singleton c
      | c :: rest => String.singleton c ++ "." ++ String.ofList rest
    mantissa ++ "e" ++ (if e < 0 then "-" else "+") ++ (if size.length < 2 then "0" else "") ++ size

def writeWith (whole : String) : Binary64 → String
  | .undefined => "nan"
  | .infinite negative => if negative then "-inf" else "inf"
  | .finite negative m e =>
    let body := if m = 0 then "0" ++ whole else (shortest m e).write whole
    if negative then "-" ++ body else body

def write (x : Binary64) : String := x.writeWith ".0"

end LiveMarkup.Binary64
