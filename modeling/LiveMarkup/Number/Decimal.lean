import LiveMarkup.Number.Shortest
/-! Binary numbers written with a given number of digits. Rounding is exact; a half goes to the even
digit. -/
namespace LiveMarkup.Binary64

/-- The decimal digits of a number that is written down, and the place of its point in them: the
number is `0.digits · 10 ^ point`. -/
structure Digits where
  digits : List Char
  point : Int
  deriving DecidableEq, Repr

def scaled (num den : Nat) (places : Int) : Nat :=
  if places < 0 then roundDiv num (den * Nat.pow 10 places.natAbs)
  else roundDiv (num * Nat.pow 10 places.toNat) den

def size? : Binary64 → Option (Nat × Nat)
  | .finite _ m e => some (if e < 0 then (m, Nat.pow 2 e.natAbs) else (m * Nat.pow 2 e.toNat, 1))
  | _ => none

def fixedDigits (num den places : Nat) : Digits :=
  let digits := (toString (scaled num den places)).toList
  let digits := List.replicate (places + 1 - digits.length) '0' ++ digits
  ⟨digits, (digits.length : Int) - places⟩

def leadingDigits (num den count : Nat) : Digits :=
  if num = 0 then ⟨List.replicate count '0', 1⟩
  else
    let place := decimalPlace num den
    let n := scaled num den (count - place)
    if n = Nat.pow 10 count then ⟨(toString (Nat.pow 10 (count - 1))).toList, place + 1⟩
    else ⟨(toString n).toList, place⟩

def exponentText (mark : Char) (e : Int) : List Char :=
  let size := (toString e.natAbs).toList
  mark :: (if e < 0 then '-' else '+') :: (List.replicate (2 - size.length) '0' ++ size)

def fillZeros (d : List Char) (count : Int) : List Char :=
  d ++ List.replicate (count - d.length).toNat '0'

def Digits.parts (d : Digits) (count : Int) : List Char × List Char :=
  let digits := fillZeros d.digits (max count d.point)
  if d.point ≤ 0 then (['0'], List.replicate d.point.natAbs '0' ++ digits)
  else (digits.take d.point.toNat, digits.drop d.point.toNat)

def joinParts (parts : List Char × List Char) (keepPoint : Bool) : List Char :=
  parts.1 ++ (if parts.2.isEmpty && !keepPoint then [] else '.' :: parts.2)

def writeFixed (num den places : Nat) (keepPoint : Bool) : List Char :=
  let d := fixedDigits num den places
  joinParts (d.parts d.digits.length) keepPoint

def writeScientific (num den places : Nat) (keepPoint : Bool) (mark : Char) : List Char :=
  let d := leadingDigits num den (places + 1)
  joinParts (d.digits.take 1, d.digits.drop 1) keepPoint ++ exponentText mark (d.point - 1)

def writeGeneral (num den count : Nat) (keepPoint wholePoint : Bool) (mark : Char) : List Char :=
  let d := leadingDigits num den count
  let digits := if keepPoint then d.digits else if num = 0 then ['0'] else dropZeros d.digits
  let limit : Int := if wholePoint then count - 1 else count
  if d.point ≤ -4 ∨ limit < d.point then
    joinParts (digits.take 1, digits.drop 1) keepPoint ++ exponentText mark (d.point - 1)
  else
    let least : Int := if wholePoint then d.point + 1 else 0
    joinParts (({ d with digits } : Digits).parts least) keepPoint

def percent : Binary64 → Binary64
  | .finite negative m e =>
    if e < 0 then ofRatio negative (m * 100) (Nat.pow 2 e.natAbs)
    else ofRatio negative (m * Nat.pow 2 e.toNat * 100) 1
  | x => x

end LiveMarkup.Binary64
