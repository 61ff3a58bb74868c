/-! Sets of code points, written as increasing closed intervals. -/
namespace LiveMarkup.Text

def hexValue? (c : Char) : Option Nat :=
  if '0' ≤ c ∧ c ≤ '9' then some (c.toNat - '0'.toNat)
  else if 'a' ≤ c ∧ c ≤ 'f' then some (c.toNat - 'a'.toNat + 10)
  else if 'A' ≤ c ∧ c ≤ 'F' then some (c.toNat - 'A'.toNat + 10)
  else none

def readHex (text : String) : Nat :=
  text.toList.foldl (fun n c => 16 * n + (hexValue? c).getD 0) 0

def words (text : String) : List String :=
  go text.toList []
where
  go : List Char → List Char → List String
    | [], [] => []
    | [], word => [String.ofList word.reverse]
    | c :: rest, word =>
      if c == ' ' || c == '\n' then
        if word.isEmpty then go rest [] else String.ofList word.reverse :: go rest []
      else go rest (c :: word)

structure Ranges where
  bounds : Array (Nat × Nat)
  deriving DecidableEq, Repr

namespace Ranges

def read (text : String) : Ranges :=
  ⟨((words text).map fun item =>
    match item.splitOn "-" with
    | [first, last] => (readHex first, readHex last)
    | _ => (readHex item, readHex item)).toArray⟩

def search (bounds : Array (Nat × Nat)) (n : Nat) (low count : Nat) : Option Nat :=
  if count = 0 then none
  else
    let middle := low + count / 2
    match bounds[middle]? with
    | none => none
    | some (first, last) =>
      if n < first then search bounds n low (count / 2)
      else if last < n then search bounds n (middle + 1) (count - count / 2 - 1)
      else some middle
termination_by count

def contains (r : Ranges) (n : Nat) : Bool :=
  (search r.bounds n 0 r.bounds.size).isSome

end Ranges

def lookupFrom {α : Type} (entries : Array (Nat × α)) (n : Nat) (low count : Nat) : Option α :=
  if count = 0 then none
  else
    let middle := low + count / 2
    match entries[middle]? with
    | none => none
    | some (key, value) =>
      if n < key then lookupFrom entries n low (count / 2)
      else if key < n then lookupFrom entries n (middle + 1) (count - count / 2 - 1)
      else some value
termination_by count

def lookupSorted {α : Type} (entries : Array (Nat × α)) (n : Nat) : Option α :=
  lookupFrom entries n 0 entries.size

end LiveMarkup.Text
