import LiveMarkup.Text.Ranges
import LiveMarkup.Text.WordTable
/-! Word characters and decimal digits of the whole character set. -/
namespace LiveMarkup.Text

def isAsciiWord (c : Char) : Bool := c.isAlphanum || c == '_'

def alphanumericRanges : Ranges := .read Table.alphanumeric

def isWord (c : Char) : Bool :=
  if c.toNat < 128 then isAsciiWord c else alphanumericRanges.contains c.toNat

theorem isWord_of_ascii {c : Char} (h : c.toNat < 128) : isWord c = isAsciiWord c := by
  simp [isWord, h]

def digitZeros : Array Nat := ((words Table.digitZeros).map readHex).toArray

def digitValue? (c : Char) : Option Nat :=
  if c.toNat < 128 then
    if '0' ≤ c ∧ c ≤ '9' then some (c.toNat - '0'.toNat) else none
  else (digitZeros.find? fun origin => origin ≤ c.toNat && c.toNat < origin + 10).map (c.toNat - ·)

def isDigit (c : Char) : Bool := (digitValue? c).isSome

def readDigits (s : List Char) : Nat :=
  s.foldl (fun n c => 10 * n + (digitValue? c).getD 0) 0

end LiveMarkup.Text
