import LiveMarkup.Text.Ranges
import LiveMarkup.Text.PrintableTable
/-! Printable characters: all but controls, separators other than the blank, and unassigned points. -/
namespace LiveMarkup.Text

def printableRanges : Ranges := .read Table.printable

def isPrintable (c : Char) : Bool :=
  if c.toNat < 128 then decide (32 ≤ c.toNat ∧ c.toNat ≠ 127)
  else printableRanges.contains c.toNat

end LiveMarkup.Text
