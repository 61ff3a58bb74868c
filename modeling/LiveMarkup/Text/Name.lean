import LiveMarkup.Text.Ranges
import LiveMarkup.Text.NameTable
/-! Names: a letter or underscore, then letters, digits, marks and underscores of any script. -/
namespace LiveMarkup.Text

def nameStartRanges : Ranges := .read Table.nameStart

def nameFurtherRanges : Ranges := .read Table.nameFurther

def isNameStart (c : Char) : Bool :=
  if c.toNat < 128 then c.isAlpha || c == '_' else nameStartRanges.contains c.toNat

def isNamePart (c : Char) : Bool :=
  if c.toNat < 128 then c.isAlphanum || c == '_'
  else nameStartRanges.contains c.toNat || nameFurtherRanges.contains c.toNat

def isName : List Char → Bool
  | [] => false
  | c :: rest => isNameStart c && rest.all isNamePart

theorem isNamePart_of_isNameStart {c : Char} (h : isNameStart c = true) : isNamePart c = true := by
  unfold isNameStart at h
  unfold isNamePart
  split <;> simp_all [Char.isAlphanum]
  rcases h with h | h <;> simp [h]

end LiveMarkup.Text
