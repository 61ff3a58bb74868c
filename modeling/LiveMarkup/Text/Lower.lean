import LiveMarkup.Text.Ranges
import LiveMarkup.Text.LowerTable
import LiveMarkup.Text.Word
/-! Lower case of whole texts. -/
namespace LiveMarkup.Text

structure LowerRun where
  first : Nat
  last : Nat
  step : Nat
  lowerFirst : Nat
  deriving DecidableEq, Repr

def LowerRun.readAll (text : String) : Array LowerRun :=
  ((words text).filterMap fun item =>
    match item.splitOn "=" with
    | [span, lower] =>
      match span.splitOn "/" with
      | [bounds, step] =>
        match bounds.splitOn "-" with
        | [first, last] => some ⟨readHex first, readHex last, readHex step, readHex lower⟩
        | _ => none
      | _ => none
    | _ => none).toArray

def lowerRuns : Array LowerRun := LowerRun.readAll Table.lowerRuns

def LowerRun.lower? (r : LowerRun) (n : Nat) : Option Nat :=
  if r.first ≤ n ∧ n ≤ r.last ∧ (n - r.first) % r.step = 0 then some (r.lowerFirst + (n - r.first))
  else none

def lowerChar (c : Char) : Char :=
  if c.toNat < 128 then c.toLower
  else ((lowerRuns.findSome? (·.lower? c.toNat)).map Char.ofNat).getD c

def isLetter (c : Char) : Bool := isWord c && !isDigit c && c != '_'

/-- Lower case of a text; `before` tells whether a letter stands right before it. A capital sigma
at the end of a word becomes the final small one, and a dotted capital I keeps its dot as a mark. -/
def lowerFrom (before : Bool) : List Char → List Char
  | [] => []
  | c :: rest =>
    let tail := lowerFrom (isLetter c) rest
    if c == 'İ' then 'i' :: Char.ofNat 0x307 :: tail
    else if c == 'Σ' && before && !(rest.head?.any isLetter) then 'ς' :: tail
    else lowerChar c :: tail

def lower (s : List Char) : List Char := lowerFrom false s

end LiveMarkup.Text
