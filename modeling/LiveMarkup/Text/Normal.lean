import LiveMarkup.Text.Ranges
import LiveMarkup.Text.NormalTable
/-! The compatibility composition (NFKC) of names: every character is taken apart, marks are put
in the order of their combining classes, and what composes is composed again. -/
namespace LiveMarkup.Text

def decompositions : Array (Nat × List Nat) :=
  ((words Table.decompositions).map fun item =>
    match item.splitOn "=" with
    | [c, parts] => (readHex c, (parts.splitOn ".").map readHex)
    | _ => (0, [])).toArray

def combiningClasses : Array ((Nat × Nat) × Nat) :=
  ((words Table.combiningClasses).map fun item =>
    match item.splitOn "=" with
    | [span, cls] =>
      match span.splitOn "-" with
      | [first, last] => ((readHex first, readHex last), readHex cls)
      | _ => ((0, 0), 0)
    | _ => ((0, 0), 0)).toArray

def compositions : Array (Nat × Nat) :=
  ((words Table.compositions).map fun item =>
    match item.splitOn "=" with
    | [pair, composed] =>
      match pair.splitOn "." with
      | [first, second] => (Nat.pow 2 21 * readHex first + readHex second, readHex composed)
      | _ => (0, 0)
    | _ => (0, 0)).toArray

def combiningClass (n : Nat) : Nat :=
  if n < 0x300 then 0
  else ((combiningClasses.find? fun e => e.1.1 ≤ n && n ≤ e.1.2).map (·.2)).getD 0

def decomposeHangul (n : Nat) : List Nat :=
  let s := n - 0xac00
  let t := s % 28
  [0x1100 + s / 588, 0x1161 + s % 588 / 28] ++ if t = 0 then [] else [0x11a7 + t]

def decompose (n : Nat) : List Nat :=
  if n < 128 then [n]
  else if 0xac00 ≤ n ∧ n ≤ 0xd7a3 then decomposeHangul n
  else (lookupSorted decompositions n).getD [n]

def compose? (first second : Nat) : Option Nat :=
  if 0x1100 ≤ first ∧ first < 0x1113 ∧ 0x1161 ≤ second ∧ second < 0x1176 then
    some (0xac00 + ((first - 0x1100) * 21 + (second - 0x1161)) * 28)
  else if 0xac00 ≤ first ∧ first ≤ 0xd7a3 ∧ (first - 0xac00) % 28 = 0 ∧
      0x11a7 < second ∧ second < 0x11c3 then
    some (first + (second - 0x11a7))
  else lookupSorted compositions (Nat.pow 2 21 * first + second)

def insertMark (n cls : Nat) : List Nat → List Nat
  | [] => [n]
  | m :: rest => if cls < combiningClass m then m :: insertMark n cls rest else n :: m :: rest

def orderMarks (ns : List Nat) : List Nat :=
  (ns.foldl (fun done n =>
    let cls := combiningClass n
    if cls = 0 then n :: done else insertMark n cls done) []).reverse

def composeFrom (starter : Option Nat) (between : List Nat) : List Nat → List Nat
  | [] => starter.toList ++ between.reverse
  | n :: rest =>
    let cls := combiningClass n
    let open? := match between with
      | [] => true
      | m :: _ => decide (combiningClass m < cls ∧ combiningClass m ≠ 0)
    match starter, open? with
    | some s, true =>
      match compose? s n with
      | some c => composeFrom (some c) between rest
      | none =>
        if cls = 0 then s :: between.reverse ++ composeFrom (some n) [] rest
        else composeFrom starter (n :: between) rest
    | _, _ =>
      if cls = 0 then starter.toList ++ between.reverse ++ composeFrom (some n) [] rest
      else composeFrom starter (n :: between) rest

def normalize (s : List Char) : List Char :=
  if s.all (·.toNat < 128) then s
  else (composeFrom none [] (orderMarks (s.flatMap fun c => decompose c.toNat))).map Char.ofNat

end LiveMarkup.Text
