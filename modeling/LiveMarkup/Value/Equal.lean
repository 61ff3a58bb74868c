import LiveMarkup.Value.Basic
/-! Equality of values as keys. Numbers and truth values are equal when they have the same size, and
markup equals its text. -/
namespace LiveMarkup.Value

def ratio? : Value → Option (Int × Nat)
  | truth b => some (if b then 1 else 0, 1)
  | whole n => some (n, 1)
  | real x => x.ratio?
  | _ => Option.none

def text? : Value → Option String
  | text s => some s
  | markup s => some s
  | rendered s .. => some s
  | _ => Option.none

def sameLeaf (v w : Value) : Bool :=
  match v.ratio?, w.ratio? with
  | some (n, d), some (n', d') => n * d' == n' * d
  | _, _ =>
    match v.text?, w.text? with
    | some s, some t => s == t
    | _, _ =>
      match v, w with
      | none, none => true
      | bytes a, bytes b => a == b
      | real (.infinite a), real (.infinite b) => a == b
      | _, _ => false

mutual

def same : Value → Value → Bool
  | tuple items, w =>
    match w with
    | tuple others => sameAll items others
    | _ => false
  | v, w => sameLeaf v w

def sameAll : List Value → List Value → Bool
  | [], [] => true
  | v :: rest, w :: others => same v w && sameAll rest others
  | _, _ => false

end

mutual

def changeable? : Value → Option String
  | list _ => some "list"
  | dict _ => some "dict"
  | set _ => some "set"
  | tuple items => changeableAmong? items
  | _ => Option.none

def changeableAmong? : List Value → Option String
  | [] => Option.none
  | v :: rest => (changeable? v).or (changeableAmong? rest)

end

def insert (key value : Value) : List (Value × Value) → List (Value × Value)
  | [] => [(key, value)]
  | (k, v) :: rest => if k.same key then (k, value) :: rest else (k, v) :: insert key value rest

def adjoin (item : Value) : List Value → List Value
  | [] => [item]
  | v :: rest =>
    if v.same item then v :: rest
    else
      match v, item with
      | whole m, whole n => if n < m then item :: v :: rest else v :: adjoin item rest
      | _, _ => v :: adjoin item rest

end LiveMarkup.Value
