import LiveMarkup.Syntax.Literal
/-! Reading tokens: the state of a reading, single tokens, and repetition. A reading remembers how far
it has looked, since an error is reported at the furthest token seen. -/
namespace LiveMarkup.Syntax

structure Cursor where
  rest : List Token
  reach : Nat

abbrev Parser := EStateM Failure Cursor

namespace Parser

def fail {α : Type} : Parser α := throw .unexpected

def failAt {α : Type} (line : Nat) : Parser α := throw (.settled ⟨.general, line⟩)

def peek : Parser Token := fun c =>
  match c.rest with
  | t :: rest =>
    let c := { c with reach := min c.reach rest.length }
    match t.kind with
    | .fault f => .error (.lexical f) c
    | _ => .ok t c
  | [] => .error .unexpected c

def peekSecond : Parser (Option Token) := fun c =>
  match c.rest with
  | _ :: t :: rest =>
    let c := { c with reach := min c.reach rest.length }
    match t.kind with
    | .fault f => .error (.lexical f) c
    | _ => .ok (some t) c
  | _ => .ok none c

def advance : Parser Unit := modify fun c => { c with rest := c.rest.drop 1 }

def tokensAhead : Parser (List Token) := do return (← get).rest

def attempt {α : Type} (p : Parser α) : Parser (Except Failure α) := fun c =>
  match p c with
  | .ok a _ => .ok (.ok a) c
  | .error f _ => .ok (.error f) c

def ahead : Parser Nat := do return (← get).rest.length + 1

def either {α : Type} (p q : Parser α) : Parser α := fun c =>
  match p c with
  | .error .unexpected d => q { rest := c.rest, reach := d.reach }
  | r => r

def nextIsOp (text : String) : Parser Bool := do return (← peek).isOp text

def nextIsKeyword (text : String) : Parser Bool := do return (← peek).isKeyword text

def takeOp? (text : String) : Parser Bool := do
  if ← nextIsOp text then
    advance
    return true
  return false

def takeKeyword? (text : String) : Parser Bool := do
  if ← nextIsKeyword text then
    advance
    return true
  return false

def expectOp (text : String) : Parser Unit := do
  if !(← takeOp? text) then fail

def expectKeyword (text : String) : Parser Unit := do
  if !(← takeKeyword? text) then fail

def name : Parser String := do
  let t ← peek
  if t.kind != .name then fail
  advance
  return t.text

def iterate {α : Type} (step : α → Parser (Option α)) : (n : Nat) → α → Parser α
  | 0, a => return a
  | n + 1, a => do
    match ← step a with
    | some b => iterate step n b
    | none => return a

def repeatFrom {α : Type} (a : α) (step : α → Parser (Option α)) : Parser α := do
  iterate step (← ahead) a

def commaSeparated {α : Type} (item : Parser α) (more : Token → Bool) : Parser (List α × Bool) := do
  let first ← item
  let (items, trailing, _) ← repeatFrom ([first], false, true) fun (items, _, going) => do
    if !going then return none
    if !(← takeOp? ",") then return none
    if more (← peek) then
      let next ← item
      return some (next :: items, false, true)
    return some (items, true, false)
  return (items.reverse, trailing)

end Parser

end LiveMarkup.Syntax
