import LiveMarkup.Value.Basic
/-! How deep components stand inside each other. -/
namespace LiveMarkup

mutual

def Value.depth : Value → Nat
  | .list items => Value.depthAll items
  | .tuple items => Value.depthAll items
  | .generator items => Value.depthAll items
  | .set items => Value.depthAll items
  | .dict entries => Value.depthEntries entries
  | .promise url options _ =>
    max url.depth (match options with | some o => o.depth | none => 0)
  | .component c => c.depth
  | _ => 0

def Value.depthAll : List Value → Nat
  | [] => 0
  | v :: rest => max v.depth (Value.depthAll rest)

def Value.depthEntries : List (Value × Value) → Nat
  | [] => 0
  | (k, v) :: rest => max (max k.depth v.depth) (Value.depthEntries rest)

def Value.depthFields : List (String × Value) → Nat
  | [] => 0
  | (_, v) :: rest => max v.depth (Value.depthFields rest)

def Component.depth : Component → Nat
  | .mk _ fields _ _ _ steps returns =>
    1 + max (max (Value.depthFields fields) (Step.depthAll steps))
      (match returns with | some r => r.depth | none => 0)

def Step.depth : Step → Nat
  | .mk _ values _ _ => Recipe.depthAll values

def Step.depthAll : List Step → Nat
  | [] => 0
  | s :: rest => max s.depth (Step.depthAll rest)

def Recipe.depth : Recipe → Nat
  | .value v => v.depth
  | .list items => Recipe.depthAll items
  | .tuple items => Recipe.depthAll items
  | .generator items => Recipe.depthAll items
  | .set items => Recipe.depthAll items
  | .dict entries => Recipe.depthEntries entries
  | .promise url options _ =>
    max url.depth (match options with | some o => o.depth | none => 0)
  | .component c fields => max c.depth (1 + Recipe.depthFields fields)
  | .add left right => max left.depth right.depth
  | .html s => s.depth
  | _ => 0

def Recipe.depthAll : List Recipe → Nat
  | [] => 0
  | r :: rest => max r.depth (Recipe.depthAll rest)

def Recipe.depthEntries : List (Recipe × Recipe) → Nat
  | [] => 0
  | (k, v) :: rest => max (max k.depth v.depth) (Recipe.depthEntries rest)

def Recipe.depthFields : List (String × Recipe) → Nat
  | [] => 0
  | (_, r) :: rest => max r.depth (Recipe.depthFields rest)

end

end LiveMarkup
