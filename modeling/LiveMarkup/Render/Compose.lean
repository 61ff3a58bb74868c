import LiveMarkup.Render.Factory
import LiveMarkup.Value.Escaped
/-! Texts that hold live placeholders: what they read now, and the client code that reads them
anew. -/
namespace LiveMarkup.Render
open Analysis Client

def clientText : Value → String
  | .none => "null"
  | .truth b => if b then "true" else "false"
  | .real x =>
    match x.toInt? with
    | some n => toString n
    | none => x.write
  | v => v.plain

structure Composed where
  literal : String
  source? : Option String
  signals : List String
  deriving DecidableEq, Repr

structure Part where
  literal : String
  source : String
  reactive? : Option Slot

def partOf (s : State) (piece : Piece) : Option Part :=
  match piece.key?.bind s.live? with
  | none =>
    if piece.text.isEmpty then none else some ⟨piece.text, Text.jsString piece.text, none⟩
  | some live =>
    if s.isReactive live.slot then
      some ⟨clientText live.value, "(" ++ live.slot.source ++ ")", some live.slot⟩
    else some ⟨live.value.shown, Text.jsString live.value.shown, none⟩

def joinSources (sources : List String) : String :=
  let joined := " + ".intercalate sources
  if (sources.head?.bind (·.toList.head?)) == some '"' then joined else "\"\" + " ++ joined

def compose (factory : Nat) (s : State) (text : String) : Composed :=
  let parts := (Piece.split factory text).filterMap (partOf s)
  let literal := String.join (parts.map (·.literal))
  match parts.filterMap (·.reactive?) with
  | [] => ⟨literal, none, []⟩
  | first :: rest =>
    let signals := distinct ((first :: rest).flatMap (·.signals))
    if parts.length = 1 then ⟨literal, some first.source, signals⟩
    else ⟨literal, some (joinSources (parts.map (·.source))), signals⟩

def chunks (isDeferred : String → Bool) : (current : String) → List Piece → List String
  | current, [] => if current.isEmpty then [] else [current]
  | current, piece :: rest =>
    if isDeferred piece.text then
      (if current.isEmpty then [] else [current]) ++ piece.text :: chunks isDeferred "" rest
    else chunks isDeferred (current ++ piece.text) rest

def splitDeferred (factory : Nat) (s : State) (text : String) : List String :=
  chunks (fun key => s.deferred.any (·.1 == key)) "" (Piece.split factory text)

end LiveMarkup.Render
