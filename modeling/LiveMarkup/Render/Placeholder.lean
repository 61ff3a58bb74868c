import LiveMarkup.Text.Quoted
import LiveMarkup.Text.Word
/-! Placeholders: texts that stand in markup for content that is settled later. Each carries the
number of the factory that made it and a number of its own. -/
namespace LiveMarkup.Render

namespace Placeholder

def lead (factory : Nat) : List Char :=
  "__zinc_".toList ++ Text.hexDigits 8 factory ++ ['_']

def text (factory number : Nat) : String :=
  String.ofList (lead factory ++ (toString number).toList ++ ['_', '_'])

def atFront? (factory : Nat) (s : List Char) : Option (List Char × List Char) :=
  let lead := lead factory
  if lead.isPrefixOf s then
    let body := s.drop lead.length
    let digits := body.takeWhile Text.isDigit
    match body.dropWhile Text.isDigit with
    | '_' :: '_' :: rest => if digits.isEmpty then none else some (lead ++ digits ++ ['_', '_'], rest)
    | _ => none
  else none

end Placeholder

inductive Piece where
  | plain (s : String)
  | placeholder (key : String)
  deriving DecidableEq, Repr

namespace Piece

def splitFrom (factory : Nat) : (fuel : Nat) → (done : List Char) → List Char → List Piece
  | 0, done, s => [plain (String.ofList (done.reverse ++ s))]
  | _ + 1, done, [] => [plain (String.ofList done.reverse)]
  | fuel + 1, done, c :: s =>
    match Placeholder.atFront? factory (c :: s) with
    | some (key, rest) =>
      plain (String.ofList done.reverse) :: placeholder (String.ofList key) ::
        splitFrom factory fuel [] rest
    | none => splitFrom factory fuel (c :: done) s

def split (factory : Nat) (s : String) : List Piece :=
  splitFrom factory s.length [] s.toList

def key? : Piece → Option String
  | plain _ => none
  | placeholder key => some key

def text : Piece → String
  | plain s => s
  | placeholder key => key

end Piece

def placeholders (factory : Nat) (s : String) : List String :=
  (Piece.split factory s).filterMap (·.key?)

def isPlaceholder (factory : Nat) (s : String) : Bool :=
  match Placeholder.atFront? factory s.toList with
  | some (_, []) => true
  | _ => false

end LiveMarkup.Render
