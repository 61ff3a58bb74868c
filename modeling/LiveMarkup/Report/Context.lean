import LiveMarkup.Report.Directory
import LiveMarkup.Text.Blank
/-! The lines of a file around the one that a report is about. -/
namespace LiveMarkup.Report

structure ContextLine where
  number : Nat
  content : String
  current : Bool
  deriving DecidableEq, Repr

def fileLines (s : List Char) : List (List Char) :=
  go s []
where
  go : List Char → List Char → List (List Char)
    | [], [] => []
    | [], current => [current.reverse]
    | '\r' :: '\n' :: rest, current => current.reverse :: go rest []
    | '\r' :: rest, current => current.reverse :: go rest []
    | '\n' :: rest, current => current.reverse :: go rest []
    | c :: rest, current => go rest (c :: current)

def withoutMark : List Char → List Char
  | '\ufeff' :: rest => rest
  | s => s

def linesAround (text : String) (line radius : Int) : List ContextLine :=
  let numbered := (fileLines (withoutMark text.toList)).zipIdx 1
  let near := numbered.filter fun (_, n) => line - radius ≤ n ∧ (n : Int) ≤ line + radius
  near.map fun (s, n) => ⟨n, String.ofList (Text.trimEnd s), (n : Int) == line⟩

def isBracketed (name : List Char) : Bool := name.head? == some '<' && name.getLast? == some '>'

def contextLines (d : Directory) (file : String) (line radius : Int) : List ContextLine :=
  if isBracketed file.toList then []
  else
    match d.text? file with
    | none => []
    | some text => linesAround text line radius

def usualRadius : Int := 5

end LiveMarkup.Report
