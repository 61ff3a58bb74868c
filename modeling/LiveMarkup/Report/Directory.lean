import LiveMarkup.Text.Search
/-! The working directory and its files. -/
namespace LiveMarkup.Report

abbrev Place := List (List Char)

structure Directory where
  path : String
  files : List (String × String) := []
  deriving DecidableEq, Repr

def nameParts (name : String) : List (List Char) := Text.splitAt '/' name.toList

def isIdle (part : List Char) : Bool := part.isEmpty || part == ['.']

def stepTo (here : Place) : List (List Char) → Place
  | [] => here
  | part :: rest =>
    if isIdle part then stepTo here rest
    else if part == ['.', '.'] then stepTo (here.drop 1) rest
    else stepTo (part :: here) rest

namespace Directory

def place (d : Directory) : Place := stepTo [] (nameParts d.path)

def placed (d : Directory) : List (Place × String) :=
  d.files.map fun (name, text) => (stepTo d.place (nameParts name), text)

def holds (d : Directory) (p : Place) : Bool :=
  p.isSuffixOf d.place || d.placed.any fun (q, _) => p.length < q.length && p.isSuffixOf q

def follow? (d : Directory) (here : Place) : List (List Char) → Option Place
  | [] => some here
  | part :: rest =>
    if !d.holds here then none
    else if isIdle part then d.follow? here rest
    else if part == ['.', '.'] then d.follow? (here.drop 1) rest
    else d.follow? (part :: here) rest

def text? (d : Directory) (name : String) : Option String :=
  let start := if name.toList.head? == some '/' then [] else d.place
  match d.follow? start (nameParts name) with
  | none => none
  | some p => (d.placed.find? (·.1 == p)).map (·.2)

def way (here there : Place) : List (List Char) :=
  go here.reverse there.reverse
where
  go : List (List Char) → List (List Char) → List (List Char)
    | a :: here, b :: there =>
      if a == b then go here there
      else (a :: here).map (fun _ => ['.', '.']) ++ b :: there
    | here, there => here.map (fun _ => ['.', '.']) ++ there

def shorten (d : Directory) (name : String) : String :=
  if d.path.toList.isPrefixOf name.toList then
    match way d.place (stepTo [] (nameParts name)) with
    | [] => "."
    | parts => "/".intercalate (parts.map String.ofList)
  else name

end Directory

end LiveMarkup.Report
