/-! Searching and cutting texts by other texts. -/
namespace LiveMarkup.Text

def occurs (pattern : List Char) : List Char → Bool
  | [] => pattern.isEmpty
  | c :: rest => pattern.isPrefixOf (c :: rest) || occurs pattern rest

def cut? (pattern : List Char) (s : List Char) : Option (List Char × List Char) :=
  if pattern.isPrefixOf s then some ([], s.drop pattern.length)
  else
    match s with
    | [] => none
    | c :: rest => (cut? pattern rest).map fun (before, after) => (c :: before, after)

def cutAt (c : Char) (s : List Char) : List Char × List Char :=
  (s.takeWhile (· != c), (s.dropWhile (· != c)).drop 1)

def splitAt (sep : Char) : List Char → List (List Char)
  | [] => [[]]
  | c :: rest =>
    if c == sep then [] :: splitAt sep rest
    else
      match splitAt sep rest with
      | [] => [[c]]
      | part :: parts => (c :: part) :: parts

end LiveMarkup.Text
