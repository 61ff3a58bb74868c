import LiveMarkup.Template.Named
import LiveMarkup.Text.Name
import LiveMarkup.Text.Search
/-! Patterns of paths, such as `/users/:id:int` and `/posts/{slug}`. A pattern reads the parameters of a
path, and writes the path that has given parameters. -/
namespace LiveMarkup.Routing

inductive Segment where
  | fixed (text : List Char)
  | param (name : List Char) (type : List Char)
  deriving DecidableEq, Repr

inductive PatternError where
  | badName (name : List Char)
  | repeatedName (name : List Char)
  deriving DecidableEq, Repr

namespace PatternError

def message : PatternError → String
  | badName name => "bad character in group name " ++ Text.quoted (String.ofList name)
  | repeatedName name => "redefinition of group name " ++ Text.quoted (String.ofList name)

end PatternError

namespace Segment

def defaultType : List Char := ['s', 't', 'r']

def wholeType : List Char := ['i', 'n', 't']

def readParam (part content : List Char) : Segment :=
  let (name, type) := Text.cutAt ':' content
  if name.isEmpty then .fixed part else .param name (if type.isEmpty then defaultType else type)

def read (part : List Char) : Segment :=
  match part with
  | ':' :: content => readParam part content
  | '\x7b' :: rest =>
    if rest.getLast? == some '\x7d' then readParam part rest.dropLast else .fixed part
  | _ => .fixed part

def name? : Segment → Option (List Char)
  | fixed _ => none
  | param name _ => some name

end Segment

structure Pattern where
  text : String
  segments : List Segment
  deriving DecidableEq, Repr

namespace Pattern

/-- The first name that cannot name a parameter, going from left to right. -/
def badName? (seen : List (List Char)) : List (List Char) → Option PatternError
  | [] => none
  | name :: rest =>
    if !Text.isName name then some (.badName name)
    else if seen.contains name then some (.repeatedName name)
    else badName? (name :: seen) rest

def read (text : String) : Except PatternError Pattern :=
  let parts := (Text.splitAt '/' text.toList).filter (!·.isEmpty)
  let segments := parts.map Segment.read
  match badName? [] (segments.filterMap Segment.name?) with
  | some e => .error e
  | none => .ok ⟨text, segments⟩

def types (p : Pattern) : List (String × String) :=
  p.segments.filterMap fun
    | .fixed _ => none
    | .param name type => some (String.ofList name, String.ofList type)

end Pattern

structure LongNumber where
  digits : Nat
  deriving DecidableEq, Repr

def LongNumber.message (e : LongNumber) : String :=
  "Exceeds the limit (4300 digits) for integer string conversion: value has " ++ toString e.digits ++
    " digits; use sys.set_int_max_str_digits() to increase the limit"

def digitLimit : Nat := 4300

inductive Argument where
  | whole (digits : List Char)
  | text (s : List Char)
  deriving DecidableEq, Repr

def Argument.value : Argument → Except LongNumber Value
  | whole digits =>
    if digitLimit < digits.length then .error ⟨digits.length⟩
    else .ok (.whole (Text.readDigits digits))
  | text s => .ok (.text (String.ofList s))

namespace Segment

def isNumber (s : List Char) : Bool := !s.isEmpty && s.all Text.isDigit

def take? (s : Segment) (part : List Char) : Option (List (String × Argument)) :=
  match s with
  | fixed text => if part == text then some [] else none
  | param name type =>
    if type == wholeType then
      if isNumber part then some [(String.ofList name, .whole part)] else none
    else if part.isEmpty then none
    else some [(String.ofList name, .text part)]

def takeLast? (s : Segment) (part : List Char) : Option (List (String × Argument)) :=
  match s.take? part with
  | some found => some found
  | none => if part.getLast? == some '\n' then s.take? part.dropLast else none

end Segment

namespace Pattern

def takeAll? : List Segment → List (List Char) → Option (List (String × Argument))
  | [s], [part] => s.takeLast? part
  | s :: segments, part :: parts => do
    let found ← s.take? part
    let more ← takeAll? segments parts
    return found ++ more
  | _, _ => none

def arguments? (p : Pattern) (path : String) : Option (List (String × Argument)) :=
  match path.toList with
  | '/' :: rest =>
    if p.segments.isEmpty then if rest == [] || rest == ['\n'] then some [] else none
    else takeAll? p.segments (Text.splitAt '/' rest)
  | _ => none

def parameters? (p : Pattern) (path : String) : Except LongNumber (Option (List (String × Value))) :=
  match p.arguments? path with
  | none => .ok none
  | some found => do
    let values ← found.mapM fun (name, a) => do return (name, ← a.value)
    return some values

def typedWord? (s : List Char) : Option (List Char × List Char) :=
  let word := s.takeWhile Text.isWord
  if word.isEmpty then none
  else
    match s.dropWhile Text.isWord with
    | ':' :: rest =>
      if (rest.takeWhile Text.isWord).isEmpty then some (word, ':' :: rest)
      else some (word, rest.dropWhile Text.isWord)
    | rest => some (word, rest)

def param? (s : List Char) : Option (List Char × List Char) :=
  match s with
  | ':' :: rest => typedWord? rest
  | '\x7b' :: rest =>
    match typedWord? rest with
    | some (name, '\x7d' :: behind) => some (name, behind)
    | _ => none
  | _ => none

theorem typedWord?_shorter {s name rest} (h : typedWord? s = some (name, rest)) :
    rest.length ≤ s.length := by
  have whole := (List.dropWhile_suffix Text.isWord (l := s)).length_le
  unfold typedWord? at h
  simp only at h
  split at h
  · simp at h
  · split at h
    · rename_i behind hs
      have part := (List.dropWhile_suffix Text.isWord (l := behind)).length_le
      rw [hs] at whole
      simp at whole
      split at h <;> simp at h <;> obtain ⟨-, rfl⟩ := h
      · simpa using whole
      · omega
    · simp at h
      obtain ⟨-, rfl⟩ := h
      exact whole

theorem param?_shorter {s name rest} (h : param? s = some (name, rest)) :
    rest.length < s.length := by
  unfold param? at h
  split at h
  · have := typedWord?_shorter h
    simp
    omega
  · split at h
    · rename_i hw
      have := typedWord?_shorter hw
      simp at h this ⊢
      obtain ⟨-, rfl⟩ := h
      omega
    · simp at h
  · simp at h

def fielded (s : List Char) : List Char :=
  match h : param? s with
  | some (name, rest) =>
    have := param?_shorter h
    '\x7b' :: name ++ '\x7d' :: fielded rest
  | none =>
    match s with
    | [] => []
    | c :: rest => c :: fielded rest
termination_by s.length

def path (p : Pattern) (parameters : List (String × Value)) : Except Template.FillError String :=
  Template.fillNamed parameters (String.ofList (fielded p.text.toList))

end Pattern

end LiveMarkup.Routing
