import LiveMarkup.Template.Split
import LiveMarkup.Text.Word
import LiveMarkup.Value.Equal
import LiveMarkup.Value.Layout
/-! Texts with named fields such as `{page}`, `{user[name]!r}` and `{size:>5}`, filled from named values. -/
namespace LiveMarkup.Template

inductive FillError where
  | braces (e : BraceError)
  | tooDeep
  | tooManyDigits
  | emptyPart
  | afterBracket
  | conversion (c : Char)
  | counted
  | outOfRange
  | missing (key : String)
  | noAttribute
  | notIndexed (typeName : String)
  | textIndex (ofText : Bool) (typeName : String)
  | layout (e : LayoutError)
  deriving DecidableEq, Repr

namespace FillError

def message : FillError → String
  | braces e => e.message
  | tooDeep => "Max string recursion exceeded"
  | tooManyDigits => "Too many decimal digits in format string"
  | emptyPart => "Empty attribute in format string"
  | afterBracket => "Only '.' or '[' may follow ']' in format field specifier"
  | conversion c =>
    "Unknown conversion specifier " ++
      (if 32 < c.toNat ∧ c.toNat < 127 then String.singleton c
       else "\\x" ++ String.ofList (Nat.toDigits 16 c.toNat))
  | counted => "Replacement index 0 out of range for positional args tuple"
  | outOfRange => "index out of range"
  | missing key => key
  | noAttribute => "no such attribute"
  | notIndexed typeName => "'" ++ typeName ++ "' object is not subscriptable"
  | textIndex true typeName => "string indices must be integers, not '" ++ typeName ++ "'"
  | textIndex false typeName => typeName ++ " indices must be integers or slices, not str"
  | layout e => e.message

end FillError

inductive Piece where
  | letter (c : Char)
  | field (f : Field)
  deriving DecidableEq, Repr

theorem formatText_shorter {depth done s f rest}
    (h : formatText depth done s = .ok (f, rest)) : rest.length < s.length := by
  induction s generalizing depth done with
  | nil => simp [formatText] at h
  | cons c s ih =>
    unfold formatText at h
    split at h
    · simp at h
    · rename_i heq
      cases heq
      exact Nat.lt_succ_of_lt (ih h)
    · rename_i heq
      cases heq
      split at h
      · cases h
        exact Nat.lt_succ_self _
      · exact Nat.lt_succ_of_lt (ih h)
    · rename_i heq
      cases heq
      exact Nat.lt_succ_of_lt (ih h)

theorem fieldName_shorter {bracketed done s f rest}
    (h : fieldName bracketed done s = .ok (f, rest)) : rest.2.length < s.length := by
  induction s generalizing bracketed done with
  | nil => simp [fieldName] at h
  | cons c s ih =>
    unfold fieldName at h
    split at h
    · exact Nat.lt_succ_of_lt (ih h)
    · split at h
      · simp at h
      · split at h
        · simp at h
          obtain ⟨-, rfl⟩ := h
          simp
        · exact Nat.lt_succ_of_lt (ih h)

theorem field_shorter {s f rest} (h : field s = .ok (f, rest)) : rest.length < s.length := by
  unfold field at h
  simp only [bind, Except.bind] at h
  split at h
  · simp at h
  · rename_i name hname
    have shorter := fieldName_shorter hname
    obtain ⟨name, ending, behind⟩ := name
    simp only [pure, Except.pure] at h shorter
    split at h
    · simp at h
      obtain ⟨-, rfl⟩ := h
      exact shorter
    · split at h
      · split at h
        · simp at h
        · rename_i format hformat
          simp at h
          obtain ⟨-, rfl⟩ := h
          exact Nat.lt_trans (formatText_shorter hformat) shorter
      · split at h
        · simp [throw, throwThe, MonadExceptOf.throw] at h
        · rename_i c after
          simp at shorter
          split at h
          · simp at h
            obtain ⟨-, rfl⟩ := h
            simp at shorter
            omega
          · split at h
            · simp at h
            · rename_i format hformat
              simp at h
              obtain ⟨-, rfl⟩ := h
              have := formatText_shorter hformat
              simp at shorter
              omega
          · simp [throw, throwThe, MonadExceptOf.throw] at h
          · simp [throw, throwThe, MonadExceptOf.throw] at h

def pieces : List Char → List Piece × Option BraceError
  | [] => ([], none)
  | '\x7b' :: '\x7b' :: rest =>
    let (more, e) := pieces rest
    (.letter '\x7b' :: more, e)
  | '\x7d' :: '\x7d' :: rest =>
    let (more, e) := pieces rest
    (.letter '\x7d' :: more, e)
  | '\x7d' :: _ => ([], some .loneClosing)
  | ['\x7b'] => ([], some .loneOpening)
  | '\x7b' :: rest =>
    match h : field rest with
    | .error e => ([], some e)
    | .ok (f, behind) =>
      have := field_shorter h
      let (more, e) := pieces behind
      (.field f :: more, e)
  | c :: rest =>
    let (more, e) := pieces rest
    (.letter c :: more, e)
termination_by s => s.length

inductive Access where
  | member (name : List Char)
  | item (index : List Char)
  deriving DecidableEq, Repr

def indexNumber? (s : List Char) : Except FillError (Option Nat) :=
  let digits := s.takeWhile Text.isDigit
  let n := Text.readDigits digits
  if Layout.greatestNumber < n then .error .tooManyDigits
  else .ok (if s.isEmpty || digits.length < s.length then none else some n)

def endsName (c : Char) : Bool := c == '.' || c == '['

def itemOf (v : Value) (index : List Char) : Except FillError Value := do
  let n? ← indexNumber? index
  if index.isEmpty then throw .emptyPart
  match v with
  | .dict entries =>
    let key := match n? with
      | some n => Value.whole n
      | none => .text (String.ofList index)
    match entries.find? fun (k, _) => k.same key with
    | some (_, w) => return w
    | none => throw (.missing key.plain)
  | .list items | .tuple items =>
    match n? with
    | some n => (items[n]?).elim (throw .outOfRange) pure
    | none => throw (.textIndex false v.typeName)
  | v =>
    match v.text? with
    | some s =>
      match n? with
      | some n => (s.toList[n]?).elim (throw .outOfRange) fun c => pure (.text (String.singleton c))
      | none => throw (.textIndex true v.typeName)
    | none => throw (.notIndexed v.typeName)

def follow (v : Value) : List Char → Except FillError Value
  | [] => .ok v
  | '.' :: rest =>
    if (rest.takeWhile (!endsName ·)).isEmpty then .error .emptyPart else .error .noAttribute
  | '[' :: rest => do
    let w ← itemOf v (rest.takeWhile (· != ']'))
    follow w ((rest.dropWhile (· != ']')).drop 1)
  | _ :: _ => .error .afterBracket
termination_by s => s.length
decreasing_by
  have := (List.dropWhile_suffix (· != ']') (l := rest)).length_le
  simp
  omega

def valueOf (values : List (String × Value)) (name : List Char) : Except FillError Value := do
  let first := name.takeWhile (!endsName ·)
  let number? ← indexNumber? first
  if first.isEmpty || number?.isSome then throw .counted
  let key := String.ofList first
  match values.find? (·.1 == key) with
  | none => throw (.missing key)
  | some (_, v) => follow v (name.dropWhile (!endsName ·))

def convert (v : Value) : Option Char → Except FillError Value
  | none => .ok v
  | some 's' => .ok (.text v.plain)
  | some 'r' => .ok (.text v.written)
  | some 'a' => .ok (.text (Text.Quoted.asciiOnly v.written))
  | some c => .error (.conversion c)

def fill (values : List (String × Value)) : (depth : Nat) → List Char → Except FillError (List Char)
  | 0, _ => .error .tooDeep
  | depth + 1, s => do
    let (found, fault?) := pieces s
    let parts ← found.mapM fun
      | .letter c => pure [c]
      | .field f => do
        let v ← convert (← valueOf values f.name) f.conversion
        let layout ← if f.format.contains '\x7b' then fill values depth f.format else pure f.format
        match v.layOut layout with
        | .ok text => pure text.toList
        | .error e => throw (.layout e)
    match fault? with
    | some e => throw (.braces e)
    | none => return parts.flatten

def fillNamed (values : List (String × Value)) (s : String) : Except FillError String :=
  (fill values 2 s.toList).map String.ofList

end LiveMarkup.Template
