import Mathlib.Data.List.Nodup
import LiveMarkup.Proofs.Runs
import LiveMarkup.Proofs.Template.Joined
import LiveMarkup.Proofs.Value.Json
import LiveMarkup.Routing.Router
/-! The paths that a pattern builds from parameters, and what it reads from these paths again. A path is built from
the pattern's text and read by its segments. -/
namespace LiveMarkup.Routing
open Text

inductive Part where
  | fixed (text : List Char)
  | param (braced : Bool) (name : List Char) (type? : Option (List Char))
  deriving DecidableEq, Repr

namespace Part

def content (name : List Char) : Option (List Char) → List Char
  | none => name
  | some type => name ++ ':' :: type

def write : Part → List Char
  | fixed text => text
  | param false name type? => ':' :: content name type?
  | param true name type? => '\x7b' :: (content name type? ++ ['\x7d'])

def name? : Part → Option String
  | fixed _ => none
  | param _ name _ => some (String.ofList name)

def segment : Part → Segment
  | fixed text => .fixed text
  | param _ name type? => .param name (type?.getD Segment.defaultType)

def fielded : Part → List Char
  | fixed text => text
  | param _ name _ => '\x7b' :: (name ++ ['\x7d'])

inductive Plain : Part → Prop where
  | fixed {text} (clear : ∀ c ∈ text, c ∉ ['/', ':', '\x7b', '\x7d']) : Plain (.fixed text)
  | param {braced name type?} (named : isName name) (ascii : ∀ c ∈ name, c.toNat < 128)
      (own : String.ofList name ≠ "self") (typed : ∀ type ∈ type?, type ≠ [] ∧ ∀ c ∈ type, isWord c) :
      Plain (.param braced name type?)

end Part

def slashed (parts : List (List Char)) : List Char := parts.flatMap ('/' :: ·)

structure Described (parts : List Part) : Prop where
  some : parts ≠ []
  plain : ∀ part ∈ parts, part.Plain
  distinct : (parts.filterMap (·.name?)).Nodup

def Part.Takes (v : Value) : Part → Prop
  | fixed _ => False
  | param _ _ type? =>
    if type? = some Segment.wholeType then ∃ n : Nat, v = .whole n ∧ (toString n).length ≤ digitLimit
    else ∃ s : String, v = .text s ∧ s ≠ "" ∧ '/' ∉ s.toList

structure Given (parts : List Part) (params : List (String × Value)) : Prop where
  named : (params.map (·.1)).Perm (parts.filterMap (·.name?))
  fits : ∀ part ∈ parts, ∀ entry ∈ params, part.name? = some entry.1 → part.Takes entry.2

def patternText (parts : List Part) : String := String.ofList (slashed (parts.map (·.write)))

section Slashes

variable {part rest : List Char} {parts : List (List Char)} {sep : Char}

theorem slashedCons : slashed (part :: parts) = '/' :: (part ++ slashed parts) := List.flatMap_cons

theorem splitPart (clear : ∀ p ∈ part :: parts, '/' ∉ p) : splitAt '/' (part ++ slashed parts) = part :: parts := by
  induction parts generalizing part with
  | nil =>
    have last := clear part List.mem_cons_self
    clear clear
    rw [slashed, List.flatMap_nil, List.append_nil]
    induction part with
    | nil => rfl
    | cons c part ih =>
      obtain ⟨first, tail⟩ := not_or.mp (mt List.mem_cons.mpr last)
      rw [splitAt, if_neg (by simpa using Ne.symm first), ih tail]
  | cons next parts ih =>
    have behind := ih fun p mem => clear p (List.mem_cons_of_mem _ mem)
    have here := clear part List.mem_cons_self
    clear clear
    rw [slashedCons]
    induction part with
    | nil => rw [List.nil_append, splitAt, if_pos (by simp), behind]
    | cons c part ih =>
      obtain ⟨first, tail⟩ := not_or.mp (mt List.mem_cons.mpr here)
      rw [List.cons_append, splitAt, if_neg (by simpa using Ne.symm first), ih tail]

theorem splitSlashed (clear : ∀ p ∈ parts, '/' ∉ p) : splitAt '/' (slashed parts) = [] :: parts :=
  @splitPart [] parts (List.forall_mem_cons.mpr ⟨List.not_mem_nil, clear⟩)

end Slashes

section Words

variable {name type rest : List Char} {c : Char}

theorem wordApart (word : isWord c) : c ∉ ['/', ':', '\x7b', '\x7d', '.', '[', '!'] := by
  intro mem
  simp only [List.mem_cons, List.not_mem_nil, or_false] at mem
  rcases mem with rfl | rfl | rfl | rfl | rfl | rfl | rfl <;> exact absurd word (by decide)

theorem nameWords (named : isName name) (ascii : ∀ c ∈ name, c.toNat < 128) : ∀ c ∈ name, isWord c := by
  intro c mem
  have part : isNamePart c := by
    cases name with
    | nil => cases mem
    | cons first rest =>
      rw [isName, Bool.and_eq_true] at named
      rcases List.mem_cons.mp mem with rfl | mem
      · exact isNamePart_of_isNameStart named.1
      · exact List.all_eq_true.mp named.2 c mem
  rw [isWord_of_ascii (ascii c mem)]
  simpa [isNamePart, isAsciiWord, ascii c mem] using part

theorem nameSome (named : isName name) : name ≠ [] := by
  rintro rfl
  cases named

theorem digitCommon (small : c.toNat < 128) : isDigit c = c.isDigit := by
  rw [Bool.eq_iff_iff, isDigit, digitValue?, if_pos small]
  simp only [Char.isDigit, Bool.and_eq_true, decide_eq_true_eq]
  split
  · next range => exact iff_of_true rfl range
  · next range => exact iff_of_false nofun range

theorem nameUnnumbered (named : isName name) (ascii : ∀ c ∈ name, c.toNat < 128) : Template.indexNumber? name = .ok none := by
  cases name with
  | nil => cases named
  | cons c rest =>
    have start : Client.startsWord c := by simp [Client.startsWord, (Bool.and_eq_true_iff.mp named).1]
    have letter : isDigit c = false := (digitCommon (ascii c List.mem_cons_self)).trans (Client.notDigitOfStarts start).2
    simp [Template.indexNumber?, letter, readDigits]

end Words

section Fields

variable {text name rest : List Char} {type? : Option (List Char)} {c : Char} {part : Part} {parts : List Part}

theorem fieldedOther (apart : c ≠ ':' ∧ c ≠ '\x7b') : Pattern.fielded (c :: rest) = c :: Pattern.fielded rest := by
  have none : Pattern.param? (c :: rest) = none := by simp [Pattern.param?, apart.1, apart.2]
  rw [Pattern.fielded]
  split
  · next found => rw [none] at found; cases found
  · rfl

theorem fieldedFixed (clear : ∀ c ∈ text, c ≠ ':' ∧ c ≠ '\x7b') :
    Pattern.fielded (text ++ rest) = text ++ Pattern.fielded rest := by
  induction text with
  | nil => rfl
  | cons c text ih =>
    obtain ⟨first, tail⟩ := List.forall_mem_cons.mp clear
    rw [List.cons_append, fieldedOther first, ih tail, List.cons_append]

theorem fieldedFound (found : Pattern.param? text = some (name, rest)) :
    Pattern.fielded text = '\x7b' :: (name ++ '\x7d' :: Pattern.fielded rest) := by
  rw [Pattern.fielded]
  split
  · next found' => rw [found] at found'; cases found'; rfl
  · next none => rw [found] at none; cases none

def Ending (rest : List Char) : Prop := ∀ c ∈ rest.head?, isWord c = false ∧ c ≠ ':'

theorem typedRead (words : ∀ c ∈ name, isWord c) (some : name ≠ [])
    (typed : ∀ type ∈ type?, type ≠ [] ∧ ∀ c ∈ type, isWord c) (ending : Ending rest) :
    Pattern.typedWord? (Part.content name type? ++ rest) = .some (name, rest) := by
  have nonword : ∀ c ∈ rest.head?, isWord c = false := fun c mem => (ending c mem).1
  have filled : name.isEmpty = false := by simpa using some
  cases type? with
  | none =>
    rw [Part.content, Pattern.typedWord?]
    simp only [runTaken words nonword, runDropped words nonword, filled, Bool.false_eq_true, if_false]
    split
    · exact absurd rfl (ending ':' rfl).2
    · rfl
  | some type =>
    obtain ⟨typeSome, typeWords⟩ := typed type rfl
    have colon : ∀ c ∈ (':' :: (type ++ rest)).head?, isWord c = false := by
      rintro c ⟨⟩
      decide
    have typeFilled : type.isEmpty = false := by simpa using typeSome
    rw [Part.content, List.append_assoc, List.cons_append, Pattern.typedWord?]
    simp only [runTaken words colon, runDropped words colon, filled, runTaken typeWords nonword,
      runDropped typeWords nonword, typeFilled]
    rfl

theorem fieldedParam {braced : Bool} (words : ∀ c ∈ name, isWord c) (some : name ≠ [])
    (typed : ∀ type ∈ type?, type ≠ [] ∧ ∀ c ∈ type, isWord c) (ending : Ending rest) :
    Pattern.fielded ((Part.param braced name type?).write ++ rest) =
      (Part.param braced name type?).fielded ++ Pattern.fielded rest := by
  have found : Pattern.param? ((Part.param braced name type?).write ++ rest) = .some (name, rest) := by
    cases braced with
    | false => exact typedRead words some typed ending
    | true =>
      have closing : Ending ('\x7d' :: rest) := by
        rintro c ⟨⟩
        decide
      rw [Part.write, List.cons_append, List.append_assoc, List.singleton_append, Pattern.param?,
        typedRead words some typed closing]
      rfl
  rw [fieldedFound found, Part.fielded, List.cons_append, List.append_assoc, List.singleton_append]

theorem fieldedPart (plain : part.Plain) (ending : Ending rest) :
    Pattern.fielded (part.write ++ rest) = part.fielded ++ Pattern.fielded rest := by
  cases plain with
  | fixed clear =>
    refine fieldedFixed fun c mem => ?_
    have apart := clear c mem
    simp only [List.mem_cons, not_or] at apart
    exact ⟨apart.2.1, apart.2.2.1⟩
  | param named ascii _ typed => exact fieldedParam (nameWords named ascii) (nameSome named) typed ending

theorem fieldedParts (plain : ∀ part ∈ parts, part.Plain) :
    Pattern.fielded (slashed (parts.map (·.write))) = slashed (parts.map (·.fielded)) := by
  induction parts with
  | nil => rw [List.map_nil, slashed, List.flatMap_nil, Pattern.fielded]; rfl
  | cons part parts ih =>
    obtain ⟨first, tail⟩ := List.forall_mem_cons.mp plain
    have ending : Ending (slashed (parts.map (·.write))) := by
      cases parts with
      | nil => exact nofun
      | cons next parts => rintro c ⟨⟩; decide
    rw [List.map_cons, List.map_cons, slashedCons, slashedCons, fieldedOther (by decide), fieldedPart first ending, ih tail]

end Fields

section Filling
open Template

variable {values : List (String × Value)} {depth : Nat} {s rest text out name : List Char} {piece : Piece} {v : Value}
  {c : Char}

def showPiece (values : List (String × Value)) (depth : Nat) : Piece → Except FillError (List Char)
  | .letter c => pure [c]
  | .field f => do
    let v ← convert (← valueOf values f.name) f.conversion
    let layout ← if f.format.contains '\x7b' then fill values depth f.format else pure f.format
    match v.layOut layout with
    | .ok text => pure text.toList
    | .error e => throw (.layout e)

theorem fillPieces : fill values (depth + 1) s = (do
    let parts ← (pieces s).1.mapM (showPiece values depth)
    match (pieces s).2 with
    | some e => throw (.braces e)
    | none => return parts.flatten) := by
  rw [fill]
  rfl

theorem fillNone : fill values (depth + 1) [] = .ok [] := by
  rw [fillPieces, pieces]
  rfl

theorem fillStep (front : pieces s = (piece :: (pieces rest).1, (pieces rest).2))
    (shown : showPiece values depth piece = .ok text) (behind : fill values (depth + 1) rest = .ok out) :
    fill values (depth + 1) s = .ok (text ++ out) := by
  rw [fillPieces] at behind ⊢
  obtain ⟨parts, mapped, ended⟩ := bindOk.mp behind
  have mapped' : (piece :: (pieces rest).1).mapM (showPiece values depth) = .ok (text :: parts) := by
    rw [List.mapM_cons, shown, mapped]
    rfl
  rw [front, mapped']
  cases none : (pieces rest).2 with
  | some e => simp only [none] at ended; cases ended
  | none =>
    simp only [none] at ended
    rw [← pureOk.mp ended]
    rfl

theorem fillText (clear : ∀ c ∈ text, ¬(c = '\x7b' ∨ c = '\x7d')) (behind : fill values (depth + 1) rest = .ok out) :
    fill values (depth + 1) (text ++ rest) = .ok (text ++ out) := by
  induction text with
  | nil => exact behind
  | cons c text ih =>
    obtain ⟨first, tail⟩ := List.forall_mem_cons.mp clear
    have step : fill values (depth + 1) (c :: (text ++ rest)) = .ok ([c] ++ (text ++ out)) :=
      fillStep (piecesOther first) rfl (ih tail)
    exact step

theorem fieldNameWord {done : List Char} (words : ∀ c ∈ name, isWord c) :
    fieldName false done (name ++ '\x7d' :: rest) = .ok (done.reverse ++ name, '\x7d', rest) := by
  induction name generalizing done with
  | nil => simp [fieldName]
  | cons c name ih =>
    obtain ⟨first, tail⟩ := List.forall_mem_cons.mp words
    have apart := wordApart first
    simp only [List.mem_cons, List.not_mem_nil, or_false, not_or] at apart
    obtain ⟨-, colon, opening, closing, -, bracket, mark⟩ := apart
    have open? : (c == '[') = false := beq_false_of_ne bracket
    rw [List.cons_append, fieldName]
    simp [colon, opening, closing, mark, open?, ih tail]

theorem valueFound (words : ∀ c ∈ name, isWord c) (some : name ≠ []) (unnumbered : indexNumber? name = .ok none)
    (found : values.find? (·.1 == String.ofList name) = .some (String.ofList name, v)) : valueOf values name = .ok v := by
  have through : ∀ c ∈ name, !endsName c := by
    intro c mem
    have apart := wordApart (words c mem)
    simp only [List.mem_cons, List.not_mem_nil, or_false, not_or] at apart
    simp [endsName, apart]
  have taken : name.takeWhile (!endsName ·) = name := List.takeWhile_eq_self_iff.mpr through
  have dropped : name.dropWhile (!endsName ·) = [] := List.dropWhile_eq_nil_iff.mpr through
  have filled : name.isEmpty = false := by simpa using some
  rw [valueOf]
  simp only [taken, dropped, unnumbered, found, filled]
  exact follow.eq_1 v

theorem fillField (words : ∀ c ∈ name, isWord c) (some : name ≠ []) (unnumbered : indexNumber? name = .ok none)
    (found : values.find? (·.1 == String.ofList name) = .some (String.ofList name, v))
    (behind : fill values (depth + 1) rest = .ok out) :
    fill values (depth + 1) ('\x7b' :: (name ++ '\x7d' :: rest)) = .ok (v.plain.toList ++ out) := by
  have apart : name ++ '\x7d' :: rest ≠ [] ∧ (name ++ '\x7d' :: rest).head? ≠ .some '\x7b' := by
    obtain ⟨c, name, rfl⟩ := List.exists_cons_of_ne_nil some
    refine ⟨nofun, fun brace => ?_⟩
    obtain rfl : c = '\x7b' := Option.some.inj brace
    exact absurd (words _ List.mem_cons_self) (by decide)
  have read : field (name ++ '\x7d' :: rest) = .ok (⟨name, none, []⟩, rest) := by
    rw [field, @fieldNameWord rest name [] words]
    rfl
  have shown : showPiece values depth (.field ⟨name, none, []⟩) = .ok v.plain.toList := by
    rw [showPiece, valueFound words some unnumbered found]
    rfl
  exact fillStep (piecesField apart read) shown behind

end Filling

section Reading

variable {name type : List Char} {type? : Option (List Char)} {part : Part} {parts : List Part} {names seen : List (List Char)}

theorem writtenContent {whole : List Char} (words : ∀ c ∈ name, isWord c) (some : name ≠ [])
    (typed : ∀ type ∈ type?, type ≠ [] ∧ ∀ c ∈ type, isWord c) :
    Segment.readParam whole (Part.content name type?) = .param name (type?.getD Segment.defaultType) := by
  have through : ∀ c ∈ name, c != ':' := by
    intro c mem
    have apart := wordApart (words c mem)
    simp only [List.mem_cons, not_or] at apart
    simp [apart.2.1]
  have filled : name.isEmpty = false := by simpa using some
  cases type? with
  | none =>
    have cut : cutAt ':' name = (name, []) := by
      rw [cutAt, List.takeWhile_eq_self_iff.mpr through, List.dropWhile_eq_nil_iff.mpr through]
      rfl
    rw [Part.content, Segment.readParam, cut]
    simp [filled]
  | some type =>
    have ends : ∀ c ∈ (':' :: type).head?, (c != ':') = false := by
      rintro c ⟨⟩
      rfl
    have cut : cutAt ':' (name ++ ':' :: type) = (name, type) := by
      rw [cutAt, runTaken through ends, runDropped through ends]
      rfl
    have typeFilled : type.isEmpty = false := by simpa using (typed type rfl).1
    rw [Part.content, Segment.readParam, cut]
    simp [filled, typeFilled]

theorem partRead (plain : part.Plain) : Segment.read part.write = part.segment := by
  cases plain with
  | fixed clear =>
    rename_i text
    cases text with
    | nil => rfl
    | cons c text =>
      have apart := clear c List.mem_cons_self
      simp only [List.mem_cons, not_or] at apart
      rw [Part.write, Segment.read.eq_def, Part.segment]
      split
      · next same => exact absurd (List.cons.inj same).1 apart.2.1
      · next same => exact absurd (List.cons.inj same).1 apart.2.2.1
      · rfl
  | param named ascii own typed =>
    rename_i braced name type?
    have content {whole : List Char} := @writtenContent name type? whole (nameWords named ascii) (nameSome named) typed
    cases braced with
    | false => exact content
    | true =>
      rw [Part.write, Segment.read.eq_def]
      simp only [List.getLast?_append, List.getLast?_singleton, Option.some_or, List.dropLast_concat, beq_self_eq_true, if_true]
      exact content

theorem noBadName (named : ∀ name ∈ names, isName name) (distinct : names.Nodup) (apart : ∀ name ∈ names, name ∉ seen) :
    Pattern.badName? seen names = none := by
  induction names generalizing seen with
  | nil => rfl
  | cons name names ih =>
    obtain ⟨first, tail⟩ := List.forall_mem_cons.mp named
    obtain ⟨new, once⟩ := List.nodup_cons.mp distinct
    have unseen : seen.contains name = false := by simpa using apart name List.mem_cons_self
    rw [Pattern.badName?, first, unseen]
    refine ih tail once fun other mem => ?_
    rw [List.mem_cons, not_or]
    exact ⟨fun same => new (same ▸ mem), apart other (List.mem_cons_of_mem _ mem)⟩

end Reading

section Numbers

variable {c : Char} {n : Nat}

theorem digitZero (digit : c.isDigit) : (digitValue? c).getD 0 = c.toNat - '0'.toNat := by
  have range : '0' ≤ c ∧ c ≤ '9' := by simpa [Char.isDigit, Char.le_def, UInt32.le_iff_toNat_le] using digit
  rw [digitValue?, if_pos (Data.digitAscii digit), if_pos range, Option.getD_some]

theorem numberBack : readDigits (toString n).toList = n := by
  have same : readDigits (toString n).toList = Nat.ofDigitChars 10 (toString n).toList 0 :=
    List.foldl_ext _ _ _ fun sofar c mem => by rw [digitZero (Client.Outline.digitsWritten c mem)]
  rw [same, Nat.toString_eq_ofList_toDigits, String.toList_ofList, Nat.ofDigitChars_toDigits (by decide) (by decide)]

theorem numberWritten : Segment.isNumber (toString n).toList := by
  have some : (toString n).toList ≠ [] := by
    rw [Nat.toString_eq_ofList_toDigits, String.toList_ofList]
    exact Nat.toDigits_ne_nil
  have digits : ∀ c ∈ (toString n).toList, isDigit c := fun c mem => by
    have digit := Client.Outline.digitsWritten c mem
    rw [digitCommon (Data.digitAscii digit), digit]
  simpa [Segment.isNumber, some] using digits

end Numbers

section Taking

variable {params : List (String × Value)} {part : Part} {parts : List Part}

def given (params : List (String × Value)) (key : String) : Value := ((params.find? (·.1 == key)).map (·.2)).getD .none

def Part.shown (params : List (String × Value)) : Part → List Char
  | fixed text => text
  | param _ name _ => (given params (String.ofList name)).plain.toList

def Part.argument? (params : List (String × Value)) : Part → Option (String × Argument)
  | fixed _ => none
  | param braced name type? =>
    let shown := (param braced name type?).shown params
    some (String.ofList name, if type? = some Segment.wholeType then .whole shown else .text shown)

def Part.pair? (params : List (String × Value)) (part : Part) : Option (String × Value) :=
  part.name?.map fun key => (key, given params key)

structure Filled (params : List (String × Value)) (part : Part) : Prop where
  found : ∀ key ∈ part.name?, params.find? (·.1 == key) = some (key, given params key)
  takes : ∀ key ∈ part.name?, part.Takes (given params key)

theorem filledParts (described : Described parts) (values : Given parts params) : ∀ part ∈ parts, Filled params part := by
  intro part mem
  have found : ∀ key ∈ part.name?, ∃ entry ∈ params, entry.1 = key ∧ params.find? (·.1 == key) = some entry := by
    intro key named
    have known : key ∈ params.map (·.1) := values.named.mem_iff.mpr (List.mem_filterMap.mpr ⟨part, mem, named⟩)
    obtain ⟨entry, given, rfl⟩ := List.mem_map.mp known
    exact ⟨entry, given, rfl, foundOnce (values.named.nodup_iff.mpr described.distinct) given⟩
  constructor
  · intro key named
    obtain ⟨entry, -, rfl, found⟩ := found key named
    rw [given, found]
    rfl
  · intro key named
    obtain ⟨entry, member, rfl, found⟩ := found key named
    rw [given, found]
    exact values.fits part mem entry member named

theorem shownWithin (plain : part.Plain) (filled : Filled params part) : '/' ∉ part.shown params := by
  cases plain with
  | fixed clear => exact fun mem => clear '/' mem List.mem_cons_self
  | param named ascii own typed =>
    rename_i braced name type?
    have takes := filled.takes _ rfl
    rw [Part.shown]
    rw [Part.Takes] at takes
    split at takes
    · obtain ⟨n, value, -⟩ := takes
      rw [value]
      exact fun mem => absurd (Client.Outline.digitsWritten (n := n) '/' mem) (by decide)
    · obtain ⟨s, value, -, within⟩ := takes
      rw [value]
      exact within

theorem wholeType {type? : Option (List Char)} :
    (type?.getD Segment.defaultType == Segment.wholeType) = decide (type? = some Segment.wholeType) := by
  cases type? with
  | none => rfl
  | some type => simp [Bool.beq_eq_decide_eq]

theorem partTaken (filled : Filled params part) :
    part.segment.take? (part.shown params) = some (part.argument? params).toList := by
  cases part with
  | fixed text => exact if_pos (beq_self_eq_true text)
  | param braced name type? =>
    have takes := filled.takes _ rfl
    rw [Part.Takes] at takes
    rw [Part.segment, Part.argument?, Part.shown, Segment.take?, wholeType]
    by_cases whole : type? = some Segment.wholeType
    · rw [if_pos whole] at takes ⊢
      obtain ⟨n, value, -⟩ := takes
      have number : Segment.isNumber (Value.whole n).plain.toList := numberWritten
      rw [value, decide_eq_true whole, if_pos rfl, if_pos number]
      rfl
    · rw [if_neg whole] at takes ⊢
      obtain ⟨s, value, some, -⟩ := takes
      have filled : (Value.text s).plain.toList.isEmpty = false := by simpa [Value.plain] using some
      rw [value, decide_eq_false whole, filled]
      rfl

theorem argumentValue {key : String} {a : Argument} (filled : Filled params part)
    (h : part.argument? params = some (key, a)) :
    part.pair? params = some (key, given params key) ∧ a.value = .ok (given params key) := by
  cases part with
  | fixed text => cases h
  | param braced name type? =>
    have takes := filled.takes _ rfl
    rw [Part.Takes] at takes
    obtain ⟨rfl, rfl⟩ := Prod.mk.inj (Option.some.inj h)
    refine ⟨rfl, ?_⟩
    rw [Part.shown]
    by_cases whole : type? = some Segment.wholeType
    · rw [if_pos whole] at takes ⊢
      obtain ⟨n, value, short⟩ := takes
      have fits : ¬digitLimit < (Value.whole n).plain.toList.length := Nat.not_lt.mpr short
      have back : readDigits (Value.whole n).plain.toList = n := numberBack
      rw [value, Argument.value, if_neg fits, back]
    · rw [if_neg whole] at takes ⊢
      obtain ⟨s, value, -⟩ := takes
      rw [value, Argument.value, Value.plain, String.ofList_toList]

theorem argumentsRead (filled : ∀ part ∈ parts, Filled params part) :
    ((parts.filterMap (·.argument? params)).mapM fun (name, a) => do return (name, ← a.value)) =
      (.ok (parts.filterMap (·.pair? params)) : Except LongNumber _) := by
  induction parts with
  | nil => rfl
  | cons part parts ih =>
    obtain ⟨first, tail⟩ := List.forall_mem_cons.mp filled
    cases taken : part.argument? params with
    | none =>
      have fixed : part.pair? params = none := by
        cases part with
        | fixed text => rfl
        | param => cases taken
      rw [List.filterMap_cons_none taken, List.filterMap_cons_none fixed, ih tail]
    | some argument =>
      obtain ⟨key, a⟩ := argument
      obtain ⟨entry, value⟩ := argumentValue first taken
      rw [List.filterMap_cons_some taken, List.filterMap_cons_some entry, List.mapM_cons, ih tail]
      simp only [value]
      rfl

theorem allTaken (filled : ∀ part ∈ parts, Filled params part) (some : parts ≠ []) :
    Pattern.takeAll? (parts.map (·.segment)) (parts.map (·.shown params)) = .some (parts.filterMap (·.argument? params)) := by
  induction parts with
  | nil => exact absurd rfl some
  | cons part parts ih =>
    obtain ⟨first, tail⟩ := List.forall_mem_cons.mp filled
    have taken := partTaken first
    have joins : (part :: parts).filterMap (·.argument? params) =
        (part.argument? params).toList ++ parts.filterMap (·.argument? params) := by
      cases h : part.argument? params <;> simp [h]
    rw [joins]
    cases parts with
    | nil =>
      rw [List.map_cons, List.map_cons, List.map_nil, List.map_nil, Pattern.takeAll?, Segment.takeLast?, taken]
      simp
    | cons next parts =>
      have behind := ih tail (List.cons_ne_nil next parts)
      rw [List.map_cons, List.map_cons, Pattern.takeAll?.eq_def]
      simp only [List.map_cons] at behind ⊢
      rw [taken, behind]
      rfl

theorem noneTaken {segments : List Segment} {parts : List (List Char)} (apart : segments.length ≠ parts.length) :
    Pattern.takeAll? segments parts = none := by
  fun_induction Pattern.takeAll? segments parts with
  | case1 => exact absurd rfl apart
  | case2 s segments part parts _ ih =>
    have behind := ih (by simpa using apart)
    cases s.take? part <;> simp [behind]
  | case3 => rfl

end Taking

section Built

variable {params : List (String × Value)} {part : Part} {parts : List Part}

def written (parts : List Part) : List Part := parts.filter (· ≠ .fixed [])

theorem writtenWithin (plain : part.Plain) : '/' ∉ part.write := by
  have outside {name : List Char} (words : ∀ c ∈ name, isWord c) : '/' ∉ name := fun mem =>
    absurd (words '/' mem) (by decide)
  cases plain with
  | fixed clear => exact fun mem => clear '/' mem List.mem_cons_self
  | param named ascii own typed =>
    rename_i braced name type?
    have content : '/' ∉ Part.content name type? := by
      cases type? with
      | none => exact outside (nameWords named ascii)
      | some type => simp [Part.content, outside (nameWords named ascii), outside (typed type rfl).2]
    cases braced <;> simp [Part.write, content]

theorem writtenEmpty (plain : part.Plain) : part.write.isEmpty = decide (part = .fixed []) := by
  cases plain with
  | fixed clear =>
    rename_i text
    cases text <;> rfl
  | param named ascii own typed =>
    rename_i braced name type?
    cases braced <;> simp [Part.write]

theorem writtenParts (plain : ∀ part ∈ parts, part.Plain) :
    (splitAt '/' (patternText parts).toList).filter (!·.isEmpty) = (written parts).map (·.write) := by
  have clear : ∀ p ∈ parts.map (·.write), '/' ∉ p := by
    intro p mem
    obtain ⟨part, member, rfl⟩ := List.mem_map.mp mem
    exact writtenWithin (plain part member)
  rw [patternText, String.toList_ofList, splitSlashed clear, List.filter_cons_of_neg (by simp), List.filter_map, written]
  refine congrArg _ (List.filter_congr fun part mem => ?_)
  simp [writtenEmpty (plain part mem)]

theorem segmentName : part.segment.name?.map String.ofList = part.name? := by cases part <;> rfl

theorem namesKept : ((parts.map (·.segment)).filterMap Segment.name?).map String.ofList = parts.filterMap (·.name?) := by
  rw [List.filterMap_map, List.map_filterMap]
  exact List.filterMap_congr fun part _ => segmentName

theorem patternRead (described : Described parts) :
    Pattern.read (patternText parts) = .ok ⟨patternText parts, (written parts).map (·.segment)⟩ := by
  have members {part : Part} (mem : part ∈ written parts) : part ∈ parts := List.mem_of_mem_filter mem
  have segments : ((written parts).map (·.write)).map Segment.read = (written parts).map (·.segment) := by
    rw [List.map_map]
    exact List.map_congr_left fun part mem => partRead (described.plain part (members mem))
  have named : ∀ name ∈ ((written parts).map (·.segment)).filterMap Segment.name?, isName name := by
    intro name mem
    obtain ⟨segment, member, found⟩ := List.mem_filterMap.mp mem
    obtain ⟨part, here, rfl⟩ := List.mem_map.mp member
    cases described.plain part (members here) with
    | fixed => cases found
    | param named => cases found; exact named
  have distinct : (((written parts).map (·.segment)).filterMap Segment.name?).Nodup := by
    refine List.Nodup.of_map String.ofList ?_
    rw [namesKept]
    exact described.distinct.sublist (List.filter_sublist.filterMap _)
  rw [Pattern.read, writtenParts described.plain, segments, noBadName named distinct fun _ _ => List.not_mem_nil]

theorem fillParts (plain : ∀ part ∈ parts, part.Plain) (filled : ∀ part ∈ parts, Filled params part) :
    Template.fill params 2 (slashed (parts.map (·.fielded))) = .ok (slashed (parts.map (·.shown params))) := by
  induction parts with
  | nil => exact fillNone
  | cons part parts ih =>
    obtain ⟨first, plain⟩ := List.forall_mem_cons.mp plain
    obtain ⟨value, filled⟩ := List.forall_mem_cons.mp filled
    have behind := ih plain filled
    have front : Template.fill params 2 (part.fielded ++ slashed (parts.map (·.fielded))) =
        .ok (part.shown params ++ slashed (parts.map (·.shown params))) := by
      cases first with
      | fixed clear =>
        refine fillText (fun c mem => ?_) behind
        have apart := clear c mem
        simp only [List.mem_cons, List.not_mem_nil, or_false, not_or] at apart
        exact not_or.mpr apart.2.2
      | param named ascii own typed =>
        rw [Part.fielded, List.cons_append, List.append_assoc]
        exact fillField (nameWords named ascii) (nameSome named) (nameUnnumbered named ascii) (value.found _ rfl) behind
    rw [List.map_cons, List.map_cons, slashedCons, slashedCons]
    exact @fillText params 1 _ ['/'] _ (by simp) front

theorem pathBuilt {segments : List Segment} (described : Described parts) (values : Given parts params) :
    (Pattern.mk (patternText parts) segments).pathFor params =
      .ok (String.ofList (slashed (parts.map (·.shown params)))) := by
  have own : clash? ["self"] params = none := by
    rw [clash?, Option.map_eq_none_iff, List.find?_eq_none]
    intro entry mem
    have named := values.named.mem_iff.mp (List.mem_map_of_mem mem)
    obtain ⟨part, member, found⟩ := List.mem_filterMap.mp named
    cases described.plain part member with
    | fixed => cases found
    | param _ _ own => simpa [← Option.some.inj found] using own
  rw [Pattern.pathFor, own, Pattern.path, patternText, String.toList_ofList, fieldedParts described.plain,
    Template.fillNamed, String.toList_ofList, fillParts described.plain (filledParts described values)]
  rfl

theorem entriesGiven (described : Described parts) (values : Given parts params) :
    (parts.filterMap (·.pair? params)).Perm params := by
  have once : (params.map (·.1)).Nodup := values.named.nodup_iff.mpr described.distinct
  have entries : parts.filterMap (·.pair? params) =
      (parts.filterMap (·.name?)).map fun key => (key, given params key) := by
    rw [List.map_filterMap]
    rfl
  have own : (params.map (·.1)).map (fun key => (key, given params key)) = params := by
    rw [List.map_map]
    refine (List.map_congr_left fun entry mem => ?_).trans (List.map_id params)
    simp [given, foundOnce once mem]
  rw [entries]
  exact (values.named.symm.map _).trans (List.Perm.of_eq own)

theorem writtenAll : written parts = parts ↔ .fixed [] ∉ parts := by
  rw [written, List.filter_eq_self]
  refine ⟨fun all mem => absurd (all _ mem) (by simp), fun none part mem => decide_eq_true fun same => none ?_⟩
  exact same ▸ mem

theorem writtenNone : written parts = [] ↔ ∀ part ∈ parts, part = .fixed [] := by
  rw [written, List.filter_eq_nil_iff]
  simp

theorem emptyTaken {more : List Part} (all : ∀ p ∈ part :: more, p = .fixed []) :
    (part.shown params ++ slashed (more.map (·.shown params)) = [] ↔ more = []) ∧
      part.shown params ++ slashed (more.map (·.shown params)) ≠ ['\n'] := by
  obtain ⟨rfl, rest⟩ := List.forall_mem_cons.mp all
  cases more with
  | nil => exact ⟨iff_of_true rfl rfl, nofun⟩
  | cons next more =>
    rw [List.map_cons, slashedCons]
    exact ⟨iff_of_false nofun nofun, by simp [Part.shown]⟩

theorem argumentsOf (described : Described parts) (values : Given parts params) :
    (Pattern.mk (patternText parts) ((written parts).map (·.segment))).arguments?
        (String.ofList (slashed (parts.map (·.shown params)))) =
      if .fixed [] ∈ parts ∧ parts ≠ [.fixed []] then none else some (parts.filterMap (·.argument? params)) := by
  have filled := filledParts described values
  have clear : ∀ p ∈ parts.map (·.shown params), '/' ∉ p := by
    intro p mem
    obtain ⟨part, member, rfl⟩ := List.mem_map.mp mem
    exact shownWithin (described.plain part member) (filled part member)
  obtain ⟨part, more, rfl⟩ := List.exists_cons_of_ne_nil described.some
  rw [Pattern.arguments?, String.toList_ofList, List.map_cons, slashedCons]
  simp only [List.isEmpty_map]
  rw [splitPart clear]
  by_cases empty : written (part :: more) = []
  · have all := writtenNone.mp empty
    obtain ⟨alone, unbroken⟩ := @emptyTaken params part more all
    have first : part = .fixed [] := all part List.mem_cons_self
    rw [empty, List.isEmpty_nil, if_pos rfl, beq_false_of_ne unbroken, Bool.or_false]
    cases more with
    | nil => simp [first, Part.shown, slashed, Part.argument?]
    | cons next more =>
      have missing : .fixed [] ∈ part :: next :: more := first ▸ List.mem_cons_self
      rw [beq_false_of_ne (mt alone.mp (List.cons_ne_nil next more)), if_neg Bool.false_ne_true,
        if_pos ⟨missing, by simp⟩]
  · have some : ((written (part :: more)).isEmpty) = false := by simpa using empty
    rw [some, if_neg Bool.false_ne_true, ← List.map_cons]
    by_cases missing : .fixed [] ∈ part :: more
    · have several : part :: more ≠ [.fixed []] := fun same => empty (same ▸ rfl)
      have fewer : (written (part :: more)).length < (part :: more).length :=
        List.length_filter_lt_length_iff_exists.mpr ⟨_, missing, by simp⟩
      rw [noneTaken (by simpa using fewer.ne), if_pos ⟨missing, several⟩]
    · rw [writtenAll.mpr missing, allTaken filled (List.cons_ne_nil part more), if_neg fun found => missing found.1]

/-- A pattern of plain parts has a path for all parameters that suit it. It reads these parameters from the path again,
except where a part is empty: empty parts are written but not read, unless the pattern is a single slash. -/
theorem builtRead (parts : List Part) (params : List (String × Value)) (described : Described parts)
    (values : Given parts params) : ∃ p path, Pattern.read (patternText parts) = .ok p ∧ p.pathFor params = .ok path ∧
      ∃ found, List.Perm found params ∧
        p.parameters? path = .ok (if .fixed [] ∈ parts ∧ parts ≠ [.fixed []] then none else some found) := by
  refine ⟨_, _, patternRead described, pathBuilt described values, _, entriesGiven described values, ?_⟩
  rw [Pattern.parameters?, argumentsOf described values]
  by_cases empty : .fixed [] ∈ parts ∧ parts ≠ [.fixed []]
  · rw [if_pos empty, if_pos empty]
  · rw [if_neg empty, if_neg empty]
    exact congrArg (· >>= fun values => pure (some values)) (argumentsRead (filledParts described values))

def userParts : List Part :=
  [.fixed "users".toList, .param false ['i', 'd'] (some Segment.wholeType), .param true ['t', 'a', 'g'] none]

def userParams : List (String × Value) := [("tag", .text "a:\x7bb"), ("id", .whole 7)]

theorem userDescribed : Described userParts := by
  have wholeTyped : ∀ type ∈ some Segment.wholeType, type ≠ [] ∧ ∀ c ∈ type, isWord c := by
    rintro type ⟨⟩
    exact ⟨by decide, List.all_eq_true.mp rfl⟩
  refine ⟨List.cons_ne_nil _ _, ?_, by decide⟩
  simp only [userParts, List.forall_mem_cons, List.not_mem_nil, false_imp_iff, implies_true, and_true]
  exact ⟨.fixed (by simp), .param rfl (by simp) (by decide) wholeTyped, .param rfl (by simp) (by decide) nofun⟩

theorem userGiven : Given userParts userParams where
  named := List.Perm.swap ..
  fits := by
    simp only [userParts, userParams, List.forall_mem_cons, List.not_mem_nil, false_imp_iff, implies_true, and_true]
    refine ⟨⟨nofun, nofun⟩, ⟨fun same => absurd same (by decide), fun _ => ⟨7, rfl, by decide⟩⟩,
      fun _ => ⟨_, rfl, by decide, by decide⟩, fun same => absurd same (by decide)⟩

theorem userRead : ∃ p path, Pattern.read "/users/:id:int/\x7btag\x7d" = .ok p ∧ p.pathFor userParams = .ok path ∧
    ∃ found, List.Perm found userParams ∧ p.parameters? path = .ok (some found) :=
  builtRead userParts userParams userDescribed userGiven

/-- An empty part is lost, and what stands behind the first word of a type stays in the path. -/
theorem partsLost :
    (∃ p, Pattern.read "/users/" = .ok p ∧ p.pathFor [] = .ok "/users/" ∧ p.parameters? "/users/" = .ok none) ∧
      ∃ p, Pattern.read "/posts/:id:post-slug" = .ok p ∧ p.pathFor [("id", .text "x")] = .ok "/posts/x-slug" ∧
        p.parameters? "/posts/x-slug" = .ok (some [("id", .text "x-slug")]) := by
  refine ⟨⟨⟨"/users/", [.fixed "users".toList]⟩, ?_, ?_, ?_⟩,
    ⟨⟨"/posts/:id:post-slug", [.fixed "posts".toList, .param "id".toList "post-slug".toList]⟩, ?_, ?_, ?_⟩⟩
  · decide
  · decide +kernel
  · rfl
  · decide
  · decide +kernel
  · rfl

end Built

end LiveMarkup.Routing
