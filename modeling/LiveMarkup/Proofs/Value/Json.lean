import Mathlib.Data.List.Forall2
import LiveMarkup.Client.Script
import LiveMarkup.Proofs.Client.Closing
import LiveMarkup.Proofs.Client.Evaluate
import LiveMarkup.Proofs.Client.Outline
import LiveMarkup.Proofs.Outcome
import LiveMarkup.Proofs.Runs
/-! The literals of fields are JSON: read by its grammar they give the values that they were made from. The guard
against `</` stands inside of texts alone, where it is an escape. -/
namespace LiveMarkup
open Text Json Client

inductive Data where
  | null
  | truth (b : Bool)
  | number (mantissa exponent : Int)
  | text (s : String)
  | list (items : List Data)
  | object (entries : List (String × Data))

namespace Value

mutual

def data? : Value → Option Data
  | .none => some .null
  | .truth b => some (.truth b)
  | .whole n => if isShort n then some (.number n 0) else Option.none
  | .text s => some (.text s)
  | .list items => (dataAll? items).map .list
  | .tuple items => (dataAll? items).map .list
  | .dict entries => (dataEntries? entries).map .object
  | _ => Option.none

def dataAll? : List Value → Option (List Data)
  | [] => some []
  | v :: rest => (data? v).bind fun d => (dataAll? rest).map (d :: ·)

def dataEntries? : List (Value × Value) → Option (List (String × Data))
  | [] => some []
  | (.text key, v) :: rest => (data? v).bind fun d => (dataEntries? rest).map ((key, d) :: ·)
  | _ :: _ => Option.none

end

end Value

namespace Data

section Grammar

def fromUnits : List Nat → Option (List Char)
  | [] => some []
  | u :: rest =>
    if 0xd800 ≤ u ∧ u < 0xdc00 then
      match rest with
      | v :: rest =>
        if 0xdc00 ≤ v ∧ v < 0xe000 then
          (fromUnits rest).map (Char.ofNat (0x10000 + 0x400 * (u - 0xd800) + (v - 0xdc00)) :: ·)
        else none
      | [] => none
    else if 0xdc00 ≤ u ∧ u < 0xe000 then none
    else (fromUnits rest).map (Char.ofNat u :: ·)

def readText (cs : List Char) : Option (String × List Char) :=
  (readLiteral cs).bind fun (content, rest) =>
    if (cs.take (cs.length - rest.length)).all (32 ≤ ·.toNat) then
      (fromUnits content).map fun s => (String.ofList s, rest)
    else none

def readFraction : List Char → Option (List Char × List Char)
  | '.' :: rest =>
    if (rest.takeWhile Char.isDigit).isEmpty then none
    else some (rest.takeWhile Char.isDigit, rest.dropWhile Char.isDigit)
  | rest => some ([], rest)

def readPower (sign : Int) (cs : List Char) : Option (Int × List Char) :=
  if (cs.takeWhile Char.isDigit).isEmpty then none
  else some (sign * Nat.ofDigitChars 10 (cs.takeWhile Char.isDigit) 0, cs.dropWhile Char.isDigit)

def readExponent : List Char → Option (Int × List Char)
  | [] => some (0, [])
  | c :: rest =>
    if c = 'e' ∨ c = 'E' then
      match rest with
      | '-' :: rest => readPower (-1) rest
      | '+' :: rest => readPower 1 rest
      | rest => readPower 1 rest
    else some (0, c :: rest)

def readMagnitude (sign : Int) (cs : List Char) : Option (Data × List Char) :=
  let whole := cs.takeWhile Char.isDigit
  if (toString (Nat.ofDigitChars 10 whole 0)).toList = whole then
    (readFraction (cs.dropWhile Char.isDigit)).bind fun (fraction, rest) =>
      (readExponent rest).map fun (power, rest) =>
        (.number (sign * Nat.ofDigitChars 10 (whole ++ fraction) 0) (power - fraction.length), rest)
  else none

def readNumber : List Char → Option (Data × List Char)
  | '-' :: rest => readMagnitude (-1) rest
  | cs => readMagnitude 1 cs

def words : List (String × Data) := [("null", .null), ("true", .truth true), ("false", .truth false)]

def readPlain (cs : List Char) : Option (Data × List Char) :=
  match words.find? (·.1.toList.isPrefixOf cs) with
  | some (word, d) => some (d, cs.drop word.toList.length)
  | none => readNumber cs

def isBlank (c : Char) : Bool := c == ' ' || c == '\t' || c == '\n' || c == '\r'

def skip (cs : List Char) : List Char := cs.dropWhile isBlank

variable {α : Type}

def readMany (close : Char) (read : List Char → Option (α × List Char)) :
    (fuel : Nat) → List Char → Option (List α × List Char)
  | 0, _ => none
  | fuel + 1, cs =>
    (read cs).bind fun (v, rest) =>
      match skip rest with
      | ',' :: rest => (readMany close read fuel rest).map fun (vs, rest) => (v :: vs, rest)
      | c :: rest => if c = close then some ([v], rest) else none
      | [] => none

def readBracketed (close : Char) (read : List Char → Option (α × List Char)) (fuel : Nat) (cs : List Char) :
    Option (List α × List Char) :=
  match skip cs with
  | c :: rest => if c = close then some ([], rest) else readMany close read fuel (c :: rest)
  | [] => none

def readEntry (read : List Char → Option (Data × List Char)) (cs : List Char) :
    Option ((String × Data) × List Char) :=
  match skip cs with
  | '"' :: rest =>
    (readText rest).bind fun (key, rest) =>
      match skip rest with
      | ':' :: rest => (read rest).map fun (v, rest) => ((key, v), rest)
      | _ => none
  | _ => none

def readValue : (fuel : Nat) → List Char → Option (Data × List Char)
  | 0, _ => none
  | fuel + 1, cs =>
    match skip cs with
    | '"' :: rest => (readText rest).map fun (s, rest) => (.text s, rest)
    | '[' :: rest => (readBracketed ']' (readValue fuel) fuel rest).map fun (items, rest) => (.list items, rest)
    | '\x7b' :: rest =>
      (readBracketed '\x7d' (readEntry (readValue fuel)) fuel rest).map fun (entries, rest) => (.object entries, rest)
    | rest => readPlain rest

def readJson (cs : List Char) : Option Data :=
  (readValue (cs.length + 1) cs).bind fun (d, rest) => if (skip rest).isEmpty then some d else none

end Grammar

section Texts

variable {c : Char} {a b cs rest : List Char} {us : List Nat}

theorem unitsRead : fromUnits (units c ++ us) = (fromUnits us).map (c :: ·) := by
  have valid : c.toNat < 0xd800 ∨ 0xdfff < c.toNat ∧ c.toNat < 0x110000 := c.valid
  unfold units
  split
  · next small =>
    rw [List.singleton_append, fromUnits.eq_def]
    simp only
    rw [if_neg (by omega), if_neg (by omega), Char.ofNat_toNat]
  · next large =>
    have whole : 0x10000 + 0x400 * (0xd800 + (c.toNat - 0x10000) / 0x400 - 0xd800) +
        (0xdc00 + (c.toNat - 0x10000) % 0x400 - 0xdc00) = c.toNat := by omega
    rw [List.cons_append, List.singleton_append, fromUnits, if_pos (by omega), if_pos (by omega), whole,
      Char.ofNat_toNat]

theorem textUnits : fromUnits (cs.flatMap units) = some cs := by
  induction cs with
  | nil => rfl
  | cons c rest ih => rw [List.flatMap_cons, unitsRead, ih, Option.map_some]

theorem escapedPrinted : ∀ d ∈ escapeChar c, 32 ≤ d.toNat ∧ d.toNat < 128 := by
  intro d mem
  have letters : ∀ d ∈ escapeLetters, 32 ≤ d.toNat ∧ d.toNat < 128 := allSeen (by decide)
  rcases escapedLetters mem with part | ⟨rfl, low, high⟩
  · exact letters d part
  · exact ⟨low, high.trans (by decide)⟩

theorem guardedChars : ∀ d ∈ guardClosing cs, d ∈ cs ∨ d = '\\' := by
  fun_induction guardClosing cs with
  | case1 rest ih =>
    intro d mem
    simp only [List.mem_cons] at mem ⊢
    rcases mem with rfl | rfl | rfl | mem
    · simp
    · simp
    · simp
    · rcases ih d mem with h | h <;> simp [h]
  | case2 c rest plain ih =>
    intro d mem
    rcases List.mem_cons.mp mem with rfl | mem
    · simp
    · rcases ih d mem with h | h <;> simp [h]
  | case3 => simp

theorem encodedPrinted : ∀ d ∈ encode cs, 32 ≤ d.toNat ∧ d.toNat < 128 := by
  intro d mem
  simp only [encode, List.cons_append, List.mem_cons, List.mem_append, List.mem_flatMap, List.not_mem_nil,
    or_false] at mem
  rcases mem with rfl | ⟨c, _, mem⟩ | rfl
  · decide
  · exact escapedPrinted d mem
  · decide

theorem quotedPrinted {s : String} : ∀ d ∈ (jsString s).toList, 32 ≤ d.toNat ∧ d.toNat < 128 := by
  intro d mem
  rw [jsString, String.toList_ofList] at mem
  rcases guardedChars d mem with mem | rfl
  · exact encodedPrinted d mem
  · decide

theorem quotedRead {s : String} : ∃ body, (jsString s).toList = '"' :: body ∧
    ∀ rest, readText (body ++ rest) = some (s, rest) := by
  obtain ⟨body, written, read⟩ := @literalRead s
  refine ⟨body, written, fun rest => ?_⟩
  have printed : body.all (32 ≤ ·.toNat) := by
    refine List.all_eq_true.mpr fun d mem => decide_eq_true ?_
    exact (quotedPrinted d (written ▸ List.mem_cons_of_mem _ mem)).1
  have front : (body ++ rest).take ((body ++ rest).length - rest.length) = body := by
    rw [List.length_append, Nat.add_sub_cancel, List.take_left]
  rw [readText, read, Option.bind_some]
  simp only [front, if_pos printed, unitsOf, textUnits, Option.map_some, String.ofList_toList]

end Texts

section Numbers

variable {cs rest : List Char} {n : Nat}

def Parting (rest : List Char) : Prop := ∀ c ∈ rest.head?, c.isDigit = false ∧ c ≠ '.' ∧ c ≠ 'e' ∧ c ≠ 'E'

theorem magnitudeRead {sign : Int} (parting : Parting rest) :
    readMagnitude sign ((toString n).toList ++ rest) = some (.number (sign * n) 0, rest) := by
  have all : ∀ c ∈ (toString n).toList, c.isDigit := Outline.digitsWritten
  have ends : ∀ c ∈ rest.head?, c.isDigit = false := fun c mem => (parting c mem).1
  have value : Nat.ofDigitChars 10 (toString n).toList 0 = n := by
    rw [Nat.toString_eq_ofList_toDigits, String.toList_ofList, Nat.ofDigitChars_toDigits (by decide) (by decide)]
  have fraction : readFraction rest = some ([], rest) := by
    unfold readFraction
    split
    · next more => exact absurd rfl (parting '.' rfl).2.1
    · rfl
  have power : readExponent rest = some (0, rest) := by
    cases rest with
    | nil => rfl
    | cons c more =>
      rw [readExponent.eq_def]
      exact if_neg (not_or.mpr (parting c rfl).2.2)
  unfold readMagnitude
  simp only [runTaken all ends, runDropped all ends, value, if_true, fraction, power, Option.bind_some,
    Option.map_some, List.append_nil, List.length_nil, Int.ofNat_zero, Int.sub_zero]

theorem wholeText {n : Int} : (toString n).toList = if n < 0 then '-' :: (toString n.natAbs).toList
    else (toString n.natAbs).toList := by
  cases n with
  | ofNat m => rfl
  | negSucc m =>
    have shown : toString (Int.negSucc m) = "-" ++ toString (m + 1) := rfl
    rw [shown, String.toList_append, if_pos (Int.negSucc_lt_zero m)]
    rfl

end Numbers

section Guard

variable {a b : List Char}

theorem guardAppend (apart : b.head? ≠ some '/') : guardClosing (a ++ b) = guardClosing a ++ guardClosing b := by
  fun_induction guardClosing a with
  | case1 rest ih => simp only [List.cons_append, guardClosing, ih]
  | case2 c rest plain ih =>
    rw [List.cons_append, guardClosing, ih, List.cons_append]
    rintro more rfl slash
    cases rest with
    | nil =>
      rw [List.nil_append] at slash
      exact apart (slash ▸ rfl)
    | cons d rest => exact plain rest rfl (by rw [(List.cons.inj slash).1])
  | case3 => rfl

theorem guardPlain (clear : '<' ∉ a) : guardClosing a = a := by
  have whole := @guardBlock a [] clear
  rwa [guardClosing, List.append_nil] at whole

end Guard

section Lists

variable {α : Type} {read : List Char → Option (α × List Char)} {close c : Char} {fuel : Nat}
  {block cs rest : List Char} {blocks : List (List Char)} {v : α} {vs : List α}

def listed (blocks : List (List Char)) : List Char := [',', ' '].intercalate blocks

theorem listedCons {first second : List Char} :
    listed (first :: second :: blocks) = first ++ ',' :: ' ' :: listed (second :: blocks) := by
  simp [listed, List.intercalate_cons_cons]

theorem listedText {texts : List String} : (", ".intercalate texts).toList = listed (texts.map String.toList) :=
  String.toList_intercalate

theorem listedFront : ∃ more, listed (block :: blocks) = block ++ more := by
  cases blocks with
  | nil => exact ⟨[], by simp [listed]⟩
  | cons second rest => exact ⟨_, listedCons⟩

theorem listedChars (h : c ∈ listed blocks) : c = ',' ∨ c = ' ' ∨ ∃ block ∈ blocks, c ∈ block := by
  induction blocks with
  | nil => cases h
  | cons block others ih =>
    cases others with
    | nil =>
      rw [listed, List.intercalate_singleton] at h
      exact .inr (.inr ⟨block, List.mem_cons_self, h⟩)
    | cons second rest =>
      rw [listedCons, List.mem_append, List.mem_cons, List.mem_cons] at h
      rcases h with h | h | h | h
      · exact .inr (.inr ⟨block, List.mem_cons_self, h⟩)
      · exact .inl h
      · exact .inr (.inl h)
      · exact (ih h).imp_right (Or.imp_right fun ⟨b, mem, h⟩ => ⟨b, List.mem_cons_of_mem _ mem, h⟩)

theorem listedLength (h : block ∈ blocks) : block.length ≤ (listed blocks).length := by
  induction blocks with
  | nil => cases h
  | cons first others ih =>
    cases others with
    | nil =>
      rw [listed, List.intercalate_singleton, List.mem_singleton.mp h]
    | cons second rest =>
      rw [listedCons, List.length_append, List.length_cons, List.length_cons]
      rcases List.mem_cons.mp h with rfl | h
      · omega
      · have inner := ih h
        omega

theorem listedCount : blocks.length ≤ (listed blocks).length + 1 := by
  induction blocks with
  | nil => exact Nat.zero_le _
  | cons first others ih =>
    cases others with
    | nil => exact Nat.le_add_left _ _
    | cons second rest =>
      simp only [listedCons, List.length_append, List.length_cons] at ih ⊢
      omega

theorem guardListed (apart : ∀ block ∈ blocks, block.head? ≠ some '/') :
    guardClosing (listed blocks) = listed (blocks.map guardClosing) := by
  induction blocks with
  | nil => rfl
  | cons first others ih =>
    obtain ⟨_, tail⟩ := List.forall_mem_cons.mp apart
    cases others with
    | nil => simp [listed]
    | cons second rest =>
      have behind : guardClosing (',' :: ' ' :: listed (second :: rest)) =
          ',' :: ' ' :: guardClosing (listed (second :: rest)) := @guardBlock [',', ' '] _ (by decide)
      rw [listedCons, guardAppend (by simp), behind, ih tail]
      exact listedCons.symm

def Gives (read : List Char → Option (α × List Char)) (block : List Char) (v : α) : Prop :=
  ∀ rest, Parting rest → read (block ++ rest) = some (v, rest)

theorem manyBlank (blank : ∀ cs, read (' ' :: cs) = read cs) :
    readMany close read fuel (' ' :: cs) = readMany close read fuel cs := by
  cases fuel with
  | zero => rfl
  | succ fuel => rw [readMany, readMany, blank]

theorem manyRead (elements : List.Forall₂ (Gives read) blocks vs) (filled : blocks ≠ [])
    (blank : ∀ cs, read (' ' :: cs) = read cs) (closes : close = ']' ∨ close = '\x7d') (enough : blocks.length ≤ fuel) :
    readMany close read fuel (listed blocks ++ close :: rest) = some (vs, rest) := by
  induction elements generalizing fuel with
  | nil => exact absurd rfl filled
  | @cons block v others vs first tail ih =>
    obtain _ | fuel := fuel
    · cases enough
    cases tail with
    | nil =>
      have parting : Parting (close :: rest) := by
        rcases closes with rfl | rfl <;> simp [Parting]
      rw [listed, List.intercalate_singleton, readMany, first _ parting, Option.bind_some]
      rcases closes with rfl | rfl <;> rfl
    | @cons second w others more next tail =>
      have parting : Parting (',' :: ' ' :: (listed (second :: others) ++ close :: rest)) := by simp [Parting]
      have later := ih (List.cons_ne_nil _ _) (Nat.le_of_succ_le_succ enough)
      rw [listedCons, List.append_assoc, List.cons_append, List.cons_append, readMany, first _ parting, Option.bind_some]
      show (readMany close read fuel (' ' :: (listed (second :: others) ++ close :: rest))).map _ = _
      rw [manyBlank blank, later]
      rfl

def Opens (cs : List Char) : Prop := ∃ c more, cs = c :: more ∧ isBlank c = false ∧ c ∉ ['/', ']', '\x7d']

theorem bracketedRead (elements : List.Forall₂ (Gives read) blocks vs) (opens : ∀ block ∈ blocks, Opens block)
    (blank : ∀ cs, read (' ' :: cs) = read cs) (closes : close = ']' ∨ close = '\x7d') (enough : blocks.length ≤ fuel) :
    readBracketed close read fuel (listed blocks ++ close :: rest) = some (vs, rest) := by
  cases blocks with
  | nil =>
    cases elements
    rcases closes with rfl | rfl <;> rfl
  | cons block others =>
    have many : readMany close read fuel (listed (block :: others) ++ close :: rest) = some (vs, rest) :=
      manyRead elements (List.cons_ne_nil _ _) blank closes enough
    obtain ⟨c, _, rfl, visible, other⟩ := opens block List.mem_cons_self
    obtain ⟨more, shape⟩ := @listedFront _ others
    rw [shape, List.cons_append, List.cons_append] at many ⊢
    have bare (cs : List Char) : skip (c :: cs) = c :: cs := by simp [skip, visible]
    have apart : c ≠ close := by
      rintro rfl
      rcases closes with rfl | rfl <;> simp at other
    rw [readBracketed, bare]
    exact (if_neg apart).trans many

structure Written (read : Nat → List Char → Option (α × List Char)) (cs : List Char) (v : α) : Prop where
  opens : Opens cs
  ascii : ∀ c ∈ cs, c.toNat < 128
  gives : ∀ fuel, (guardClosing cs).length < fuel → Gives (read fuel) (guardClosing cs) v

theorem opensGuarded (h : Opens cs) : Opens (guardClosing cs) := by
  obtain ⟨c, more, rfl, visible, other⟩ := h
  obtain ⟨tail, shape⟩ := List.head?_eq_some_iff.mp (@guardedHead (c :: more))
  exact ⟨c, tail, shape, visible, other⟩

theorem opensApart (h : Opens cs) : cs.head? ≠ some '/' := by
  obtain ⟨c, more, rfl, _, other⟩ := h
  intro slash
  rw [Option.some.inj slash] at other
  exact other List.mem_cons_self

variable {read : Nat → List Char → Option (α × List Char)} {texts : List String}

theorem writtenEach (h : List.Forall₂ (fun t v => Written read t.toList v) texts vs) :
    ∀ t ∈ texts, Opens t.toList ∧ ∀ c ∈ t.toList, c.toNat < 128 := by
  induction h with
  | nil => simp
  | cons first _ ih => exact List.forall_mem_cons.mpr ⟨⟨first.opens, first.ascii⟩, ih⟩

theorem writtenMany (h : List.Forall₂ (fun t v => Written read t.toList v) texts vs)
    (blank : ∀ fuel cs, read fuel (' ' :: cs) = read fuel cs) (closes : close = ']' ∨ close = '\x7d')
    (room : (guardClosing (", ".intercalate texts).toList).length < fuel) :
    readBracketed close (read fuel) fuel (guardClosing (", ".intercalate texts).toList ++ close :: rest) =
      some (vs, rest) := by
  have apart : ∀ block ∈ texts.map String.toList, block.head? ≠ some '/' := by
    intro block mem
    obtain ⟨t, known, rfl⟩ := List.mem_map.mp mem
    exact opensApart (writtenEach h t known).1
  rw [listedText, guardListed apart, List.map_map] at room ⊢
  have count := @listedCount (texts.map (guardClosing ∘ String.toList))
  refine bracketedRead ?_ ?_ (blank fuel) closes (by omega)
  · have short : ∀ t ∈ texts, (guardClosing t.toList).length < fuel := fun t mem =>
      Nat.lt_of_le_of_lt (listedLength (List.mem_map_of_mem (f := guardClosing ∘ String.toList) mem)) room
    rw [List.forall₂_map_left_iff]
    exact ((List.forall₂_and_left texts vs).mpr ⟨short, h⟩).imp fun t v both => both.2.gives fuel both.1
  · intro block mem
    obtain ⟨t, known, rfl⟩ := List.mem_map.mp mem
    exact opensGuarded (writtenEach h t known).1

theorem asciiMany (h : List.Forall₂ (fun t v => Written read t.toList v) texts vs) :
    ∀ c ∈ (", ".intercalate texts).toList, c.toNat < 128 := by
  intro c mem
  rw [listedText] at mem
  rcases listedChars mem with rfl | rfl | ⟨block, mem, inside⟩
  · decide
  · decide
  · obtain ⟨t, known, rfl⟩ := List.mem_map.mp mem
    exact (writtenEach h t known).2 c inside

end Lists

section Literals

variable {cs : List Char} {fuel : Nat} {d : Data}

theorem valueBlank : readValue fuel (' ' :: cs) = readValue fuel cs := by cases fuel <;> rfl

theorem entryBlank : readEntry (readValue fuel) (' ' :: cs) = readEntry (readValue fuel) cs := rfl

theorem writtenPlain (opens : Opens cs) (bare : ∀ c ∈ cs.head?, c ≠ '"' ∧ c ≠ '[' ∧ c ≠ '\x7b')
    (clear : '<' ∉ cs) (ascii : ∀ c ∈ cs, c.toNat < 128) (plain : Gives readPlain cs d) : Written readValue cs d where
  opens := opens
  ascii := ascii
  gives fuel room rest parting := by
    obtain _ | fuel := fuel
    · cases room
    obtain ⟨c, more, rfl, visible, _⟩ := opens
    obtain ⟨quote, square, curly⟩ := bare c rfl
    have front : skip (c :: more ++ rest) = c :: more ++ rest := by simp [skip, visible]
    rw [guardPlain clear, readValue, front, ← plain rest parting]
    split
    · next same => exact absurd (List.cons.inj same).1 quote
    · next same => exact absurd (List.cons.inj same).1 square
    · next same => exact absurd (List.cons.inj same).1 curly
    · rfl

theorem writtenWord {word : String} (h : (word, d) ∈ words) : Written readValue word.toList d := by
  have gives : Gives readPlain word.toList d := by
    simp only [words, List.mem_cons, Prod.mk.injEq, List.not_mem_nil, or_false] at h
    rcases h with ⟨rfl, rfl⟩ | ⟨rfl, rfl⟩ | ⟨rfl, rfl⟩ <;> exact fun rest _ => rfl
  simp only [words, List.mem_cons, Prod.mk.injEq, List.not_mem_nil, or_false] at h
  rcases h with ⟨rfl, rfl⟩ | ⟨rfl, rfl⟩ | ⟨rfl, rfl⟩ <;>
    exact writtenPlain ⟨_, _, rfl, by decide, by decide⟩ (by simp) (by simp) (by simp) gives

theorem numberChars {n : Int} : ∀ c ∈ (toString n).toList, c = '-' ∨ c.isDigit := by
  intro c mem
  rw [wholeText] at mem
  split at mem
  · exact (List.mem_cons.mp mem).imp_right (Outline.digitsWritten c)
  · exact .inr (Outline.digitsWritten c mem)

theorem numberRead {n : Int} : Gives readNumber (toString n).toList (.number n 0) := by
  intro rest parting
  rw [wholeText]
  split
  · next negative =>
    have whole : (-1 : Int) * n.natAbs = n := by omega
    rw [List.cons_append, readNumber, magnitudeRead parting, whole]
  · next positive =>
    have whole : (1 : Int) * n.natAbs = n := by omega
    obtain ⟨d, ds, digits⟩ := List.exists_cons_of_ne_nil (l := (toString n.natAbs).toList) (by simp)
    have digit : d.isDigit := Outline.digitsWritten d (digits ▸ List.mem_cons_self)
    have read := @magnitudeRead rest n.natAbs 1 parting
    rw [whole, digits] at read
    rw [digits, List.cons_append, readNumber]
    · exact read
    · rintro more same
      rw [(List.cons.inj same).1] at digit
      exact absurd digit (by decide)

theorem digitAscii {c : Char} (digit : c.isDigit) : c.toNat < 128 := by
  simp only [Char.isDigit, Bool.and_eq_true, decide_eq_true_eq, UInt32.le_iff_toNat_le] at digit
  exact Nat.lt_of_le_of_lt digit.2 (by decide)

theorem writtenNumber {n : Int} : Written readValue (toString n).toList (.number n 0) := by
  obtain ⟨c, more, shape⟩ := List.exists_cons_of_ne_nil (l := (toString n).toList) (by rw [wholeText]; split <;> simp)
  have other {c d : Char} (mem : c ∈ (toString n).toList) (apart : d ≠ '-' ∧ d.isDigit = false) : c ≠ d := by
    rintro rfl
    rcases numberChars c mem with same | same
    · exact apart.1 same
    · rw [apart.2] at same
      cases same
  have first {d : Char} : d ≠ '-' ∧ d.isDigit = false → c ≠ d := other (shape ▸ List.mem_cons_self)
  have visible : isBlank c = false := by
    simp [isBlank, first (d := ' ') (by decide), first (d := '\t') (by decide), first (d := '\n') (by decide),
      first (d := '\r') (by decide)]
  have inner : c ∉ ['/', ']', '\x7d'] := by
    simp [first (d := '/') (by decide), first (d := ']') (by decide), first (d := '\x7d') (by decide)]
  have bare : ∀ c ∈ (toString n).toList.head?, c ≠ '"' ∧ c ≠ '[' ∧ c ≠ '\x7b' := by
    rw [shape]
    rintro _ ⟨⟩
    exact ⟨first (by decide), first (by decide), first (by decide)⟩
  have clear : '<' ∉ (toString n).toList := fun mem => other mem (d := '<') (by decide) rfl
  have ascii : ∀ c ∈ (toString n).toList, c.toNat < 128 := by
    intro c mem
    rcases numberChars c mem with rfl | digit
    · decide
    · exact digitAscii digit
  have gives : Gives readPlain (toString n).toList (.number n 0) := by
    intro rest parting
    have none : words.find? (·.1.toList.isPrefixOf ((toString n).toList ++ rest)) = none := by
      rw [shape]
      simp [words, List.isPrefixOf, (first (d := 'n') (by decide)).symm, (first (d := 't') (by decide)).symm,
        (first (d := 'f') (by decide)).symm]
    rw [readPlain, none]
    exact numberRead rest parting
  exact writtenPlain ⟨c, more, shape, visible, inner⟩ bare clear ascii gives

theorem writtenText {s : String} : Written readValue (Value.encodeText s).toList (.text s) where
  opens := ⟨'"', _, String.toList_ofList, by decide, by decide⟩
  ascii c mem := (encodedPrinted c (String.toList_ofList ▸ mem)).2
  gives fuel room rest _ := by
    obtain _ | fuel := fuel
    · cases room
    obtain ⟨body, written, read⟩ := @quotedRead s
    have guarded : guardClosing (Value.encodeText s).toList = '"' :: body := by
      rw [← written, Value.encodeText, jsString, String.toList_ofList, String.toList_ofList]
    rw [guarded]
    show ((readText (body ++ rest)).map fun (s, rest) => (Data.text s, rest)) = _
    rw [read]
    rfl

theorem writtenEntry {key value : String} (h : Written readValue value.toList d) :
    Written (fun fuel => readEntry (readValue fuel)) (Value.encodeText key ++ ": " ++ value).toList (key, d) := by
  have shape : (Value.encodeText key ++ ": " ++ value).toList = encode key.toList ++ (':' :: ' ' :: value.toList) := by
    simp [Value.encodeText]
  obtain ⟨body, written, read⟩ := @quotedRead key
  have behind : guardClosing (':' :: ' ' :: value.toList) = ':' :: ' ' :: guardClosing value.toList :=
    @guardBlock [':', ' '] _ (by decide)
  have guarded : guardClosing (Value.encodeText key ++ ": " ++ value).toList =
      '"' :: (body ++ (':' :: ' ' :: guardClosing value.toList)) := by
    rw [shape, guardAppend (by simp), behind, ← List.cons_append, ← written, jsString, String.toList_ofList]
  refine ⟨⟨'"', _, shape, by decide, by decide⟩, fun c mem => ?_, fun fuel room rest parting => ?_⟩
  · simp only [shape, List.mem_append, List.mem_cons] at mem
    rcases mem with mem | rfl | rfl | mem
    · exact (encodedPrinted c mem).2
    · decide
    · decide
    · exact h.ascii c mem
  · rw [guarded] at room ⊢
    have inner : (guardClosing value.toList).length < fuel := by
      simp only [List.length_cons, List.length_append] at room
      omega
    rw [List.cons_append, List.append_assoc]
    show ((readText (body ++ _)).bind _) = _
    rw [read]
    show ((readValue fuel (' ' :: (guardClosing value.toList ++ rest))).map fun (v, rest) => ((key, v), rest)) = _
    rw [valueBlank, h.gives fuel inner rest parting]
    rfl

section Brackets

variable {α : Type} {vs : List α} {texts : List String} {o close : Char} {read : Nat → List Char → Option (α × List Char)}
  {wrap : List α → Data}

theorem writtenBracketed (h : List.Forall₂ (fun t v => Written read t.toList v) texts vs)
    (blank : ∀ fuel cs, read fuel (' ' :: cs) = read fuel cs) (closes : close = ']' ∨ close = '\x7d')
    (bracket : o = '[' ∨ o = '\x7b')
    (reads : ∀ fuel cs, readValue (fuel + 1) (o :: cs) =
      (readBracketed close (read fuel) fuel cs).map fun (vs, rest) => (wrap vs, rest)) :
    Written readValue (o :: ((", ".intercalate texts).toList ++ [close])) (wrap vs) := by
  have last : guardClosing [close] = [close] := by
    rcases closes with rfl | rfl <;> rfl
  have slash : [close].head? ≠ some '/' := by
    rcases closes with rfl | rfl <;> decide
  have guarded : guardClosing (o :: ((", ".intercalate texts).toList ++ [close])) =
      o :: (guardClosing (", ".intercalate texts).toList ++ [close]) := by
    have front := @guardBlock [o] ((", ".intercalate texts).toList ++ [close]) (by rcases bracket with rfl | rfl <;> decide)
    rwa [guardAppend slash, last] at front
  refine ⟨⟨o, _, rfl, ?_⟩, fun c mem => ?_, fun fuel room rest parting => ?_⟩
  · rcases bracket with rfl | rfl <;> decide
  · simp only [List.mem_cons, List.mem_append, List.not_mem_nil, or_false] at mem
    rcases mem with rfl | mem | rfl
    · rcases bracket with rfl | rfl <;> decide
    · exact asciiMany h c mem
    · rcases closes with rfl | rfl <;> decide
  · rw [guarded] at room ⊢
    obtain _ | fuel := fuel
    · cases room
    have inner : (guardClosing (", ".intercalate texts).toList).length < fuel := by
      simp only [List.length_cons, List.length_append, List.length_nil] at room
      omega
    rw [List.cons_append, List.append_assoc, reads, List.singleton_append, writtenMany h blank closes inner]
    rfl

end Brackets

end Literals

section Values
open Value

mutual

theorem writtenValue : (v : Value) → {d : Data} → v.data? = some d →
    ∃ s, v.literal = .ok s ∧ Written readValue s.toList d
  | .none, _, h => by
    cases h
    exact ⟨"null", rfl, writtenWord (by simp [words])⟩
  | .truth b, _, h => by
    cases h
    cases b
    · exact ⟨"false", rfl, writtenWord (by simp [words])⟩
    · exact ⟨"true", rfl, writtenWord (by simp [words])⟩
  | .whole n, _, h => by
    obtain ⟨short, ⟨⟩⟩ := Option.ite_none_right_eq_some.mp h
    exact ⟨toString n, if_pos short, writtenNumber⟩
  | .text s, _, h => by
    cases h
    exact ⟨encodeText s, rfl, writtenText⟩
  | .list items, _, h | .tuple items, _, h => by
    obtain ⟨ds, data, rfl⟩ := Option.map_eq_some_iff.mp h
    obtain ⟨texts, literal, written⟩ := writtenAll items data
    refine ⟨"[" ++ ", ".intercalate texts ++ "]", by rw [Value.literal, literal]; rfl, ?_⟩
    rw [String.toList_append, String.toList_append, List.append_assoc]
    exact writtenBracketed written (fun _ _ => valueBlank) (.inl rfl) (.inl rfl) fun _ _ => rfl
  | .dict entries, _, h => by
    obtain ⟨ds, data, rfl⟩ := Option.map_eq_some_iff.mp h
    obtain ⟨texts, literal, written⟩ := writtenEntries entries data
    refine ⟨"\x7b" ++ ", ".intercalate texts ++ "\x7d", by rw [Value.literal, literal]; rfl, ?_⟩
    rw [String.toList_append, String.toList_append, List.append_assoc]
    exact writtenBracketed written (fun _ _ => entryBlank) (.inr rfl) (.inr rfl) fun _ _ => rfl
  | .real _, _, h | .bytes _, _, h | .generator _, _, h | .set _, _, h | .markup _, _, h | .rendered .., _, h
  | .safe _, _, h | .object _, _, h | .promise .., _, h | .component _, _, h => by cases h

theorem writtenAll : (vs : List Value) → {ds : List Data} → dataAll? vs = some ds →
    ∃ texts, literals vs = .ok texts ∧ List.Forall₂ (fun t d => Written readValue t.toList d) texts ds
  | [], _, h => by
    cases h
    exact ⟨[], rfl, .nil⟩
  | v :: rest, _, h => by
    obtain ⟨d, first, h⟩ := Option.bind_eq_some_iff.mp h
    obtain ⟨ds, others, rfl⟩ := Option.map_eq_some_iff.mp h
    obtain ⟨s, literal, written⟩ := writtenValue v first
    obtain ⟨texts, literals', more⟩ := writtenAll rest others
    exact ⟨s :: texts, by rw [literals, literal, literals']; rfl, .cons written more⟩

theorem writtenEntries : (entries : List (Value × Value)) → {ds : List (String × Data)} →
    dataEntries? entries = some ds → ∃ texts, entryLiterals entries = .ok texts ∧
      List.Forall₂ (fun t e => Written (fun fuel => readEntry (readValue fuel)) t.toList e) texts ds
  | [], _, h => by
    cases h
    exact ⟨[], rfl, .nil⟩
  | (.text key, v) :: rest, _, h => by
    obtain ⟨d, first, h⟩ := Option.bind_eq_some_iff.mp h
    obtain ⟨ds, others, rfl⟩ := Option.map_eq_some_iff.mp h
    obtain ⟨s, literal, written⟩ := writtenValue v first
    obtain ⟨texts, literals', more⟩ := writtenEntries rest others
    exact ⟨(encodeText key ++ ": " ++ s) :: texts, by rw [entryLiterals, keyText, literal, literals']; rfl,
      .cons (writtenEntry written) more⟩

end

end Values

section Fields

variable {cs : List Char} {d : Data}

theorem writtenRead (h : Written readValue cs d) : readJson (guardClosing cs) = some d := by
  have read := h.gives _ (Nat.lt_succ_self _) [] (by simp [Parting])
  rw [List.append_nil] at read
  rw [readJson, read]
  rfl

/-- What a guarded literal is good for: it ends no script element, it is the same in every encoding, and JSON reads the
data from it. -/
structure Faithful (literal : String) (d : Data) : Prop where
  unclosed : ¬"</".toList <:+: literal.toList
  ascii : ∀ c ∈ literal.toList, c.toNat < 128
  read : readJson literal.toList = some d

theorem faithfulOf (h : Written readValue cs d) : Faithful (String.ofList (guardClosing cs)) d where
  unclosed := unclosingApart (String.toList_ofList ▸ unclosingGuarded)
  ascii c mem := by
    rw [String.toList_ofList] at mem
    rcases guardedChars c mem with mem | rfl
    · exact h.ascii c mem
    · decide
  read := by rw [String.toList_ofList, writtenRead h]

/-- A field that holds data starts with a literal of the data, and a text is quoted as a literal of the text. -/
theorem literalsFaithful : (∀ (c : Component) (name : String) (v : Value) (d : Data), isVariable name →
      c.get? name = some v → v.data? = some d → ∃ literal, fieldLiteral c name = .ok literal ∧ Faithful literal d) ∧
    ∀ s, Faithful (jsString s) (.text s) := by
  constructor
  · intro c name v d variable' held data
    obtain ⟨s, literal, written⟩ := writtenValue v data
    refine ⟨String.ofList (guardClosing s.toList), ?_, faithfulOf written⟩
    simp [fieldLiteral, variable', held, literal]
  · intro s
    have faithful := faithfulOf (@writtenText s)
    rwa [Value.encodeText, String.toList_ofList] at faithful

theorem cartFaithful : ∃ literal,
    fieldLiteral (Component.ofFields "Shop" [("cart", .tuple [.text "</script>", .dict [(.text "é", .whole (-3))], .none])])
        "cart" = .ok literal ∧
      Faithful literal (.list [.text "</script>", .object [("é", .number (-3) 0)], .null]) :=
  literalsFaithful.1 _ _ _ _ (by decide) rfl rfl

example : readJson "[1.5e-3, -0, \"\\ud83d\\ude00\"]".toList =
    some (.list [.number 15 (-4), .number 0 0, .text "😀"]) := by cbv

example : (readJson "[01]".toList).isNone := by decide

end Fields

end Data

end LiveMarkup
