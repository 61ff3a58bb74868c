import LiveMarkup.Proofs.Client.Balanced
import LiveMarkup.Proofs.Client.Evaluate
import LiveMarkup.Syntax.Lexer
/-! Formatted texts and the template literals that they are printed as. A browser reads the literal as the text that
the formatted text stands for, unless that holds a carriage return or an interpolation has a conversion. -/
namespace LiveMarkup.Client
open Syntax Text Json Outline

structure TemplateLiteral where
  head : List Nat
  spans : List (String × List Nat)
  deriving DecidableEq, Repr

namespace TemplateLiteral

def behind (content : List Nat) (t : TemplateLiteral) : TemplateLiteral := { t with head := content ++ t.head }

def fill (source : String) (t : TemplateLiteral) : TemplateLiteral := ⟨[], (source, t.head) :: t.spans⟩

def value (t : TemplateLiteral) (values : List (List Nat)) : List Nat :=
  t.head ++ (List.zipWith (fun span v => v ++ span.2) t.spans values).flatten

section Reading

def pointUnits (n : Nat) : List Nat :=
  if n < 0x10000 then [n] else [0xd800 + (n - 0x10000) / 0x400, 0xdc00 + (n - 0x10000) % 0x400]

def single? (c : Char) : Option Nat :=
  if c = 'n' then some 10 else if c = 't' then some 9 else if c = 'r' then some 13 else if c = 'b' then some 8
  else if c = 'f' then some 12 else if c = 'v' then some 11 else none

def readEscape : List Char → Option (List Nat × List Char)
  | [] => none
  | 'x' :: a :: b :: rest => (readUnit? [a, b]).map fun u => ([u], rest)
  | 'u' :: '\x7b' :: rest =>
    match rest.dropWhile fun c => (hexValue? c).isSome with
    | '\x7d' :: after =>
      let digits := rest.takeWhile fun c => (hexValue? c).isSome
      (readUnit? digits).bind fun n => if digits ≠ [] ∧ n < 0x110000 then some (pointUnits n, after) else none
    | _ => none
  | 'u' :: a :: b :: c :: d :: rest => (readUnit? [a, b, c, d]).map fun u => ([u], rest)
  | '\r' :: '\n' :: rest => some ([], rest)
  | c :: rest =>
    if c = '\n' ∨ c = '\r' ∨ c = '\u2028' ∨ c = '\u2029' then some ([], rest)
    else if c = '0' then if rest.head?.any Char.isDigit then none else some ([0], rest)
    else if c.isDigit ∨ c = 'x' ∨ c = 'u' then none
    else some ((single? c).elim (units c) ([·]), rest)

def readSource (p : Outline.Cursor) : List Char → Option (List Char × List Char)
  | [] => none
  | c :: rest =>
    match p.step c with
    | none => none
    | some q => if q.frames = [] then some ([], rest) else (readSource q rest).map fun (s, after) => (c :: s, after)

def inSource : Outline.Cursor := ⟨[.bracket '\x7d'], .other, false⟩

def readBody : List Char → Option TemplateLiteral
  | [] => none
  | '\x60' :: rest => if rest.isEmpty then some ⟨[], []⟩ else none
  | '$' :: '\x7b' :: rest =>
    match readSource inSource rest with
    | some (source, after) =>
      if after.length ≤ rest.length then (readBody after).map (fill (String.ofList source)) else none
    | none => none
  | '\\' :: rest =>
    match readEscape rest with
    | some (content, after) => if after.length ≤ rest.length then (readBody after).map (behind content) else none
    | none => none
  | '\r' :: '\n' :: rest => (readBody rest).map (behind [10])
  | c :: rest => (readBody rest).map (behind (if c = '\r' then [10] else units c))
termination_by cs => cs.length

def read (text : String) : Option TemplateLiteral :=
  match text.toList with
  | '\x60' :: rest => readBody rest
  | _ => none

end Reading

section Texts

variable {c : Char} {a b cs rest : List Char} {t : TemplateLiteral}

theorem bodyEscape (plain : c = '\\' ∨ c = '\x60' ∨ c = '$' ∨ c = '/') :
    readBody ('\\' :: c :: rest) = (readBody rest).map (behind (units c)) := by
  have escape : readEscape (c :: rest) = some (units c, rest) := by
    rcases plain with rfl | rfl | rfl | rfl <;> rfl
  rw [readBody, escape]
  simp

theorem bodySame (plain : c ≠ '\\' ∧ c ≠ '\x60' ∧ c ≠ '\r') (apart : c = '$' → rest.head? ≠ some '\x7b') :
    readBody (c :: rest) = (readBody rest).map (behind (units c)) := by
  obtain ⟨slash, tick, back⟩ := plain
  rw [readBody, if_neg back]
  · exact fun is => tick is
  · rintro more is rfl
    exact apart is rfl
  · exact fun is => slash is
  · exact fun _ is _ => back is

theorem bodyBreak : readBody ('\r' :: rest) =
    if rest.head? = some '\n' then readBody rest else (readBody rest).map (behind [10]) := by
  split
  · next feed =>
    obtain ⟨more, rfl⟩ := List.head?_eq_some_iff.mp feed
    rw [readBody, bodySame (c := '\n') (by decide) (absurd · (by decide))]
    rfl
  · next other =>
    rw [readBody, if_pos rfl]
    · decide
    · rintro _ is
      exact absurd is (by decide)
    · decide
    · rintro more _ rfl
      exact other rfl

def block (c : Char) (next : Option Char) : List Char :=
  if c = '\\' ∨ c = '\x60' then ['\\', c]
  else if c = '$' ∧ next = some '\x7b' then ['\\', '$']
  else if c = '<' ∧ next = some '/' then ['<', '\\']
  else [c]

open escapeTemplate in
theorem substitutionHead : (guardSubstitution cs).head? = some '/' ↔ cs.head? = some '/' := by
  fun_cases guardSubstitution cs <;> simp

open escapeTemplate in
theorem slashHead : (cs.flatMap escapeTemplate.escapeChar).head? = some '/' ↔ cs.head? = some '/' := by
  cases cs with
  | nil => rfl
  | cons c rest =>
    rw [List.flatMap_cons, escapeTemplate.escapeChar]
    split_ifs with slash tick <;> simp_all

theorem guardsOther (apart : c = '<' → cs.head? ≠ some '/') : guardClosing (c :: cs) = c :: guardClosing cs := by
  rw [guardClosing]
  rintro more is rfl
  exact apart is rfl

open escapeTemplate in
theorem escapedCons : escapeTemplate (c :: cs) = block c cs.head? ++ escapeTemplate cs := by
  unfold escapeTemplate block
  split
  · next special =>
    have escaped : (c :: cs).flatMap escapeTemplate.escapeChar = '\\' :: c :: cs.flatMap escapeTemplate.escapeChar := by
      rcases special with rfl | rfl <;> rfl
    have plain : c ≠ '$' ∧ c ≠ '<' := by
      rcases special with rfl | rfl <;> decide
    rw [escaped, guardsApart (absurd · (by decide)), guardsApart (absurd · plain.1), guardsOther (absurd · (by decide)),
      guardsOther (absurd · plain.2)]
    rfl
  next plain =>
  have escaped : (c :: cs).flatMap escapeTemplate.escapeChar = c :: cs.flatMap escapeTemplate.escapeChar := by
    have kept : escapeTemplate.escapeChar c = [c] := by simp [escapeTemplate.escapeChar, not_or.mp plain]
    rw [List.flatMap_cons, kept]
    rfl
  split
  · next opening =>
    obtain ⟨rfl, next⟩ := opening
    obtain ⟨more, rfl⟩ := List.head?_eq_some_iff.mp next
    rfl
  next apart =>
  have guarded : guardSubstitution (c :: cs.flatMap escapeTemplate.escapeChar) =
      c :: guardSubstitution (cs.flatMap escapeTemplate.escapeChar) :=
    guardsApart fun dollar => mt escapedHead.mp fun next => apart ⟨dollar, next⟩
  rw [escaped, guarded]
  split
  · next closing =>
    obtain ⟨rfl, next⟩ := closing
    obtain ⟨more, rfl⟩ := List.head?_eq_some_iff.mp next
    rfl
  · next other =>
    exact guardsOther fun angle => mt (substitutionHead.trans slashHead).mp fun next => other ⟨angle, next⟩

theorem blockHead {next : Option Char} : (block c next).head? = some c ∨ (block c next).head? = some '\\' := by
  unfold block
  split_ifs with special opening closing
  · exact .inr rfl
  · exact .inr rfl
  · exact .inl (congrArg some closing.1.symm)
  · exact .inl rfl

def Beyond (rest : List Char) : Prop := ∀ d ∈ rest.head?, d = '\x60' ∨ d = '$'

theorem escapedFront (beyond : Beyond rest) (h : (escapeTemplate cs ++ rest).head? = some c)
    (plain : c ≠ '\\' ∧ c ≠ '\x60' ∧ c ≠ '$') : cs.head? = some c := by
  cases cs with
  | nil => exact ((beyond c h).elim plain.2.1 plain.2.2).elim
  | cons d more =>
    rw [escapedCons] at h
    rcases @blockHead d more.head? with front | front
    · simp [List.head?_append, front] at h ⊢
      exact h
    · simp [List.head?_append, front] at h
      exact (plain.1 h.symm).elim

theorem breaksCons (other : c ≠ '\r') : unifyBreaks (c :: cs) = c :: unifyBreaks cs := by
  rw [unifyBreaks]
  · exact fun _ is _ => other is
  · exact fun is => other is

theorem breaksReturn : unifyBreaks ('\r' :: cs) = if cs.head? = some '\n' then unifyBreaks cs else '\n' :: unifyBreaks cs := by
  split
  · next feed =>
    obtain ⟨more, rfl⟩ := List.head?_eq_some_iff.mp feed
    rfl
  · next other =>
    rw [unifyBreaks]
    rintro more rfl
    exact other rfl

theorem behindBehind {u v : List Nat} {r : Option TemplateLiteral} :
    (r.map (behind u)).map (behind v) = r.map (behind (v ++ u)) := by
  cases r <;> simp [behind]

theorem textRead (beyond : Beyond rest) :
    readBody (escapeTemplate cs ++ rest) = (readBody rest).map (behind ((unifyBreaks cs).flatMap units)) := by
  induction cs with
  | nil =>
    show readBody rest = (readBody rest).map id
    rw [Option.map_id, id]
  | cons c cs ih =>
    have one (other : c ≠ '\r') : (readBody (escapeTemplate cs ++ rest)).map (behind (units c)) =
        (readBody rest).map (behind ((unifyBreaks (c :: cs)).flatMap units)) := by
      rw [ih, behindBehind, breaksCons other, List.flatMap_cons]
    rw [escapedCons, List.append_assoc, block]
    split_ifs with special opening closing
    · have other : c ≠ '\r' := by
        rintro rfl
        exact absurd special (by decide)
      rw [List.cons_append, List.singleton_append, bodyEscape (special.imp_right .inl), one other]
    · obtain ⟨rfl, _⟩ := opening
      exact (bodyEscape (.inr (.inr (.inl rfl)))).trans (one (by decide))
    · obtain ⟨rfl, next⟩ := closing
      obtain ⟨more, rfl⟩ := List.head?_eq_some_iff.mp next
      have slash : escapeTemplate ('/' :: more) = '/' :: escapeTemplate more := escapedCons
      have guarded : readBody ('\\' :: (escapeTemplate ('/' :: more) ++ rest)) =
          readBody (escapeTemplate ('/' :: more) ++ rest) := by
        rw [slash, List.cons_append, bodyEscape (by decide), bodySame (by decide) (absurd · (by decide))]
      rw [← one (by decide), ← guarded]
      exact bodySame (by decide) (absurd · (by decide))
    · rw [List.singleton_append]
      by_cases back : c = '\r'
      · subst back
        rw [bodyBreak, breaksReturn]
        by_cases feed : cs.head? = some '\n'
        · have next : (escapeTemplate cs ++ rest).head? = some '\n' := by
            obtain ⟨more, rfl⟩ := List.head?_eq_some_iff.mp feed
            rw [escapedCons]
            rfl
          rw [if_pos next, if_pos feed, ih]
        · have next : (escapeTemplate cs ++ rest).head? ≠ some '\n' := fun next =>
            feed (escapedFront beyond next (by decide))
          rw [if_neg next, if_neg feed, ih, behindBehind]
          rfl
      · have plain : c ≠ '\\' ∧ c ≠ '\x60' ∧ c ≠ '\r' := ⟨fun is => special (.inl is), fun is => special (.inr is), back⟩
        have apart : c = '$' → (escapeTemplate cs ++ rest).head? ≠ some '\x7b' := fun dollar next =>
          opening ⟨dollar, escapedFront beyond next (by decide)⟩
        rw [bodySame plain apart, one back]

end Texts

section Sources

variable {p q : Outline.Cursor} {frames : List Frame} {last : Last} {c : Char} {cs rest : List Char} {l m : Bool}

def within (p : Outline.Cursor) (m : Bool) : Outline.Cursor := ⟨p.frames ++ [.bracket '\x7d'], p.last, m⟩

def Follow (a b : Option Outline.Cursor) : Prop := ∀ q, a = some q → ∃ m, b = some (within q m)

theorem followSame : Follow (some q) (some (within q m)) := by
  rintro _ ⟨⟩
  exact ⟨m, rfl⟩

theorem followNone {b : Option Outline.Cursor} : Follow none b := nofun

theorem followIf {P : Prop} [Decidable P] {a a' b b' : Option Outline.Cursor} (yes : Follow a a') (no : Follow b b') :
    Follow (if P then a else b) (if P then a' else b') := by
  split
  · exact yes
  · exact no

theorem signWithin : Follow (Cursor.atSign ⟨frames, last, l⟩ c) (Cursor.atSign ⟨frames ++ [.bracket '\x7d'], last, m⟩ c) :=
  followIf followSame (followIf followNone followSame)

theorem leaveWithin : Follow (Cursor.leave ⟨frames, last, l⟩ c) (Cursor.leave ⟨frames ++ [.bracket '\x7d'], last, m⟩ c) := by
  rcases frames with _ | ⟨⟨d⟩ | _ | _, outer⟩
  · exact followNone
  · exact followIf followSame followNone
  · exact followNone
  · exact followNone

theorem codeWithin : Follow (Cursor.inCode ⟨frames, last, l⟩ c) (Cursor.inCode ⟨frames ++ [.bracket '\x7d'], last, m⟩ c) := by
  refine followIf followSame (followIf followSame (followIf followSame (followIf leaveWithin (followIf signWithin ?_))))
  cases closing? c <;> exact followSame

theorem stepWithin : Follow (Cursor.step ⟨frames, last, l⟩ c) (Cursor.step ⟨frames ++ [.bracket '\x7d'], last, m⟩ c) := by
  rcases frames with _ | ⟨⟨d⟩ | ⟨single⟩ | _, outer⟩
  · exact codeWithin
  · exact codeWithin
  · exact followIf followSame (followIf followSame (followIf followSame followSame))
  · exact followIf followSame (followIf followSame (followIf followSame (followIf followSame followSame)))

theorem sourceWithin (h : p.read cs = some q) (closed : q.frames = []) :
    readSource (within p m) (cs ++ '\x7d' :: rest) = some (cs, rest) := by
  induction cs generalizing p m with
  | nil =>
    obtain rfl : p = q := Option.some.inj h
    obtain ⟨frames, last, loose⟩ := p
    cases closed
    rfl
  | cons c cs ih =>
    rw [Cursor.readCons] at h
    obtain ⟨p', step, h⟩ := Option.bind_eq_some_iff.mp h
    obtain ⟨m', inner⟩ := stepWithin (m := m) p' step
    have inside : (within p' m').frames ≠ [] := by simp [within]
    rw [List.cons_append, readSource, within, inner]
    simp only [if_neg inside, ih h, Option.map_some]

theorem sourceRead {x : Bool} (h : Reads cs x) : readSource inSource (cs ++ '\x7d' :: rest) = some (cs, rest) := by
  obtain ⟨last, read⟩ := h.read [] .outside false
  exact sourceWithin read rfl

theorem bodyValue {x : Bool} (h : Reads cs x) : readBody ('$' :: '\x7b' :: (cs ++ '\x7d' :: rest)) =
    (readBody rest).map (fill (String.ofList cs)) := by
  have shorter : rest.length ≤ (cs ++ '\x7d' :: rest).length := by
    simp only [List.length_append, List.length_cons]
    omega
  rw [readBody, sourceRead h]
  simp only [if_pos shorter]

end Sources

section Values

variable {t : TemplateLiteral} {u v : List Nat} {vs : List (List Nat)} {source : String}

theorem valueBehind : (t.behind u).value vs = u ++ t.value vs := List.append_assoc ..

theorem valueFill : (t.fill source).value (v :: vs) = v ++ t.value vs := by
  simp [value, fill]

end Values

end TemplateLiteral

open TemplateLiteral

section Parts

def interpolated : List Expr → List Expr
  | [] => []
  | .formatted value _ _ :: rest => value :: interpolated rest
  | _ :: rest => interpolated rest

def converted : Option Conversion → String → String
  | some .quoted, v => quoted v
  | some .ascii, v => Quoted.asciiOnly (quoted v)
  | _, v => v

def formattedText : List Expr → List String → String
  | .constant (.text t _) :: rest, values => t ++ formattedText rest values
  | .formatted _ conversion _ :: rest, v :: values => converted conversion v ++ formattedText rest values
  | _, _ => ""

def browserText : List Expr → List String → List Nat
  | .constant (.text t _) :: rest, values => (unifyBreaks t.toList).flatMap units ++ browserText rest values
  | .formatted _ _ _ :: rest, v :: values => unitsOf v ++ browserText rest values
  | _, _ => []

/-- Is a formatted text as its parts are written? No carriage return stands in it, and no conversion changes a value. -/
def Verbatim (parts : List Expr) : Prop :=
  (∀ t marked, .constant (.text t marked) ∈ parts → '\r' ∉ t.toList) ∧
    ∀ value conversion spec, .formatted value conversion spec ∈ parts →
      conversion ≠ some .quoted ∧ conversion ≠ some .ascii

variable {s : Scope} {parts : List Expr} {codes : List Code}

theorem partsBeyond (all : PrintsParts s parts codes) (other : startsText parts = false) :
    Beyond ((Code.concat codes).chars Mark.receiver ++ ['\x60']) := by
  cases all with
  | nil => exact fun d mem => .inl (by simpa [Code.concat, Code.chars] using mem.symm)
  | text tail => cases other
  | formatted head tail => exact fun d mem => .inr (by simpa [Code.concat, charsAppend, charsText] using mem.symm)

theorem partsRead (h : PrintsParts s parts codes) (ok : formedAll parts) (apart : textsApart parts) :
    ∃ t, readBody ((Code.concat codes).chars Mark.receiver ++ ['\x60']) = some t ∧
      List.Forall₂ (fun e span => print s e = .ok span.1) (interpolated parts) t.spans ∧
      ∀ values, values.length = (interpolated parts).length →
        t.value (values.map unitsOf) = browserText parts values := by
  induction parts generalizing codes with
  | nil =>
    cases h
    have written : (Code.concat []).chars Mark.receiver ++ ['\x60'] = ['\x60'] := by simp [Code.concat, Code.chars]
    refine ⟨⟨[], []⟩, by rw [written, readBody]; rfl, .nil, fun values none => ?_⟩
    obtain rfl := List.eq_nil_of_length_eq_zero none
    rfl
  | cons part rest ih =>
    obtain ⟨here, others⟩ := Bool.and_eq_true_iff.mp ok
    obtain ⟨next, later⟩ := Bool.and_eq_true_iff.mp apart
    cases h with
    | @text _ t _ _ _ tail =>
      simp only [Expr.text?, Option.isSome_some, Bool.true_and, Bool.not_eq_true'] at next
      obtain ⟨l, read, sources, value⟩ := ih tail others later
      refine ⟨l.behind ((unifyBreaks t.toList).flatMap units), ?_, sources, fun values count => ?_⟩
      · rw [Code.concat, charsAppend, charsText, String.toList_ofList, List.append_assoc,
          textRead (partsBeyond tail next), read]
        rfl
      · rw [valueBehind, value values count]
        rfl
    | @formatted _ _ _ _ c codes head tail =>
      obtain ⟨l, read, sources, value⟩ := ih tail others later
      obtain ⟨_, reads⟩ := (outlinedOf followsReceiver head here).balanced
      refine ⟨l.fill c.write, ?_, .cons ?_ sources, fun values count => ?_⟩
      · have written : (Code.concat (("$\x7b" ++ c ++ "\x7d") :: codes)).chars Mark.receiver ++ ['\x60'] =
            '$' :: '\x7b' :: (c.chars Mark.receiver ++ '\x7d' ::
              ((Code.concat codes).chars Mark.receiver ++ ['\x60'])) := by
          simp [Code.concat, charsAppend, charsText]
        rw [written, bodyValue reads, read, charsWrite, String.ofList_toList]
        rfl
      · rw [print, codeOf head]
        rfl
      · cases values with
        | nil => cases count
        | cons v values =>
          rw [List.map_cons, valueFill, value values (Nat.succ.inj count)]
          rfl

end Parts

section Lengths

variable {c : Char} {cs : List Char} {v w : String} {enc : Char → List Char} {conversion : Option Conversion}

theorem unitsAppend : unitsOf (v ++ w) = unitsOf v ++ unitsOf w := by
  rw [unitsOf, String.toList_append, List.flatMap_append]
  rfl

theorem unitsLength : 1 ≤ (units c).length ∧ (units c).length ≤ 2 := by
  unfold units
  split <;> simp

theorem unitsCount : cs.length ≤ (cs.flatMap units).length := by
  induction cs with
  | nil => exact Nat.zero_le _
  | cons c rest ih =>
    have one := (@unitsLength c).1
    rw [List.flatMap_cons, List.length_append, List.length_cons]
    omega

theorem encodedLonger (each : ∀ c, enc c = [c] ∨ 2 ≤ (enc c).length) :
    (cs.flatMap units).length ≤ ((cs.flatMap enc).flatMap units).length := by
  induction cs with
  | nil => exact Nat.le_refl _
  | cons c rest ih =>
    have first : (units c).length ≤ ((enc c).flatMap units).length := by
      rcases each c with same | long
      · simp [same]
      · exact (@unitsLength c).2.trans (long.trans unitsCount)
    rw [List.flatMap_cons, List.flatMap_cons, List.flatMap_append, List.length_append, List.length_append]
    omega

theorem codeLength : 2 ≤ (Quoted.escapeCode c).length := by
  unfold Quoted.escapeCode
  split_ifs <;> simp

theorem quotedLonger : (unitsOf v).length < (unitsOf (quoted v)).length := by
  have each (quote c : Char) : Quoted.escapeChar quote c = [c] ∨ 2 ≤ (Quoted.escapeChar quote c).length := by
    unfold Quoted.escapeChar
    split_ifs
    · exact .inr (Nat.le_refl 2)
    · exact .inr (Nat.le_refl 2)
    · exact .inr (Nat.le_refl 2)
    · exact .inr (Nat.le_refl 2)
    · exact .inl rfl
    · exact .inr codeLength
  have inner := @encodedLonger v.toList _ (each (Quoted.quoteFor v.toList))
  have quote := (@unitsLength (Quoted.quoteFor v.toList)).1
  rw [unitsOf, unitsOf, quoted, String.toList_ofList, Quoted.encode]
  simp only [List.cons_append, List.flatMap_cons, List.flatMap_append, List.flatMap_nil, List.append_nil,
    List.length_append]
  omega

theorem asciiLonger : (unitsOf v).length ≤ (unitsOf (Quoted.asciiOnly v)).length := by
  have each (c : Char) : (if c.toNat < 128 then [c] else Quoted.escapeCode c) = [c] ∨
      2 ≤ (if c.toNat < 128 then [c] else Quoted.escapeCode c).length := by
    split
    · exact .inl rfl
    · exact .inr codeLength
  rw [unitsOf, unitsOf, Quoted.asciiOnly, String.toList_ofList]
  exact encodedLonger each

theorem convertedSame : (unitsOf v).length ≤ (unitsOf (converted conversion v)).length ∧
    (unitsOf v = unitsOf (converted conversion v) ↔ conversion ≠ some .quoted ∧ conversion ≠ some .ascii) := by
  have longer {w : String} (h : (unitsOf v).length < (unitsOf w).length) : unitsOf v ≠ unitsOf w := fun same =>
    Nat.ne_of_lt h (congrArg List.length same)
  have ascii : (unitsOf v).length < (unitsOf (Quoted.asciiOnly (quoted v))).length :=
    Nat.lt_of_lt_of_le quotedLonger asciiLonger
  rcases conversion with _ | _ | _ | _
  · simp [converted]
  · simp [converted]
  · exact ⟨Nat.le_of_lt quotedLonger, by simp [converted, longer quotedLonger]⟩
  · exact ⟨Nat.le_of_lt ascii, by simp [converted, longer ascii]⟩

theorem returnUnits : 13 ∈ units c ↔ c = '\r' := by
  constructor
  · intro mem
    unfold units at mem
    split at mem
    · have code : c.toNat = 13 := (List.mem_singleton.mp mem).symm
      rw [← Char.ofNat_toNat (c := c), code]
    · simp only [List.mem_cons, List.not_mem_nil, or_false] at mem
      omega
  · rintro rfl
    decide

theorem breaksClear : '\r' ∉ unifyBreaks cs := by
  fun_induction unifyBreaks cs <;> simp_all [eq_comm]

theorem breaksKept (clear : '\r' ∉ cs) : unifyBreaks cs = cs := by
  induction cs with
  | nil => rfl
  | cons c rest ih =>
    obtain ⟨first, tail⟩ := not_or.mp (mt List.mem_cons.mpr clear)
    rw [breaksCons (Ne.symm first), ih tail]

theorem breaksSame : ((unifyBreaks cs).flatMap units).length ≤ (cs.flatMap units).length ∧
    ((unifyBreaks cs).flatMap units = cs.flatMap units ↔ '\r' ∉ cs) := by
  refine ⟨?_, fun same mem => ?_, fun clear => by rw [breaksKept clear]⟩
  · fun_induction unifyBreaks cs with
    | case1 rest ih =>
      simp only [List.flatMap_cons, List.length_append]
      omega
    | case2 rest _ ih =>
      have feed : (units '\n').length = (units '\r').length := rfl
      simp only [List.flatMap_cons, List.length_append]
      omega
    | case3 c rest _ _ ih =>
      simp only [List.flatMap_cons, List.length_append]
      omega
    | case4 => exact Nat.le_refl _
  · have inside : 13 ∈ cs.flatMap units := List.mem_flatMap.mpr ⟨'\r', mem, by decide⟩
    rw [← same] at inside
    obtain ⟨c, mem, unit⟩ := List.mem_flatMap.mp inside
    exact breaksClear (returnUnits.mp unit ▸ mem)

theorem appendSame {a b x y : List Nat} (first : a.length ≤ b.length) (second : x.length ≤ y.length) :
    a ++ x = b ++ y ↔ a = b ∧ x = y := by
  constructor
  · intro same
    have total := congrArg List.length same
    simp only [List.length_append] at total
    exact List.append_inj same (by omega)
  · rintro ⟨rfl, rfl⟩
    rfl

end Lengths

section Printed

variable {s : Scope} {t text : String} {marked : Bool} {e : Expr} {conversion : Option Conversion} {spec : Option Expr}
  {parts rest : List Expr}

theorem verbatimText : Verbatim (.constant (.text t marked) :: rest) ↔ '\r' ∉ t.toList ∧ Verbatim rest := by
  unfold Verbatim
  constructor
  · rintro ⟨texts, values⟩
    exact ⟨texts t marked List.mem_cons_self, fun t marked mem => texts t marked (List.mem_cons_of_mem _ mem),
      fun value conversion spec mem => values value conversion spec (List.mem_cons_of_mem _ mem)⟩
  · rintro ⟨clear, texts, values⟩
    refine ⟨fun u marked' mem => ?_, fun value conversion spec mem => ?_⟩
    · rcases List.mem_cons.mp mem with same | mem
      · cases same
        exact clear
      · exact texts u marked' mem
    · exact values value conversion spec ((List.mem_cons.mp mem).resolve_left nofun)

theorem verbatimFormatted : Verbatim (.formatted e conversion spec :: rest) ↔
    (conversion ≠ some .quoted ∧ conversion ≠ some .ascii) ∧ Verbatim rest := by
  unfold Verbatim
  constructor
  · rintro ⟨texts, values⟩
    exact ⟨values e conversion spec List.mem_cons_self, fun t marked mem => texts t marked (List.mem_cons_of_mem _ mem),
      fun value conversion spec mem => values value conversion spec (List.mem_cons_of_mem _ mem)⟩
  · rintro ⟨plain, texts, values⟩
    refine ⟨fun u marked' mem => ?_, fun value conversion spec mem => ?_⟩
    · exact texts u marked' ((List.mem_cons.mp mem).resolve_left nofun)
    · rcases List.mem_cons.mp mem with same | mem
      · cases same
        exact plain
      · exact values value conversion spec mem

theorem browserSame {s parts codes values} : PrintsParts s parts codes → values.length = (interpolated parts).length →
    (browserText parts values).length ≤ (unitsOf (formattedText parts values)).length ∧
      (browserText parts values = unitsOf (formattedText parts values) ↔ Verbatim parts)
  | .nil, _ => ⟨Nat.zero_le _, by simp [browserText, formattedText, unitsOf, Verbatim]⟩
  | @PrintsParts.text _ t _ rest _ tail, count => by
    obtain ⟨later, same⟩ := browserSame tail count
    obtain ⟨first, kept⟩ := @breaksSame t.toList
    rw [browserText, formattedText, unitsAppend, verbatimText, ← kept, ← same]
    refine ⟨?_, appendSame first later⟩
    rw [List.length_append, List.length_append]
    exact Nat.add_le_add first later
  | @PrintsParts.formatted _ _ conversion rest _ _ _ tail, count => by
    obtain _ | ⟨v, values⟩ := values
    · cases count
    obtain ⟨later, same⟩ := browserSame tail (Nat.succ.inj count)
    obtain ⟨first, kept⟩ := @convertedSame v conversion
    rw [browserText, formattedText, unitsAppend, verbatimFormatted, ← kept, ← same]
    refine ⟨?_, appendSame first later⟩
    rw [List.length_append, List.length_append]
    exact Nat.add_le_add first later

/-- A formatted text is printed as a template literal that has the interpolated expressions for its sources. With
their values it is the same text in the browser if and only if it has no carriage return and no conversion that
quotes. -/
theorem formattedRead (ok : formed (.joined parts)) (printed : print s (.joined parts) = .ok text) :
    ∃ l, TemplateLiteral.read text = some l ∧
      List.Forall₂ (fun e span => print s e = .ok span.1) (interpolated parts) l.spans ∧
      ∀ values, values.length = (interpolated parts).length →
        (l.value (values.map unitsOf) = unitsOf (formattedText parts values) ↔ Verbatim parts) := by
  obtain ⟨c, coded, rfl⟩ := mapOk.mp printed
  cases printsOf _ coded with
  | joined all =>
    obtain ⟨inner, apart⟩ := Bool.and_eq_true_iff.mp ok
    obtain ⟨l, read, sources, value⟩ := partsRead all inner apart
    refine ⟨l, ?_, sources, fun values count => ?_⟩
    · rw [TemplateLiteral.read, ← charsWrite]
      exact read
    · rw [value values count]
      exact (browserSame all count).2

def label : List Expr :=
  [.constant (.text "</b> \\ $" false), .formatted (.field (.name "self") "price") (some .shown) none,
    .constant (.text "$\x7b\x60\n" false)]

theorem labelRead : ∃ l, TemplateLiteral.read "\x60<\\/b> \\\\ $$\x7bthis.price\x7d\\$\x7b\\\x60\n\x60" = some l ∧
    List.Forall₂ (fun e span => print {} e = .ok span.1) (interpolated label) l.spans ∧
    ∀ values, values.length = (interpolated label).length →
      (l.value (values.map unitsOf) = unitsOf (formattedText label values) ↔ Verbatim label) :=
  formattedRead (by decide) (by decide +kernel)

def torn : List Expr := [.constant (.text "a\rb" false)]

def shownQuoted : List Expr := [.formatted (.field (.name "self") "name") (some .quoted) none]

theorem formattedMisread :
    (∃ text l, print {} (.joined torn) = .ok text ∧ TemplateLiteral.read text = some l ∧
      l.value [] ≠ unitsOf (formattedText torn [])) ∧
    ∃ text l, print {} (.joined shownQuoted) = .ok text ∧ TemplateLiteral.read text = some l ∧
      l.value [unitsOf "Ada"] ≠ unitsOf (formattedText shownQuoted ["Ada"]) := by
  have source : readSource inSource "this.name\x7d\x60".toList = some ("this.name".toList, ['\x60']) := by decide +kernel
  have read : TemplateLiteral.read "\x60$\x7bthis.name\x7d\x60" = some ⟨[], [("this.name", [])]⟩ := by
    show readBody ('$' :: '\x7b' :: "this.name\x7d\x60".toList) = _
    rw [readBody, source]
    simp [readBody, fill]
  exact ⟨⟨"\x60a\rb\x60", ⟨[97, 10, 98], []⟩, by decide +kernel, by cbv, by decide +kernel⟩,
    ⟨"\x60$\x7bthis.name\x7d\x60", ⟨[], [("this.name", [])]⟩, by decide +kernel, read, by decide +kernel⟩⟩

end Printed

end LiveMarkup.Client
