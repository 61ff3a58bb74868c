import LiveMarkup.Proofs.Client.Closing
import LiveMarkup.Proofs.Client.Grammar
import LiveMarkup.Proofs.Client.Receiver
/-! The outline of code: its brackets, its texts and template literals, and whether an operator stands
outside of all of them. Pieces of printed code close what they open, so they read alike wherever they
stand. -/
namespace LiveMarkup.Client.Outline
open Text

inductive Frame where
  | bracket (closing : Char)
  | quote (single : Bool)
  | template
  deriving DecidableEq, Repr

inductive Last where
  | other
  | word
  | number
  | exponent
  | slash
  | escape
  | dollar
  deriving DecidableEq, Repr

structure Cursor where
  frames : List Frame
  last : Last
  loose : Bool
  deriving DecidableEq, Repr

section Reading

def isSign (c : Char) : Bool := "=?:&|<>!+-*/%^~".toList.contains c

def closing? (c : Char) : Option Char :=
  if c = '(' then some ')' else if c = '[' then some ']' else if c = '\x7b' then some '\x7d' else none

namespace Cursor

def start : Cursor := ⟨[], .other, false⟩

def goto (p : Cursor) (last : Last) : Cursor := { p with last }

def enter (p : Cursor) (f : Frame) : Cursor := { p with frames := f :: p.frames, last := .other }

def atSign (p : Cursor) (c : Char) : Option Cursor :=
  if p.last = .exponent ∧ (c = '+' ∨ c = '-') then some (p.goto .number)
  else if p.last = .slash ∧ (c = '/' ∨ c = '*') then none
  else some { p with last := if c = '/' then .slash else .other, loose := p.loose || p.frames.isEmpty }

def atWord (p : Cursor) (c : Char) : Cursor :=
  p.goto <|
    match p.last with
    | .word => .word
    | .number | .exponent => if c = 'e' ∨ c = 'E' then .exponent else .number
    | _ => if c.isDigit then .number else .word

def leave (p : Cursor) (c : Char) : Option Cursor :=
  match p.frames with
  | .bracket d :: rest => if c = d then some { p with frames := rest, last := .other } else none
  | _ => none

def inCode (p : Cursor) (c : Char) : Option Cursor :=
  if inWord c then some (p.atWord c)
  else if c = '"' ∨ c = '\'' then some (p.enter (.quote (c == '\'')))
  else if c = '\x60' then some (p.enter .template)
  else if c = ')' ∨ c = ']' ∨ c = '\x7d' then p.leave c
  else if isSign c then p.atSign c
  else
    match closing? c with
    | some d => some (p.enter (.bracket d))
    | none => some (p.goto (if c = '.' ∧ p.last = .number then .number else .other))

def step (p : Cursor) (c : Char) : Option Cursor :=
  match p.frames with
  | .quote single :: rest =>
    if p.last = .escape then some (p.goto .other)
    else if c = '\\' then some (p.goto .escape)
    else if c = (if single then '\'' else '"') then some { p with frames := rest, last := .other }
    else some (p.goto .other)
  | .template :: rest =>
    if p.last = .escape then some (p.goto .other)
    else if c = '\\' then some (p.goto .escape)
    else if c = '\x60' then some { p with frames := rest, last := .other }
    else if c = '\x7b' ∧ p.last = .dollar then some (p.enter (.bracket '\x7d'))
    else some (p.goto (if c = '$' then .dollar else .other))
  | _ => p.inCode c

def read (p : Cursor) (cs : List Char) : Option Cursor := cs.foldlM step p

theorem readAppend {p : Cursor} {a b : List Char} : p.read (a ++ b) = (p.read a).bind (·.read b) :=
  List.foldlM_append

theorem readCons {p : Cursor} {c : Char} {cs : List Char} : p.read (c :: cs) = (p.step c).bind (·.read cs) :=
  rfl

theorem stepAngle {p : Cursor} : ∃ q, p.step '<' = some q ∧ q.last = .other := by
  obtain ⟨frames, last, loose⟩ := p
  rcases frames with _ | ⟨⟨d⟩ | ⟨_ | _⟩ | _, rest⟩ <;> cases last <;> exact ⟨_, rfl, rfl⟩

theorem readSlash {q : Cursor} {cs : List Char} (h : q.last = .other) : q.read ('\\' :: '/' :: cs) = q.read ('/' :: cs) := by
  obtain ⟨frames, last, loose⟩ := q
  cases h
  rcases frames with _ | ⟨⟨d⟩ | ⟨_ | _⟩ | _, rest⟩ <;> rfl

theorem readGuarded {p : Cursor} {cs : List Char} : p.read (Json.guardClosing cs) = p.read cs := by
  fun_induction Json.guardClosing cs generalizing p with
  | case1 rest ih =>
    obtain ⟨q, angle, plain⟩ := @stepAngle p
    have guarded (cs : List Char) : p.read ('<' :: cs) = q.read cs := by
      rw [readCons, angle, Option.bind_some]
    rw [guarded, guarded, readSlash plain, readCons, readCons]
    simp only [ih]
  | case2 c rest plain ih => simp only [readCons, ih]
  | case3 => rfl

end Cursor

def operatorOutside? (code : String) : Option Bool :=
  (Cursor.start.read code.toList).bind fun p => if p.frames = [] then some p.loose else none

end Reading

section Pieces

inductive InCode : List Frame → Prop where
  | outside : InCode []
  | inside {d rest} : InCode (.bracket d :: rest)

structure Reads (cs : List Char) (loose : Bool) : Prop where
  inert : Inert cs
  read : ∀ frames, InCode frames → ∀ l, ∃ last,
    Cursor.read ⟨frames, .other, l⟩ cs = some ⟨frames, last, l || loose && frames.isEmpty⟩

structure Follows (cs : List Char) : Prop where
  inert : Inert cs
  read : ∀ frames, InCode frames → ∀ last l, ∃ last',
    Cursor.read ⟨frames, last, l⟩ cs = some ⟨frames, last', l⟩

structure Parts (cs : List Char) (loose : Bool) : Prop where
  inert : Inert cs
  read : ∀ frames, InCode frames → ∀ last l,
    Cursor.read ⟨frames, last, l⟩ cs = some ⟨frames, .other, l || loose && frames.isEmpty⟩

structure Leads (cs : List Char) (loose : Bool) : Prop where
  inert : Inert cs
  read : ∀ frames, InCode frames → ∀ l,
    Cursor.read ⟨frames, .other, l⟩ cs = some ⟨frames, .other, l || loose && frames.isEmpty⟩

structure Enters (cs : List Char) (d : Char) : Prop where
  inert : Inert cs
  read : ∀ frames, InCode frames → ∀ last l,
    Cursor.read ⟨frames, last, l⟩ cs = some ⟨.bracket d :: frames, .other, l⟩

variable {a b t : List Char} {x y z : Bool}

theorem readsOutside {code : String} (h : Reads code.toList x) : operatorOutside? code = some x := by
  obtain ⟨last, read⟩ := h.read [] .outside false
  rw [operatorOutside?, Cursor.start, read]
  simp

theorem readsNothing : Reads [] false where
  inert := inertNil
  read frames _ l := ⟨.other, by simp [Cursor.read]⟩

theorem readsFollowed (h : Reads a x) (behind : Follows b) : Reads (a ++ b) x where
  inert := inertAppend h.inert behind.inert
  read frames code l := by
    obtain ⟨last, read⟩ := h.read frames code l
    obtain ⟨last', read'⟩ := behind.read frames code last (l || x && frames.isEmpty)
    exact ⟨last', by rw [Cursor.readAppend, read, Option.bind_some, read']⟩

theorem followsAlone (h : Follows a) : Reads a false := readsFollowed readsNothing h

theorem followsAppend (h : Follows a) (behind : Follows b) : Follows (a ++ b) where
  inert := inertAppend h.inert behind.inert
  read frames code last l := by
    obtain ⟨last', read⟩ := h.read frames code last l
    obtain ⟨last'', read'⟩ := behind.read frames code last' l
    exact ⟨last'', by rw [Cursor.readAppend, read, Option.bind_some, read']⟩

theorem readsLed (front : Leads t y) (h : Reads b z) : Reads (t ++ b) (y || z) where
  inert := inertAppend front.inert h.inert
  read frames code l := by
    obtain ⟨last, read⟩ := h.read frames code (l || y && frames.isEmpty)
    refine ⟨last, ?_⟩
    rw [Cursor.readAppend, front.read frames code l, Option.bind_some, read, Bool.or_assoc, Bool.and_or_distrib_right]

theorem readsParted (first : Reads a x) (between : Parts t y) (second : Reads b z) :
    Reads (a ++ t ++ b) (x || y || z) where
  inert := inertAppend (inertAppend first.inert between.inert) second.inert
  read frames code l := by
    obtain ⟨last, read⟩ := first.read frames code l
    obtain ⟨last', read'⟩ := second.read frames code (l || x && frames.isEmpty || y && frames.isEmpty)
    refine ⟨last', ?_⟩
    rw [Cursor.readAppend, Cursor.readAppend, read, Option.bind_some, between.read frames code, Option.bind_some, read']
    simp only [Bool.or_assoc, Bool.and_or_distrib_right]

theorem entersBracket {o d : Char} (h : closing? o = some d) : Enters [o] d := by
  unfold closing? at h
  split_ifs at h with round square curly
  all_goals
    obtain rfl := Option.some.inj h
    subst o
    refine ⟨by decide, fun frames code last l => ?_⟩
    cases code <;> rfl

theorem entersBehind {d : Char} (front : Follows a) (h : Enters b d) : Enters (a ++ b) d where
  inert := inertAppend front.inert h.inert
  read frames code last l := by
    obtain ⟨last', read⟩ := front.read frames code last l
    rw [Cursor.readAppend, read, Option.bind_some, h.read frames code]

theorem followsClosed {d : Char} (opens : Enters a d) (closes : d = ')' ∨ d = ']' ∨ d = '\x7d') (h : Reads b x) :
    Follows (a ++ b ++ [d]) where
  inert := by
    refine inertAppend (inertAppend opens.inert h.inert) ?_
    rcases closes with rfl | rfl | rfl <;> decide
  read frames code last l := by
    obtain ⟨last', read⟩ := h.read (.bracket d :: frames) .inside l
    have inner : (l || x && (Frame.bracket d :: frames).isEmpty) = l := by simp
    have left : Cursor.step ⟨.bracket d :: frames, last', l⟩ d = some ⟨frames, .other, l⟩ := by
      rcases closes with rfl | rfl | rfl <;> rfl
    refine ⟨.other, ?_⟩
    rw [Cursor.readAppend, Cursor.readAppend, opens.read frames code, Option.bind_some, read, Option.bind_some, inner,
      Cursor.readCons, left]
    rfl

theorem stepWord {frames : List Frame} {c : Char} {last : Last} {l : Bool} (code : InCode frames) (word : inWord c) :
    ∃ last', Cursor.step ⟨frames, last, l⟩ c = some ⟨frames, last', l⟩ := by
  cases code <;> exact ⟨_, if_pos word⟩

theorem stepDot {frames : List Frame} {last : Last} {l : Bool} (code : InCode frames) :
    ∃ last', Cursor.step ⟨frames, last, l⟩ '.' = some ⟨frames, last', l⟩ := by
  cases code <;> exact ⟨_, rfl⟩

def Wordy (cs : List Char) : Prop := ∀ c ∈ cs, inWord c ∨ c = '.'

def Signs (cs : List Char) : Prop := ∀ c ∈ cs, isSign c ∧ c ≠ '/'

-- These are decided character by character of the text, and not over all characters there are.
instance {cs : List Char} : Decidable (Wordy cs) := List.decidableBAll _ cs

instance {cs : List Char} : Decidable (Signs cs) := List.decidableBAll _ cs

theorem followsWords (all : Wordy a) : Follows a where
  inert := inertOf fun slash => absurd (all '/' slash) (by decide)
  read frames code last l := by
    induction a generalizing last with
    | nil => exact ⟨last, rfl⟩
    | cons c rest ih =>
      obtain ⟨first, all⟩ := List.forall_mem_cons.mp all
      obtain ⟨last', step⟩ : ∃ last', Cursor.step ⟨frames, last, l⟩ c = some ⟨frames, last', l⟩ := by
        rcases first with word | rfl
        · exact stepWord code word
        · exact stepDot code
      obtain ⟨last'', read⟩ := ih all last'
      exact ⟨last'', by rw [Cursor.readCons, step, Option.bind_some, read]⟩

theorem followsName {name : List Char} (h : isName name) : Follows name := by
  cases name with
  | nil => cases h
  | cons c rest =>
    simp only [isName, Bool.and_eq_true, List.all_eq_true] at h
    refine followsWords (List.forall_mem_cons.mpr ⟨.inl ?_, fun d mem => .inl ?_⟩)
    · exact inWordOfStarts (by simp [startsWord, h.1])
    · simp [inWord, h.2 d mem]

theorem followsMember {name : List Char} (h : Follows name) : Follows ('.' :: name) where
  inert := inertAppend (show Inert ['.'] by decide) h.inert
  read frames code last l := by
    obtain ⟨last', step⟩ := @stepDot frames last l code
    obtain ⟨last'', read⟩ := h.read frames code last' l
    exact ⟨last'', by rw [Cursor.readCons, step, Option.bind_some, read]⟩

theorem stepSign {frames : List Frame} {c : Char} {l : Bool} (code : InCode frames) (sign : isSign c)
    (other : c ≠ '/') : Cursor.step ⟨frames, .other, l⟩ c = some ⟨frames, .other, l || frames.isEmpty⟩ := by
  have signs : c ∈ "=?:&|<>!+-*/%^~".toList := by simpa [isSign] using sign
  simp only [String.reduceToList, List.mem_cons, List.not_mem_nil, or_false] at signs
  rcases signs with rfl | rfl | rfl | rfl | rfl | rfl | rfl | rfl | rfl | rfl | rfl | rfl | rfl | rfl | rfl
  case inr.inr.inr.inr.inr.inr.inr.inr.inr.inr.inr.inl => contradiction
  all_goals cases code <;> rfl

theorem leadsSigns (signs : Signs a) : Leads a (!a.isEmpty) where
  inert := inertOf fun slash => (signs '/' slash).2 rfl
  read frames code l := by
    induction a generalizing l with
    | nil => simp [Cursor.read]
    | cons c rest ih =>
      obtain ⟨⟨sign, other⟩, signs⟩ := List.forall_mem_cons.mp signs
      rw [Cursor.readCons, stepSign code sign other, Option.bind_some, ih signs]
      cases frames.isEmpty <;> simp

theorem partsSigns (signs : Signs a) (filled : a ≠ []) : Parts (' ' :: a ++ [' ']) true where
  inert := inertAppend (inertAppend (show Inert [' '] by decide) (leadsSigns signs).inert) (by decide)
  read frames code last l := by
    have blank (last : Last) (l : Bool) : Cursor.step ⟨frames, last, l⟩ ' ' = some ⟨frames, .other, l⟩ := by
      cases code <;> rfl
    have some : (!a.isEmpty) = true := by simpa using filled
    rw [Cursor.readAppend, Cursor.readCons, blank, Option.bind_some, (leadsSigns signs).read frames code,
      Option.bind_some, Cursor.readCons, blank, some]
    rfl

theorem partsDivision : Parts " / ".toList true where
  inert := by decide
  read frames code last l := by cases code <;> rfl

theorem partsComma : Parts ", ".toList false where
  inert := by decide
  read frames code last l := by cases code <;> cases l <;> rfl

theorem partsColon : Parts ": ".toList true where
  inert := by decide
  read frames code last l := by cases code <;> cases last <;> cases l <;> rfl

theorem leadsDots : Leads "...".toList false where
  inert := by decide
  read frames code l := by cases code <;> cases l <;> rfl

end Pieces

section Literals

def Quiet (cs : List Char) : Prop :=
  ∀ frames l, Cursor.read ⟨.quote false :: frames, .other, l⟩ cs = some ⟨.quote false :: frames, .other, l⟩

theorem quietAppend {a b : List Char} (ha : Quiet a) (hb : Quiet b) : Quiet (a ++ b) := by
  intro frames l
  rw [Cursor.readAppend, ha, Option.bind_some, hb]

theorem quietSame {c : Char} (h : c ≠ '"' ∧ c ≠ '\\') : Quiet [c] := by
  intro frames l
  simp [Cursor.read, Cursor.step, Cursor.goto, h]

theorem quietEscape {c : Char} : Quiet ['\\', c] := by
  intro frames l
  simp [Cursor.read, Cursor.step, Cursor.goto]

theorem quietDigits {width n : Nat} : Quiet (hexDigits width n) := by
  induction width generalizing n with
  | zero => exact fun _ _ => rfl
  | succ width ih =>
    refine quietAppend ih (quietSame ?_)
    have digit : ∀ d, d < 16 → hexChar d ≠ '"' ∧ hexChar d ≠ '\\' := by decide
    exact digit _ (Nat.mod_lt _ (by decide))

theorem quietUnits {us : List Nat} : Quiet (us.flatMap fun u => '\\' :: 'u' :: hexDigits 4 u) := by
  induction us with
  | nil => exact fun _ _ => rfl
  | cons u rest ih => exact quietAppend (@quietAppend ['\\', 'u'] (hexDigits 4 u) quietEscape quietDigits) ih

theorem quietChar {c : Char} : Quiet (Json.escapeChar c) := by
  have written := @charEscaped c
  generalize Json.escapeChar c = block at written
  cases written with
  | letter => exact quietEscape
  | same _ quote slash => exact quietSame ⟨quote, slash⟩
  | coded => exact quietUnits

theorem quietText {cs : List Char} : Quiet (cs.flatMap Json.escapeChar) := by
  induction cs with
  | nil => exact fun _ _ => rfl
  | cons c rest ih => exact quietAppend quietChar ih

theorem readsQuoted {s : String} : Reads (jsString s).toList false where
  inert := by
    rw [jsString, String.toList_ofList]
    exact ⟨unclosingGuarded, by rw [guardedHead]; exact fun slash => absurd (Option.some.inj slash) (by decide)⟩
  read frames code l := by
    have opened : Cursor.step ⟨frames, .other, l⟩ '"' = some ⟨.quote false :: frames, .other, l⟩ := by
      cases code <;> rfl
    refine ⟨.other, ?_⟩
    rw [jsString, String.toList_ofList, Cursor.readGuarded, Json.encode, List.cons_append, Cursor.readCons, opened,
      Option.bind_some, Cursor.readAppend, quietText, Option.bind_some]
    simp [Cursor.read, Cursor.step]

def Plain (last : Last) (next : List Char) : Prop := last = .other ∨ last = .dollar ∧ next.head? ≠ some '\x7b'

theorem stepTemplate {frames : List Frame} {c : Char} {last : Last} {l : Bool} {rest : List Char}
    (plain : Plain last (c :: rest)) (other : c ≠ '\\' ∧ c ≠ '\x60') :
    Cursor.step ⟨.template :: frames, last, l⟩ c =
      some ⟨.template :: frames, if c = '$' then .dollar else .other, l⟩ := by
  rcases plain with rfl | ⟨rfl, next⟩
  · simp [Cursor.step, Cursor.goto, other]
  · have apart : c ≠ '\x7b' := by simpa using next
    simp [Cursor.step, Cursor.goto, other, apart]

theorem stepsEscape {frames : List Frame} {c : Char} {last : Last} {l : Bool} {cs : List Char}
    (plain : last = .other ∨ last = .dollar) : Cursor.read ⟨.template :: frames, last, l⟩ ('\\' :: c :: cs) =
      Cursor.read ⟨.template :: frames, .other, l⟩ cs := by
  rcases plain with rfl | rfl <;> simp [Cursor.readCons, Cursor.step, Cursor.goto]

theorem Plain.weaken {last : Last} {next : List Char} (h : Plain last next) : last = .other ∨ last = .dollar :=
  h.imp_right And.left

open escapeTemplate in
theorem guardsApart {c : Char} {rest : List Char} (apart : c = '$' → rest.head? ≠ some '\x7b') :
    guardSubstitution (c :: rest) = c :: guardSubstitution rest := by
  rw [guardSubstitution]
  rintro next rfl rfl
  exact apart rfl rfl

open escapeTemplate in
theorem escapedHead {rest : List Char} : (rest.flatMap escapeChar).head? = some '\x7b' ↔ rest.head? = some '\x7b' := by
  cases rest with
  | nil => rfl
  | cons c rest =>
    rw [List.flatMap_cons, escapeChar]
    split_ifs with slash tick <;> simp_all

open escapeTemplate in
theorem readTemplate {frames : List Frame} {cs : List Char} {last : Last} {l : Bool} (plain : Plain last cs) :
    ∃ last', (last' = .other ∨ last' = .dollar) ∧
      Cursor.read ⟨.template :: frames, last, l⟩ (escapeTemplate cs) = some ⟨.template :: frames, last', l⟩ := by
  simp only [escapeTemplate, Cursor.readGuarded]
  induction cs using guardSubstitution.induct generalizing last with
  | case1 rest ih =>
    have guarded : guardSubstitution (('$' :: '\x7b' :: rest).flatMap escapeChar) =
      '\\' :: '$' :: '\x7b' :: guardSubstitution (rest.flatMap escapeChar) := rfl
    rw [guarded, stepsEscape plain.weaken]
    exact ih (.inl rfl)
  | case2 c rest apart ih =>
    by_cases special : c = '\\' ∨ c = '\x60'
    · have guarded : guardSubstitution ((c :: rest).flatMap escapeChar) =
          '\\' :: c :: guardSubstitution (rest.flatMap escapeChar) := by
        rcases special with rfl | rfl
        all_goals
          rw [List.flatMap_cons]
          exact (guardsApart (absurd · (by decide))).trans (congrArg _ (guardsApart (absurd · (by decide))))
      rw [guarded, stepsEscape plain.weaken]
      exact ih (.inl rfl)
    · have other : c ≠ '\\' ∧ c ≠ '\x60' := not_or.mp special
      have next : c = '$' → rest.head? ≠ some '\x7b' := by
        rintro rfl head
        obtain ⟨rest, rfl⟩ := List.head?_eq_some_iff.mp head
        exact apart rest rfl rfl
      have guarded : guardSubstitution ((c :: rest).flatMap escapeChar) =
          c :: guardSubstitution (rest.flatMap escapeChar) := by
        have kept : escapeChar c = [c] := by simp [escapeChar, other]
        rw [List.flatMap_cons, kept]
        exact guardsApart fun dollar => mt escapedHead.mp (next dollar)
      rw [guarded, Cursor.readCons, stepTemplate plain other, Option.bind_some]
      refine ih ?_
      split
      · next dollar => exact .inr ⟨rfl, next dollar⟩
      · exact .inl rfl
  | case3 => exact ⟨last, plain.weaken, rfl⟩

structure Fills (cs : List Char) (text : Bool) : Prop where
  unclosing : Unclosing cs
  apart : text = false → cs.head? ≠ some '/'
  read : ∀ {frames last l}, last = .other ∨ last = .dollar ∧ text = false → ∃ last', (last' = .other ∨ last' = .dollar) ∧
    Cursor.read ⟨.template :: frames, last, l⟩ cs = some ⟨.template :: frames, last', l⟩

theorem fillsNothing : Fills [] false where
  unclosing := by decide
  apart _ := by decide
  read {_ last _} plain := ⟨last, plain.imp_right And.left, rfl⟩

theorem fillsText {cs rest : List Char} (h : Fills rest false) : Fills (escapeTemplate cs ++ rest) true where
  unclosing := unclosingAppend unclosingGuarded h.unclosing fun _ => h.apart rfl
  apart := nofun
  read {frames last l} plain := by
    obtain rfl : last = .other := plain.resolve_right fun both => nomatch both.2
    obtain ⟨last', ends, read⟩ := @readTemplate frames cs .other l (.inl rfl)
    obtain ⟨last'', ends', read'⟩ := @Fills.read _ _ h frames last' l (ends.imp_right fun dollar => ⟨dollar, rfl⟩)
    exact ⟨last'', ends', by rw [Cursor.readAppend, read, Option.bind_some, read']⟩

theorem fillsValue {cs rest : List Char} {x text : Bool} (value : Reads cs x) (h : Fills rest text) :
    Fills ("$\x7b".toList ++ cs ++ "\x7d".toList ++ rest) false where
  unclosing := by
    have inner := inertAppend (inertAppend (show Inert "$\x7b".toList by decide) value.inert)
      (show Inert "\x7d".toList by decide)
    refine unclosingAppend inner.1 h.unclosing fun last => ?_
    rw [List.getLast?_append] at last
    cases last
  apart _ := by simp
  read {frames last l} plain := by
    obtain ⟨last', read⟩ := value.read (.bracket '\x7d' :: .template :: frames) .inside l
    obtain ⟨last'', ends, read'⟩ := @Fills.read _ _ h frames .other l (.inl rfl)
    refine ⟨last'', ends, ?_⟩
    have opened : Cursor.read ⟨.template :: frames, last, l⟩ "$\x7b".toList =
        some ⟨.bracket '\x7d' :: .template :: frames, .other, l⟩ := by
      rcases plain.imp_right And.left with rfl | rfl <;> rfl
    have closed : Cursor.read ⟨.bracket '\x7d' :: .template :: frames, last', l⟩ "\x7d".toList =
        some ⟨.template :: frames, .other, l⟩ := rfl
    have inside : (l || x && (Frame.bracket '\x7d' :: Frame.template :: frames).isEmpty) = l := by simp
    rw [Cursor.readAppend, Cursor.readAppend, Cursor.readAppend, opened, Option.bind_some, read, inside,
      Option.bind_some, closed, Option.bind_some, read']

theorem followsTemplate {cs : List Char} {text : Bool} (h : Fills cs text) :
    Follows ("\x60".toList ++ cs ++ "\x60".toList) where
  inert := by
    refine ⟨unclosingAppend (unclosingAppend (by decide) h.unclosing (by simp)) (by decide) (by simp), by simp⟩
  read frames code last l := by
    obtain ⟨last', plain, read⟩ := @Fills.read _ _ h frames .other l (.inl rfl)
    have opened : Cursor.read ⟨frames, last, l⟩ "\x60".toList = some ⟨.template :: frames, .other, l⟩ := by
      cases code <;> rfl
    have closed : Cursor.read ⟨.template :: frames, last', l⟩ "\x60".toList = some ⟨frames, .other, l⟩ := by
      rcases plain with rfl | rfl <;> rfl
    refine ⟨.other, ?_⟩
    rw [Cursor.readAppend, Cursor.readAppend, opened, Option.bind_some, read, Option.bind_some, closed]

end Literals

section Numbers
open Binary64

theorem digitInWord {c : Char} (h : c.isDigit) : inWord c := by
  have small : c.toNat < 128 := by
    have le : c.val.toNat ≤ 57 := by
      simp only [Char.isDigit, Bool.and_eq_true, decide_eq_true_eq, UInt32.le_iff_toNat_le] at h
      exact h.2
    exact Nat.lt_of_le_of_lt le (by decide)
  simp [inWord, isNamePart, small, Char.isAlphanum, h]

theorem digitsWritten {n : Nat} : ∀ c ∈ (toString n).toList, c.isDigit := by
  intro c mem
  rw [Nat.toString_eq_ofList_toDigits, String.toList_ofList] at mem
  exact Nat.isDigit_of_mem_toDigits (by decide) (by decide) mem

theorem digitsKept {cs : List Char} (all : ∀ c ∈ cs, c.isDigit) : ∀ c ∈ dropZeros cs, c.isDigit := by
  intro c mem
  cases cs with
  | nil => cases mem
  | cons d rest => exact all c (List.mem_reverse.mp ((List.dropWhile_sublist _).subset (List.mem_reverse.mp mem)))

def Decimals (cs : List Char) : Prop := ∀ c ∈ cs, c.isDigit ∨ c = '.'

instance {cs : List Char} : Decidable (Decimals cs) := List.decidableBAll _ cs

theorem Decimals.follows {cs : List Char} (h : Decimals cs) : Follows cs :=
  followsWords fun c mem => (h c mem).imp_left digitInWord

theorem decimalsAppend {a b : List Char} (ha : Decimals a) (hb : Decimals b) : Decimals (a ++ b) :=
  fun c mem => (List.mem_append.mp mem).elim (ha c) (hb c)

theorem decimalsOf {cs : List Char} (h : ∀ c ∈ cs, c.isDigit) : Decimals cs := fun c mem => .inl (h c mem)

theorem decimalsZeros {n : Nat} : Decimals (List.replicate n '0') := by
  intro c mem
  obtain rfl := (List.mem_replicate.mp mem).2
  exact .inl rfl

theorem stepDigit {frames : List Frame} {c : Char} {last : Last} {l : Bool} (code : InCode frames) (digit : c.isDigit)
    (begun : last = .other ∨ last = .number) :
    Cursor.step ⟨frames, last, l⟩ c = some ⟨frames, .number, l⟩ := by
  have word := digitInWord digit
  have letter : ¬(c = 'e' ∨ c = 'E') := by
    rintro (rfl | rfl) <;> exact absurd digit (by decide)
  rcases begun with rfl | rfl <;> cases code <;>
    simp [Cursor.step, Cursor.inCode, word, Cursor.atWord, Cursor.goto, digit, letter]

theorem readDigits {frames : List Frame} {cs : List Char} {l : Bool} (code : InCode frames) (h : Decimals cs) :
    Cursor.read ⟨frames, .number, l⟩ cs = some ⟨frames, .number, l⟩ := by
  induction cs with
  | nil => rfl
  | cons c rest ih =>
    obtain ⟨first, tail⟩ := List.forall_mem_cons.mp h
    have step : Cursor.step ⟨frames, .number, l⟩ c = some ⟨frames, .number, l⟩ := by
      rcases first with digit | rfl
      · exact stepDigit code digit (.inr rfl)
      · cases code <;> rfl
    rw [Cursor.readCons, step, Option.bind_some, ih tail]

theorem readsExponent {c sign : Char} {more size : List Char} (digit : c.isDigit) (tail : Decimals more)
    (signed : sign = '+' ∨ sign = '-') (exponent : Decimals size) :
    Reads (c :: more ++ 'e' :: sign :: size) false := by
  have marked : Inert ['e', sign] := by
    rcases signed with rfl | rfl <;> decide
  have front : Inert (c :: more) := (Decimals.follows (List.forall_mem_cons.mpr ⟨.inl digit, tail⟩)).inert
  refine ⟨inertAppend front (inertAppend marked exponent.follows.inert), fun frames code l => ?_⟩
  have step : Cursor.read ⟨frames, .number, l⟩ ['e', sign] = some ⟨frames, .number, l⟩ := by
    rcases signed with rfl | rfl <;> cases code <;> rfl
  have split : c :: more ++ 'e' :: sign :: size = c :: (more ++ (['e', sign] ++ size)) := by simp
  refine ⟨.number, ?_⟩
  rw [split, Cursor.readCons, stepDigit code digit (.inl rfl), Option.bind_some, Cursor.readAppend,
    readDigits code tail, Option.bind_some, Cursor.readAppend, step, Option.bind_some, readDigits code exponent]
  simp

theorem mantissaOf {ds : List Char} (digits : ∀ c ∈ ds, c.isDigit) : ∃ c more, c.isDigit ∧ Decimals more ∧
    (match ds with
      | [] => "0"
      | [c] => String.singleton c
      | c :: rest => String.singleton c ++ "." ++ String.ofList rest).toList = c :: more := by
  split
  · exact ⟨'0', [], rfl, by simp [Decimals], rfl⟩
  · next c => exact ⟨c, [], digits c List.mem_cons_self, by simp [Decimals], by simp⟩
  · next c rest _ =>
    obtain ⟨first, tail⟩ := List.forall_mem_cons.mp digits
    exact ⟨c, '.' :: rest, first, List.forall_mem_cons.mpr ⟨.inr rfl, decimalsOf tail⟩, by simp⟩

inductive Numeral : List Char → Prop where
  | decimals {cs} (first : cs.head?.any Char.isDigit) (digits : Decimals cs) : Numeral cs
  | exponent {c more sign size} (digit : c.isDigit) (tail : Decimals more) (signed : sign = '+' ∨ sign = '-')
      (power : Decimals size) : Numeral (c :: more ++ 'e' :: sign :: size)

theorem Numeral.reads {cs : List Char} : Numeral cs → Reads cs false
  | .decimals _ digits => followsAlone digits.follows
  | .exponent digit tail signed power => readsExponent digit tail signed power

theorem numeralDecimal {d : Decimal} {whole : String} (point : Decimals whole.toList) :
    Numeral (d.write whole).toList := by
  have digits : ∀ c ∈ dropZeros (toString d.digits).toList, c.isDigit := digitsKept digitsWritten
  unfold Decimal.write
  simp only
  generalize dropZeros (toString d.digits).toList = ds at digits
  by_cases positional : -4 < d.point ∧ d.point ≤ 16
  · rw [if_pos positional]
    split_ifs with front short
    · simp only [String.toList_append, String.toList_ofList]
      exact .decimals rfl (decimalsAppend (by decide) (decimalsAppend decimalsZeros (decimalsOf digits)))
    · simp only [String.toList_append, String.toList_ofList]
      refine .decimals ?_ (decimalsAppend (decimalsAppend (decimalsOf digits) decimalsZeros) point)
      cases ds with
      | nil =>
        obtain ⟨n, filled⟩ : ∃ n, (d.point - ([] : List Char).length).toNat = n + 1 :=
          Nat.exists_eq_add_one.mpr (by simp only [List.length_nil]; omega)
        rw [filled]
        rfl
      | cons c _ => exact digits c List.mem_cons_self
    · simp only [String.toList_append, String.toList_ofList]
      refine .decimals ?_ (decimalsAppend
        (decimalsAppend (decimalsOf fun c mem => digits c (List.mem_of_mem_take mem)) (by decide))
        (decimalsOf fun c mem => digits c (List.mem_of_mem_drop mem)))
      obtain ⟨n, filled⟩ : ∃ n, d.point.toNat = n + 1 := Nat.exists_eq_add_one.mpr (by omega)
      cases ds with
      | nil => exact absurd (Int.le_of_lt (Int.not_le.mp front)) short
      | cons c _ =>
        rw [filled]
        exact digits c List.mem_cons_self
  · rw [if_neg positional]
    obtain ⟨c, more, digit, tail, mantissa⟩ := mantissaOf digits
    obtain ⟨sign, signed, marked⟩ : ∃ sign, (sign = '+' ∨ sign = '-') ∧
        (if d.point - 1 < 0 then "-" else "+" : String).toList = [sign] := by
      split
      · exact ⟨'-', .inr rfl, rfl⟩
      · exact ⟨'+', .inl rfl, rfl⟩
    obtain ⟨pad, filled⟩ : ∃ pad, Decimals pad ∧
        (if (toString (d.point - 1).natAbs).length < 2 then "0" else "" : String).toList = pad := by
      split
      · exact ⟨['0'], by decide, rfl⟩
      · exact ⟨[], by simp [Decimals], rfl⟩
    have size : Decimals (pad ++ (toString (d.point - 1).natAbs).toList) :=
      decimalsAppend filled.1 (decimalsOf digitsWritten)
    have exponent := Numeral.exponent digit tail signed size
    rw [← mantissa] at exponent
    simp only [String.toList_append, marked, filled.2, List.append_assoc]
    exact exponent

theorem Numeral.first {cs : List Char} : Numeral cs → ∃ c more, cs = c :: more ∧ c.isDigit
  | .decimals first _ => by
    cases cs with
    | nil => cases first
    | cons c more => exact ⟨c, more, rfl, first⟩
  | .exponent digit _ _ _ => ⟨_, _, rfl, digit⟩

theorem numeralWhole {n : Nat} : Numeral (toString n).toList := by
  refine .decimals ?_ (decimalsOf digitsWritten)
  cases written : (toString n).toList with
  | nil => exact absurd written (by simp)
  | cons c more => exact @digitsWritten n c (written ▸ List.mem_cons_self)

theorem numeralReal {whole : String} {negative : Bool} {m : Nat} {e : Int} (point : Decimals whole.toList) :
    ∃ cs, Numeral cs ∧ ((Binary64.finite negative m e).writeWith whole).toList =
      (if negative then ['-'] else []) ++ cs := by
  have unsigned : Numeral (if m = 0 then "0" ++ whole else (shortest m e).write whole).toList := by
    split
    · rw [String.toList_append]
      exact .decimals rfl (decimalsAppend (by decide) point)
    · exact numeralDecimal point
  refine ⟨_, unsigned, ?_⟩
  unfold writeWith
  cases negative with
  | false => rfl
  | true => simp only [if_true, String.toList_append]; rfl

theorem readsReal {whole : String} {negative : Bool} {m : Nat} {e : Int} (point : Decimals whole.toList) :
    Reads ((Binary64.finite negative m e).writeWith whole).toList negative := by
  obtain ⟨cs, numeral, written⟩ := @numeralReal whole negative m e point
  rw [written]
  cases negative with
  | false => exact numeral.reads
  | true => exact readsLed (leadsSigns (by decide)) numeral.reads

end Numbers

end LiveMarkup.Client.Outline
