import Mathlib.Data.List.Forall2
import LiveMarkup.Proofs.Routing.Built
/-! The paths that a pattern accepts, and the parameters that it reads from them: a path is as many parts as the pattern
has segments, each of which accepts its own. -/
namespace LiveMarkup.Routing
open Text

namespace Segment

def isOpen : Segment → Bool
  | fixed _ => false
  | param _ type => type != wholeType

def Accepts : Segment → List Char → Prop
  | fixed text, part => part = text
  | param _ type, part => if type = wholeType then part ≠ [] ∧ ∀ c ∈ part, isDigit c else part ≠ []

def Short : Segment → List Char → Prop
  | fixed _, _ => True
  | param _ type, part => type = wholeType → part.length ≤ digitLimit

instance : (s : Segment) → (part : List Char) → Decidable (s.Accepts part)
  | fixed text, part => inferInstanceAs (Decidable (part = text))
  | param _ type, part =>
    -- The digits are looked for in the text, not among all characters.
    have : Decidable (∀ c ∈ part, isDigit c) := List.decidableBAll _ part
    inferInstanceAs (Decidable (if type = wholeType then part ≠ [] ∧ ∀ c ∈ part, isDigit c else part ≠ []))

instance : (s : Segment) → (part : List Char) → Decidable (s.Short part)
  | fixed _, _ => isTrue trivial
  | param _ type, part => inferInstanceAs (Decidable (type = wholeType → part.length ≤ digitLimit))

def argument? : Segment → List Char → Option (String × Argument)
  | fixed _, _ => none
  | param name type, part => some (String.ofList name, if type = wholeType then .whole part else .text part)

def parameter? : Segment → List Char → Option (String × Value)
  | fixed _, _ => none
  | param name type, part =>
    some (String.ofList name, if type = wholeType then .whole (readDigits part) else .text (String.ofList part))

end Segment

def taken {α : Type} (take : Segment → List Char → Option α) (segments : List Segment) (parts : List (List Char)) :
    List α :=
  (segments.zip parts).filterMap fun p => take p.1 p.2

structure Reads (segments : List Segment) (path : String) (parts : List (List Char)) : Prop where
  written : path.toList = '/' :: ['/'].intercalate parts
  within : ∀ part ∈ parts, '/' ∉ part
  accepted : List.Forall₂ Segment.Accepts segments parts

def Closed (segments : List Segment) : Prop := ∀ s ∈ segments.getLast?, s.isOpen = false

/-- A line break at the end of the path is passed over, except by an open parameter, which takes it. -/
inductive Accepts (segments : List Segment) : String → List (List Char) → Prop where
  | whole {path parts} (reads : Reads segments path parts) : Accepts segments path parts
  | broken {line parts} (reads : Reads segments line parts) (closed : Closed segments) :
      Accepts segments (line ++ "\n") parts

def AllShort (segments : List Segment) (parts : List (List Char)) : Prop := ∀ p ∈ segments.zip parts, p.1.Short p.2

instance {segments : List Segment} {parts : List (List Char)} : Decidable (AllShort segments parts) :=
  inferInstanceAs (Decidable (∀ p ∈ segments.zip parts, p.1.Short p.2))

section Splitting

variable {sep : Char} {s part : List Char} {parts : List (List Char)}

theorem splitAt_eq : splitAt sep s = s.splitOn sep := by
  induction s with
  | nil => rfl
  | cons c s ih =>
    rw [splitAt, List.splitOn_cons_eq_if_modifyHead, ih]
    refine ite_congr rfl (fun _ => rfl) fun _ => ?_
    obtain ⟨part, parts, same⟩ := List.exists_cons_of_ne_nil (List.splitOn_ne_nil sep s)
    rw [same, List.modifyHead_cons]

theorem splitJoined (clear : ∀ p ∈ parts, sep ∉ p) (some : parts ≠ []) :
    splitAt sep ([sep].intercalate parts) = parts := by
  rw [splitAt_eq, List.splitOn_intercalate sep clear some]

theorem joinedSplit : [sep].intercalate (splitAt sep s) = s := by
  rw [splitAt_eq, List.intercalate_splitOn]

theorem splitSome : splitAt sep s ≠ [] := by
  rw [splitAt_eq]
  exact List.splitOnP_ne_nil _ _

theorem splitClear : ∀ p ∈ splitAt sep s, sep ∉ p := by
  induction s with
  | nil => simp [splitAt]
  | cons c s ih =>
    rw [splitAt]
    split
    · exact List.forall_mem_cons.mpr ⟨List.not_mem_nil, ih⟩
    · next other =>
      have apart : sep ≠ c := fun same => other (by simp [same])
      split
      · simpa using apart
      · next part parts found =>
        rw [found] at ih
        obtain ⟨first, rest⟩ := List.forall_mem_cons.mp ih
        exact List.forall_mem_cons.mpr ⟨by simp [apart, first], rest⟩

def breakLast : List (List Char) → List (List Char)
  | [] => []
  | [part] => [part ++ ['\n']]
  | part :: parts => part :: breakLast parts

theorem breakSome : breakLast parts = [] ↔ parts = [] := by
  cases parts with
  | nil => exact iff_of_true rfl rfl
  | cons part parts => cases parts <;> simp [breakLast]

theorem breakJoined (some : parts ≠ []) : ['/'].intercalate (breakLast parts) = ['/'].intercalate parts ++ ['\n'] := by
  induction parts with
  | nil => exact absurd rfl some
  | cons part parts ih =>
    cases parts with
    | nil => simp [breakLast]
    | cons next parts =>
      obtain ⟨first, rest, same⟩ := List.exists_cons_of_ne_nil (mt breakSome.mp (List.cons_ne_nil next parts))
      have behind := ih (List.cons_ne_nil next parts)
      rw [same] at behind
      rw [breakLast, same, List.intercalate_cons_cons, behind, List.intercalate_cons_cons]
      simp only [List.append_assoc]
      exact List.cons_ne_nil next parts

theorem breakClear : (∀ p ∈ breakLast parts, '/' ∉ p) ↔ ∀ p ∈ parts, '/' ∉ p := by
  induction parts with
  | nil => rfl
  | cons part parts ih =>
    cases parts with
    | nil => simp [breakLast]
    | cons next parts =>
      rw [breakLast, List.forall_mem_cons, ih, @List.forall_mem_cons _ _ part]
      exact List.cons_ne_nil next parts

end Splitting

section Taking

variable {s : Segment} {segments : List Segment} {part line : List Char} {given parts : List (List Char)}
  {found : List (String × Argument)}

theorem numberAccepted {type : List Char} {name : List Char} (whole : type = Segment.wholeType) :
    (Segment.param name type).Accepts part ↔ Segment.isNumber part := by
  rw [Segment.Accepts, if_pos whole, Segment.isNumber, Bool.and_eq_true, List.all_eq_true]
  simp

theorem textAccepted {type : List Char} {name : List Char} (other : type ≠ Segment.wholeType) :
    (Segment.param name type).Accepts part ↔ part ≠ [] := by
  rw [Segment.Accepts, if_neg other]

theorem takeIff : s.take? part = some found ↔ s.Accepts part ∧ found = (s.argument? part).toList := by
  cases s with
  | fixed text =>
    rw [Segment.take?, Segment.Accepts, Segment.argument?]
    by_cases same : part = text
    · simp [same, eq_comm]
    · simp [same]
  | param name type =>
    rw [Segment.take?, Segment.argument?]
    by_cases whole : type = Segment.wholeType
    · rw [numberAccepted whole, if_pos (beq_iff_eq.mpr whole), if_pos whole]
      by_cases number : Segment.isNumber part <;> simp [number, eq_comm]
    · rw [textAccepted whole, if_neg (by simpa using whole), if_neg whole]
      cases part <;> simp [eq_comm]

theorem breakRefused (closed : s.isOpen = false) (accepts : s.Accepts line) : ¬s.Accepts (line ++ ['\n']) := by
  cases s with
  | fixed text =>
    intro same
    have length := congrArg List.length (same.trans accepts.symm)
    simp at length
  | param name type =>
    have whole : type = Segment.wholeType := by simpa [Segment.isOpen] using closed
    rw [Segment.Accepts, if_pos whole]
    intro digits
    exact absurd (digits.2 '\n' (by simp)) (by decide)

theorem openAccepts (isOpen : s.isOpen = true) : s.Accepts part ↔ part ≠ [] := by
  cases s with
  | fixed text => cases isOpen
  | param name type => exact textAccepted (by simpa [Segment.isOpen] using isOpen)

theorem takeLastIff : s.takeLast? part = some found ↔ (s.Accepts part ∧ found = (s.argument? part).toList) ∨
    s.isOpen = false ∧ ∃ line, part = line ++ ['\n'] ∧ s.Accepts line ∧ found = (s.argument? line).toList := by
  rw [Segment.takeLast?]
  cases direct : s.take? part with
  | some found' =>
    obtain ⟨accepts, rfl⟩ := takeIff.mp direct
    have alone : ¬∃ line, part = line ++ ['\n'] ∧ s.isOpen = false ∧ s.Accepts line := by
      rintro ⟨line, rfl, closed, before⟩
      exact breakRefused closed before accepts
    refine ⟨fun same => .inl ⟨accepts, (Option.some.inj same).symm⟩, ?_⟩
    rintro (⟨_, rfl⟩ | ⟨closed, line, same, before, _⟩)
    · rfl
    · exact absurd ⟨line, same, closed, before⟩ alone
  | none =>
    have refused : ¬s.Accepts part := fun accepts => Option.some_ne_none _ ((takeIff.mpr ⟨accepts, rfl⟩).symm.trans direct)
    simp only [refused, false_and, false_or]
    constructor
    · intro behind
      split at behind
      · next last =>
        obtain ⟨line, rfl⟩ := List.getLast?_eq_some_iff.mp (beq_iff_eq.mp last)
        rw [List.dropLast_concat] at behind
        obtain ⟨before, same⟩ := takeIff.mp behind
        refine ⟨Bool.eq_false_iff.mpr fun isOpen => refused ((openAccepts isOpen).mpr (by simp)), line, rfl, before, same⟩
      · cases behind
    · rintro ⟨-, line, rfl, before, same⟩
      simpa using takeIff.mpr ⟨before, same⟩

def UpToBreak (segments : List Segment) (given parts : List (List Char)) : Prop :=
  given = parts ∨ Closed segments ∧ given = breakLast parts

theorem breakCons (some : parts ≠ []) : breakLast (part :: parts) = part :: breakLast parts := by
  rw [breakLast]
  exact some

theorem closedCons (some : segments ≠ []) : Closed (s :: segments) ↔ Closed segments := by
  obtain ⟨first, rest, rfl⟩ := List.exists_cons_of_ne_nil some
  rw [Closed, List.getLast?_cons_cons, Closed]

theorem upToBreakCons (some : segments ≠ []) (others : parts ≠ []) :
    UpToBreak (s :: segments) (line :: given) (part :: parts) ↔ line = part ∧ UpToBreak segments given parts := by
  rw [UpToBreak, breakCons others, closedCons some, List.cons.injEq, List.cons.injEq, UpToBreak]
  grind

theorem takenCons {α : Type} {take : Segment → List Char → Option α} :
    taken take (s :: segments) (part :: parts) = (take s part).toList ++ taken take segments parts := by
  rw [taken, List.zip_cons_cons, List.filterMap_cons, taken]
  cases take s part <;> rfl

theorem takeLastAll : s.takeLast? part = .some found ↔
    ∃ parts, List.Forall₂ Segment.Accepts [s] parts ∧ UpToBreak [s] [part] parts ∧
      found = taken Segment.argument? [s] parts := by
  have one {part : List Char} : taken Segment.argument? [s] [part] = (s.argument? part).toList := by
    rw [takenCons]
    exact List.append_nil _
  rw [takeLastIff]
  constructor
  · rintro (⟨accepts, rfl⟩ | ⟨closed, line, rfl, accepts, rfl⟩)
    · exact ⟨[part], .cons accepts .nil, .inl rfl, one.symm⟩
    · exact ⟨[line], .cons accepts .nil, .inr ⟨by simpa [Closed] using closed, rfl⟩, one.symm⟩
  · rintro ⟨_, accepted, upTo, rfl⟩
    cases accepted with
    | cons accepts rest =>
      cases rest
      rw [one]
      rcases upTo with same | ⟨closed, same⟩
      · cases same
        exact .inl ⟨accepts, rfl⟩
      · cases same
        exact .inr ⟨by simpa [Closed] using closed, _, rfl, accepts, rfl⟩

theorem takeAllIff (some : segments ≠ []) : Pattern.takeAll? segments given = .some found ↔
    ∃ parts, List.Forall₂ Segment.Accepts segments parts ∧ UpToBreak segments given parts ∧
      found = taken Segment.argument? segments parts := by
  -- The last segment may take a line break with it, so the recursion ends one segment early.
  fun_induction Pattern.takeAll? segments given generalizing found with
  | case1 s line => exact takeLastAll
  | case2 s segments line given apart ih =>
    cases segments with
    | nil =>
      have several : given ≠ [] := apart rfl
      have none : Pattern.takeAll? [] given = .none := by
        rw [Pattern.takeAll?.eq_def]
      rw [none]
      refine iff_of_false (by simp) ?_
      rintro ⟨_, accepted, upTo, -⟩
      cases accepted with
      | cons accepts rest =>
        cases rest
        rcases upTo with same | ⟨-, same⟩ <;> exact several (List.cons.inj same).2
    | cons next segments =>
      have more : next :: segments ≠ [] := List.cons_ne_nil next segments
      simp only [Option.bind_eq_bind, Option.bind_eq_some_iff, takeIff, ih more, Option.pure_def, Option.some.injEq]
      constructor
      · rintro ⟨_, ⟨accepts, rfl⟩, _, ⟨parts, accepted, upTo, rfl⟩, rfl⟩
        have others : parts ≠ [] := by
          rintro rfl
          cases accepted
        exact ⟨line :: parts, .cons accepts accepted, (upToBreakCons more others).mpr ⟨rfl, upTo⟩, takenCons.symm⟩
      · rintro ⟨_, accepted, upTo, rfl⟩
        cases accepted with
        | @cons _ part _ parts accepts accepted =>
          have others : parts ≠ [] := by
            rintro rfl
            cases accepted
          obtain ⟨rfl, behind⟩ := (upToBreakCons more others).mp upTo
          exact ⟨_, ⟨accepts, rfl⟩, _, ⟨parts, accepted, behind, rfl⟩, takenCons.symm⟩
  | case3 =>
    rename_i segments given _ apart
    refine iff_of_false (Option.some_ne_none _).symm ?_
    rintro ⟨_, accepted, upTo, -⟩
    cases accepted with
    | nil => exact some rfl
    | @cons s part segments parts accepts accepted =>
      have several : given ≠ [] := by
        rintro rfl
        rcases upTo with same | ⟨-, same⟩
        · cases same
        · exact absurd (breakSome.mp same.symm) (List.cons_ne_nil _ _)
      obtain ⟨first, rest, rfl⟩ := List.exists_cons_of_ne_nil several
      exact apart _ _ _ _ rfl rfl

end Taking

section Paths

variable {segments : List Segment} {path : String} {parts : List (List Char)} {found : List (String × Argument)}
  {p : Pattern}

theorem readsSome (reads : Reads segments path parts) (some : segments ≠ []) : parts ≠ [] := by
  rintro rfl
  cases reads.accepted
  exact some rfl

theorem acceptsSplit (some : segments ≠ []) : Accepts segments path parts ↔ ∃ rest, path.toList = '/' :: rest ∧
    List.Forall₂ Segment.Accepts segments parts ∧ UpToBreak segments (splitAt '/' rest) parts := by
  constructor
  · intro accepts
    cases accepts with
    | whole reads =>
      exact ⟨_, reads.written, reads.accepted, .inl (splitJoined reads.within (readsSome reads some))⟩
    | @broken line _ reads closed =>
      have several := readsSome reads some
      have written : (line ++ "\n").toList = '/' :: ['/'].intercalate (breakLast parts) := by
        rw [String.toList_append, reads.written, breakJoined several]
        rfl
      refine ⟨_, written, reads.accepted, .inr ⟨closed, ?_⟩⟩
      exact splitJoined (breakClear.mpr reads.within) (mt breakSome.mp several)
  · rintro ⟨rest, written, accepted, same | ⟨closed, same⟩⟩
    · have joined : rest = ['/'].intercalate parts := same ▸ joinedSplit.symm
      exact .whole ⟨joined ▸ written, same ▸ splitClear, accepted⟩
    · have several : parts ≠ [] := mt breakSome.mpr (same ▸ splitSome)
      have joined : rest = ['/'].intercalate parts ++ ['\n'] := by
        rw [← breakJoined several, ← same, joinedSplit]
      have within : ∀ part ∈ parts, '/' ∉ part := breakClear.mp (same ▸ splitClear)
      have line : path = String.ofList ('/' :: ['/'].intercalate parts) ++ "\n" := by
        rw [← String.toList_inj, written, joined, String.toList_append, String.toList_ofList]
        rfl
      rw [line]
      exact .broken ⟨String.toList_ofList, within, accepted⟩ closed

theorem acceptsNone : Accepts [] path parts ↔ parts = [] ∧ (path.toList = ['/'] ∨ path.toList = ['/', '\n']) := by
  constructor
  · intro accepts
    cases accepts with
    | whole reads =>
      cases reads.accepted
      exact ⟨rfl, .inl reads.written⟩
    | @broken line _ reads _ =>
      cases reads.accepted
      refine ⟨rfl, .inr ?_⟩
      rw [String.toList_append, reads.written]
      rfl
  · rintro ⟨rfl, written | written⟩
    · exact .whole ⟨written, nofun, .nil⟩
    · have line : path = "/" ++ "\n" := String.toList_inj.mp written
      rw [line]
      exact .broken ⟨rfl, nofun, .nil⟩ nofun

theorem acceptsFront (accepts : Accepts segments path parts) : ∃ rest, path.toList = '/' :: rest := by
  cases accepts with
  | whole reads => exact ⟨_, reads.written⟩
  | broken reads => exact ⟨_, by rw [String.toList_append, reads.written, List.cons_append]⟩

theorem argumentsIff : p.arguments? path = some found ↔
    ∃ parts, Accepts p.segments path parts ∧ found = taken Segment.argument? p.segments parts := by
  rw [Pattern.arguments?.eq_def]
  split
  · next rest written =>
    by_cases none : p.segments = []
    · have ends : (rest == [] || rest == ['\n']) = true ↔ rest = [] ∨ rest = ['\n'] := by simp
      rw [none, List.isEmpty_nil, if_pos rfl, Option.ite_none_right_eq_some, ends]
      simp only [acceptsNone, written, List.cons.injEq, true_and]
      constructor
      · rintro ⟨ending, same⟩
        exact ⟨[], ⟨rfl, ending⟩, (Option.some.inj same).symm⟩
      · rintro ⟨_, ⟨rfl, ending⟩, rfl⟩
        exact ⟨ending, rfl⟩
    · rw [List.isEmpty_eq_false_iff.mpr none, if_neg Bool.false_ne_true, takeAllIff none]
      simp only [acceptsSplit none, written, List.cons.injEq, true_and, exists_eq_left', and_assoc]
  · next other =>
    refine iff_of_false (fun given => by cases given) ?_
    rintro ⟨parts, accepts, -⟩
    obtain ⟨rest, written⟩ := acceptsFront accepts
    exact other rest written

def valued (entry : String × Argument) : Except LongNumber (String × Value) := do return (entry.1, ← entry.2.value)

theorem argumentValued {s : Segment} {part : List Char} {values : List (String × Value)} :
    (s.argument? part).toList.mapM valued = .ok values ↔ s.Short part ∧ values = (s.parameter? part).toList := by
  cases s with
  | fixed text =>
    refine (pureOk (ε := LongNumber)).trans ?_
    simp [Segment.Short, Segment.parameter?, eq_comm]
  | param name type =>
    have one {entry : String × Argument} :
        [entry].mapM valued = .ok values ↔ ∃ v, entry.2.value = .ok v ∧ [(entry.1, v)] = values := by
      simp only [List.mapM_cons, List.mapM_nil, valued, bindOk, pureOk]
      grind
    rw [Segment.argument?, Option.toList_some, one, Segment.Short, Segment.parameter?, Option.toList_some]
    by_cases whole : type = Segment.wholeType
    · rw [if_pos whole, if_pos whole, Argument.value]
      by_cases short : digitLimit < part.length
      · rw [if_pos short]
        refine iff_of_false ?_ fun both => absurd (both.1 whole) (Nat.not_le.mpr short)
        rintro ⟨_, failed, -⟩
        cases failed
      · rw [if_neg short]
        simp [whole, Nat.not_lt.mp short, eq_comm]
    · rw [if_neg whole, if_neg whole, Argument.value]
      simp [whole, eq_comm]

theorem argumentsValued {values : List (String × Value)} : (taken Segment.argument? segments parts).mapM valued = .ok values ↔
    AllShort segments parts ∧ values = taken Segment.parameter? segments parts := by
  induction segments generalizing parts values with
  | nil =>
    refine (pureOk (ε := LongNumber)).trans ?_
    simp [AllShort, taken, eq_comm]
  | cons s segments ih =>
    cases parts with
    | nil =>
      refine (pureOk (ε := LongNumber)).trans ?_
      simp [AllShort, taken, eq_comm]
    | cons part parts =>
      have short : AllShort (s :: segments) (part :: parts) ↔ s.Short part ∧ AllShort segments parts := List.forall_mem_cons
      rw [takenCons, takenCons, List.mapM_append, short]
      simp only [bindOk, pureOk, argumentValued, ih]
      grind

theorem parametersFound {found : List (String × Value)} : p.parameters? path = .ok (some found) ↔
    ∃ parts, Accepts p.segments path parts ∧ AllShort p.segments parts ∧ found = taken Segment.parameter? p.segments parts := by
  rw [Pattern.parameters?]
  cases arguments : p.arguments? path with
  | none =>
    refine iff_of_false (fun given => by cases given) ?_
    rintro ⟨parts, accepts, -⟩
    cases arguments.symm.trans (argumentsIff.mpr ⟨parts, accepts, rfl⟩)
  | some entries =>
    have valued : (entries.mapM valued >>= fun values => pure (some values)) = .ok (some found) ↔
        entries.mapM valued = .ok found := by
      simp only [bindOk, pureOk, Option.some.injEq, exists_eq_right]
    refine valued.trans ⟨fun values => ?_, ?_⟩
    · obtain ⟨parts, accepts, rfl⟩ := argumentsIff.mp arguments
      obtain ⟨short, same⟩ := argumentsValued.mp values
      exact ⟨parts, accepts, short, same⟩
    · rintro ⟨parts, accepts, short, rfl⟩
      obtain rfl := Option.some.inj (arguments.symm.trans (argumentsIff.mpr ⟨parts, accepts, rfl⟩))
      exact argumentsValued.mpr ⟨short, rfl⟩

theorem parametersNone : p.parameters? path = .ok none ↔ ∀ parts, ¬Accepts p.segments path parts := by
  rw [Pattern.parameters?]
  cases arguments : p.arguments? path with
  | none =>
    refine iff_of_true rfl fun parts accepts => ?_
    cases arguments.symm.trans (argumentsIff.mpr ⟨parts, accepts, rfl⟩)
  | some entries =>
    obtain ⟨parts, accepts, -⟩ := argumentsIff.mp arguments
    refine iff_of_false (fun none => ?_) fun refused => refused parts accepts
    obtain ⟨values, -, same⟩ :=
      bindOk.mp (show (entries.mapM valued >>= fun values => pure (some values)) = .ok .none from none)
    cases same

theorem shortElse {others : List (List Char)} (accepts : Accepts segments path parts)
    (other : Accepts segments path others)
    (short : AllShort segments parts) : AllShort segments others := by
  have same : taken Segment.argument? segments parts = taken Segment.argument? segments others := by
    have one := (@argumentsIff path _ ⟨path, segments⟩).mpr ⟨parts, accepts, rfl⟩
    have two := (@argumentsIff path _ ⟨path, segments⟩).mpr ⟨others, other, rfl⟩
    exact Option.some.inj (one.symm.trans two)
  have values := argumentsValued.mpr ⟨short, rfl⟩
  rw [same] at values
  exact (argumentsValued.mp values).1

theorem parametersLong : (∃ e, p.parameters? path = .error e) ↔
    ∃ parts, Accepts p.segments path parts ∧ ¬AllShort p.segments parts := by
  cases read : p.parameters? path with
  | error e =>
    refine iff_of_true ⟨e, rfl⟩ ?_
    by_contra none
    push Not at none
    by_cases accepted : ∃ parts, Accepts p.segments path parts
    · obtain ⟨parts, accepts⟩ := accepted
      cases read.symm.trans (parametersFound.mpr ⟨parts, accepts, none parts accepts, rfl⟩)
    · cases read.symm.trans (parametersNone.mpr (not_exists.mp accepted))
  | ok found =>
    refine iff_of_false nofun ?_
    rintro ⟨parts, accepts, long⟩
    cases found with
    | none => exact parametersNone.mp read parts accepts
    | some found =>
      obtain ⟨others, other, short, -⟩ := parametersFound.mp read
      exact long (shortElse other accepts short)

end Paths

section Written

/-- Fixed text has no slash and is not written like a parameter. The type behind a name may be any text without a slash. -/
inductive Part.Readable : Part → Prop
  | fixed {text} (within : '/' ∉ text)
      (unlike : ∀ braced name type?, name ≠ [] → ':' ∉ name → text ≠ (Part.param braced name type?).write) :
      Readable (.fixed text)
  | param {braced name type?} (named : isName name) (within : ∀ type ∈ type?, '/' ∉ type) :
    Readable (.param braced name type?)

def Part.meaning : Part → Segment
  | fixed text => .fixed text
  | param _ name type? => .param name ((type?.filter (!·.isEmpty)).getD Segment.defaultType)

def joinedText (parts : List Part) : String := String.ofList (['/'].intercalate (parts.map (·.write)))

structure Readable (parts : List Part) : Prop where
  each : ∀ part ∈ parts, part.Readable
  distinct : (parts.filterMap (·.name?)).Nodup

variable {name content : List Char} {type? : Option (List Char)} {part : Part} {parts : List Part}

theorem nameWithout {c : Char} (named : isName name) (other : isNamePart c = false) : c ∉ name := by
  intro mem
  have part : isNamePart c := by
    cases name with
    | nil => cases mem
    | cons first rest =>
      rw [isName, Bool.and_eq_true] at named
      rcases List.mem_cons.mp mem with rfl | mem
      · exact isNamePart_of_isNameStart named.1
      · exact List.all_eq_true.mp named.2 c mem
  rw [other] at part
  cases part

theorem cutContent (clear : ':' ∉ name) : cutAt ':' (Part.content name type?) = (name, type?.getD []) := by
  have through : ∀ c ∈ name, c != ':' := fun c mem => bne_iff_ne.mpr fun same => clear (same ▸ mem)
  cases type? with
  | none =>
    rw [Part.content, cutAt, List.takeWhile_eq_self_iff.mpr through, List.dropWhile_eq_nil_iff.mpr through]
    rfl
  | some type =>
    have ends : ∀ c ∈ (':' :: type).head?, (c != ':') = false := by
      rintro c ⟨⟩
      rfl
    rw [Part.content, cutAt, runTaken through ends, runDropped through ends]
    rfl

theorem contentOf : ∃ name type?, ':' ∉ name ∧ content = Part.content name type? := by
  have clear : ':' ∉ content.takeWhile (· != ':') := fun mem => by simpa using List.mem_takeWhile_imp mem
  have whole := @List.takeWhile_append_dropWhile _ (· != ':') content
  cases behind : content.dropWhile (· != ':') with
  | nil =>
    rw [behind, List.append_nil] at whole
    exact ⟨_, none, clear, whole.symm⟩
  | cons c type =>
    have first := List.head?_dropWhile_not (· != ':') content
    rw [behind] at first
    obtain rfl : c = ':' := by simpa using first
    rw [behind] at whole
    exact ⟨_, some type, clear, whole.symm⟩

theorem contentRead {whole : List Char} (clear : ':' ∉ name) : Segment.readParam whole (Part.content name type?) =
    if name = [] then .fixed whole else .param name ((type?.filter (!·.isEmpty)).getD Segment.defaultType) := by
  rw [Segment.readParam, cutContent clear]
  cases name with
  | nil => rfl
  | cons c name =>
    cases type? with
    | none => rfl
    | some type => cases type <;> rfl

theorem readableRead (readable : part.Readable) : Segment.read part.write = part.meaning := by
  cases readable with
  | @fixed text within unlike =>
    have fixed {braced : Bool} {content : List Char}
        (same : text = if braced then '\x7b' :: (content ++ ['\x7d']) else ':' :: content) :
        Segment.readParam text content = .fixed text := by
      obtain ⟨name, type?, clear, rfl⟩ := @contentOf content
      rw [contentRead clear, if_pos]
      by_contra some
      refine unlike braced name type? some clear ?_
      cases braced <;> exact same
    rw [Part.write, Segment.read.eq_def, Part.meaning]
    split
    · next content => exact @fixed false content rfl
    · next rest =>
      split
      · next last =>
        obtain ⟨content, rfl⟩ := List.getLast?_eq_some_iff.mp (beq_iff_eq.mp last)
        rw [List.dropLast_concat]
        exact @fixed true content rfl
      · rfl
    · rfl
  | @param braced name type? named within =>
    have content {whole : List Char} :
        Segment.readParam whole (Part.content name type?) = (Part.param braced name type?).meaning := by
      rw [contentRead (nameWithout named (by decide)), if_neg (nameSome named), Part.meaning]
    cases braced with
    | false => exact content
    | true =>
      rw [Part.write, Segment.read.eq_def]
      simp only [List.getLast?_append, List.getLast?_singleton, Option.some_or, List.dropLast_concat, beq_self_eq_true,
        if_true]
      exact content

theorem readableWithin (readable : part.Readable) : '/' ∉ part.write := by
  cases readable with
  | fixed within => exact within
  | @param braced name type? named within =>
    have own := @nameWithout name '/' named (by decide)
    have content : '/' ∉ Part.content name type? := by
      cases type? with
      | none => exact own
      | some type => simp [Part.content, own, within type rfl]
    cases braced <;> simp [Part.write, content]

theorem readableEmpty (readable : part.Readable) : part.write.isEmpty = decide (part = .fixed []) := by
  cases readable with
  | @fixed text => cases text <;> rfl
  | @param braced name type? => cases braced <;> simp [Part.write]

theorem joinedParts (readable : ∀ part ∈ parts, part.Readable) :
    (splitAt '/' (joinedText parts).toList).filter (!·.isEmpty) = (written parts).map (·.write) := by
  have split : (splitAt '/' (joinedText parts).toList).filter (!·.isEmpty) = (parts.map (·.write)).filter (!·.isEmpty) := by
    rw [joinedText, String.toList_ofList]
    cases parts with
    | nil => rfl
    | cons part parts =>
      refine congrArg _ (splitJoined ?_ (List.cons_ne_nil _ _))
      exact List.forall_mem_map.mpr fun part mem => readableWithin (readable part mem)
  rw [split, List.filter_map, written]
  refine congrArg _ (List.filter_congr fun part mem => ?_)
  simp [readableEmpty (readable part mem)]

theorem joinedRead (readable : Readable parts) :
    Pattern.read (joinedText parts) = .ok ⟨joinedText parts, (written parts).map (·.meaning)⟩ := by
  have members {part : Part} (mem : part ∈ written parts) : part.Readable := readable.each part (List.mem_of_mem_filter mem)
  have segments : ((written parts).map (·.write)).map Segment.read = (written parts).map (·.meaning) := by
    rw [List.map_map]
    exact List.map_congr_left fun part mem => readableRead (members mem)
  have named : ∀ name ∈ ((written parts).map (·.meaning)).filterMap Segment.name?, isName name := by
    intro name mem
    obtain ⟨_, member, found⟩ := List.mem_filterMap.mp mem
    obtain ⟨part, here, rfl⟩ := List.mem_map.mp member
    cases members here with
    | fixed => cases found
    | param named => cases found; exact named
  have names : (((written parts).map (·.meaning)).filterMap Segment.name?).map String.ofList =
      (written parts).filterMap (·.name?) := by
    rw [List.filterMap_map, List.map_filterMap]
    refine List.filterMap_congr fun part _ => ?_
    cases part <;> rfl
  have distinct : (((written parts).map (·.meaning)).filterMap Segment.name?).Nodup := by
    refine List.Nodup.of_map String.ofList ?_
    rw [names]
    exact readable.distinct.sublist (List.filter_sublist.filterMap _)
  rw [Pattern.read, joinedParts readable.each, segments, noBadName named distinct fun _ _ => List.not_mem_nil]

/-- A pattern gives parameters for the paths that it accepts and for no others: these are the parts of the path, read as
its parameters have it. Only a path with too long a number is accepted and gives none. -/
theorem pathsAccepted (parts : List Part) (readable : Readable parts) : ∃ p, Pattern.read (joinedText parts) = .ok p ∧
    p.segments = (written parts).map (·.meaning) ∧ ∀ path,
      (∀ found, p.parameters? path = .ok (some found) ↔ ∃ pieces, Accepts p.segments path pieces ∧
        AllShort p.segments pieces ∧ found = taken Segment.parameter? p.segments pieces) ∧
      (p.parameters? path = .ok none ↔ ∀ pieces, ¬Accepts p.segments path pieces) ∧
      ((∃ e, p.parameters? path = .error e) ↔ ∃ pieces, Accepts p.segments path pieces ∧ ¬AllShort p.segments pieces) :=
  ⟨_, joinedRead readable, rfl, fun _ => ⟨fun _ => parametersFound, parametersNone, parametersLong⟩⟩

def projectParts : List Part :=
  [.fixed [], .fixed "projects".toList, .param false ['i', 'd'] (some Segment.wholeType), .param true ['t', 'a', 'b'] none]

theorem projectReadable : Readable projectParts := by
  refine ⟨?_, by decide⟩
  have unlike {text : List Char} (front : ∀ c ∈ text.head?, c ≠ ':' ∧ c ≠ '\x7b') (braced : Bool) (name : List Char)
      (type? : Option (List Char)) : text ≠ (Part.param braced name type?).write := by
    rintro rfl
    cases braced with
    | false => exact (front ':' rfl).1 rfl
    | true => exact (front '\x7b' rfl).2 rfl
  simp only [projectParts, List.forall_mem_cons, List.not_mem_nil, false_imp_iff, implies_true, and_true]
  refine ⟨.fixed (by decide) fun braced name type? _ _ => unlike (by simp) braced name type?,
    .fixed (by decide) fun braced name type? _ _ => unlike (by simp) braced name type?, .param rfl ?_, .param rfl nofun⟩
  · rintro type ⟨⟩
    decide

theorem projectAccepted : ∃ p, Pattern.read "/projects/:id:int/\x7btab\x7d" = .ok p ∧
    p.parameters? "/projects/42/a b\n" = .ok (some [("id", .whole 42), ("tab", .text "a b\n")]) ∧
    p.parameters? "/projects/4\n/a" = .ok none := by
  obtain ⟨p, read, segments, accepted⟩ := pathsAccepted projectParts projectReadable
  have reads : Reads p.segments "/projects/42/a b\n" ["projects".toList, "42".toList, "a b\n".toList] := by
    rw [segments]
    exact ⟨by decide, by decide,
      .cons rfl (.cons ⟨List.cons_ne_nil _ _, List.all_eq_true.mp rfl⟩ (.cons (List.cons_ne_nil _ _) .nil))⟩
  have short : AllShort p.segments ["projects".toList, "42".toList, "a b\n".toList] := by
    rw [segments]
    decide
  refine ⟨p, read, ((accepted _).1 _).mpr ⟨_, .whole reads, short, ?_⟩, (accepted _).2.1.mpr ?_⟩
  · rw [segments]
    rfl
  · intro pieces accepts
    rw [segments] at accepts
    obtain ⟨rest, written, accepted, same | ⟨closed, -⟩⟩ := (acceptsSplit (List.cons_ne_nil _ _)).mp accepts
    · obtain rfl : "projects/4\n/a".toList = rest := (List.cons.inj written).2
      rw [← same] at accepted
      revert accepted
      decide
    · exact absurd (closed _ rfl) (by decide)

end Written

theorem aboutBroken : ∃ p, Pattern.read "/about" = .ok p ∧ p.parameters? "/about\n" = .ok (some []) ∧
    ∀ pieces, ¬Reads p.segments "/about\n" pieces := by
  refine ⟨⟨"/about", [.fixed "about".toList]⟩, rfl, rfl, ?_⟩
  rintro pieces ⟨written, -, accepted⟩
  cases accepted with
  | cons same rest =>
    cases rest
    cases same
    revert written
    decide

end LiveMarkup.Routing
