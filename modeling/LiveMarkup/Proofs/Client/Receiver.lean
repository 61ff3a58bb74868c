import LiveMarkup.Client.Receiver
import LiveMarkup.Proofs.Client.Forms
/-! What is left of printed code without the receiver. The code is read as marks, where a receiver
prefix is one mark and any other character is one as well. Stripping removes every prefix, and more
only where other text reads the same. -/
namespace LiveMarkup.Client
open Syntax Text

abbrev Mark := Option Char

namespace Mark

def receiver : List Char := ['t', 'h', 'i', 's', '.']

def spell (marks : List Mark) : List Char :=
  marks.flatMap fun | none => receiver | some c => [c]

def bare (marks : List Mark) : List Char := marks.filterMap id

def ofText (s : String) : List Mark := s.toList.map some

def inWordAfter (inWord : Bool) : List Mark → Bool
  | [] => inWord
  | none :: rest => inWordAfter false rest
  | some c :: rest => inWordAfter (isWord c) rest

def fronts (inWord : Bool) : List Mark → Bool
  | [] => true
  | none :: rest => !inWord && fronts false rest
  | some c :: rest => fronts (isWord c) rest

def Clear (inWord : Bool) (marks : List Mark) : Prop :=
  ∀ before rest, marks = before ++ receiver.map some ++ rest → inWordAfter inWord before = true

def strip : Bool → List Mark → List Char
  | _, [] => []
  | _, none :: rest => strip false rest
  | false, some 't' :: some 'h' :: some 'i' :: some 's' :: some '.' :: rest => strip false rest
  | _, some c :: rest => c :: strip (isWord c) rest

@[simp] theorem spellAppend {a b : List Mark} : spell (a ++ b) = spell a ++ spell b := by
  simp [spell]

@[simp] theorem bareAppend {a b : List Mark} : bare (a ++ b) = bare a ++ bare b := by
  simp [bare]

@[simp] theorem spellOfText {s : String} : spell (ofText s) = s.toList := by
  simp [spell, ofText, List.flatMap_map]

@[simp] theorem bareOfText {s : String} : bare (ofText s) = s.toList := by
  simp [bare, ofText, List.filterMap_map]

theorem ofTextAppend {s t : String} : ofText (s ++ t) = ofText s ++ ofText t := by
  rw [ofText, String.toList_append, List.map_append]
  rfl

theorem inWordAfterAppend {w : Bool} {a b : List Mark} :
    inWordAfter w (a ++ b) = inWordAfter (inWordAfter w a) b := by
  induction a generalizing w with
  | nil => rfl
  | cons m rest ih => cases m <;> exact ih

theorem frontsAppend {w : Bool} {a b : List Mark} :
    fronts w (a ++ b) = (fronts w a && fronts (inWordAfter w a) b) := by
  induction a generalizing w with
  | nil => rfl
  | cons m rest ih =>
    cases m with
    | none => simp [fronts, inWordAfter, ih, Bool.and_assoc]
    | some c => simp [fronts, inWordAfter, ih]

theorem frontsText {w : Bool} {cs : List Char} : fronts w (cs.map some) = true := by
  induction cs generalizing w with
  | nil => rfl
  | cons c rest ih => exact ih

theorem stripFromKeep {w : Bool} {c : Char} {rest : List Char}
    (h : w = false → ∀ q, c :: rest ≠ 't' :: 'h' :: 'i' :: 's' :: '.' :: q) :
    stripFrom w (c :: rest) = c :: stripFrom (isWord c) rest := by
  rw [stripFrom]
  intro q front first same
  exact h front q (by rw [first, same])

theorem spellCons {c : Char} {marks : List Mark} {q : List Char} (h : spell marks = c :: q)
    (other : c ≠ 't') : ∃ rest, marks = some c :: rest ∧ spell rest = q := by
  cases marks with
  | nil => contradiction
  | cons m rest =>
    cases m with
    | none =>
      have first : 't' = c := (List.cons.inj h).1
      exact absurd first.symm other
    | some d =>
      obtain ⟨rfl, rfl⟩ := List.cons.inj h
      exact ⟨rest, rfl, rfl⟩

theorem stripFromSpell {w : Bool} {marks : List Mark} (h : fronts w marks = true) :
    stripFrom w (spell marks) = strip w marks := by
  fun_induction strip w marks with
  | case1 => simp [spell, stripFrom]
  | case2 w rest ih =>
    simp only [fronts, Bool.and_eq_true, Bool.not_eq_true'] at h
    obtain ⟨rfl, h⟩ := h
    exact ih h
  | case3 rest ih => exact ih h
  | case4 w c rest plain ih =>
    have keep : stripFrom w (c :: spell rest) = c :: stripFrom (isWord c) (spell rest) := by
      refine stripFromKeep fun front q same => ?_
      obtain ⟨rfl, hisDot⟩ := List.cons.inj same
      obtain ⟨_, rfl, isDot⟩ := spellCons hisDot (by decide)
      obtain ⟨_, rfl, sDot⟩ := spellCons isDot (by decide)
      obtain ⟨_, rfl, dot⟩ := spellCons sDot (by decide)
      obtain ⟨_, rfl, _⟩ := spellCons dot (by decide)
      exact plain _ front rfl rfl
    exact keep.trans (congrArg (c :: ·) (ih h))

theorem stripLength {w : Bool} {marks : List Mark} :
    (strip w marks).length ≤ (bare marks).length := by
  fun_induction strip w marks with
  | case1 => exact Nat.le_refl _
  | case2 w rest ih => exact ih
  | case3 rest ih => simp only [bare, List.filterMap_cons, id, List.length_cons] at ih ⊢; omega
  | case4 w c rest plain ih => exact Nat.succ_le_succ ih

theorem clearCons {w : Bool} {m : Mark} {rest : List Mark} (h : Clear w (m :: rest)) :
    Clear (inWordAfter w [m]) rest := by
  intro before after same
  have tail := h (m :: before) after (by rw [same]; rfl)
  rwa [show m :: before = [m] ++ before from rfl, inWordAfterAppend] at tail

theorem stripBareIff {w : Bool} {marks : List Mark} : strip w marks = bare marks ↔ Clear w marks := by
  fun_induction strip w marks with
  | case1 w =>
    refine ⟨fun _ before after same => ?_, fun _ => rfl⟩
    have := congrArg List.length same
    simp [receiver] at this
  | case2 w rest ih =>
    refine ih.trans ⟨fun clear before after same => ?_, fun clear => clearCons clear⟩
    cases before with
    | nil => cases (List.cons.inj same).1
    | cons m before =>
      obtain ⟨rfl, tail⟩ := List.cons.inj same
      exact clear before after tail
  | case3 rest ih =>
    constructor
    · intro same
      have shorter := @stripLength false rest
      have longer := congrArg List.length same
      simp only [bare, List.filterMap_cons, id, List.length_cons] at shorter longer
      omega
    · intro clear
      exact absurd (clear [] rest rfl) (by decide)
  | case4 w c rest plain ih =>
    have kept : c :: strip (isWord c) rest = bare (some c :: rest) ↔ strip (isWord c) rest = bare rest :=
      ⟨fun same => (List.cons.inj same).2, congrArg (c :: ·)⟩
    refine (kept.trans ih).trans ⟨fun clear before after same => ?_, fun clear => clearCons clear⟩
    cases before with
    | nil =>
      obtain ⟨first, tail⟩ := List.cons.inj same
      cases first
      cases w with
      | true => rfl
      | false => exact (plain _ rfl tail rfl).elim
    | cons m before =>
      obtain ⟨rfl, tail⟩ := List.cons.inj same
      exact clear before after tail

end Mark

namespace Code
open Mark

def marks : Code → List Mark
  | text s => ofText s
  | access _ shown => none :: ofText shown
  | component => ofText "this"
  | «variable» _ shown => ofText shown
  | arrow params listed body => ofText (paramsText params listed ++ " => ") ++ body.marks
  | join first second => first.marks ++ second.marks

def writeBare : Code → String
  | text s => s
  | access _ shown => shown
  | component => "this"
  | «variable» _ shown => shown
  | arrow params listed body => paramsText params listed ++ " => " ++ body.writeBare
  | join first second => first.writeBare ++ second.writeBare

theorem marksText {s : String} : (text s).marks = ofText s := rfl

theorem marksAppend {a b : Code} : (a ++ b).marks = a.marks ++ b.marks := rfl

theorem spellMarks {c : Code} : spell c.marks = c.write.toList := by
  induction c with
  | access field shown =>
    have prefixed : spell (none :: ofText shown) = receiver ++ spell (ofText shown) := rfl
    rw [marks, prefixed, spellOfText, write, String.toList_append]
    rfl
  | arrow params listed body ih => simp [marks, write, ih]
  | join first second ih₁ ih₂ =>
    have written : (join first second).write = first.write ++ second.write := rfl
    rw [marks, spellAppend, ih₁, ih₂, written, String.toList_append]
  | _ => exact spellOfText

theorem bareMarks {c : Code} : bare c.marks = c.writeBare.toList := by
  induction c with
  | access field shown => exact bareOfText
  | arrow params listed body ih => simp [marks, writeBare, ih]
  | join first second ih₁ ih₂ => simp [marks, writeBare, ih₁, ih₂]
  | _ => exact bareOfText

def Clear (c : Code) : Prop := Mark.Clear false c.marks

def Fronted (c : Code) : Prop := fronts false c.marks = true

def Loose (c : Code) : Prop := ∀ w, fronts w c.marks = true

theorem strippedFronted {c : Code} (h : c.Fronted) :
    stripReceiver c.write = String.ofList (strip false c.marks) := by
  rw [stripReceiver, ← spellMarks, stripFromSpell h]

theorem strippedBareIff {c : Code} (h : c.Fronted) :
    stripReceiver c.write = c.writeBare ↔ c.Clear := by
  rw [strippedFronted h, ← String.toList_inj, String.toList_ofList, ← bareMarks]
  exact stripBareIff

theorem Loose.fronted {c : Code} (h : c.Loose) : c.Fronted := h false

theorem looseText {s : String} : (text s).Loose := fun _ => frontsText

theorem looseAppend {a b : Code} (ha : a.Loose) (hb : b.Loose) : (a ++ b).Loose := by
  intro w
  rw [marksAppend, frontsAppend, ha, hb, Bool.and_self]

theorem frontedAppend {a b : Code} (ha : a.Fronted) (hb : b.Loose) : (a ++ b).Fronted := by
  rw [Fronted, marksAppend, frontsAppend, ha, hb, Bool.and_self]

def Closes (c : Code) : Prop := ∀ w, inWordAfter w c.marks = false

def endsWord (s : String) : Bool := inWordAfter true (ofText s)

theorem closesText {s : String} (h : endsWord s = false) : (text s).Closes := by
  intro w
  unfold endsWord ofText at h
  unfold marks ofText
  cases hs : s.toList with
  | nil => rw [hs] at h; contradiction
  | cons c rest => rw [hs] at h; exact h

theorem closesAppend {a b : Code} (h : b.Closes) : (a ++ b).Closes := by
  intro w
  rw [marksAppend, inWordAfterAppend, h]

theorem frontedClosed {a b : Code} (ha : a.Fronted) (closed : a.Closes) (hb : b.Fronted) :
    (a ++ b).Fronted := by
  rw [Fronted, marksAppend, frontsAppend, closed, ha, hb, Bool.and_self]

theorem looseClosed {a b : Code} (ha : a.Loose) (closed : a.Closes) (hb : b.Fronted) :
    (a ++ b).Loose := by
  intro w
  rw [marksAppend, frontsAppend, closed, ha, hb, Bool.and_self]

theorem looseBehind {s : String} {c : Code} (h : endsWord s = false) (hc : c.Fronted) :
    (text s ++ c).Loose := looseClosed looseText (closesText h) hc

theorem frontedBetween {a b : Code} {s : String} (h : endsWord s = false) (ha : a.Fronted)
    (hb : b.Fronted) : (a ++ text s ++ b).Fronted :=
  frontedClosed (frontedAppend ha looseText) (closesAppend (closesText h)) hb

theorem looseGroup {c : Code} (h : c.Fronted) : c.group.Loose :=
  looseAppend (looseBehind (by decide) h) looseText

theorem frontedSeparated {sep : String} (h : endsWord sep = false) : {codes : List Code} →
    (∀ c ∈ codes, c.Fronted) → (separated sep codes).Fronted
  | [], _ => looseText.fronted
  | [c], hc => hc c List.mem_cons_self
  | c :: _ :: _, hc =>
    frontedBetween h (hc c List.mem_cons_self)
      (frontedSeparated h fun e he => hc e (List.mem_cons_of_mem c he))

theorem looseConcat {codes : List Code} (h : ∀ c ∈ codes, c.Loose) : (concat codes).Loose := by
  induction codes with
  | nil => exact looseText
  | cons c rest ih =>
    exact looseAppend (h c List.mem_cons_self) (ih fun e he => h e (List.mem_cons_of_mem c he))

theorem looseArguments {codes : List Code} (h : ∀ c ∈ codes, c.Fronted) : (arguments codes).Loose :=
  looseGroup (frontedSeparated (by decide) h)

theorem looseArrow {params : List String} {listed : Bool} {body : Code} (h : body.Fronted) :
    (arrow params listed body).Loose := by
  have split : (arrow params listed body).marks =
      (text (paramsText params listed) ++ text " => " ++ body).marks := by
    rw [marksAppend, marksAppend, marksText, marksText, ← ofTextAppend]
    rfl
  intro w
  rw [split]
  exact looseClosed (looseAppend looseText looseText) (closesAppend (closesText (by decide))) h w

end Code

open Code Mark

theorem frontedWrapped {e : Expr} {c : Code} (h : c.Fronted) : (wrapped e c).Fronted := by
  unfold wrapped
  split
  · exact (looseGroup h).fronted
  · exact h

theorem frontedBody {body : Expr} {c : Code} (h : c.Fronted) : (arrowBody body c).Fronted := by
  unfold arrowBody
  split
  · exact (looseGroup h).fronted
  · exact h

theorem frontedMember {s : Scope} {object : Expr} {c : Code} {name shown : String} (h : c.Fronted) :
    (memberCode s object c name shown).Fronted := by
  unfold memberCode
  split
  · exact frontsText
  · exact frontedAppend (frontedWrapped h) (looseAppend looseText looseText)

theorem constantForm {k : Constant} {c : Code} (h : constantCode k = .ok c) : ∃ t, c = .text t := by
  unfold constantCode at h
  split at h <;> cases h <;> exact ⟨_, rfl⟩

theorem frontedName {s : Scope} {id : String} : (nameCode s id).Fronted := by
  unfold nameCode
  split <;> exact frontsText

theorem frontedComparison {left right : Expr} {l r part : Code} {op : CompareOp} (hl : l.Fronted)
    (hr : r.Fronted) (form : ComparisonForm left right l r op part) : part.Fronted := by
  have contained : (wrapped right r ++ text ".includes(" ++ l ++ text ")").Fronted :=
    frontedAppend (frontedBetween (by decide) (frontedWrapped hr) hl) looseText
  cases form with
  | member => exact contained
  | notMember => exact (looseBehind (by decide) contained).fronted
  | nullRight => exact frontedAppend (frontedWrapped hl) looseText
  | nullLeft => exact frontedAppend (frontedWrapped hr) looseText
  | between =>
    exact frontedClosed
      (frontedAppend (frontedWrapped hl) (looseAppend (looseAppend looseText looseText) looseText))
      (closesAppend (closesAppend (closesText (by decide)))) (frontedWrapped hr)

theorem looseTwo {s t : String} : (text s ++ text t).Loose := looseAppend looseText looseText

theorem frontedUnwritten {id : String} {c : Code} (h : c.Fronted) :
    (.variable id "" ++ c : Code).Fronted := by
  have unwritten : (Code.variable id "").marks = [] := rfl
  rw [Fronted, marksAppend, unwritten]
  exact h

theorem frontedSlice {b l : Code} (hb : b.Fronted) (hl : l.Fronted) :
    (b ++ text ".slice(" ++ l).Fronted := frontedBetween (by decide) hb hl

mutual

theorem frontedOf {s e c} : Prints s e c → c.Fronted
  | .constant form => by
    obtain ⟨t, rfl⟩ := constantForm form
    exact looseText.fronted
  | .name => frontedName
  | .field object => frontedMember (frontedOf object)
  | .starred inner => (looseBehind (by decide) (frontedWrapped (frontedOf inner))).fronted
  | .template _ values => frontedAppend frontsText (looseArguments (frontedAll values))
  | .assignment _ written _ _ assigned =>
    frontedBetween (by decide) (frontedUnwritten (frontedMember (frontedOf written)))
      (frontedOf assigned)
  | .length _ object =>
    frontedAppend (frontedUnwritten (frontedWrapped (frontedOf object))) looseText
  | .mapped _ _ values => frontedAppend frontsText (looseArguments (frontedAll values))
  | .named _ _ _ values => frontedAppend frontedName (looseArguments (frontedAll values))
  | .templateMethod _ values =>
    frontedAppend looseText.fronted (looseArguments (frontedAll values))
  | .joinedBy _ separator items =>
    frontedAppend (frontedAppend (frontedWrapped (frontedOf items)) looseText)
      (looseGroup (frontedOf separator))
  | .method _ _ base values =>
    frontedAppend (frontedMember (frontedOf base)) (looseArguments (frontedAll values))
  | .applied _ _ callee values =>
    frontedAppend (frontedWrapped (frontedOf callee)) (looseArguments (frontedAll values))
  | .floorDiv first second =>
    frontedAppend (frontedBetween (by decide)
      (looseBehind (by decide) (frontedWrapped (frontedOf first))).fronted
      (frontedWrapped (frontedOf second))) looseText
  | .binary first second _ =>
    frontedClosed (frontedAppend (frontedWrapped (frontedOf first)) (looseAppend looseTwo looseText))
      (closesAppend (closesAppend (closesText (by decide)))) (frontedWrapped (frontedOf second))
  | @Prints.unary _ op _ _ inner => by
    refine (looseBehind ?_ (frontedWrapped (frontedOf inner))).fronted
    cases op <;> decide
  | @Prints.boolean _ op _ _ all => by
    refine frontedSeparated ?_ (frontedOperands all)
    cases op <;> decide
  | .comparison first second form => frontedComparison (frontedOf first) (frontedOf second) form
  | .chain _ all => by
    have parts := frontedChain all
    refine frontedSeparated (by decide) fun c hc => ?_
    obtain ⟨part, hpart, rfl⟩ := List.mem_map.mp hc
    exact (looseGroup (parts part hpart)).fronted
  | .conditional first second third =>
    frontedBetween (by decide)
      (frontedBetween (by decide) (frontedWrapped (frontedOf first)) (frontedWrapped (frontedOf second)))
      (frontedWrapped (frontedOf third))
  | .slice object low high =>
    frontedAppend (frontedBetween (by decide)
      (frontedSlice (frontedWrapped (frontedOf object)) (frontedBound low)) (frontedOf high)) looseText
  | .sliceRest object low =>
    frontedAppend (frontedSlice (frontedWrapped (frontedOf object)) (frontedBound low)) looseText
  | .fromEnd _ object inner =>
    frontedAppend (frontedBetween (by decide) (frontedWrapped (frontedOf object)) (frontedOf inner))
      looseText
  | .subscript _ object inner =>
    frontedAppend (frontedBetween (by decide) (frontedWrapped (frontedOf object)) (frontedOf inner))
      looseText
  | .list all | .tuple all =>
    frontedAppend (looseBehind (by decide) (frontedSeparated (by decide) (frontedAll all))).fronted
      looseText
  | .dict all =>
    frontedAppend (looseBehind (by decide) (frontedSeparated (by decide) (frontedEntries all))).fronted
      looseText
  | .joined all =>
    frontedAppend (looseAppend looseText (looseConcat (looseParts all))).fronted looseText
  | .lambda _ inner => (looseArrow (frontedBody (frontedOf inner))).fronted
  | .listComp all | .generator all => frontedComprehension all
  | .assigned inner => frontedBetween (by decide) frontedName (frontedOf inner)

theorem frontedAll {s es codes} : PrintsAll s es codes → ∀ c ∈ codes, c.Fronted
  | .nil => by simp
  | .cons head tail => List.forall_mem_cons.mpr ⟨frontedOf head, frontedAll tail⟩

theorem frontedOperands {s es codes} : PrintsOperands s es codes → ∀ c ∈ codes, c.Fronted
  | .nil => by simp
  | .cons head tail =>
    List.forall_mem_cons.mpr ⟨frontedWrapped (frontedOf head), frontedOperands tail⟩

theorem frontedBound {s bound c} : PrintsBound s bound c → c.Fronted
  | .none => looseText.fronted
  | .some inner => frontedOf inner

theorem frontedChain {s left rest parts} : PrintsChain s left rest parts → ∀ c ∈ parts, c.Fronted
  | .nil => by simp
  | .cons first second form tail =>
    List.forall_mem_cons.mpr
      ⟨frontedComparison (frontedOf first) (frontedOf second) form, frontedChain tail⟩

theorem frontedEntries {s entries codes} : PrintsEntries s entries codes → ∀ c ∈ codes, c.Fronted
  | .nil => by simp
  | .spread head tail =>
    List.forall_mem_cons.mpr
      ⟨(looseBehind (by decide) (frontedWrapped (frontedOf head))).fronted, frontedEntries tail⟩
  | .literal _ name head tail =>
    List.forall_mem_cons.mpr
      ⟨frontedBetween (by decide) (frontedOf name) (frontedOf head), frontedEntries tail⟩
  | .computed _ name head tail =>
    List.forall_mem_cons.mpr
      ⟨frontedBetween (by decide)
        (frontedAppend (looseBehind (by decide) (frontedOf name)).fronted looseText) (frontedOf head),
        frontedEntries tail⟩

theorem looseParts {s parts codes} : PrintsParts s parts codes → ∀ c ∈ codes, c.Loose
  | .nil => by simp
  | .text tail => List.forall_mem_cons.mpr ⟨looseText, looseParts tail⟩
  | .formatted head tail =>
    List.forall_mem_cons.mpr
      ⟨looseAppend (looseBehind (by decide) (frontedOf head)) looseText, looseParts tail⟩

theorem frontedComprehension {s item clauses c} : PrintsComprehension s item clauses c → c.Fronted
  | .mk _ outer guards element => by
    have filters := frontedAll guards
    refine frontedAppend (frontedAppend (frontedAppend (frontedAppend
      (frontedWrapped (frontedOf outer)) (looseConcat fun f hf => ?_)) looseText)
      (looseArrow (frontedOf element))) looseText
    obtain ⟨g, hg, rfl⟩ := List.mem_map.mp hf
    exact looseAppend (looseAppend looseText (looseArrow (filters g hg))) looseText

end

end LiveMarkup.Client
