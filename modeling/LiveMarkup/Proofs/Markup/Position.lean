import LiveMarkup.Proofs.Markup.Standard
import LiveMarkup.Template.Place
import Mathlib.Data.List.Induction
import Mathlib.Tactic.SplitIfs
/-! Where the tokenizer is inside a tag, and what it read last to be there. -/
namespace LiveMarkup.Standard
open Text Template

variable {t : Tokenizer} {c q : Char} {m w : List Char} {name : List Char} {quote? : Option Char}

section Inside

theorem readInside (inside : (read m).state = .quoted q) (none : q ∉ w) :
    read (m ++ w) = { read m with value := (read m).value ++ w } := by
  rw [readAppend]
  generalize read m = t at inside
  induction w generalizing t with
  | nil => simp
  | cons c w ih =>
    obtain ⟨other, none⟩ := not_or.mp (fun h => none (List.mem_cons.mpr h))
    have same : t.step c = t.extendValue c := by
      rw [Tokenizer.step, inside]
      exact if_neg (Ne.symm other)
    rw [List.foldl_cons, same, ih none _ (by exact inside)]
    simp [Tokenizer.extendValue]

def Tokenizer.shape (t : Tokenizer) : Tokenizer := { t with value := [] }

theorem shapeText {content : Content} : (t.shape.inText content c).shape = (t.inText content c).shape := by
  cases content with
  | plain => rfl
  | _ =>
    simp only [Tokenizer.inText]
    split_ifs <;> rfl

theorem shapeAttribute : (t.shape.atAttribute c).shape = (t.atAttribute c).shape := by
  unfold Tokenizer.atAttribute
  split_ifs <;> rfl

theorem shapeSkip : (t.shape.skip c).shape = (t.skip c).shape := by
  unfold Tokenizer.skip
  split_ifs <;> rfl

theorem shapeStep : (t.shape.step c).shape = (t.step c).shape := by
  have same : t.shape.state = t.state := rfl
  have name : t.shape.tag = t.tag := rfl
  simp only [Tokenizer.step, same]
  split
  case h_1 => exact shapeText
  case h_2 content _ =>
    cases content <;> simp only [Tokenizer.behindAngle] <;> split_ifs <;> first | rfl | exact shapeText
  case h_3 content _ =>
    cases content <;> simp only [Tokenizer.behindSlash] <;> split_ifs <;>
      first | rfl | exact shapeText | exact shapeSkip
  case h_4 name' _ =>
    have begun : t.shape.beginTag true name' = (t.beginTag true name').shape := rfl
    simp only [Tokenizer.inClosingName, name, begun]
    split_ifs <;> first | rfl | exact shapeText | exact shapeAttribute
  case h_6 | h_12 | h_13 => exact shapeAttribute
  case h_15 => exact shapeSkip
  case h_14 => split_ifs <;> first | rfl | exact shapeSkip
  case h_16 ending _ =>
    cases ending <;> simp only [Tokenizer.inComment] <;> split_ifs <;> rfl
  case h_17 => split_ifs <;> first | rfl | exact shapeText
  case h_18 | h_19 =>
    simp only [Tokenizer.inScriptName]
    split_ifs <;> first | rfl | exact shapeText
  all_goals split_ifs <;> rfl

theorem shapeRead {t' : Tokenizer} {rest : List Char} (same : t.shape = t'.shape) :
    (rest.foldl Tokenizer.step t).shape = (rest.foldl Tokenizer.step t').shape := by
  induction rest generalizing t t' with
  | nil => exact same
  | cons c rest ih =>
    refine ih ?_
    rw [← shapeStep, same, shapeStep]

end Inside

section Traced

namespace State

def inTag : State → Bool
  | tagName | beforeAttribute | attributeName | afterAttribute | beforeValue | quoted _ | unquoted | afterValue
  | selfClosing => true
  | _ => false

def enters : State → Bool
  | beforeAttribute | afterAttribute | afterValue | selfClosing => true
  | _ => false

def reached (c : Char) : State → Prop
  | beforeAttribute => isMarkupBlank c
  | selfClosing => c = '/'
  | tagName => True
  | s => s.inTag = false

end State

theorem reachedOutside {s : State} (h : s.inTag = false) : s.reached c := by
  cases s <;> first | exact h | cases h

theorem textOutside {content : Content} : (t.inText content c).state.inTag = false := by
  cases content with
  | plain => rfl
  | _ =>
    simp only [Tokenizer.inText]
    split_ifs <;> rfl

theorem skipOutside : (t.skip c).state.inTag = false := by
  unfold Tokenizer.skip
  split_ifs <;> rfl

theorem outsideStep (h : t.state.inTag = false) : (t.step c).state.reached c := by
  cases s : t.state with
  | text content =>
    simp only [Tokenizer.step, s]
    exact reachedOutside textOutside
  | angle content =>
    simp only [Tokenizer.step, s]
    cases content <;> simp only [Tokenizer.behindAngle] <;> split_ifs <;>
      first | exact trivial | rfl | exact reachedOutside textOutside
  | closing content =>
    simp only [Tokenizer.step, s]
    cases content <;> simp only [Tokenizer.behindSlash] <;> split_ifs <;>
      first | exact trivial | rfl | exact reachedOutside textOutside | exact reachedOutside skipOutside
  | closingName content name =>
    simp only [Tokenizer.step, s, Tokenizer.inClosingName]
    split_ifs with letter ends
    · rfl
    · simp only [Tokenizer.atAttribute]
      split_ifs with blank slash angle
      · exact blank
      · exact slash
      · rfl
      · exact absurd ends.2 (by simp [blank, slash, angle])
    · exact reachedOutside textOutside
  | declaration dash =>
    simp only [Tokenizer.step, s]
    split_ifs <;> first | rfl | exact reachedOutside skipOutside
  | skipped =>
    simp only [Tokenizer.step, s]
    exact reachedOutside skipOutside
  | comment ending =>
    simp only [Tokenizer.step, s]
    cases ending <;> simp only [Tokenizer.inComment] <;> split_ifs <;> rfl
  | escape dash =>
    simp only [Tokenizer.step, s]
    split_ifs <;> first | rfl | exact reachedOutside textOutside
  | doubling name | undoubling name =>
    simp only [Tokenizer.step, s, Tokenizer.inScriptName]
    split_ifs <;> first | rfl | exact reachedOutside textOutside
  | _ =>
    rw [s] at h
    cases h

structure Named (front raw : List Char) (tag : Tag) : Prop where
  enters : (read front).state.enters
  name : tag.attributes.head? = some (raw.map Char.toLower)

def Traced (m : List Char) (t : Tokenizer) : Prop :=
  match t.state with
  | .attributeName => ∃ front raw, m = front ++ raw ∧ Named front raw t.tag
  | .afterAttribute => ∃ front raw lead c, m = front ++ raw ++ (lead ++ [c]) ∧ Named front raw t.tag ∧
      (∀ b ∈ lead ++ [c], isMarkupBlank b)
  | .beforeValue => ∃ front raw lead trail, m = front ++ raw ++ lead ++ '=' :: trail ∧ Named front raw t.tag ∧
      (∀ b ∈ lead, isMarkupBlank b) ∧ ∀ b ∈ trail, isMarkupBlank b
  | .quoted q => isQuote q ∧ q ∉ t.value ∧ ∃ front, m = front ++ q :: t.value ∧ (read front).state = .beforeValue ∧
      (read front).tag = t.tag
  | .beforeAttribute => ∃ front c, m = front ++ [c] ∧ isMarkupBlank c
  | .afterValue => ∃ front c, m = front ++ [c] ∧ isQuote c
  | .selfClosing => ∃ front, m = front ++ ['/']
  | _ => True

theorem tracedOutside (h : t.state.reached c) : Traced (m ++ [c]) t := by
  unfold Traced
  cases s : t.state <;> rw [s] at h <;> try exact trivial
  case beforeAttribute => exact ⟨m, c, rfl, h⟩
  case selfClosing =>
    obtain rfl : c = '/' := h
    exact ⟨m, rfl⟩
  all_goals cases h

theorem tracedFinish : Traced m t.finishTag := by
  unfold Traced Tokenizer.finishTag
  exact trivial

theorem tracedAttribute (enters : (read m).state.enters) : Traced (m ++ [c]) ((read m).atAttribute c) := by
  unfold Tokenizer.atAttribute
  split_ifs with blank slash angle
  · exact ⟨m, c, rfl, blank⟩
  · exact ⟨m, by rw [slash]⟩
  · exact tracedFinish
  · exact ⟨m, [c], rfl, enters, rfl⟩

theorem tracedStep (h : Traced m (read m)) : Traced (m ++ [c]) ((read m).step c) := by
  cases s : (read m).state with
  | tagName =>
    simp only [Tokenizer.step, s]
    split_ifs with blank slash angle
    · exact ⟨m, c, rfl, blank⟩
    · exact ⟨m, by rw [slash]⟩
    · exact tracedFinish
    · simp only [Traced, Tokenizer.extendTag, s]
  | beforeAttribute | afterValue | selfClosing =>
    simp only [Tokenizer.step, s]
    exact tracedAttribute (by rw [s]; rfl)
  | attributeName =>
    simp only [Traced, s] at h
    obtain ⟨front, raw, same, named⟩ := h
    simp only [Tokenizer.step, s]
    split_ifs with blank slash angle equals
    · exact ⟨front, raw, [], c, by rw [same]; rfl, named, by simpa using blank⟩
    · exact ⟨m, by rw [slash]⟩
    · exact tracedFinish
    · exact ⟨front, raw, [], [], by simp [same, equals], named, by simp, by simp⟩
    · simp only [Traced, Tokenizer.extendAttribute, s]
      exact ⟨front, raw ++ [c], by simp [same], named.enters, by simp [List.head?_modifyHead, named.name]⟩
  | afterAttribute =>
    have enters : (read m).state.enters := by rw [s]; rfl
    simp only [Traced, s] at h
    obtain ⟨front, raw, lead, b, same, named, blanks⟩ := h
    simp only [Tokenizer.step, s]
    split_ifs with blank slash equals angle
    · simp only [Traced, s]
      refine ⟨front, raw, lead ++ [b], c, by simp [same], named, fun d mem => ?_⟩
      rcases List.mem_append.mp mem with mem | mem
      · exact blanks d mem
      · exact List.mem_singleton.mp mem ▸ blank
    · exact ⟨m, by rw [slash]⟩
    · exact ⟨front, raw, lead ++ [b], [], by simp [same, equals], named, blanks, by simp⟩
    · exact tracedFinish
    · exact ⟨m, [c], rfl, enters, rfl⟩
  | beforeValue =>
    have kept := h
    simp only [Traced, s] at h
    obtain ⟨front, raw, lead, trail, same, named, blanks, more⟩ := h
    simp only [Tokenizer.step, s]
    split_ifs with blank quote angle
    · simp only [Traced, s]
      refine ⟨front, raw, lead, trail ++ [c], by simp [same], named, blanks, fun d mem => ?_⟩
      rcases List.mem_append.mp mem with mem | mem
      · exact more d mem
      · exact List.mem_singleton.mp mem ▸ blank
    · refine ⟨?_, List.not_mem_nil, m, rfl, s, rfl⟩
      rcases quote with rfl | rfl <;> rfl
    · exact tracedFinish
    · exact trivial
  | quoted q =>
    simp only [Traced, s] at h
    obtain ⟨quote, outside, front, same, before, tag⟩ := h
    simp only [Tokenizer.step, s]
    split_ifs with ends
    · exact ⟨m, c, rfl, ends ▸ quote⟩
    · simp only [Traced, Tokenizer.extendValue, s]
      refine ⟨quote, ?_, front, ?_, before, tag⟩
      · simp [outside, Ne.symm ends]
      · exact (congrArg (· ++ [c]) same).trans (by simp)
  | unquoted =>
    simp only [Tokenizer.step, s]
    split_ifs with blank angle
    · exact ⟨m, c, rfl, blank⟩
    · exact tracedFinish
    · simp only [Traced, Tokenizer.extendValue, s]
  | _ => exact tracedOutside (outsideStep (by rw [s]; rfl))

theorem traced : Traced m (read m) := by
  induction m using List.reverseRecOn with
  | nil => exact trivial
  | append_singleton m c ih =>
    rw [readSnoc]
    exact tracedStep ih

end Traced

end LiveMarkup.Standard
