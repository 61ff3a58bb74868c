import LiveMarkup.Analysis.Slot
import LiveMarkup.Proofs.Outcome
/-! The slots of an analysis, call by call: those of one call stand together, numbered from zero, and carry
the template and the line of the call. -/
namespace LiveMarkup.Analysis
open Syntax

variable {α β : Type}

section Notes

def Blind (m : Noting α) : Prop := ∀ notes notes', (outcome m notes).1 = (outcome m notes').1

theorem blindPure {a : α} : Blind (pure a : Noting α) := fun _ _ => rfl

theorem blindThrow {e : AnalysisError} : Blind (throw e : Noting α) := fun _ _ => rfl

theorem blindNote {n : Note} : Blind (note n) := fun _ _ => rfl

theorem blindBind {m : Noting α} {k : α → Noting β} (hm : Blind m) (hk : ∀ a, Blind (k a)) :
    Blind (m >>= k) := by
  intro notes notes'
  have same := hm notes notes'
  rw [outcomeBind, outcomeBind]
  revert same
  rcases outcome m notes with ⟨_ | a, _⟩ <;> rcases outcome m notes' with ⟨_ | b, _⟩ <;> intro same
  · exact congrArg Except.error (Except.error.inj same)
  · cases same
  · cases same
  · obtain rfl := Except.ok.inj same
    exact hk a _ _

theorem blindFail {c : Context} {p : Problem} {line : Int} : Blind (c.fail p line : Noting α) := blindThrow

theorem blindClassify {s : Scope} {e : Expr} {before template : String} {slot : Nat} {line : Int} :
    Blind (classify s e before template slot line) := by
  unfold classify
  split
  · split
    · split
      · exact blindPure
      · exact blindBind blindNote fun _ => blindPure
    · simp only
      split
      · exact blindPure
      · exact blindBind blindNote fun _ => blindPure
  · exact blindThrow

theorem blindAll {c : Context} {template : String} {line : Int} :
    (slot : Nat) → (es : List Expr) → (texts : List String) → Blind (classifyAll c template line slot es texts)
  | _, [], _ => blindPure
  | _, _ :: _, [] => blindPure
  | slot, e :: rest, before :: texts => by
    have others := @blindAll c template line (slot + 1) rest texts
    have here : Blind (do
        let first ← classify c.scope e before template slot line
        return first :: (← classifyAll c template line (slot + 1) rest texts)) :=
      blindBind blindClassify fun _ => blindBind others fun _ => blindPure
    unfold classifyAll
    split
    · exact blindBind blindFail fun _ => here
    · exact here

theorem blindSite {c : Context} {call : Call} : Blind (analyzeSite c call) := by
  unfold analyzeSite
  simp only
  split
  · refine blindBind blindFail fun _ => ?_
    split
    · exact blindFail
    split
    · exact blindBind blindNote fun _ => blindPure
    split
    · exact blindFail
    split
    · exact blindBind blindFail fun _ => blindAll _ _ _
    · exact blindAll _ _ _
  · split
    · exact blindFail
    split
    · exact blindBind blindNote fun _ => blindPure
    split
    · exact blindFail
    split
    · exact blindBind blindFail fun _ => blindAll _ _ _
    · exact blindAll _ _ _

end Notes

section Sites

def Context.lineOf (c : Context) (call : Call) : Int := call.line + c.offset

def slotsOfCall (c : Context) (call : Call) : Except AnalysisError (List Slot) :=
  (outcome (analyzeSite c call) []).1

def Call.literal? (tag : String) (call : Call) : Option (String × Nat) :=
  if call.isTemplateCall tag then
    match call.args with
    | [] => none
    | first :: values => first.text?.map fun template => (template, values.length)
  else none

inductive Placed (template : String) (line : Int) : Nat → List Slot → Prop where
  | nil {n} : Placed template line n []
  | cons {n s rest} (number : s.slot = n) (text : s.template = template) (place : s.line = line)
      (tail : Placed template line (n + 1) rest) : Placed template line n (s :: rest)

variable {c : Context} {call : Call} {notes notes' : List Note} {template : String} {line : Int}
  {slots : List Slot}

theorem classifyPlaced {s : Scope} {e : Expr} {before : String} {slot : Nat} {r : Slot}
    (h : outcome (classify s e before template slot line) notes = (.ok r, notes')) :
    r.slot = slot ∧ r.template = template ∧ r.line = line := by
  unfold classify at h
  split at h
  · split at h
    · split at h
      · cases h
        exact ⟨rfl, rfl, rfl⟩
      · obtain ⟨_, _, _, h⟩ := outcomeOk.mp h
        cases h
        exact ⟨rfl, rfl, rfl⟩
    · simp only at h
      split at h
      · cases h
        exact ⟨rfl, rfl, rfl⟩
      · obtain ⟨_, _, _, h⟩ := outcomeOk.mp h
        cases h
        exact ⟨rfl, rfl, rfl⟩
  · cases h

theorem allPlaced : {n : Nat} → {es : List Expr} → {texts : List String} → {notes notes' : List Note} →
    {slots : List Slot} → es.length ≤ texts.length →
    outcome (classifyAll c template line n es texts) notes = (.ok slots, notes') →
    Placed template line n slots ∧ slots.length = es.length
  | _, [], _, _, _, _, _, h => by
    cases h
    exact ⟨.nil, rfl⟩
  | _, _ :: _, [], _, _, _, enough, _ => absurd enough (Nat.not_succ_le_zero _)
  | n, e :: rest, before :: texts, notes, notes', slots, enough, h => by
    unfold classifyAll at h
    split at h
    · obtain ⟨_, _, failed, _⟩ := outcomeOk.mp h
      cases failed
    · simp only [outcomeOk] at h
      obtain ⟨r, notes₁, first, others, notes₂, tail, h⟩ := h
      cases h
      obtain ⟨number, text, place⟩ := classifyPlaced first
      obtain ⟨placed, length⟩ := allPlaced (Nat.le_of_succ_le_succ enough) tail
      exact ⟨.cons number text place placed, congrArg (· + 1) length⟩

theorem siteRead (h : outcome (analyzeSite c call) notes = (.ok slots, notes')) :
    ∃ first values, call.args = first :: values ∧ (first.text? = none ∧ slots = [] ∨
      ∃ template segments, first.text? = some template ∧ Template.split template = .ok segments ∧
        segments.length - 1 = values.length ∧
        outcome (classifyAll c template (c.lineOf call) 0 values segments) notes = (.ok slots, notes')) := by
  unfold analyzeSite at h
  simp only at h
  split at h
  · obtain ⟨_, _, failed, _⟩ := outcomeOk.mp h
    cases failed
  split at h
  · cases h
  next first values args =>
  refine ⟨first, values, args, ?_⟩
  split at h
  · next dynamic =>
    obtain ⟨_, _, _, h⟩ := outcomeOk.mp h
    cases h
    exact .inl ⟨dynamic, rfl⟩
  next template constant =>
  split at h
  · cases h
  next segments split =>
  split at h
  · obtain ⟨_, _, failed, _⟩ := outcomeOk.mp h
    cases failed
  next same => exact .inr ⟨template, segments, constant, split, by simpa using same, h⟩

theorem literalOf {first : Expr} {values : List Expr} (is : call.isTemplateCall c.scope.tag = true)
    (args : call.args = first :: values) :
    call.literal? c.scope.tag = first.text?.map fun template => (template, values.length) := by
  simp only [Call.literal?, if_pos is, args]

theorem sitePlaced (is : call.isTemplateCall c.scope.tag = true)
    (h : outcome (analyzeSite c call) notes = (.ok slots, notes')) :
    match call.literal? c.scope.tag with
    | some (template, count) => Placed template (c.lineOf call) 0 slots ∧ slots.length = count
    | none => slots = [] := by
  obtain ⟨first, values, args, ⟨dynamic, empty⟩ | ⟨template, segments, constant, split, count, each⟩⟩ := siteRead h
  · rw [literalOf is args, dynamic]
    exact empty
  · rw [literalOf is args, constant]
    exact allPlaced (by omega) each

def callSlots (c : Context) (call : Call) : List Slot :=
  if call.isTemplateCall c.scope.tag then (slotsOfCall c call).toOption.getD [] else []

theorem slotsByCall {calls : List Call} (h : outcome (analyzeCalls c calls) notes = (.ok slots, notes')) :
    slots = calls.flatMap (callSlots c) ∧
      ∀ call ∈ calls, call.isTemplateCall c.scope.tag = true → slotsOfCall c call = .ok (callSlots c call) := by
  induction calls generalizing notes slots with
  | nil =>
    cases h
    exact ⟨rfl, fun _ h => absurd h List.not_mem_nil⟩
  | cons call rest ih =>
    unfold analyzeCalls at h
    split at h
    · next is =>
      simp only [outcomeOk] at h
      obtain ⟨first, notes₁, site, others, notes₂, tail, h⟩ := h
      cases h
      obtain ⟨rfl, known⟩ := ih tail
      have own : slotsOfCall c call = .ok first := by
        rw [slotsOfCall, blindSite [] notes, site]
      have here : callSlots c call = first := by
        rw [callSlots, if_pos is, own]
        rfl
      refine ⟨by rw [List.flatMap_cons, here], List.forall_mem_cons.mpr ⟨fun _ => ?_, known⟩⟩
      rw [here, own]
    · next other =>
      obtain ⟨rfl, known⟩ := ih h
      have here : callSlots c call = [] := by rw [callSlots, if_neg other]
      refine ⟨by rw [List.flatMap_cons, here, List.nil_append], List.forall_mem_cons.mpr ⟨?_, known⟩⟩
      exact fun is => absurd is other

def methodCalls? (source : String) (firstLine : Int) (file : Option String) (tag : String) :
    Option (Context × List Call) :=
  let indented := isIndented source.toList
  let text := if indented then "class _Render:\n" ++ source else source
  match readStatements text with
  | .error _ => none
  | .ok body => (outermostStmt body).map fun f =>
    (⟨{ receiver := f.receiver.getD "self", tag }, firstLine - 1 - (if indented then 1 else 0), file⟩,
      callsOfBlock f.body)

theorem methodRead {source tag : String} {firstLine : Int} {file : Option String}
    (h : outcome (analyzeSource source firstLine file tag) notes = (.ok slots, notes')) :
    ∃ c calls, methodCalls? source firstLine file tag = some (c, calls) ∧ c.scope.tag = tag ∧
      outcome (analyzeCalls c calls) notes = (.ok slots, notes') := by
  unfold analyzeSource at h
  simp only at h
  generalize given : (if isIndented source.toList then "class _Render:\n" ++ source else source) = text at h
  split at h
  · obtain ⟨_, _, failed, _⟩ := outcomeOk.mp h
    cases failed
  split at h
  · cases h
  next body read =>
  split at h
  · cases h
  next f found =>
  refine ⟨_, _, ?_, rfl, h⟩
  unfold methodCalls?
  simp only [given, read, found, Option.map_some]

end Sites

end LiveMarkup.Analysis
