import LiveMarkup.Proofs.Analysis.Chain
import LiveMarkup.Proofs.Client.Uses
/-! The names that are free in the client code of a slot: those that its expression uses outside of its own functions
and comprehensions. What stands around the expression plays no part. -/
namespace LiveMarkup.Client
open Syntax Analysis

/-- The name is used where no parameter of that name stands around it. -/
def FreeIn (name : String) (us : List Use) : Prop := ∃ u ∈ us, u.1 = name ∧ ¬Bound name u.2

instance {name : String} {b : Binders} : Decidable (Bound name b) := inferInstanceAs (Decidable (∃ names ∈ b, name ∈ names))

instance {name : String} {us : List Use} : Decidable (FreeIn name us) :=
  inferInstanceAs (Decidable (∃ u ∈ us, u.1 = name ∧ ¬Bound name u.2))

section Names

variable {name : String} {us vs : List Use} {s : Scope} {b : Binders} {e : Expr} {c : Code}

theorem freeAlike (h : Alike us vs) : FreeIn name us ↔ FreeIn name vs := exists_congr fun u => and_congr_left' (h u)

theorem freeAppend : FreeIn name (us ++ vs) ↔ FreeIn name us ∨ FreeIn name vs := by
  simp only [FreeIn, List.mem_append, or_and_right, exists_or]

theorem freeOf (h : Prints s e c) : FreeIn name (c.names b) ↔ FreeIn name (uses s b e) := freeAlike (refersOf h).names

example : FreeIn "String" (uses {} [] (.call 0 (.name "str") [.name "n"] [])) ∧
    ¬FreeIn "str" (uses {} [] (.call 0 (.name "str") [.name "n"] [])) := by decide

theorem bodyRefers {params : LambdaParams} {body : Expr} {d : Code} (h : bodyCode s params body = .ok d) :
    Refers b d (uses (s.bind params.names) b body) := by
  rcases bodyForm h with whole | ⟨items, codes, rfl, all, rfl⟩
  · exact refersOf whole
  · exact refersSeparated (by decide) (refersArgs all)

theorem freeMethod {line : Nat} {object arg : Expr} {field : String} (other : field ≠ s.tag) :
    FreeIn name (uses s b (.call line (.field object field) [arg] [])) ↔
      FreeIn name (uses s b object) ∨ FreeIn name (uses s b arg) := by
  rw [uses, if_neg other, usesAll, usesAll, List.append_nil, freeAppend]

end Names

end LiveMarkup.Client

namespace LiveMarkup.Analysis
open Syntax Client

section Chains

variable {s : Scope} {b : Binders} {e : Expr} {ch : Chain} {name : String}

theorem chainNamed (tag : s.tag = "html") : ch.Named s := by
  rw [Chain.Named, tag]
  exact ⟨by decide, fun _ => by decide⟩

theorem freeChain (tag : s.tag = "html") (shape : chain? e = some ch) : FreeIn name (uses s b e) ↔
    FreeIn name (uses s b ch.promise) ∨ FreeIn name (uses s b ch.thenCallback) ∨
      ∃ g, ch.catchCallback = some g ∧ FreeIn name (uses s b g) := by
  have next : "then" ≠ s.tag := tag ▸ by decide
  have last : "catch" ≠ s.tag := tag ▸ by decide
  unfold chain? at shape
  split at shape
  · cases shape
    simp [freeMethod next]
  · cases shape
    simp [freeMethod last, freeMethod next, or_assoc]
  · cases shape

theorem partsPrinted {text : String} (named : ch.Named s) (shape : chain? e = some ch) (h : print s e = .ok text) :
    ∃ p, printChainParts s e ch = .ok p := by
  unfold chain? at shape
  split at shape
  · cases shape
    obtain ⟨t, callback, ⟨tag, _⟩ | ⟨_, q, promise, _⟩⟩ := methodPrinted ⟨by decide, rfl⟩ h
    · exact absurd tag named.1
    · refine ⟨⟨text, q, t, none⟩, ?_⟩
      rw [printChainParts, h, promise, callback]
      rfl
  · cases shape
    obtain ⟨g, recovered, ⟨tag, _⟩ | ⟨_, inner, caught, _⟩⟩ := methodPrinted ⟨by decide, rfl⟩ h
    · exact absurd tag (named.2 rfl)
    obtain ⟨t, callback, ⟨tag, _⟩ | ⟨_, q, promise, _⟩⟩ := methodPrinted ⟨by decide, rfl⟩ caught
    · exact absurd tag named.1
    · refine ⟨⟨text, q, t, some g⟩, ?_⟩
      simp only [printChainParts, h, promise, callback, recovered]
      rfl
  · cases shape

end Chains

section Slots

variable {s : Scope} {e : Expr} {r : Slot} {name : String}

theorem bodyPrintable {params : LambdaParams} {body : Expr} {c : Code} (h : code s (.lambda params body) = .ok c) :
    ∃ d, bodyCode s params body = .ok d := by
  cases printsOf _ h with
  | lambda plain inner =>
    unfold bodyCode
    simp only [plain, Bool.not_true, Bool.false_eq_true, if_false]
    split
    · next items =>
      cases inner with
      | tuple all => exact ⟨_, by rw [codeAllOf all]; rfl⟩
    · exact ⟨_, codeOf inner⟩

theorem translatableIff (tag : s.tag = "html") (h : Analyzed s e r) :
    r.translatable = true ↔ ∃ c, code s e = .ok c := by
  obtain ⟨before, template, slot, line, notes, notes', h⟩ := h
  refine ⟨fun translatable => ?_, fun ⟨c, whole⟩ => ?_⟩
  · cases classified h translatable with
    | chain _ whole | function _ whole | plain whole => exact ⟨_, whole⟩
  · have text : print s e = .ok c.write := mapOk.mpr ⟨c, whole, rfl⟩
    unfold classify at h
    cases written : e.source? with
    | none =>
      rw [written] at h
      cases h
    | some expression =>
      simp only [written] at h
      cases shape : chain? e with
      | some ch =>
        obtain ⟨p, parts⟩ := partsPrinted (chainNamed tag) shape text
        simp only [shape, parts] at h
        cases h
        rfl
      | none =>
        obtain ⟨p, parts⟩ : ∃ p, printSlot s e = .ok p := by
          cases form : lambdaParams? e with
          | none => exact ⟨(c.write, none), by rw [printSlot, text, form]; rfl⟩
          | some lambda =>
            obtain rfl := lambdaShape form
            obtain ⟨d, inner⟩ := bodyPrintable whole
            have statements : printBody s lambda.1 lambda.2 = .ok d.write := mapOk.mpr ⟨d, inner, rfl⟩
            refine ⟨(c.write, some d.write), ?_⟩
            simp only [printSlot, text, form, statements]
            rfl
        simp only [shape, parts] at h
        cases h
        rfl

def FreeInSlot (s : Scope) (e : Expr) (r : Slot) (name : String) : Prop :=
  ∃ t ∈ r.clientTexts, ∃ c ms, Runs s e c t.2 ms ∧ c.write = t.1 ∧ FreeIn name (c.names t.2)

theorem freeRuns (tag : s.tag = "html") {c : Code} {b : Binders} {ms : List Mention} (h : Runs s e c b ms)
    (free : FreeIn name (c.names b)) : FreeIn name (uses s [] e) := by
  cases h with
  | value coded => exact (freeOf (printsOf _ coded)).mp free
  | handler shape coded =>
    rw [shape, uses]
    exact (freeAlike (bodyRefers coded).names).mp free
  | promise shape coded => exact (freeChain tag shape).mpr (.inl ((freeOf (printsOf _ coded)).mp free))
  | callback shape coded => exact (freeChain tag shape).mpr (.inr (.inl ((freeOf (printsOf _ coded)).mp free)))
  | recovery shape given coded =>
    exact (freeChain tag shape).mpr (.inr (.inr ⟨_, given, (freeOf (printsOf _ coded)).mp free⟩))

theorem freeSlot (tag : s.tag = "html") (h : Analyzed s e r) (translatable : r.translatable = true) :
    FreeInSlot s e r name ↔ FreeIn name (uses s [] e) := by
  obtain ⟨before, template, slot, line, notes, notes', h⟩ := h
  constructor
  · rintro ⟨_, _, c, ms, runs, _, free⟩
    exact freeRuns tag runs free
  · intro free
    -- It is enough to find the text that the name is written in, with the code of that text.
    have stands {t : String} {b : Binders} {c : Code} {ms : List Mention} (listed : (t, b) ∈ r.clientTexts)
        (runs : Runs s e c b ms) (written : c.write = t) (free : FreeIn name (c.names b)) : FreeInSlot s e r name :=
      ⟨(t, b), listed, c, ms, runs, written, free⟩
    cases classified h translatable with
    | plain whole source fields kind absent =>
      refine stands (List.mem_append_left _ ?_) (.value whole) source.symm ((freeOf (printsOf _ whole)).mpr free)
      simp [kind.1, kind.2.2]
    | function shape whole inner sources =>
      rw [shape, uses] at free
      refine stands (List.mem_append_right _ (List.mem_append_left _ ?_)) (.handler shape inner) rfl
        ((freeAlike (bodyRefers inner).names).mpr free)
      simp [sources.2.1, sources.2.2]
    | @chain ch _ _ _ shape whole promise callback recovery sources =>
      obtain ⟨p, parts, _, _, _, caught⟩ := classifiedChain h translatable shape
      have listed {t : String} (h : r.promiseSource = some t ∨ r.thenCallback = some t ∨ r.catchCallback = some t) :
          (t, []) ∈ r.clientTexts := by
        refine List.mem_append_right _ (List.mem_append_right _ (List.mem_map.mpr ⟨t, ?_, rfl⟩))
        simpa [Option.mem_toList, or_assoc] using h
      rcases (freeChain tag shape).mp free with free | free | ⟨g, given, free⟩
      · exact stands (listed (.inl sources.2.1)) (.promise shape promise) rfl ((freeOf (printsOf _ promise)).mpr free)
      · exact stands (listed (.inr (.inl sources.2.2))) (.callback shape callback) rfl
          ((freeOf (printsOf _ callback)).mpr free)
      · -- The classification only leads from the text to the callback; the parts lead back.
        have both := (chainParts parts).2.2.2
        rw [given, Option.map_some] at both
        obtain ⟨t, text, printed⟩ := Option.map_eq_some_iff.mp both.symm
        obtain ⟨d, coded, written⟩ := printedCode printed.symm
        exact stands (listed (.inr (.inr (caught.trans text)))) (.recovery shape given coded) written
          ((freeOf (printsOf _ coded)).mpr free)

end Slots

end LiveMarkup.Analysis
