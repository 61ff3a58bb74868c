import LiveMarkup.Proofs.Analysis.Slot
import LiveMarkup.Proofs.Client.Receiver
/-! What the names in client code refer to once the receiver is gone. Fields and parameters share one
namespace then, so a parameter may hide a field, or a name that is printed in another way. -/
namespace LiveMarkup.Client
open Syntax Analysis

def Bound (name : String) (b : Binders) : Prop := ∃ names ∈ b, name ∈ names

def leading (shown : String) : String := String.ofList (shown.toList.takeWhile (· != '.'))

def Resolves : Mention → Prop
  | (.field field (some shown) _, b) => shown = field ∧ ¬Bound shown b
  | (.field _ none _, _) => True
  | (.component, b) => ¬Bound "this" b
  | (.variable id shown, b) => (Bound id b → shown = id) ∧ (¬Bound id b → ¬Bound (leading shown) b)

def Apart (ms : List Mention) : Prop :=
  ∀ id id' shown b b', (.variable id shown, b) ∈ ms → (.variable id' shown, b') ∈ ms →
    shown ≠ "" → id = id'

def Uncaptured (ms : List Mention) : Prop := (∀ m ∈ ms, Resolves m) ∧ Apart ms

theorem uncapturedAlike {ms ns : List Mention} (h : Alike ms ns) : Uncaptured ms ↔ Uncaptured ns := by
  have transport {ms ns : List Mention} (h : Alike ms ns) (free : Uncaptured ms) : Uncaptured ns :=
    ⟨fun m hm => free.1 m ((h m).mpr hm), fun id id' shown b b' first second =>
      free.2 id id' shown b b' ((h _).mpr first) ((h _).mpr second)⟩
  exact ⟨transport h, transport fun m => (h m).symm⟩

theorem printedVariable {w : Word} {id text : String} :
    w.printed? = some (.variable id text) ↔ w = .variable id text := by
  cases w with
  | field name shown? written => cases shown? <;> simp [Word.printed?]
  | component => simp [Word.printed?]
  | «variable» id text => simp [Word.printed?]

theorem resolvesPrinted {w w' : Word} {b : Binders} (h : w.printed? = some w') :
    Resolves (w', b) ↔ Resolves (w, b) := by
  cases w with
  | field name shown? written =>
    cases shown? with
    | none => cases h
    | some shown => cases h; rfl
  | component => cases h; rfl
  | «variable» id text => cases h; rfl

theorem resolvesHidden {w : Word} {b : Binders} (h : w.printed? = none) : Resolves (w, b) := by
  cases w with
  | field name shown? written =>
    cases shown? with
    | none => trivial
    | some shown => cases h
  | component => cases h
  | «variable» id text => cases h

theorem variableShown {ms : List Mention} {id text : String} {b : Binders} :
    (.variable id text, b) ∈ shown ms ↔ (.variable id text, b) ∈ ms := by
  rw [memShown]
  constructor
  · rintro ⟨w, hw, printed⟩
    obtain rfl := printedVariable.mp printed
    exact hw
  · exact fun h => ⟨_, h, rfl⟩

theorem uncapturedShown {ms : List Mention} : Uncaptured (shown ms) ↔ Uncaptured ms := by
  refine and_congr ⟨fun h => ?_, fun h => ?_⟩ ?_
  · rintro ⟨w, b⟩ hm
    cases printed : w.printed? with
    | none => exact resolvesHidden printed
    | some w' => exact (resolvesPrinted printed).mp (h (w', b) (memShown.mpr ⟨w, hm, printed⟩))
  · rintro ⟨w', b⟩ hm
    obtain ⟨w, hw, printed⟩ := memShown.mp hm
    exact (resolvesPrinted printed).mpr (h (w, b) hw)
  · simp only [Apart, variableShown]

theorem uncapturedOf {s : Scope} {b : Binders} {e : Expr} {c : Code} (h : Prints s e c) :
    Uncaptured (c.mentions b) ↔ Uncaptured (words s b e) :=
  (uncapturedAlike (mentionsOf h)).trans uncapturedShown

theorem bodyMentions {s : Scope} {b : Binders} {params : LambdaParams} {body : Expr} {d : Code}
    (h : bodyCode s params body = .ok d) :
    Alike (d.mentions b) (shown (words (s.bind params.names) b body)) := by
  rcases bodyForm h with whole | ⟨items, codes, rfl, all, rfl⟩
  · exact mentionsOf whole
  · rw [Code.mentionsSeparated, words]
    exact mentionsAll all

theorem bodyFronted {s : Scope} {params : LambdaParams} {body : Expr} {d : Code}
    (h : bodyCode s params body = .ok d) : d.Fronted := by
  rcases bodyForm h with whole | ⟨items, codes, rfl, all, rfl⟩
  · exact frontedOf whole
  · exact Code.frontedSeparated (by decide) (frontedAll all)

end LiveMarkup.Client

namespace LiveMarkup.Analysis
open Syntax Client

/-- The client code `c` of a slot's expression, the parameters around it, and what the expression names
there. A function runs as its body, under the parameters of the handler. -/
inductive Runs (s : Scope) (e : Expr) : Code → Binders → List Mention → Prop where
  | value {c} (coded : code s e = .ok c) : Runs s e c [] (words s [] e)
  | handler {params body d} (shape : e = .lambda params body) (coded : bodyCode s params body = .ok d) :
      Runs s e d [params.names] (words (s.bind params.names) [params.names] body)
  | promise {ch c} (shape : chain? e = some ch) (coded : code s ch.promise = .ok c) :
      Runs s e c [] (words s [] ch.promise)
  | callback {ch c} (shape : chain? e = some ch) (coded : code s ch.thenCallback = .ok c) :
      Runs s e c [] (words s [] ch.thenCallback)
  | recovery {ch g c} (shape : chain? e = some ch) (given : ch.catchCallback = some g)
      (coded : code s g = .ok c) : Runs s e c [] (words s [] g)

theorem runsUncaptured {s : Scope} {e : Expr} {c : Code} {b : Binders} {ms : List Mention}
    (h : Runs s e c b ms) : c.Fronted ∧ (Uncaptured (c.mentions b) ↔ Uncaptured ms) := by
  cases h with
  | value coded => exact ⟨frontedOf (printsOf _ coded), uncapturedOf (printsOf _ coded)⟩
  | handler shape coded =>
    exact ⟨bodyFronted coded, (uncapturedAlike (bodyMentions coded)).trans uncapturedShown⟩
  | promise shape coded => exact ⟨frontedOf (printsOf _ coded), uncapturedOf (printsOf _ coded)⟩
  | callback shape coded => exact ⟨frontedOf (printsOf _ coded), uncapturedOf (printsOf _ coded)⟩
  | recovery shape given coded => exact ⟨frontedOf (printsOf _ coded), uncapturedOf (printsOf _ coded)⟩

/-- The texts of a slot that can reach the script, each with the parameters that it stands under there. A handler is
written as a whole where its slot stands beside other text. -/
def Slot.clientTexts (r : Slot) : List (String × List (List String)) :=
  (if r.isAsync || (r.isFunction && !r.isEvent) then [] else [(r.source, [])]) ++
    (r.bodySource.toList.map (·, [r.params]) ++ (r.promiseSource.toList ++ r.thenCallback.toList ++
      r.catchCallback.toList).map (·, []))

theorem clientTextRuns {s : Scope} {e : Expr} {r : Slot} (h : Classified s e r) :
    ∀ t ∈ r.clientTexts, ∃ c ms, Runs s e c t.2 ms ∧ c.write = t.1 := by
  intro t ht
  cases h with
  | chain shape whole promise callback recovery sources fields kind absent =>
    simp only [Slot.clientTexts, kind.1, absent.1, sources.2.1, sources.2.2, Bool.true_or, if_true,
      Option.toList_none, Option.toList_some, List.map_nil, List.nil_append, List.mem_map,
      List.mem_append, List.mem_singleton, Option.mem_toList] at ht
    obtain ⟨g, (rfl | rfl) | caught, rfl⟩ := ht
    · exact ⟨_, _, .promise shape promise, rfl⟩
    · exact ⟨_, _, .callback shape callback, rfl⟩
    · obtain ⟨e, d, given, coded, rfl⟩ := recovery g caught
      exact ⟨d, _, .recovery shape given coded, rfl⟩
  | function shape whole inner sources fields kind absent =>
    simp only [Slot.clientTexts, kind.1, kind.2, sources.1, sources.2.1, sources.2.2, absent.1, absent.2.1, absent.2.2,
      Bool.false_or, Bool.true_and, Option.toList_none, Option.toList_some, List.map_nil, List.map_cons,
      List.append_nil, List.mem_append, List.mem_singleton] at ht
    rcases ht with ht | rfl
    · split at ht
      · cases ht
      · obtain rfl := List.mem_singleton.mp ht
        exact ⟨_, _, .value whole, rfl⟩
    · exact ⟨_, _, .handler shape inner, rfl⟩
  | plain whole source fields kind absent =>
    simp only [Slot.clientTexts, kind.1, kind.2.2, source, absent.1, absent.2.2.1, absent.2.2.2.1,
      absent.2.2.2.2, Bool.false_and, Bool.or_self, Bool.false_eq_true, if_false, Option.toList_none, List.map_nil,
      List.append_nil, List.mem_singleton] at ht
    subst ht
    exact ⟨_, _, .value whole, rfl⟩

/-- No name is captured in the client code of a slot, if and only if the expression gives no occasion:
no parameter of a function or a comprehension has the name of a field that is used under it, is called
`this` or shares its name with a function that is printed under another one. -/
theorem captureFree {s : Scope} {e : Expr} {before template : String} {slot : Nat} {line : Int}
    {notes notes' : List Note} {r : Slot}
    (h : outcome (classify s e before template slot line) notes = (.ok r, notes'))
    (translatable : r.translatable = true) :
    ∀ t ∈ r.clientTexts, ∃ c ms, Runs s e c t.2 ms ∧ c.write = t.1 ∧
      stripReceiver t.1 = String.ofList (Mark.strip false c.marks) ∧
      (Uncaptured (c.mentions t.2) ↔ Uncaptured ms) := by
  intro t ht
  obtain ⟨c, ms, runs, written⟩ := clientTextRuns (classified h translatable) t ht
  obtain ⟨fronted, free⟩ := runsUncaptured runs
  exact ⟨c, ms, runs, written, written ▸ Code.strippedFronted fronted, free⟩

theorem classifiedOk {s : Scope} {e : Expr} {before template : String} {slot : Nat} {line : Int}
    {P : Slot → Bool}
    (h : (outcome (classify s e before template slot line) []).1.toOption.any P = true) :
    ∃ r notes, outcome (classify s e before template slot line) [] = (.ok r, notes) ∧ P r = true := by
  generalize outcome (classify s e before template slot line) [] = o at h
  obtain ⟨_ | r, notes⟩ := o
  · cases h
  · exact ⟨r, notes, rfl, h⟩

def taking (name : String) : LambdaParams := .mk [] [name] none [] [] none []

def setCount (name : String) : Expr :=
  .call 0 (.name "setattr") [.name "self", .constant (.text "count" false), .name name] []

theorem setterCaptureFree :
    ∃ r : Slot, r.translatable = true ∧
      r.clientTexts = [("(n) => this.count = n", []), ("this.count = n", [["n"]])] ∧
      ∀ t ∈ r.clientTexts, ∃ c ms, Runs {} (.lambda (taking "n") (setCount "n")) c t.2 ms ∧
        c.write = t.1 ∧ stripReceiver t.1 = String.ofList (Mark.strip false c.marks) ∧
        (Uncaptured (c.mentions t.2) ↔ Uncaptured ms) := by
  obtain ⟨r, notes, ran, is⟩ := @classifiedOk {} (.lambda (taking "n") (setCount "n"))
    "<input oninput=" "<input oninput=\x7b\x7d>" 0 1
    (fun r => r.translatable && r.clientTexts == [("(n) => this.count = n", []), ("this.count = n", [["n"]])])
    (by decide +kernel)
  obtain ⟨translatable, texts⟩ := Bool.and_eq_true_iff.mp is
  exact ⟨r, translatable, by simpa using texts, captureFree ran translatable⟩

theorem parameterCaptures :
    (∃ c, code {} (.lambda (taking "this") (.name "this")) = .ok c ∧
      c.write = "(this) => this_" ∧ ¬Uncaptured (c.mentions [])) ∧
    ∃ c, bodyCode {} (taking "count") (setCount "count") = .ok c ∧
      stripReceiver c.write = "count = count" ∧ ¬Uncaptured (c.mentions [["count"]]) := by
  refine ⟨⟨.arrow ["this"] false (.variable "this" "this_"), rfl, by decide, fun free => ?_⟩,
    ⟨.variable "setattr" "" ++ .access "count" "count" ++ " = " ++ .variable "count" "count", rfl,
      by decide +kernel, fun free => ?_⟩⟩
  · have resolved := (free.1 (.variable "this" "this_", [["this"]]) List.mem_cons_self).1
    exact absurd (resolved ⟨["this"], List.mem_cons_self, List.mem_cons_self⟩) (by decide)
  · have shadowed : Resolves (.field "count" (some "count") false, [["count"]]) :=
      free.1 _ (List.mem_append_left _ (List.mem_append_left _ (List.mem_append_right _ List.mem_cons_self)))
    exact shadowed.2 ⟨["count"], List.mem_cons_self, List.mem_cons_self⟩

end LiveMarkup.Analysis
