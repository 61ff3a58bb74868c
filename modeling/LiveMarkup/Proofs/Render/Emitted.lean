import LiveMarkup.Proofs.Render.Names
/-! What a script is made of. It cannot be made if a field has no value that it could start with. Otherwise it holds each
field, each element and each record once, in order. -/
namespace LiveMarkup

namespace Value

inductive Scalar : Value → Prop where
  | none : Scalar .none
  | truth (b : Bool) : Scalar (.truth b)
  | whole (n : Int) (short : (Nat.toDigits 10 n.natAbs).length ≤ 4300) : Scalar (.whole n)
  | real (x : Binary64) : Scalar (.real x)
  | text (s : String) : Scalar (.text s)
  | markup (s : String) : Scalar (.markup s)
  | rendered (output body : String) (owner : Option Nat) : Scalar (.rendered output body owner)

inductive Formed : Value → Prop where
  | scalar {v} (h : Scalar v) : Formed v
  | list {items} (each : ∀ v ∈ items, Formed v) : Formed (.list items)
  | tuple {items} (each : ∀ v ∈ items, Formed v) : Formed (.tuple items)
  | dict {entries} (keys : ∀ entry ∈ entries, Scalar entry.1) (each : ∀ entry ∈ entries, Formed entry.2) :
      Formed (.dict entries)

section Forms

variable {v : Value} {items : List Value} {entries : List (Value × Value)}

theorem wholeShort {n : Int} {s : String} (h : wholeLiteral n = .ok s) : Scalar (.whole n) := by
  unfold wholeLiteral at h
  split at h
  · next short => exact .whole n (of_decide_eq_true short)
  · cases h

theorem shortWritten {n : Int} (short : (Nat.toDigits 10 n.natAbs).length ≤ 4300) : wholeLiteral n = .ok (toString n) :=
  if_pos (decide_eq_true short)

theorem keyScalar {s : String} (h : v.keyText = .ok s) : Scalar v := by
  cases v with
  | whole n => exact wholeShort h
  | _ => first | cases h; done | constructor

theorem keyWritten (h : Scalar v) : ∃ s, v.keyText = .ok s := by
  cases h with
  | whole n short => exact ⟨_, shortWritten short⟩
  | _ => exact ⟨_, rfl⟩

mutual

theorem literalFormed : (v : Value) → {s : String} → v.literal = .ok s → Formed v
  | .none, _, _ => .scalar .none
  | .truth b, _, _ => .scalar (.truth b)
  | .whole n, _, h => .scalar (wholeShort h)
  | .real x, _, _ => .scalar (.real x)
  | .text s, _, _ => .scalar (.text s)
  | .markup s, _, _ => .scalar (.markup s)
  | .rendered output body owner, _, _ => .scalar (.rendered output body owner)
  | .list items, _, h => by
    obtain ⟨texts, made, -⟩ := bindOk.mp h
    exact .list (literalsFormed items made)
  | .tuple items, _, h => by
    obtain ⟨texts, made, -⟩ := bindOk.mp h
    exact .tuple (literalsFormed items made)
  | .dict entries, _, h => by
    obtain ⟨texts, made, -⟩ := bindOk.mp h
    have each := entriesFormed entries made
    exact .dict (fun entry mem => (each entry mem).1) fun entry mem => (each entry mem).2
  | .bytes _, _, h | .generator _, _, h | .set _, _, h | .safe _, _, h | .object _, _, h | .promise .., _, h
  | .component _, _, h => by cases h

theorem literalsFormed : (vs : List Value) → {texts : List String} → literals vs = .ok texts → ∀ v ∈ vs, Formed v
  | [], _, _ => nofun
  | v :: rest, _, h => by
    obtain ⟨first, made, h⟩ := bindOk.mp h
    obtain ⟨more, others, -⟩ := bindOk.mp h
    exact List.forall_mem_cons.mpr ⟨literalFormed v made, literalsFormed rest others⟩

theorem entriesFormed : (entries : List (Value × Value)) → {texts : List String} → entryLiterals entries = .ok texts →
    ∀ entry ∈ entries, Scalar entry.1 ∧ Formed entry.2
  | [], _, _ => nofun
  | (k, v) :: rest, _, h => by
    obtain ⟨key, named, h⟩ := bindOk.mp h
    obtain ⟨first, made, h⟩ := bindOk.mp h
    obtain ⟨more, others, -⟩ := bindOk.mp h
    exact List.forall_mem_cons.mpr ⟨⟨keyScalar named, literalFormed v made⟩, entriesFormed rest others⟩

end

theorem literalsMade (each : ∀ v ∈ items, ∃ s, v.literal = .ok s) : ∃ texts, literals items = .ok texts := by
  induction items with
  | nil => exact ⟨[], rfl⟩
  | cons v items ih =>
    obtain ⟨⟨first, made⟩, others⟩ := List.forall_mem_cons.mp each
    obtain ⟨texts, rest⟩ := ih others
    exact ⟨first :: texts, by rw [literals, made, rest]; rfl⟩

theorem entriesMade (keys : ∀ entry ∈ entries, Scalar entry.1) (each : ∀ entry ∈ entries, ∃ s, entry.2.literal = .ok s) :
    ∃ texts, entryLiterals entries = .ok texts := by
  induction entries with
  | nil => exact ⟨[], rfl⟩
  | cons entry entries ih =>
    obtain ⟨scalar, keys⟩ := List.forall_mem_cons.mp keys
    obtain ⟨⟨first, made⟩, others⟩ := List.forall_mem_cons.mp each
    obtain ⟨key, named⟩ := keyWritten scalar
    obtain ⟨texts, rest⟩ := ih keys others
    exact ⟨(encodeText key ++ ": " ++ first) :: texts, by rw [entryLiterals, named, made, rest]; rfl⟩

theorem formedLiteral (h : Formed v) : ∃ s, v.literal = .ok s := by
  induction h with
  | scalar h =>
    cases h with
    | whole n short => exact ⟨_, shortWritten short⟩
    | _ => exact ⟨_, rfl⟩
  | list _ ih | tuple _ ih =>
    obtain ⟨texts, made⟩ := literalsMade ih
    exact ⟨_, by rw [literal, made]; rfl⟩
  | dict keys _ ih =>
    obtain ⟨texts, made⟩ := entriesMade keys ih
    exact ⟨_, by rw [literal, made]; rfl⟩

theorem literalIff : (∃ s, v.literal = .ok s) ↔ Formed v := ⟨fun ⟨_, made⟩ => literalFormed v made, formedLiteral⟩

end Forms

end Value

namespace Client

structure FirstSeen (names items : List String) : Prop where
  once : names.Nodup
  members : ∀ s, s ∈ names ↔ s ∈ items
  ordered : names.Pairwise fun s t => items.idxOf s < items.idxOf t

section Distinct

variable {items : List String} {a : String} {p : String → Bool}

theorem distinctStep : distinct (items ++ [a]) = if a ∈ items then distinct items else distinct items ++ [a] := by
  have step : distinct (items ++ [a]) = if (distinct items).contains a then distinct items else distinct items ++ [a] :=
    List.foldl_concat ..
  rw [step]
  simp only [List.contains_iff_mem, memDistinct]

theorem distinctFirst : FirstSeen (distinct items) items := by
  refine ⟨addNodup List.nodup_nil, fun s => memDistinct, ?_⟩
  induction items using List.reverseRecOn with
  | nil => exact .nil
  | append_singleton items a ih =>
    have kept {s : String} (mem : s ∈ distinct items) : (items ++ [a]).idxOf s = items.idxOf s :=
      List.idxOf_append_of_mem (memDistinct.mp mem)
    have before : (distinct items).Pairwise fun s t => (items ++ [a]).idxOf s < (items ++ [a]).idxOf t :=
      ih.imp_of_mem fun mem mem' less => by rwa [kept mem, kept mem']
    rw [distinctStep]
    split
    · exact before
    · next new =>
      refine List.pairwise_append.mpr ⟨before, List.pairwise_singleton .., fun s mem t last => ?_⟩
      rw [List.mem_singleton.mp last, kept mem, List.idxOf_append_of_notMem new]
      exact Nat.lt_of_lt_of_le (List.idxOf_lt_length_iff.mpr (memDistinct.mp mem)) (Nat.le_add_right ..)

theorem distinctFind : (distinct items).find? p = items.find? p := by
  induction items using List.reverseRecOn with
  | nil => rfl
  | append_singleton items a ih =>
    rw [distinctStep, List.find?_append]
    split
    · next known =>
      rw [ih]
      cases found : items.find? p with
      | some b => rfl
      | none =>
        have other : p a = false := by simpa using List.find?_eq_none.mp found a known
        simp [other]
    · rw [List.find?_append, ih]

end Distinct

section Refused

variable {c : Component} {r : Records} {name : String} {e : ScriptError}

def Startable (c : Component) (name : String) : Prop := isVariable name ∧ ∃ v, c.get? name = some v ∧ v.Formed

inductive Refused (c : Component) (name : String) : ScriptError → Prop where
  | unusable (named : isVariable name = false) : Refused c name (.unusable c.className name)
  | missing (named : isVariable name) (absent : c.get? name = none) : Refused c name (.missing c.className name)
  | formless {v cause} (named : isVariable name) (held : c.get? name = some v) (formless : ¬v.Formed)
      (told : v.literal = .error cause) : Refused c name (.noLiteral c.className name v.typeName cause)

theorem startableIff : (∃ literal, fieldLiteral c name = .ok literal) ↔ Startable c name := by
  unfold fieldLiteral
  constructor
  · rintro ⟨literal, made⟩
    split at made
    · cases made
    next named =>
    split at made
    · cases made
    next v held =>
    split at made
    · next told => exact ⟨by simpa using named, v, held, Value.literalIff.mp ⟨_, told⟩⟩
    · cases made
  · rintro ⟨named, v, held, formed⟩
    obtain ⟨s, made⟩ := Value.literalIff.mpr formed
    simp [named, held, made]

theorem literalHeld {literal : String} (h : fieldLiteral c name = .ok literal) : ∃ v s, c.get? name = some v ∧
    v.literal = .ok s ∧ literal = String.ofList (Text.Json.guardClosing s.toList) := by
  unfold fieldLiteral at h
  split at h
  · cases h
  split at h
  · cases h
  next v held =>
  split at h
  · next s made => exact ⟨v, s, held, made, (Except.ok.inj h).symm⟩
  · cases h

theorem refusedIff : fieldLiteral c name = .error e ↔ Refused c name e := by
  unfold fieldLiteral
  constructor
  · intro failed
    split at failed
    · next named =>
      cases failed
      exact .unusable (by simpa using named)
    next named =>
    have named : isVariable name := by simpa using named
    split at failed
    · next absent =>
      cases failed
      exact .missing named absent
    next v held =>
    split at failed
    · cases failed
    · next told =>
      cases failed
      refine .formless named held (fun formed => ?_) told
      obtain ⟨s, made⟩ := Value.literalIff.mpr formed
      rw [told] at made
      cases made
  · rintro (named | ⟨named, absent⟩ | ⟨named, held, formless, told⟩)
    · simp [named]
    · simp [named, absent]
    · simp [named, held, told]

variable {α β ε : Type} {f : α → Except ε β} {xs : List α}

theorem pureFails {x : Except ε α} {g : α → β} {e : ε} : (x >>= fun a => pure (g a)) = .error e ↔ x = .error e := by
  cases x <;> simp [bind, Except.bind, pure, Except.pure]

theorem mapError {e : ε} : xs.mapM f = .error e ↔ ∃ x, xs.find? (fun x => !(f x).isOk) = some x ∧ f x = .error e := by
  induction xs with
  | nil => exact ⟨nofun, nofun⟩
  | cons x xs ih =>
    rw [List.mapM_cons]
    cases first : f x with
    | error e' =>
      have found : (x :: xs).find? (fun x => !(f x).isOk) = some x := List.find?_cons_of_pos (by simp [first, Except.isOk, Except.toBool])
      rw [found]
      constructor
      · intro failed
        cases failed
        exact ⟨x, rfl, first⟩
      · rintro ⟨_, ⟨⟩, failed⟩
        rw [first] at failed
        cases failed
        rfl
    | ok y =>
      have skipped : (x :: xs).find? (fun x => !(f x).isOk) = xs.find? (fun x => !(f x).isOk) :=
        List.find?_cons_of_neg (by simp [first, Except.isOk, Except.toBool])
      rw [skipped, ← ih]
      cases xs.mapM f with
      | error => exact Iff.rfl
      | ok => exact ⟨nofun, nofun⟩

theorem declareFails : declareField c name = .error e ↔ Refused c name e := by
  rw [← refusedIff]
  exact pureFails

theorem declareMade : (declareField c name).isOk ↔ Startable c name := by
  rw [← startableIff, declareField]
  cases fieldLiteral c name with
  | error => exact ⟨nofun, nofun⟩
  | ok literal => exact ⟨fun _ => ⟨literal, rfl⟩, fun _ => rfl⟩

theorem scriptFails : script c r = .error e ↔ ∃ before name after, r.mentions = before ++ name :: after ∧
    (∀ f ∈ before, Startable c f) ∧ Refused c name e := by
  have mapped : script c r = .error e ↔ (distinct r.mentions).mapM (declareField c) = .error e :=
    pureFails
  rw [mapped, mapError]
  simp only [distinctFind, List.find?_eq_some_iff_append]
  constructor
  · rintro ⟨name, ⟨-, before, after, split, made⟩, failed⟩
    exact ⟨before, name, after, split, fun f mem => declareMade.mp (by simpa using made f mem), declareFails.mp failed⟩
  · rintro ⟨before, name, after, split, made, refused⟩
    have failed := declareFails.mpr refused
    refine ⟨name, ⟨by rw [failed]; rfl, before, after, split, fun f mem => ?_⟩, failed⟩
    rw [declareMade.mpr (made f mem)]
    rfl

theorem scriptSucceeds : (∃ text, script c r = .ok text) ↔ ∀ f ∈ r.mentions, Startable c f := by
  constructor
  · rintro ⟨text, made⟩ f mem
    obtain ⟨lines, mapped, -⟩ := bindOk.mp made
    obtain ⟨line, -, declared⟩ := memMapped mapped (memDistinct.mpr mem)
    exact declareMade.mp (by rw [declared]; rfl)
  · intro all
    cases made : script c r with
    | ok text => exact ⟨text, rfl⟩
    | error e =>
      obtain ⟨before, name, after, split, -, refused⟩ := scriptFails.mp made
      have declared := declareMade.mpr (all name (split ▸ List.mem_append_right _ List.mem_cons_self))
      rw [declareFails.mpr refused] at declared
      cases declared

end Refused

end Client

namespace Render
open Client

namespace Statement

def field? : Statement → Option (String × String)
  | field name literal => some (name, literal)
  | _ => none

def element? : Statement → Option String
  | element id => some id
  | _ => none

def isFunction : Statement → Bool
  | function .. => true
  | _ => false

def handler? : Statement → Option Handler
  | handler h => some h
  | _ => none

def chain? : Statement → Option AsyncBinding
  | chain a => some a
  | _ => none

end Statement

inductive Uses (r : Records) : Statement → String → Prop where
  | binding {b} (mem : b ∈ r.bindings) : Uses r (updateFunction r) b.id
  | handler {h} (mem : h ∈ r.handlers) : Uses r (.handler h) h.id
  | chain {a} (mem : a ∈ r.asyncBindings) : Uses r (.chain a) a.id

/-- What the statements of a script hold. Fields and elements come in the order in which the records name them first, the
fields before all else and the elements before their uses; each record has its place in the order of its list. -/
structure Emitted (c : Component) (r : Records) (all : List Statement) : Prop where
  fields : FirstSeen ((all.filterMap (·.field?)).map (·.1)) r.mentions
  literals : ∀ p ∈ all.filterMap (·.field?), ∃ v s, c.get? p.1 = some v ∧ v.literal = .ok s ∧
    p.2 = String.ofList (Text.Json.guardClosing s.toList)
  front : all.Pairwise fun s t => t.field?.isSome → s.field?.isSome
  elements : FirstSeen (all.filterMap (·.element?)) r.ids
  known : ∀ before s after, all = before ++ s :: after → ∀ id, Uses r s id → .element id ∈ before
  functions : all.filter (·.isFunction) = helperFunctions r ++ [updateFunction r]
  handlers : all.filterMap (·.handler?) = r.handlers
  chains : all.filterMap (·.chain?) = r.asyncBindings

section Emission

variable {c : Component} {r : Records} {literals : List (String × String)} {α : Type} {pick : Statement → Option α}

def laterStatements (r : Records) : List Statement :=
  helperFunctions r ++ [updateFunction r] ++ r.handlers.map .handler ++ r.asyncBindings.map .chain

theorem statementsShape : scriptStatements literals r =
    literals.map (fun p => .field p.1 p.2) ++ (distinct r.ids).map .element ++ laterStatements r := by
  simp only [scriptStatements, laterStatements, List.append_assoc]

theorem helpersFunctions : ∀ s ∈ helperFunctions r ++ [updateFunction r], s.isFunction := by
  unfold helperFunctions attributeFunction promiseFunctions updateFunction
  split <;> split <;> simp [Statement.isFunction]

theorem statementsPicked (functions : ∀ s, s.isFunction → pick s = none) :
    (scriptStatements literals r).filterMap pick =
      literals.filterMap (fun p => pick (.field p.1 p.2)) ++ (distinct r.ids).filterMap (fun id => pick (.element id)) ++
        r.handlers.filterMap (fun h => pick (.handler h)) ++ r.asyncBindings.filterMap (fun a => pick (.chain a)) := by
  have none : (helperFunctions r ++ [updateFunction r]).filterMap pick = [] :=
    List.filterMap_eq_nil_iff.mpr fun s mem => functions s (helpersFunctions s mem)
  rw [statementsShape, laterStatements]
  simp only [List.filterMap_append, List.filterMap_map] at none ⊢
  simp only [none, List.nil_append, List.append_assoc]
  rfl

theorem functionsKept : (scriptStatements literals r).filter (·.isFunction) = helperFunctions r ++ [updateFunction r] := by
  have kept := List.filter_eq_self.mpr (@helpersFunctions r)
  have others {β : Type} (make : β → Statement) (xs : List β) (apart : ∀ x, (make x).isFunction = false) :
      (xs.map make).filter (·.isFunction) = [] := by
    rw [List.filter_map, List.map_eq_nil_iff, List.filter_eq_nil_iff]
    exact fun x _ => by simp [apart x]
  rw [statementsShape, laterStatements]
  rw [List.filter_append, List.filter_append, List.filter_append, List.filter_append, kept]
  rw [others _ literals fun _ => rfl, others _ (distinct r.ids) fun _ => rfl, others _ r.handlers fun _ => rfl,
    others _ r.asyncBindings fun _ => rfl]
  simp

theorem usesLater {s : Statement} {id : String} (uses : Uses r s id) : s.field? = none ∧ s.element? = none ∧ id ∈ r.ids := by
  rw [Records.ids, List.mem_append, List.mem_append]
  cases uses with
  | binding mem => exact ⟨rfl, rfl, .inl (.inl (List.mem_map_of_mem mem))⟩
  | handler mem => exact ⟨rfl, rfl, .inl (.inr (List.mem_map_of_mem mem))⟩
  | chain mem => exact ⟨rfl, rfl, .inr (List.mem_map_of_mem mem)⟩

theorem behindFront {front rest before after : List Statement} {s : Statement} (split : front ++ rest = before ++ s :: after)
    (apart : s ∉ front) : ∀ t ∈ front, t ∈ before := by
  rcases List.append_eq_append_iff.mp split with ⟨more, rfl, -⟩ | ⟨more, rfl, tail⟩
  · exact fun t mem => List.mem_append_left _ mem
  · cases more with
    | nil => simp
    | cons t more =>
      rw [(List.cons.inj tail).1] at apart
      exact absurd (List.mem_append_right _ List.mem_cons_self) apart

theorem elementAhead {before after : List Statement} {s : Statement} {id : String}
    (split : scriptStatements literals r = before ++ s :: after) (uses : Uses r s id) : .element id ∈ before := by
  obtain ⟨noField, noElement, mention⟩ := usesLater uses
  have apart : s ∉ literals.map (fun p => .field p.1 p.2) ++ (distinct r.ids).map .element := by
    rw [List.mem_append, List.mem_map, List.mem_map]
    rintro (⟨p, -, rfl⟩ | ⟨id, -, rfl⟩)
    · cases noField
    · cases noElement
  rw [statementsShape] at split
  exact behindFront split apart _ (List.mem_append_right _ (List.mem_map_of_mem (memDistinct.mpr mention)))

theorem fieldsFront : (scriptStatements literals r).Pairwise fun s t => t.field?.isSome → s.field?.isSome := by
  have later : ∀ s ∈ (distinct r.ids).map Statement.element ++ laterStatements r, s.field? = none := by
    intro s mem
    simp only [laterStatements, List.mem_append, List.mem_map] at mem
    rcases mem with ⟨id, -, rfl⟩ | (mem | ⟨h, -, rfl⟩) | ⟨a, -, rfl⟩
    · rfl
    · have function := helpersFunctions s (List.mem_append.mpr mem)
      cases s <;> first | rfl | cases function
    · rfl
    · rfl
  have fields : ∀ s ∈ literals.map (fun p => Statement.field p.1 p.2), s.field?.isSome := by
    intro s mem
    obtain ⟨p, -, rfl⟩ := List.mem_map.mp mem
    rfl
  rw [statementsShape, List.append_assoc, List.pairwise_append]
  refine ⟨List.pairwise_of_forall_mem_list fun s mem t _ _ => fields s mem, ?_, fun s mem t _ _ => fields s mem⟩
  exact List.pairwise_of_forall_mem_list fun s _ t mem some => by simp [later t mem] at some

theorem scriptEmits (started : FieldsStarted c r literals) : Emitted c r (scriptStatements literals r) := by
  have fields : (scriptStatements literals r).filterMap (·.field?) = literals := by
    rw [statementsPicked (by rintro ⟨⟩ <;> simp [Statement.isFunction, Statement.field?])]
    simp [Statement.field?]
  have elements : (scriptStatements literals r).filterMap (·.element?) = distinct r.ids := by
    rw [statementsPicked (by rintro ⟨⟩ <;> simp [Statement.isFunction, Statement.element?])]
    simp [Statement.element?]
  refine ⟨?_, by rw [fields]; exact fun p mem => literalHeld (started.2 p mem), fieldsFront, elements ▸ distinctFirst, fun _ _ _ split _ uses => elementAhead split uses,
    functionsKept, ?_, ?_⟩
  · rw [fields, started.1]
    exact distinctFirst
  · rw [statementsPicked (by rintro ⟨⟩ <;> simp [Statement.isFunction, Statement.handler?])]
    simp [Statement.handler?]
  · rw [statementsPicked (by rintro ⟨⟩ <;> simp [Statement.isFunction, Statement.chain?])]
    simp [Statement.chain?]

/-- A script fails if and only if its records mention a name that cannot be declared, and then at the first such name.
Otherwise it declares the names that the records mention, looks up their elements and holds each record once, in order. -/
theorem scriptTracks (c : Component) (r : Records) :
    (∀ e, script c r = .error e ↔ ∃ before name after, r.mentions = before ++ name :: after ∧
        (∀ f ∈ before, Startable c f) ∧ Refused c name e) ∧
      ((∃ text, script c r = .ok text) ↔ ∀ f ∈ r.mentions, Startable c f) ∧
        ∀ text, script c r = .ok text → ∃ all, text = scriptOf all ∧ Emitted c r all := by
  refine ⟨fun e => scriptFails, scriptSucceeds, fun text made => ?_⟩
  obtain ⟨literals, started, written⟩ := scriptMade made
  exact ⟨scriptStatements literals r, written, scriptEmits started⟩

def scoreRecords : Records where
  bindings := [{ id := "_0", signals := ["count"], source := "this.count" },
    { id := "_0", signals := ["label", "count"], source := "this.label", attribute? := some "title" }]
  handlers := [{ id := "_1", event := "onclick", source := "this.count = 0", writes := ["count"] }]

def score : Component := .ofFields "Score" [("label", .tuple [.text "a"]), ("count", .whole 1)]

theorem scoreTracked : ∃ text, script score scoreRecords = .ok text ∧
    ∃ all, text = scriptOf all ∧ Emitted score scoreRecords all := by
  have startable : ∀ f ∈ scoreRecords.mentions, Startable score f := by
    have held : Startable score "label" ∧ Startable score "count" :=
      ⟨⟨by decide, _, rfl, .tuple (by simpa using .scalar (.text "a"))⟩, ⟨by decide, _, rfl, .scalar (.whole 1 (by decide))⟩⟩
    have mentions : scoreRecords.mentions = ["count", "label", "count", "count"] := rfl
    simp [mentions, held]
  obtain ⟨-, succeeds, emits⟩ := scriptTracks score scoreRecords
  obtain ⟨text, made⟩ := succeeds.mpr startable
  exact ⟨text, made, emits text made⟩

end Emission

end Render

end LiveMarkup
