import LiveMarkup.Proofs.Analysis.Capture
import LiveMarkup.Proofs.Client.Script
import LiveMarkup.Proofs.Render.Provenance
/-! The client code of the records that a factory has collected, and the fields that it accesses. -/
namespace LiveMarkup.Analysis
open Syntax Client

section Words

variable {s : Scope} {b : Binders} {m : Mention} {f : String} {g? : Option String} {written : Bool}

theorem namesNoField {object : Expr} (h : m ∈ words s b object) (named : m.1 = .field f g? written) :
    isComponent s object = false := by
  cases object with
  | name id =>
    cases own : s.isReceiver id with
    | false => exact own
    | true =>
      rw [words, nameWord, own, if_pos rfl] at h
      cases List.mem_singleton.mp h
      cases named
  | _ => rfl

theorem objectField {object : Expr} {name : String} {line : Nat} {args : List Expr}
    {keywords : List Keyword} (other : name ≠ s.tag) (h : m ∈ words s b object)
    (named : m.1 = .field f g? written) :
    m ∈ words s b (.call line (.field object name) args keywords) := by
  have inMethod : m ∈ methodWords s b (isComponent s object) name args.length (words s b object) := by
    rw [namesNoField h named, methodWords, if_neg other]
    split
    · exact h
    · exact h
  rw [words]
  exact List.mem_append_left _ (List.mem_append_left _ (List.mem_append_right _ inMethod))

theorem argumentField {object arg : Expr} {name : String} {line : Nat} (h : m ∈ words s b arg) :
    m ∈ words s b (.call line (.field object name) [arg] []) := by
  have given : m ∈ wordsAll s b [arg] := List.mem_append_left _ h
  rw [words]
  exact List.mem_append_left _ (List.mem_append_right _ given)

theorem chainField {e part : Expr} {ch : Chain} (tag : s.tag = "html") (shape : chain? e = some ch)
    (of : part = ch.promise ∨ part = ch.thenCallback ∨ ch.catchCallback = some part)
    (h : m ∈ words s b part) (named : m.1 = .field f g? written) : m ∈ words s b e := by
  have thenOther : "then" ≠ s.tag := tag ▸ by decide
  have catchOther : "catch" ≠ s.tag := tag ▸ by decide
  unfold chain? at shape
  split at shape
  · cases shape
    rcases of with rfl | rfl | given
    · exact objectField thenOther h named
    · exact argumentField h
    · cases given
  · cases shape
    rcases of with rfl | rfl | given
    · exact objectField catchOther (objectField thenOther h named) named
    · exact objectField catchOther (argumentField h) named
    · cases given
      exact argumentField h
  · cases shape

theorem runsAccess {e : Expr} {c : Code} {ms : List Mention} {shown : String} (tag : s.tag = "html")
    (h : Runs s e c b ms) (access : (f, shown) ∈ c.accesses) :
    ∃ m ∈ words s [] e, ∃ written, m.1 = .field f (some shown) written := by
  have inChain {part : Expr} {ch : Chain} {d : Code} (shape : chain? e = some ch)
      (coded : code s part = .ok d)
      (of : part = ch.promise ∨ part = ch.thenCallback ∨ ch.catchCallback = some part)
      (access : (f, shown) ∈ d.accesses) :
      ∃ m ∈ words s [] e, ∃ written, m.1 = .field f (some shown) written := by
    obtain ⟨m, hm, written, named⟩ := (@memPrinted s [] part d (printsOf _ coded) f shown).mp access
    exact ⟨m, chainField tag shape of hm named, written, named⟩
  cases h with
  | value coded => exact (memPrinted (printsOf _ coded)).mp access
  | @handler params body _ shape coded =>
    obtain ⟨m, hm, named⟩ := (@memAccesses [params.names] _ f shown).mp access
    obtain ⟨m', hm', written, named'⟩ := shownField.mp ⟨m, (bodyMentions coded m).mp hm, named⟩
    refine ⟨m', ?_, written, named'⟩
    rw [shape, words]
    exact List.mem_append_right _ hm'
  | promise shape coded => exact inChain shape coded (.inl rfl) access
  | callback shape coded => exact inChain shape coded (.inr (.inl rfl)) access
  | recovery shape given coded => exact inChain shape coded (.inr (.inr given)) access

end Words

end LiveMarkup.Analysis

namespace LiveMarkup.Render
open Syntax Analysis Client

inductive PartCode (scope : Scope) (slots : List Slot) (fields : List String) : Code → Prop where
  | fixed (text) : PartCode scope slots fields (.text (Text.jsString text))
  | slot {r e c} (known : r ∈ slots) (classified : Classified scope e r) (coded : code scope e = .ok c)
      (within : ∀ f ∈ (fieldsOf scope e).signals, f ∈ fields) : PartCode scope slots fields c.group

def joinCode (parts : List Code) : Code :=
  let joined := Code.separated " + " parts
  if (parts.head?.bind (·.write.toList.head?)) == some '"' then joined else "\"\" + " ++ joined

inductive Collected (scope : Scope) (slots : List Slot) (fields : List String) : Code → Prop where
  | nothing : Collected scope slots fields ""
  | slot {r e c b ms} (known : r ∈ slots) (classified : Classified scope e r) (runs : Runs scope e c b ms)
      (within : ∀ f ∈ (fieldsOf scope e).signals, f ∈ fields) : Collected scope slots fields c
  | joined {parts} (all : ∀ c ∈ parts, PartCode scope slots fields c) :
      Collected scope slots fields (joinCode parts)

variable {scope : Scope} {slots : List Slot} {fields : List String}

theorem separatedWrite {sep : String} : {codes : List Code} →
    (Code.separated sep codes).write = sep.intercalate (codes.map Code.write)
  | [] => String.intercalate_nil.symm
  | [_] => String.intercalate_singleton.symm
  | c :: d :: rest => by
    have tail := @separatedWrite sep (d :: rest)
    rw [List.map_cons, List.map_cons, String.intercalate_cons_cons, ← List.map_cons, ← tail]
    rfl

theorem joinWrite {parts : List Code} : (joinCode parts).write = joinSources (parts.map Code.write) := by
  have first : (parts.map Code.write).head?.bind (·.toList.head?) =
      parts.head?.bind (·.write.toList.head?) := by
    cases parts <;> rfl
  unfold joinCode joinSources
  simp only [first]
  split
  · exact separatedWrite
  · exact congrArg ("\"\" + " ++ ·) separatedWrite

theorem accessesSeparated {sep : String} {access : String × String} : {codes : List Code} →
    access ∈ (Code.separated sep codes).accesses → ∃ c ∈ codes, access ∈ c.accesses
  | [], h => absurd h List.not_mem_nil
  | [c], h => ⟨c, List.mem_cons_self, h⟩
  | c :: d :: rest, h => by
    rcases List.mem_append.mp h with h | h
    · rcases List.mem_append.mp h with h | h
      · exact ⟨c, List.mem_cons_self, h⟩
      · exact absurd h List.not_mem_nil
    · obtain ⟨e, he, h⟩ := accessesSeparated h
      exact ⟨e, List.mem_cons_of_mem _ he, h⟩

theorem accessesJoined {parts : List Code} {access : String × String}
    (h : access ∈ (joinCode parts).accesses) : ∃ c ∈ parts, access ∈ c.accesses := by
  unfold joinCode at h
  simp only at h
  split at h
  · exact accessesSeparated h
  · rcases List.mem_append.mp h with h | h
    · exact absurd h List.not_mem_nil
    · exact accessesSeparated h

theorem accessesGroup {c : Code} {access : String × String} (h : access ∈ c.group.accesses) :
    access ∈ c.accesses := by
  rcases List.mem_append.mp h with h | h
  · rcases List.mem_append.mp h with h | h
    · exact absurd h List.not_mem_nil
    · exact h
  · exact absurd h List.not_mem_nil

theorem collectedAccess {c : Code} {field shown : String} (tag : scope.tag = "html")
    (h : Collected scope slots fields c) (access : (field, shown) ∈ c.accesses) :
    field ∈ fields ∧ ∃ r ∈ slots, ∃ e, Classified scope e r ∧
      (SameNames scope e → shown ∈ fields) := by
  have named {r : Slot} {e : Expr} (known : r ∈ slots) (classified : Classified scope e r)
      (within : ∀ f ∈ (fieldsOf scope e).signals, f ∈ fields)
      (found : ∃ m ∈ words scope [] e, ∃ written, m.1 = .field field (some shown) written) :
      field ∈ fields ∧ ∃ r ∈ slots, ∃ e, Classified scope e r ∧ (SameNames scope e → shown ∈ fields) := by
    obtain ⟨m, hm, written, same⟩ := found
    refine ⟨within field (memSignals.mpr ⟨m, hm, some shown, written, same⟩), r, known, e, classified, ?_⟩
    exact fun keeps => within shown (memSignals.mpr ((keeps shown).mpr ⟨m, hm, field, written, same⟩))
  cases h with
  | nothing => exact absurd access List.not_mem_nil
  | slot known classified runs within => exact named known classified within (runsAccess tag runs access)
  | joined all =>
    obtain ⟨part, hpart, access⟩ := accessesJoined access
    cases all part hpart with
    | fixed text => exact absurd access List.not_mem_nil
    | slot known classified coded within =>
      exact named known classified within ((memPrinted (printsOf _ coded)).mp (accessesGroup access))

theorem sourced {e : Expr} {r : Slot} (h : Classified scope e r) :
    ∃ c, code scope e = .ok c ∧ r.source = c.write := by
  cases h with
  | chain shape whole promise callback recovery sources fields kind absent =>
    exact ⟨_, whole, sources.1⟩
  | function shape whole inner sources fields kind absent => exact ⟨_, whole, sources.1⟩
  | plain whole source fields kind absent => exact ⟨_, whole, source⟩

theorem reactiveSignals {s : State} {e : Expr} {r : Slot} (h : Classified scope e r)
    (reactive : s.isReactive r = true) : r.signals = (fieldsOf scope e).signals := by
  cases h with
  | chain shape whole promise callback recovery sources fields kind absent =>
    rw [State.isReactive, fields.1] at reactive
    cases reactive
  | function shape whole inner sources fields kind absent => exact fields.1
  | plain whole source fields kind absent => exact fields.1

inductive PartSource (f : Factory) (s : State) : Part → Prop where
  | fixed (literal text) : PartSource f s ⟨literal, Text.jsString text, none⟩
  | slot {literal r} (known : r ∈ f.slots) (translatable : r.translatable = true)
      (reactive : s.isReactive r = true) : PartSource f s ⟨literal, "(" ++ r.source ++ ")", some r⟩

theorem partSource {f : Factory} {s : State} {piece : Piece} {part : Part} (h : Known f s)
    (made : partOf s piece = some part) : PartSource f s part := by
  unfold partOf at made
  split at made
  · split at made
    · cases made
    · cases made
      exact .fixed _ _
  · next live found =>
    obtain ⟨key, _, found⟩ := Option.bind_eq_some_iff.mp found
    obtain ⟨known, translatable⟩ := liveKnown h found
    split at made
    · next reactive =>
      cases made
      exact .slot known translatable reactive
    · cases made
      exact .fixed _ _

theorem partCodes {f : Factory} {s : State} (classified : AllClassified scope f.slots) :
    {parts : List Part} → (∀ p ∈ parts, PartSource f s p) →
    (∀ p ∈ parts, ∀ r, p.reactive? = some r → ∀ f ∈ r.signals, f ∈ fields) →
    ∃ codes : List Code, codes.map Code.write = parts.map (·.source) ∧
      ∀ c ∈ codes, PartCode scope f.slots fields c
  | [], _, _ => ⟨[], rfl, fun _ h => absurd h List.not_mem_nil⟩
  | part :: rest, sources, signals => by
    obtain ⟨codes, written, all⟩ := @partCodes f s classified rest
      (fun p hp => sources p (List.mem_cons_of_mem _ hp))
      (fun p hp => signals p (List.mem_cons_of_mem _ hp))
    have within := signals part List.mem_cons_self
    have add (c : Code) (hc : PartCode scope f.slots fields c) (same : c.write = part.source) :
        ∃ codes : List Code, codes.map Code.write = (part :: rest).map (·.source) ∧
          ∀ c ∈ codes, PartCode scope f.slots fields c :=
      ⟨c :: codes, by rw [List.map_cons, List.map_cons, written, same],
        List.forall_mem_cons.mpr ⟨hc, all⟩⟩
    cases sources part List.mem_cons_self with
    | fixed literal text => exact add _ (.fixed text) rfl
    | @slot literal r known translatable reactive =>
      obtain ⟨e, shape⟩ := classified r known translatable
      obtain ⟨c, coded, same⟩ := sourced shape
      have inside := reactiveSignals shape reactive ▸ within r rfl
      exact add _ (.slot known shape coded inside) (by rw [same]; rfl)

theorem composedCollected {f : Factory} {source : String} (classified : AllClassified scope f.slots)
    (h : ComposedIn f source fields) : ∃ c, Collected scope f.slots fields c ∧ c.write = source := by
  obtain ⟨s, text, known, composed, signals⟩ := h
  have sources (p : Part) (hp : p ∈ (Piece.split f.number text).filterMap (partOf s)) :
      PartSource f s p := by
    obtain ⟨piece, _, made⟩ := List.mem_filterMap.mp hp
    exact partSource known made
  unfold compose at composed signals
  generalize (Piece.split f.number text).filterMap (partOf s) = parts at composed signals sources
  simp only at composed signals
  cases reactive : parts.filterMap (·.reactive?) with
  | nil =>
    rw [reactive] at composed
    cases composed
  | cons first rest =>
    rw [reactive] at composed signals
    have within (p : Part) (hp : p ∈ parts) (r : Slot) (slot : p.reactive? = some r) (f : String)
        (hf : f ∈ r.signals) : f ∈ distinct ((first :: rest).flatMap (·.signals)) := by
      refine memDistinct.mpr (List.mem_flatMap.mpr ⟨r, ?_, hf⟩)
      rw [← reactive]
      exact List.mem_filterMap.mpr ⟨p, hp, slot⟩
    simp only [apply_ite Composed.signals, ite_self] at signals
    simp only at composed
    split at composed
    · next single =>
      obtain ⟨part, rfl⟩ := List.length_eq_one_iff.mp single
      have inside := within part List.mem_cons_self
      cases sources part List.mem_cons_self with
      | fixed literal text => cases reactive
      | slot known translatable live =>
        obtain ⟨e, shape⟩ := classified _ known translatable
        obtain ⟨c, coded, same⟩ := sourced shape
        cases reactive
        cases composed
        subst signals
        exact ⟨c, .slot known shape (.value coded) (reactiveSignals shape live ▸ inside _ rfl), same.symm⟩
    · cases composed
      subst signals
      obtain ⟨codes, written, all⟩ := partCodes classified sources within
      exact ⟨joinCode codes, .joined all, by rw [joinWrite, written]⟩

theorem handlerCollected {f : Factory} {h : Handler} {r : Slot} (classified : AllClassified scope f.slots)
    (made : HandlerOf f h r) :
    ∃ c, Collected scope f.slots (h.writes ++ h.signals) c ∧ c.write = h.source := by
  obtain ⟨e, shape⟩ := classified r made.known.1 made.known.2
  cases shape with
  | chain shape whole promise callback recovery sources fields kind absent =>
    exact absurd (kind.2.1.symm.trans made.event) Bool.false_ne_true
  | plain whole source fields kind absent =>
    exact absurd (kind.2.1.symm.trans made.event) Bool.false_ne_true
  | @function params body c d form whole inner sources fields kind absent =>
    refine ⟨d, .slot made.known.1 (.function form whole inner sources fields kind absent)
      (.handler form inner) fun f hf => ?_, ?_⟩
    · rw [made.fields.2, fields.1]
      exact List.mem_append_right _ hf
    · rw [made.source, sources.2.1]
      rfl

def AsyncBinding.parts (a : AsyncBinding) : List String :=
  a.promise :: a.thenCallback :: a.catchCallback?.toList

theorem chainCollected {f : Factory} {a : AsyncBinding} {r : Slot}
    (classified : AllClassified scope f.slots) (made : ChainOf f a r) :
    ∀ source ∈ AsyncBinding.parts a, ∃ c, Collected scope f.slots a.fields c ∧ c.write = source := by
  obtain ⟨e, shape⟩ := classified r made.known.1 made.known.2
  have empty (promise : r.promiseSource = none) (callback : r.thenCallback = none)
      (recovery : r.catchCallback = none) :
      ∀ source ∈ AsyncBinding.parts a, ∃ c, Collected scope f.slots a.fields c ∧ c.write = source := by
    intro source hs
    rw [AsyncBinding.parts, made.promise, made.callback, made.recovery, promise, callback, recovery] at hs
    obtain rfl : source = "" := by simpa using hs
    exact ⟨_, .nothing, rfl⟩
  cases shape with
  | plain whole source fields kind absent => exact empty absent.2.2.1 absent.2.2.2.1 absent.2.2.2.2
  | function shape whole inner sources fields kind absent =>
    exact empty absent.1 absent.2.1 absent.2.2
  | @chain ch c p t form whole promise callback recovery sources fields kind absent =>
    have classified := Classified.chain form whole promise callback recovery sources fields kind absent
    have within (f : String) (hf : f ∈ (fieldsOf scope e).signals) : f ∈ a.fields := by
      rw [made.fields, fields.2.2]
      exact hf
    refine List.forall_mem_cons.mpr ⟨?_, List.forall_mem_cons.mpr ⟨?_, fun g hg => ?_⟩⟩
    · rw [made.promise, sources.2.1]
      exact ⟨p, .slot made.known.1 classified (.promise form promise) within, rfl⟩
    · rw [made.callback, sources.2.2]
      exact ⟨t, .slot made.known.1 classified (.callback form callback) within, rfl⟩
    · rw [made.recovery, Option.mem_toList] at hg
      obtain ⟨e', d, given, coded, written⟩ := recovery g hg
      exact ⟨d, .slot made.known.1 classified (.recovery form given coded) within, written⟩

end LiveMarkup.Render
