import LiveMarkup.Analysis.Slot
import LiveMarkup.Proofs.Analysis.Fields
import LiveMarkup.Proofs.Outcome
/-! What the analysis notes down about a slot, by the kind of its expression. -/
namespace LiveMarkup.Analysis
open Syntax Client

inductive Classified (s : Scope) (e : Expr) (r : Slot) : Prop where
  | chain {ch c p t} (shape : chain? e = some ch) (whole : code s e = .ok c)
      (promise : code s ch.promise = .ok p) (callback : code s ch.thenCallback = .ok t)
      (recovery : ∀ g, r.catchCallback = some g →
        ∃ e d, ch.catchCallback = some e ∧ code s e = .ok d ∧ d.write = g)
      (sources : r.source = c.write ∧ r.promiseSource = some p.write ∧ r.thenCallback = some t.write)
      (fields : r.signals = [] ∧ r.writes = [] ∧ r.reads = (fieldsOf s e).signals)
      (kind : r.isAsync = true ∧ r.isEvent = false ∧ r.isFunction = false)
      (absent : r.bodySource = none ∧ r.params = []) : Classified s e r
  | function {params body c d} (shape : e = .lambda params body) (whole : code s e = .ok c)
      (inner : bodyCode s params body = .ok d)
      (sources : r.source = c.write ∧ r.bodySource = some d.write ∧ r.params = params.names)
      (fields : r.signals = (fieldsOf s e).signals ∧ r.writes = (fieldsOf s e).writes ∧ r.reads = [])
      (kind : r.isAsync = false ∧ r.isFunction = true)
      (absent : r.promiseSource = none ∧ r.thenCallback = none ∧ r.catchCallback = none) :
      Classified s e r
  | plain {c} (whole : code s e = .ok c) (source : r.source = c.write)
      (fields : r.signals = (fieldsOf s e).signals ∧ r.writes = (fieldsOf s e).writes ∧ r.reads = [])
      (kind : r.isAsync = false ∧ r.isEvent = false ∧ r.isFunction = false)
      (absent : r.bodySource = none ∧ r.params = [] ∧ r.promiseSource = none ∧
        r.thenCallback = none ∧ r.catchCallback = none) : Classified s e r

theorem printedCode {s : Scope} {e : Expr} {text : String} (h : print s e = .ok text) :
    ∃ c, code s e = .ok c ∧ c.write = text := mapOk.mp h

theorem recoveryCode {s : Scope} {ch : Chain} {p : PrintedChain} {source promise callback : String}
    (h : (match ch.catchCallback with
      | some g => do return ⟨source, promise, callback, some (← print s g)⟩
      | none => return ⟨source, promise, callback, none⟩) = Except.ok p) :
    p.source = source ∧ p.promise = promise ∧ p.thenCallback = callback ∧
      ∀ g, p.catchCallback = some g →
        ∃ e d, ch.catchCallback = some e ∧ code s e = .ok d ∧ d.write = g := by
  cases recovery : ch.catchCallback with
  | none =>
    rw [recovery] at h
    obtain rfl := pureOk.mp h
    exact ⟨rfl, rfl, rfl, fun g none => nomatch none⟩
  | some e =>
    rw [recovery] at h
    obtain ⟨text, printed, h⟩ := bindOk.mp h
    obtain rfl := pureOk.mp h
    obtain ⟨d, coded, rfl⟩ := printedCode printed
    refine ⟨rfl, rfl, rfl, fun g same => ?_⟩
    cases same
    exact ⟨e, d, rfl, coded, rfl⟩

theorem bodyPrinted {s : Scope} {params : LambdaParams} {body : Expr} {text : String}
    (h : printBody s params body = .ok text) :
    ∃ d, bodyCode s params body = .ok d ∧ d.write = text := mapOk.mp h

theorem lambdaShape {e : Expr} {params : LambdaParams} {body : Expr}
    (h : lambdaParams? e = some (params, body)) : e = .lambda params body := by
  unfold lambdaParams? at h
  split at h
  · cases h
    rfl
  · cases h

theorem classified {s : Scope} {e : Expr} {before template : String} {slot : Nat} {line : Int}
    {notes notes' : List Note} {r : Slot}
    (h : outcome (classify s e before template slot line) notes = (.ok r, notes'))
    (translatable : r.translatable = true) : Classified s e r := by
  unfold classify at h
  cases written : e.source? with
  | none =>
    rw [written] at h
    cases h
  | some expression =>
    simp only [written] at h
    cases shape : chain? e with
    | some ch =>
      simp only [shape] at h
      cases parts : printChainParts s e ch with
      | error cause =>
        simp only [parts, outcomeOk] at h
        obtain ⟨_, _, _, h⟩ := h
        cases h
        cases translatable
      | ok p =>
        simp only [parts] at h
        cases h
        simp only [printChainParts, bindOk] at parts
        obtain ⟨source, hs, promise, hp, callback, hc, parts⟩ := parts
        obtain ⟨c, whole, rfl⟩ := printedCode hs
        obtain ⟨q, first, rfl⟩ := printedCode hp
        obtain ⟨t, second, rfl⟩ := printedCode hc
        obtain ⟨sourced, promised, called, recovery⟩ := recoveryCode parts
        exact .chain shape whole first second recovery
          ⟨sourced, congrArg some promised, congrArg some called⟩ ⟨rfl, rfl, rfl⟩ ⟨rfl, rfl, rfl⟩
          ⟨rfl, rfl⟩
    | none =>
      simp only [shape] at h
      cases parts : printSlot s e with
      | error cause =>
        simp only [parts, outcomeOk] at h
        obtain ⟨_, _, _, h⟩ := h
        cases h
        cases translatable
      | ok p =>
        simp only [parts] at h
        cases h
        obtain ⟨source, hs, parts⟩ := bindOk.mp parts
        obtain ⟨c, whole, rfl⟩ := printedCode hs
        cases form : lambdaParams? e with
        | none =>
          rw [form] at parts
          obtain rfl := pureOk.mp parts
          exact .plain whole rfl ⟨rfl, rfl, rfl⟩ ⟨rfl, rfl, rfl⟩ ⟨rfl, rfl, rfl, rfl, rfl⟩
        | some lambda =>
          obtain ⟨params, body⟩ := lambda
          rw [form] at parts
          obtain ⟨text, hb, parts⟩ := bindOk.mp parts
          obtain rfl := pureOk.mp parts
          obtain ⟨d, inner, rfl⟩ := bodyPrinted hb
          exact .function (lambdaShape form) whole inner ⟨rfl, rfl, rfl⟩ ⟨rfl, rfl, rfl⟩ ⟨rfl, rfl⟩
            ⟨rfl, rfl, rfl⟩

def Analyzed (s : Scope) (e : Expr) (r : Slot) : Prop :=
  ∃ before template slot line notes notes', outcome (classify s e before template slot line) notes = (.ok r, notes')

structure ValueOf (calls : List Call) (s : Scope) (e : Expr) (r : Slot) : Prop where
  call : ∃ call ∈ calls, call.isTemplateCall s.tag = true ∧ e ∈ call.args.tail
  analyzed : Analyzed s e r

def AllClassified (s : Scope) (slots : List Slot) : Prop :=
  ∀ r ∈ slots, r.translatable = true → ∃ e, Classified s e r

theorem analyzedAll {c : Context} {template : String} {line : Int} :
    {slot : Nat} → {es : List Expr} → {texts : List String} → {notes notes' : List Note} →
    {slots : List Slot} →
    outcome (classifyAll c template line slot es texts) notes = (.ok slots, notes') →
    ∀ r ∈ slots, ∃ e ∈ es, Analyzed c.scope e r
  | _, [], _, _, _, _, h => by
    cases h
    exact fun _ none => absurd none List.not_mem_nil
  | _, _ :: _, [], _, _, _, h => by
    cases h
    exact fun _ none => absurd none List.not_mem_nil
  | slot, e :: rest, before :: texts, notes, notes', slots, h => by
    unfold classifyAll at h
    split at h
    · obtain ⟨_, _, failed, _⟩ := outcomeOk.mp h
      cases failed
    · simp only [outcomeOk] at h
      obtain ⟨r, notes₁, first, others, notes₂, tail, h⟩ := h
      cases h
      intro r' hr
      rcases List.mem_cons.mp hr with rfl | hr
      · exact ⟨e, List.mem_cons_self, _, _, _, _, _, _, first⟩
      · obtain ⟨e', he, analyzed⟩ := analyzedAll tail r' hr
        exact ⟨e', List.mem_cons_of_mem _ he, analyzed⟩

theorem analyzedSite {c : Context} {call : Call} {notes notes' : List Note} {slots : List Slot}
    (h : outcome (analyzeSite c call) notes = (.ok slots, notes')) :
    ∀ r ∈ slots, ∃ e ∈ call.args.tail, Analyzed c.scope e r := by
  unfold analyzeSite at h
  simp only at h
  split at h
  · obtain ⟨_, _, failed, _⟩ := outcomeOk.mp h
    cases failed
  split at h
  · cases h
  next first values given =>
    rw [given]
    split at h
    · obtain ⟨_, _, _, h⟩ := outcomeOk.mp h
      cases h
      exact fun _ none => absurd none List.not_mem_nil
    split at h
    · cases h
    split at h
    · obtain ⟨_, _, failed, _⟩ := outcomeOk.mp h
      cases failed
    · exact analyzedAll h

theorem analyzedCalls {c : Context} : {calls : List Call} → {notes notes' : List Note} →
    {slots : List Slot} → outcome (analyzeCalls c calls) notes = (.ok slots, notes') →
    ∀ r ∈ slots, ∃ e, ValueOf calls c.scope e r
  | [], _, _, _, h => by
    cases h
    exact fun _ none => absurd none List.not_mem_nil
  | call :: rest, notes, notes', slots, h => by
    have later {r : Slot} (found : ∃ e, ValueOf rest c.scope e r) : ∃ e, ValueOf (call :: rest) c.scope e r := by
      obtain ⟨e, ⟨site, hs, given⟩, analyzed⟩ := found
      exact ⟨e, ⟨site, List.mem_cons_of_mem _ hs, given⟩, analyzed⟩
    unfold analyzeCalls at h
    split at h
    · next template =>
      simp only [outcomeOk] at h
      obtain ⟨first, notes₁, site, others, notes₂, tail, h⟩ := h
      cases h
      intro r hr
      rcases List.mem_append.mp hr with hr | hr
      · obtain ⟨e, he, analyzed⟩ := analyzedSite site r hr
        exact ⟨e, ⟨call, List.mem_cons_self, template, he⟩, analyzed⟩
      · exact later (analyzedCalls tail r hr)
    · exact fun r hr => later (analyzedCalls h r hr)

def methodText (source : String) : String :=
  if isIndented source.toList then "class _Render:\n" ++ source else source

def MethodOf (source : String) (method : FoundFunction) : Prop :=
  ∃ body, readStatements (methodText source) = .ok body ∧ outermostStmt body = some method

def methodScope (method : FoundFunction) (tag : String) : Scope := { receiver := method.receiver.getD "self", tag }

theorem analyzedSource {source tag : String} {firstLine : Int} {file : Option String}
    {notes notes' : List Note} {slots : List Slot}
    (h : outcome (analyzeSource source firstLine file tag) notes = (.ok slots, notes')) :
    ∃ method, MethodOf source method ∧
      ∀ r ∈ slots, ∃ e, ValueOf (callsOfBlock method.body) (methodScope method tag) e r := by
  unfold analyzeSource at h
  simp only at h
  generalize given : (if isIndented source.toList then "class _Render:\n" ++ source else source) = text at h
  replace given : methodText source = text := given
  split at h
  · obtain ⟨_, _, failed, _⟩ := outcomeOk.mp h
    cases failed
  split at h
  · cases h
  next body read =>
    split at h
    · cases h
    next method found => exact ⟨method, ⟨body, given ▸ read, found⟩, analyzedCalls h⟩

end LiveMarkup.Analysis
