import LiveMarkup.Proofs.Analysis.Capture
import LiveMarkup.Proofs.Client.Grouping
/-! Promise chains, printed as a whole and in parts. The script puts the parts together again; that is the
chain as written, if the promise needs no parentheses. -/
namespace LiveMarkup.Analysis
open Syntax Client Outline

def callbacks (callback : String) (recovery? : Option String) : String :=
  ".then(" ++ callback ++ ")" ++
    match recovery? with
    | none => ""
    | some g => ".catch(" ++ g ++ ")"

def joinedChain (promise callback : String) (recovery? : Option String) : String :=
  promise ++ callbacks callback recovery?

section Calls

variable {s : Scope} {line : Nat} {object arg : Expr} {name : String} {c b a : Code}

theorem memberWritten {shown : String} (h : Prints s object b) :
    (memberCode s object b name shown).write = insideText object b.write ++ "." ++ shown := by
  unfold memberCode
  split
  · next own =>
    cases h with
    | name =>
      have here : s.isReceiver _ = true := own
      rw [nameCode, if_pos here]
      rfl
    | _ => cases own
  · rw [← insideWritten, String.append_assoc]
    rfl

theorem calledWritten : (b ++ Code.arguments [a]).write = b.write ++ "(" ++ a.write ++ ")" := by
  have written : (b ++ Code.arguments [a]).write = b.write ++ ("(" ++ a.write ++ ")") := rfl
  rw [written]
  simp only [String.append_assoc]

theorem methodPrinted {text : String} (kept : name ≠ "join" ∧ method name = name)
    (h : print s (.call line (.field object name) [arg] []) = .ok text) : ∃ t, print s arg = .ok t ∧
      (name = s.tag ∧ text = "html(" ++ t ++ ")" ∨
        name ≠ s.tag ∧ ∃ q, print s object = .ok q ∧ text = insideText object q ++ "." ++ name ++ "(" ++ t ++ ")") := by
  obtain ⟨c, coded, rfl⟩ := mapOk.mp h
  have printed {e : Expr} {c : Code} (form : Prints s e c) : print s e = .ok c.write := mapOk.mpr ⟨c, codeOf form, rfl⟩
  cases printsOf _ coded with
  | templateMethod tag values =>
    obtain _ | ⟨argument, _ | _⟩ := values
    exact ⟨_, printed argument, .inl ⟨tag, calledWritten⟩⟩
  | joinedBy => exact absurd rfl kept.1
  | method other plain base values =>
    obtain _ | ⟨argument, _ | _⟩ := values
    refine ⟨_, printed argument, .inr ⟨other, _, printed base, ?_⟩⟩
    rw [calledWritten, memberWritten base, kept.2]
  | applied computed free => exact absurd rfl (free object name)

theorem insideBare {e : Expr} {t : String} : insideText e t = t ↔ e.isCompound = false := by
  unfold insideText parens
  split
  · next compound =>
    refine iff_of_false (fun same => ?_) (by simp [compound])
    have longer := congrArg String.length same
    have one : "(".length = 1 ∧ ")".length = 1 := ⟨rfl, rfl⟩
    rw [String.length_append, String.length_append] at longer
    omega
  · next simple => exact iff_of_true rfl (by simpa using simple)

end Calls

section Chains

variable {s : Scope} {e : Expr} {ch : Chain} {p : PrintedChain}

def Chain.Named (s : Scope) (ch : Chain) : Prop :=
  "then" ≠ s.tag ∧ (ch.catchCallback.isSome → "catch" ≠ s.tag)

theorem chainParts (h : printChainParts s e ch = .ok p) : print s e = .ok p.source ∧
    print s ch.promise = .ok p.promise ∧ print s ch.thenCallback = .ok p.thenCallback ∧
    ch.catchCallback.map (print s) = p.catchCallback.map .ok := by
  simp only [printChainParts, bindOk] at h
  obtain ⟨source, whole, promise, first, callback, second, h⟩ := h
  cases recovery : ch.catchCallback with
  | none =>
    rw [recovery] at h
    obtain rfl := pureOk.mp h
    exact ⟨whole, first, second, rfl⟩
  | some g =>
    rw [recovery] at h
    obtain ⟨text, third, h⟩ := bindOk.mp h
    obtain rfl := pureOk.mp h
    exact ⟨whole, first, second, congrArg some third⟩

theorem joinedCaught {promise f g : String} :
    joinedChain promise f (some g) = joinedChain promise f none ++ (".catch(" ++ g ++ ")") := by
  simp only [joinedChain, callbacks, String.append_empty, String.append_assoc]

theorem templateShorter {t promise : String} {recovery? : Option String} :
    "html(" ++ t ++ ")" ≠ joinedChain promise t recovery? := by
  intro same
  have longer := congrArg String.length same
  have sizes : "html(".length = 5 ∧ ".then(".length = 6 := ⟨rfl, rfl⟩
  simp only [joinedChain, callbacks, String.length_append] at longer
  omega

theorem templateCaught {t f promise : String} : "html(" ++ t ++ ")" ≠ joinedChain promise f (some t) := by
  intro same
  have longer := congrArg String.length same
  have sizes : "html(".length = 5 ∧ ".then(".length = 6 := ⟨rfl, rfl⟩
  simp only [joinedChain, callbacks, String.length_append] at longer
  omega

theorem chainJoined (shape : chain? e = some ch) (h : printChainParts s e ch = .ok p) :
    p.source = joinedChain p.promise p.thenCallback p.catchCallback ↔ ch.promise.isCompound = false ∧ ch.Named s := by
  obtain ⟨whole, first, second, third⟩ := chainParts h
  unfold chain? at shape
  split at shape
  -- A chain that catches nothing comes first; one that does has the other one as its object.
  · next line promise f =>
    cases shape
    have alone : p.catchCallback = none := by
      cases recovery : p.catchCallback with
      | none => rfl
      | some g => rw [recovery] at third; cases third
    obtain ⟨t, callback, forms⟩ := methodPrinted ⟨by decide, rfl⟩ whole
    obtain rfl := Except.ok.inj (second.symm.trans callback)
    rw [alone]
    rcases forms with ⟨tag, written⟩ | ⟨other, q, object, written⟩
    · exact iff_of_false (fun same => templateShorter (written.symm.trans same)) fun both => both.2.1 tag
    · obtain rfl := Except.ok.inj (first.symm.trans object)
      have split : p.source = insideText promise p.promise ++ callbacks p.thenCallback none := by
        rw [written, callbacks]
        simp only [String.append_assoc]
        rfl
      rw [split, joinedChain, String.append_left_inj, insideBare]
      exact ⟨fun simple => ⟨simple, other, by simp⟩, And.left⟩
  · next line line' promise f g =>
    cases shape
    obtain ⟨t, recovered, forms⟩ := methodPrinted ⟨by decide, rfl⟩ whole
    have caught : p.catchCallback = some t := by
      cases recovery : p.catchCallback with
      | none => rw [recovery] at third; cases third
      | some g' =>
        rw [recovery] at third
        exact congrArg some (Except.ok.inj ((Option.some.inj third).symm.trans recovered))
    rw [caught]
    rcases forms with ⟨tag, written⟩ | ⟨other, q, inner, written⟩
    · exact iff_of_false (fun same => templateCaught (written.symm.trans same)) fun both => both.2.2 rfl tag
    · obtain ⟨t', callback, forms⟩ := methodPrinted ⟨by decide, rfl⟩ inner
      obtain rfl := Except.ok.inj (second.symm.trans callback)
      have behind : p.source = q ++ (".catch(" ++ t ++ ")") := by
        have simple : insideText (.call line' (.field promise "then") [f] []) q = q := rfl
        rw [written, simple]
        simp only [String.append_assoc]
        rfl
      rcases forms with ⟨tag, rfl⟩ | ⟨kept, q, object, rfl⟩
      · refine iff_of_false (fun same => ?_) fun both => both.2.1 tag
        rw [behind, joinedCaught, String.append_left_inj] at same
        exact templateShorter same
      · obtain rfl := Except.ok.inj (first.symm.trans object)
        have split : p.source = insideText promise p.promise ++ callbacks p.thenCallback (some t) := by
          rw [behind, callbacks]
          simp only [String.append_assoc]
          rfl
        rw [split, joinedChain, String.append_left_inj, insideBare]
        exact ⟨fun simple => ⟨simple, kept, fun _ => other⟩, And.left⟩
  · cases shape

theorem classifiedChain {before template : String} {slot : Nat} {line : Int} {notes notes' : List Note} {r : Slot}
    (h : outcome (classify s e before template slot line) notes = (.ok r, notes')) (translatable : r.translatable = true)
    (shape : chain? e = some ch) : ∃ p, printChainParts s e ch = .ok p ∧ r.source = p.source ∧
      r.promiseSource = some p.promise ∧ r.thenCallback = some p.thenCallback ∧ r.catchCallback = p.catchCallback := by
  unfold classify at h
  cases written : e.source? with
  | none =>
    rw [written] at h
    cases h
  | some expression =>
    simp only [written, shape] at h
    cases parts : printChainParts s e ch with
    | error cause =>
      simp only [parts, outcomeOk] at h
      obtain ⟨_, _, _, h⟩ := h
      cases h
      cases translatable
    | ok p =>
      simp only [parts] at h
      cases h
      exact ⟨p, rfl, rfl, rfl, rfl, rfl⟩

/-- The chain that the script is given is the chain that was written, if and only if the promise is printed without
parentheses. Then no operator stands outside of the promise's brackets and texts unless the promise is exposed, also
once the receiver is gone, so that the first callback belongs to the whole promise. -/
theorem chainWritten {before template : String} {slot : Nat} {line : Int} {notes notes' : List Note} {r : Slot}
    (h : outcome (classify s e before template slot line) notes = (.ok r, notes')) (translatable : r.translatable = true)
    (shape : chain? e = some ch) (ok : formed ch.promise) : ∃ c t, code s ch.promise = .ok c ∧
      r.promiseSource = some c.write ∧ r.thenCallback = some t ∧
      (r.source = joinedChain c.write t r.catchCallback ↔ ch.promise.isCompound = false ∧ ch.Named s) ∧
      (ch.promise.isCompound = false → operatorOutside? c.write = some (exposed s ch.promise) ∧
        (c.Clear → operatorOutside? (stripReceiver c.write) = some (exposed s ch.promise))) := by
  obtain ⟨p, parts, source, promise, callback, recovery⟩ := classifiedChain h translatable shape
  obtain ⟨c, coded, written⟩ := printedCode (chainParts parts).2.1
  rw [written.symm] at promise
  refine ⟨c, p.thenCallback, coded, promise, callback, ?_, fun simple => ?_⟩
  · rw [source, recovery, written]
    exact chainJoined shape parts
  · have plain : wrapped ch.promise c = c := by simp [wrapped, simple]
    have reads {front : List Char} (receiver : Follows front) : Reads (c.chars front) (exposed s ch.promise) := by
      have inside := readsWrapped (outlinedOf receiver (printsOf _ coded) ok)
      rwa [plain] at inside
    refine ⟨readsOutside (charsWrite ▸ reads followsReceiver), fun clear => ?_⟩
    rw [(Code.strippedBareIff (frontedOf (printsOf _ coded))).mpr clear]
    exact readsOutside (charsBare ▸ reads followsNothing)

example : operatorOutside? "fetch(this.url + \"/a\")" = some false ∧
    operatorOutside? "this.x ? fetch(\"/a\") : fetch(\"/b\")" = some true := by decide +kernel

def fetching (url : Expr) : Expr := .call 1 (.name "fetch") [url] []

def address (path : String) : Expr := .constant (.text path false)

def returning (name : String) : Expr := .lambda (taking name) (.name name)

def thenSame (promise : Expr) : Expr := .call 1 (.field promise "then") [returning "r"] []

def urlFetch : Expr := fetching (.field (.name "self") "url")

def caughtFetch : Expr := .call 1 (.field (thenSame urlFetch) "catch") [returning "e"] []

theorem caughtWritten : ∃ r : Slot, r.source = "fetch(this.url).then((r) => r).catch((e) => e)" ∧
    ∃ c t, code {} urlFetch = .ok c ∧ r.promiseSource = some c.write ∧ r.thenCallback = some t ∧
      (r.source = joinedChain c.write t r.catchCallback ↔
        urlFetch.isCompound = false ∧ Chain.Named {} ⟨urlFetch, returning "r", some (returning "e")⟩) ∧
      (urlFetch.isCompound = false → operatorOutside? c.write = some (exposed {} urlFetch) ∧
        (c.Clear → operatorOutside? (stripReceiver c.write) = some (exposed {} urlFetch))) := by
  obtain ⟨r, notes, ran, is⟩ := @classifiedOk {} caughtFetch "<p>" "<p>\x7b\x7d</p>" 0 1
    (fun r => r.translatable && r.source == "fetch(this.url).then((r) => r).catch((e) => e)") (by decide +kernel)
  obtain ⟨translatable, source⟩ := Bool.and_eq_true_iff.mp is
  exact ⟨r, by simpa using source, chainWritten ran translatable rfl (by decide)⟩

def chosenFetch : Expr :=
  .conditional (.field (.name "self") "x") (fetching (address "/a")) (fetching (address "/b"))

theorem chosenTaken : ∃ r notes, outcome (classify {} (thenSame chosenFetch) "<p>" "<p>\x7b\x7d</p>" 0 1) [] = (.ok r, notes) ∧
    r.translatable = true ∧ r.source = "(this.x ? fetch(\"/a\") : fetch(\"/b\")).then((r) => r)" ∧
    r.promiseSource = some "this.x ? fetch(\"/a\") : fetch(\"/b\")" ∧ r.thenCallback = some "(r) => r" ∧
    r.source ≠ joinedChain "this.x ? fetch(\"/a\") : fetch(\"/b\")" "(r) => r" r.catchCallback ∧
    operatorOutside? "this.x ? fetch(\"/a\") : fetch(\"/b\")" = some true := by
  obtain ⟨r, notes, ran, is⟩ := @classifiedOk {} (thenSame chosenFetch) "<p>" "<p>\x7b\x7d</p>" 0 1
    (fun r => r.translatable && r.source == "(this.x ? fetch(\"/a\") : fetch(\"/b\")).then((r) => r)" &&
      r.promiseSource == some "this.x ? fetch(\"/a\") : fetch(\"/b\")" && r.thenCallback == some "(r) => r" &&
      r.catchCallback == none) (by decide +kernel)
  simp only [Bool.and_eq_true, beq_iff_eq] at is
  obtain ⟨⟨⟨⟨translatable, source⟩, promise⟩, callback⟩, uncaught⟩ := is
  refine ⟨r, notes, ran, translatable, source, promise, callback, ?_, by decide +kernel⟩
  rw [source, uncaught]
  decide +kernel

end Chains

end LiveMarkup.Analysis
