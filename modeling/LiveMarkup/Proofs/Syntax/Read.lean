import LiveMarkup.Proofs.Client.Balanced
import LiveMarkup.Syntax.Parser.Stmt
/-! Expressions that are read from a text. Texts that stand side by side in a formatted text are read as one, so what
is read is well formed as soon as its names are identifiers. -/
namespace LiveMarkup.Syntax
open LiveMarkup.Text LiveMarkup.Client LiveMarkup.Syntax.Parser LiveMarkup.Syntax.Reading

section Names

mutual

def identified : Expr → Bool
  | .name id => Text.isName id.toList
  | .field base name => identified base && Text.isName name.toList
  | .starred value => identified value
  | .call _ func args _ => identified func && identifiedAll args
  | .unary _ operand => identified operand
  | .binary left _ right => identified left && identified right
  | .boolean _ operands => identifiedAll operands
  | .compare left rest => identified left && identifiedComparisons rest
  | .conditional test body orelse => identified test && identified body && identified orelse
  | .subscript base index => identified base && identified index
  | .slice lower upper _ => identifiedOption lower && identifiedOption upper
  | .list items => identifiedAll items
  | .tuple items => identifiedAll items
  | .dict entries => identifiedEntries entries
  | .listComp item clauses => identified item && identifiedClauses clauses
  | .generator item clauses => identified item && identifiedClauses clauses
  | .lambda params body => params.names.all (Text.isName ·.toList) && identified body
  | .joined parts => identifiedAll parts
  | .formatted value _ _ => identified value
  | .assigned target value => Text.isName target.toList && identified value
  | _ => true

def identifiedAll : List Expr → Bool
  | [] => true
  | e :: rest => identified e && identifiedAll rest

def identifiedOption : Option Expr → Bool
  | none => true
  | some e => identified e

def identifiedComparisons : List Comparison → Bool
  | [] => true
  | .mk _ right :: rest => identified right && identifiedComparisons rest

def identifiedEntries : List Entry → Bool
  | [] => true
  | .spread value :: rest => identified value && identifiedEntries rest
  | .pair key value :: rest => identified key && identified value && identifiedEntries rest

def identifiedClauses : List Clause → Bool
  | [] => true
  | .mk _ target iter conditions :: rest =>
    identified target && identified iter && identifiedAll conditions && identifiedClauses rest

end

def Sound (e : Expr) : Prop := identified e → formed e

def SoundEntry : Entry → Prop
  | .spread value => Sound value
  | .pair key value => Sound key ∧ Sound value

def SoundClause : Clause → Prop
  | .mk _ target iter conditions => Sound target ∧ Sound iter ∧ ∀ e ∈ conditions, Sound e

def SoundComparison : Comparison → Prop
  | .mk _ right => Sound right

variable {a b c : Expr} {es : List Expr} {o : Option Expr} {rest : List Comparison} {entries : List Entry}
  {clauses : List Clause}

theorem soundBoth (ha : Sound a) (hb : Sound b) (h : (identified a && identified b) = true) :
    (formed a && formed b) = true := by
  obtain ⟨first, second⟩ := Bool.and_eq_true_iff.mp h
  exact Bool.and_eq_true_iff.mpr ⟨ha first, hb second⟩

theorem soundAll (h : ∀ e ∈ es, Sound e) : identifiedAll es → formedAll es := by
  induction es with
  | nil => exact id
  | cons e rest ih =>
    obtain ⟨first, tail⟩ := List.forall_mem_cons.mp h
    intro names
    obtain ⟨here, later⟩ := Bool.and_eq_true_iff.mp names
    exact Bool.and_eq_true_iff.mpr ⟨first here, ih tail later⟩

theorem soundOption (h : ∀ e ∈ o, Sound e) : identifiedOption o → formedOption o := by
  cases o with
  | none => exact id
  | some e => exact h e rfl

theorem soundComparisons (h : ∀ x ∈ rest, SoundComparison x) :
    identifiedComparisons rest → formedComparisons rest := by
  induction rest with
  | nil => exact id
  | cons x rest ih =>
    obtain ⟨first, tail⟩ := List.forall_mem_cons.mp h
    obtain ⟨op, right⟩ := x
    intro names
    obtain ⟨here, later⟩ := Bool.and_eq_true_iff.mp names
    exact Bool.and_eq_true_iff.mpr ⟨first here, ih tail later⟩

theorem soundEntries (h : ∀ x ∈ entries, SoundEntry x) : identifiedEntries entries → formedEntries entries := by
  induction entries with
  | nil => exact id
  | cons x rest ih =>
    obtain ⟨first, tail⟩ := List.forall_mem_cons.mp h
    intro names
    cases x with
    | spread value =>
      obtain ⟨here, later⟩ := Bool.and_eq_true_iff.mp names
      exact Bool.and_eq_true_iff.mpr ⟨first here, ih tail later⟩
    | pair key value =>
      obtain ⟨here, later⟩ := Bool.and_eq_true_iff.mp names
      exact Bool.and_eq_true_iff.mpr ⟨soundBoth first.1 first.2 here, ih tail later⟩

theorem soundClauses (h : ∀ x ∈ clauses, SoundClause x) : identifiedClauses clauses → formedClauses clauses := by
  induction clauses with
  | nil => exact id
  | cons x rest ih =>
    obtain ⟨first, tail⟩ := List.forall_mem_cons.mp h
    obtain ⟨isAsync, target, iter, conditions⟩ := x
    obtain ⟨stored, source, guards⟩ := first
    intro names
    simp only [identifiedClauses, formedClauses, Bool.and_eq_true] at names ⊢
    obtain ⟨⟨⟨here, there⟩, all⟩, later⟩ := names
    exact ⟨⟨⟨stored here, source there⟩, soundAll guards all⟩, ih tail later⟩

end Names

section Readings

variable {α β : Type} {P : α → Prop} {Q : β → Prop} {x y : Parser α} {f : α → Parser β} {b : Bool}

def Gives (P : α → Prop) (x : Parser α) : Prop := ∀ c a c', x c = .ok a c' → P a

theorem givesPure {a : α} (h : P a) : Gives P (pure a) := by
  intro _ _ _ run
  cases run
  exact h

theorem givesBind (first : Gives P x) (next : ∀ a, P a → Gives Q (f a)) : Gives Q (x >>= f) := by
  intro c b c' run
  simp only [bind, EStateM.bind] at run
  split at run
  · next a d step => exact next a (first c a d step) d b c' run
  · cases run

theorem givesThen (next : ∀ a, Gives Q (f a)) : Gives Q (x >>= f) :=
  givesBind (P := fun _ => True) (fun _ _ _ _ => trivial) fun a _ => next a

theorem givesThrow {e : Failure} : Gives P (throw e) := by
  intro _ _ _ run
  cases run

theorem givesIf {p : Prop} [Decidable p] (yes : Gives P x) (no : Gives P y) : Gives P (if p then x else y) := by
  split
  · exact yes
  · exact no

theorem givesCatch {handler : Failure → Parser α} (h : Gives P x) (other : ∀ e, Gives P (handler e)) :
    Gives P (tryCatch x handler) := by
  intro c a c' run
  simp only [tryCatch, tryCatchThe, MonadExceptOf.tryCatch, EStateM.tryCatch] at run
  split at run
  · exact other _ _ _ _ run
  · next done => exact h c a c' run

theorem givesUnless {p : Prop} [Decidable p] {z : Parser PUnit} (h : Gives P x) :
    Gives P (if p then z >>= fun _ => x else x) := givesIf (givesThen fun _ => h) h

theorem givesIterate {step : α → Parser (Option α)} {n : Nat} {a : α} (start : P a)
    (next : ∀ a, P a → Gives (fun r => ∀ b ∈ r, P b) (step a)) : Gives P (iterate step n a) := by
  induction n generalizing a with
  | zero => exact givesPure start
  | succ n ih =>
    refine givesBind (next a start) fun r found => ?_
    cases r with
    | none => exact givesPure start
    | some b => exact ih (found b rfl)

theorem givesRepeat {step : α → Parser (Option α)} {a : α} (start : P a)
    (next : ∀ a, P a → Gives (fun r => ∀ b ∈ r, P b) (step a)) : Gives P (repeatFrom a step) :=
  givesThen fun _ => givesIterate start next

theorem givesEach (P : α → Prop) {start : List α} {step : List α → Parser (Option (List α))} {f : List α → Parser β}
    (h : ∀ a ∈ start, P a)
    (next : ∀ done, (∀ a ∈ done, P a) → Gives (fun r => ∀ all ∈ r, ∀ a ∈ all, P a) (step done))
    (last : ∀ all, (∀ a ∈ all, P a) → Gives Q (f all)) : Gives Q (repeatFrom start step >>= f) :=
  givesBind (givesRepeat h next) last

theorem givesNone : Gives (fun r => ∀ a ∈ r, P a) (pure none) := givesPure nofun

theorem givesSome {a : α} (h : P a) : Gives (fun r => ∀ a ∈ r, P a) (pure (some a)) := by
  refine givesPure ?_
  rintro _ ⟨⟩
  exact h

theorem givesCommas {item : Parser α} {more : Token → Bool} (h : Gives P item) :
    Gives (fun r => ∀ a ∈ r.1, P a) (commaSeparated item more) := by
  refine givesBind h fun first head => ?_
  refine givesBind (P := fun r => ∀ a ∈ r.1, P a) (givesRepeat (by simpa using head) ?_) ?_
  · rintro ⟨items, _, going⟩ all
    refine givesIf givesNone (givesThen fun _ => givesIf givesNone (givesThen fun _ => givesIf ?_ (givesSome all)))
    exact givesBind h fun next later => givesSome (List.forall_mem_cons.mpr ⟨later, all⟩)
  · rintro ⟨items, trailing, _⟩ all
    exact givesPure fun a mem => all a (List.mem_reverse.mp mem)

end Readings

section Texts

variable {parts parts' : List Expr} {embedded : List Char → Nat → Except Failure Expr} {marked : Bool}
  {s rest : List Char} {t : TextToken} {fuel depth : Nat}

def Merged (parts : List Expr) : Prop := parts.IsChain fun a b => ¬(a.text?.isSome ∧ b.text?.isSome)

theorem mergedApart (h : Merged parts) : textsApart parts := by
  induction parts with
  | nil => rfl
  | cons a rest ih =>
    obtain ⟨next, tail⟩ := List.isChain_cons.mp h
    rw [textsApart, ih tail, Bool.and_true, Bool.not_eq_true', Bool.eq_false_iff]
    intro both
    obtain ⟨first, second⟩ := Bool.and_eq_true_iff.mp both
    cases rest with
    | nil => cases second
    | cons b more => exact next b rfl ⟨first, second⟩

theorem mergedReverse (h : Merged parts) : Merged parts.reverse :=
  List.isChain_reverse.mpr (h.imp fun _ _ apart both => apart both.symm)

structure SoundParts (parts : List Expr) : Prop where
  merged : Merged parts
  sound : ∀ e ∈ parts, Sound e

theorem soundText {s : String} : Sound (.constant (.text s marked)) := fun _ => rfl

theorem partsAdded (h : SoundParts parts) : SoundParts (addText marked s parts) := by
  unfold addText
  split
  · exact h
  split
  · next before _ rest =>
    obtain ⟨next, tail⟩ := List.isChain_cons.mp h.merged
    obtain ⟨_, others⟩ := List.forall_mem_cons.mp h.sound
    exact ⟨List.isChain_cons.mpr ⟨fun b mem both => next b mem ⟨rfl, both.2⟩, tail⟩,
      List.forall_mem_cons.mpr ⟨soundText, others⟩⟩
  · next other =>
    refine ⟨List.isChain_cons.mpr ⟨?_, h.merged⟩, List.forall_mem_cons.mpr ⟨soundText, h.sound⟩⟩
    rintro b mem ⟨-, text⟩
    obtain ⟨rest, rfl⟩ := List.head?_eq_some_iff.mp mem
    cases b with
    | constant k =>
      cases k with
      | text before mark => exact other before mark rest rfl
      | _ => cases text
    | _ => cases text

theorem partsFormatted {e : Expr} {conversion : Option Conversion} {spec : Option Expr} (h : SoundParts parts)
    (value : Sound e) : SoundParts (.formatted e conversion spec :: parts) :=
  ⟨List.isChain_cons.mpr ⟨fun _ _ both => absurd both.1 (by simp [Expr.text?]), h.merged⟩,
    List.forall_mem_cons.mpr ⟨value, h.sound⟩⟩

theorem fieldRead {value : Expr} {described after : List Char} {conversion : Option Conversion}
    (next : ∀ {parts s}, SoundParts parts →
      readParts embedded t marked fuel depth parts s = .ok (parts', rest) → SoundParts parts')
    (sound : Sound value) (start : SoundParts parts)
    (h : (do
      let (spec, after) ← match after with
        | ':' :: more => do
          let (inner, after) ← readParts embedded t marked fuel (depth + 1) [] more
          pure (some (Expr.joined inner.reverse), after)
        | _ => pure (none, after)
      let conversion := if conversion.isNone && spec.isNone && !described.isEmpty
        then some Conversion.quoted else conversion
      match after with
      | '\x7d' :: more =>
        readParts embedded t marked fuel depth (.formatted value conversion spec :: parts) more
      | _ => throw Failure.rejected) = .ok (parts', rest)) : SoundParts parts' := by
  have closed {spec : Option Expr} {conversion : Option Conversion} {after : List Char}
      (h : (match after with
        | '\x7d' :: more =>
          readParts embedded t marked fuel depth (.formatted value conversion spec :: parts) more
        | _ => throw Failure.rejected) = .ok (parts', rest)) : SoundParts parts' := by
    split at h
    · exact next (partsFormatted start sound) h
    · cases h
  dsimp only at h
  split at h
  · obtain ⟨⟨inner, after⟩, _, h⟩ := bindOk.mp h
    exact closed h
  · exact closed h

theorem partsGathered (inner : ∀ s line e, embedded s line = .ok e → Sound e) (start : SoundParts parts)
    (h : readParts embedded t marked fuel depth parts s = .ok (parts', rest)) : SoundParts parts' := by
  induction fuel generalizing depth parts parts' s rest with
  | zero => cases h
  | succ fuel ih =>
    rw [readParts] at h
    split at h
    rotate_left
    · cases h
    split at h
    rotate_left
    · cases h
    next text _ =>
    have more : SoundParts (addText marked text parts) := partsAdded start
    split at h
    · exact ih more h
    · cases h
      exact more
    dsimp only at h
    split at h
    · cases h
    split at h
    rotate_left
    · cases h
    split at h
    · cases h
    obtain ⟨value, read, h⟩ := bindOk.mp h
    have sound := inner _ _ value read
    split at h
    · split at h
      · exact fieldRead ih sound (partsAdded more) h
      · exact fieldRead ih sound (partsAdded more) h
      · exact fieldRead ih sound (partsAdded more) h
      · cases h
    · exact fieldRead ih sound (partsAdded more) h

theorem foldKeeps {ε σ τ : Type} {P : σ → Prop} {step : σ → τ → Except ε σ} {l : List τ} {a b : σ} (start : P a)
    (keeps : ∀ a x b, P a → step a x = .ok b → P b) (h : l.foldlM step a = .ok b) : P b := by
  induction l generalizing a with
  | nil =>
    cases h
    exact start
  | cons x rest ih =>
    obtain ⟨c, first, later⟩ := bindOk.mp h
    exact ih (keeps a x c start first) later

theorem soundJoined (h : SoundParts parts) : Sound (.joined parts.reverse) := by
  intro names
  refine Bool.and_eq_true_iff.mpr ⟨?_, mergedApart (mergedReverse h.merged)⟩
  exact soundAll (fun e mem => h.sound e (List.mem_reverse.mp mem)) names

theorem textsRead {tokens : List Token} {e : Expr} (inner : ∀ s line e, embedded s line = .ok e → Sound e)
    (h : readTexts embedded tokens = .ok e) : Sound e := by
  unfold readTexts at h
  dsimp only at h
  split at h
  · obtain ⟨_, _, h⟩ := bindOk.mp h
    cases h
    exact fun _ => rfl
  split at h
  · cases h
  obtain ⟨parts, read, h⟩ := bindOk.mp h
  have kept : SoundParts parts := by
    refine foldKeeps ⟨.nil, nofun⟩ (fun before t after start step => ?_) read
    split at step
    · obtain ⟨⟨more, rest⟩, read, step⟩ := bindOk.mp step
      dsimp only at step
      split at step
      · cases step
        exact partsGathered inner start read
      · cases step
    · split at step
      · cases step
        exact partsAdded start
      · cases step
  split at h
  · cases h
    exact soundJoined kept
  split at h <;>
  · cases h
    exact fun _ => rfl

end Texts

section Nodes

variable {e left right test : Expr} {es : List Expr} {line : Nat} {keywords : List Keyword} {cs : List Clause}

theorem soundAssigned {id : String} (h : Sound e) : Sound (.assigned id e) := by
  intro names
  obtain ⟨target, value⟩ := Bool.and_eq_true_iff.mp names
  exact Bool.and_eq_true_iff.mpr ⟨target, h value⟩

theorem soundField {name : String} (h : Sound e) : Sound (.field e name) := by
  intro names
  obtain ⟨base, member⟩ := Bool.and_eq_true_iff.mp names
  exact Bool.and_eq_true_iff.mpr ⟨h base, member⟩

theorem soundLambda {params : LambdaParams} (h : Sound e) : Sound (.lambda params e) := by
  intro names
  obtain ⟨params, body⟩ := Bool.and_eq_true_iff.mp names
  exact Bool.and_eq_true_iff.mpr ⟨params, h body⟩

theorem soundCall (h : Sound e) (all : ∀ a ∈ es, Sound a) : Sound (.call line e es keywords) := by
  intro names
  obtain ⟨func, args⟩ := Bool.and_eq_true_iff.mp names
  exact Bool.and_eq_true_iff.mpr ⟨h func, soundAll all args⟩

theorem soundConditional (ht : Sound test) (hl : Sound left) (hr : Sound right) :
    Sound (.conditional test left right) := by
  intro names
  obtain ⟨both, third⟩ := Bool.and_eq_true_iff.mp names
  exact Bool.and_eq_true_iff.mpr ⟨soundBoth ht hl both, hr third⟩

theorem soundCompare {rest : List Comparison} (h : Sound e) (all : ∀ x ∈ rest, SoundComparison x) :
    Sound (.compare e rest) := by
  intro names
  obtain ⟨first, others⟩ := Bool.and_eq_true_iff.mp names
  exact Bool.and_eq_true_iff.mpr ⟨h first, soundComparisons all others⟩

theorem soundSlice {lower upper step : Option Expr} (hl : ∀ e ∈ lower, Sound e) (hu : ∀ e ∈ upper, Sound e) :
    Sound (.slice lower upper step) := by
  intro names
  obtain ⟨low, high⟩ := Bool.and_eq_true_iff.mp names
  exact Bool.and_eq_true_iff.mpr ⟨soundOption hl low, soundOption hu high⟩

theorem soundComprehension (h : Sound e) (all : ∀ c ∈ cs, SoundClause c)
    (names : (identified e && identifiedClauses cs) = true) : (formed e && formedClauses cs) = true := by
  obtain ⟨item, clauses⟩ := Bool.and_eq_true_iff.mp names
  exact Bool.and_eq_true_iff.mpr ⟨h item, soundClauses all clauses⟩

end Nodes

-- Each reading follows the shape of what it reads: what it passes over is no matter, and what it keeps is sound.
section Lists

variable {p q : Parser Expr}

theorem givesStarredOr (hp : Gives Sound p) (hq : Gives Sound q) : Gives Sound (starredOr p q) :=
  givesThen fun _ => givesIf (givesBind hp fun _ operand => givesPure operand) hq

theorem givesTuple (h : Gives Sound p) : Gives Sound (itemsAsTuple p) := by
  refine givesBind (givesCommas h) ?_
  rintro ⟨items, trailing⟩ all
  dsimp only
  split
  · exact givesPure (all _ List.mem_cons_self)
  · exact givesPure (soundAll all)

theorem givesGrouped {ops : List (String × BinaryOp)} (h : Gives Sound p) : Gives Sound (leftGrouped ops p) := by
  refine givesBind h fun first start => givesRepeat start fun left sound => ?_
  refine givesThen fun t => givesIf givesNone ?_
  split
  · exact givesThen fun _ => givesBind h fun right other => givesSome (soundBoth sound other)
  · exact givesNone

theorem givesJoined {word : String} {op : BooleanOp} (h : Gives Sound p) : Gives Sound (joinedBy word op p) := by
  refine givesBind h fun first start => givesEach Sound (by simpa using start) (fun done all => ?_) fun all every => ?_
  · exact givesThen fun _ =>
      givesIf (givesBind h fun e operand => givesSome (List.forall_mem_cons.mpr ⟨operand, all⟩)) givesNone
  · split
    · exact givesPure (every _ List.mem_cons_self)
    · exact givesPure (soundAll fun e mem => every e (List.mem_reverse.mp mem))

end Lists

section Grammar

structure SoundGrammar (g : Grammar) : Prop where
  expression : Gives Sound g.expression
  disjunction : Gives Sound g.disjunction
  inversion : Gives Sound g.inversion
  bitOr : Gives Sound g.bitOr
  factor : Gives Sound g.factor
  primary : Gives Sound g.primary
  embedded : ∀ s line e, g.embedded s line = .ok e → Sound e

variable {g : Grammar} {p : Parser Expr} {e : Expr} {first : Entry} {lower : Option Expr} (sound : SoundGrammar g)
include sound

theorem givesNamed (h : Gives Sound p) : Gives Sound (Reading.named g p) := by
  refine givesThen fun _ => givesIf ?_ (givesBind h fun e value => givesThen fun _ => givesUnless (givesPure value))
  exact givesThen fun _ => givesThen fun _ => givesBind sound.expression fun e value => givesPure (soundAssigned value)

theorem givesItem : Gives Sound (item g) := givesStarredOr sound.bitOr (givesNamed sound sound.expression)

theorem givesExpressions : Gives Sound (starExpressions g) := givesTuple (givesStarredOr sound.bitOr sound.expression)

omit sound in
theorem givesYielded : Gives Sound (yielded g) := by
  refine givesThen fun _ => givesIf (givesThen fun _ => givesPure fun _ => rfl) (givesThen fun _ => givesIf ?_ ?_)
  · exact givesThen fun _ => givesPure fun _ => rfl
  · exact givesPure fun _ => rfl

theorem givesTargets : Gives Sound (loopTargets g) := by
  refine givesThen fun _ => givesBind (givesTuple (givesStarredOr sound.primary sound.primary)) fun target value => ?_
  refine givesThen fun _ => givesIf (givesThen fun _ => givesPure value) (givesThen fun _ => givesThen fun r => ?_)
  split <;> exact givesThrow

theorem givesClause : Gives SoundClause (clause g) := by
  refine givesThen fun _ => givesThen fun _ => givesBind (givesTargets sound) fun target stored => ?_
  refine givesBind sound.disjunction fun iter source => ?_
  refine givesEach Sound nofun (fun done all => givesThen fun _ => givesIf ?_ givesNone) fun all every => ?_
  · exact givesBind sound.disjunction fun e guard => givesSome (List.forall_mem_cons.mpr ⟨guard, all⟩)
  · exact givesPure ⟨stored, source, fun e mem => every e (List.mem_reverse.mp mem)⟩

theorem givesClauses : Gives (fun cs => ∀ c ∈ cs, SoundClause c) (clauses g) := by
  refine givesBind (givesClause sound) fun first start => ?_
  refine givesEach SoundClause (by simpa using start) (fun done all => givesThen fun _ => givesIf ?_ givesNone)
    fun all every => ?_
  · exact givesBind (givesClause sound) fun c next => givesSome (List.forall_mem_cons.mpr ⟨next, all⟩)
  · exact givesPure fun c mem => every c (List.mem_reverse.mp mem)

theorem givesParenthesized : Gives Sound (parenthesized g) := by
  refine givesThen fun _ => givesIf (givesPure fun _ => rfl) (givesThen fun _ => givesIf ?_ ?_)
  · exact givesBind givesYielded fun e value => givesThen fun _ => givesPure value
  refine givesBind (givesItem sound) fun first value => givesThen fun t => ?_
  refine givesIf (givesUnless ?_) (givesIf ?_ (givesUnless ?_))
  · exact givesBind (givesClauses sound) fun cs all => givesThen fun _ => givesPure (soundComprehension value all)
  · have tuple {more : List Expr} (all : ∀ e ∈ more, Sound e) :
        Gives Sound (do expectOp ")"; return .tuple (first :: more)) :=
      givesThen fun _ => givesPure (soundAll (List.forall_mem_cons.mpr ⟨value, all⟩))
    refine givesThen fun _ => givesThen fun _ => givesIf (givesBind (givesCommas (givesItem sound)) ?_) (tuple nofun)
    rintro ⟨items, _⟩ all
    exact tuple all
  · exact givesThen fun _ => givesPure value

theorem givesBracketed : Gives Sound (bracketed g) := by
  refine givesThen fun _ => givesIf (givesPure fun _ => rfl) (givesBind (givesItem sound) fun first value => ?_)
  refine givesThen fun t => givesIf (givesUnless ?_) ?_
  · exact givesBind (givesClauses sound) fun cs all => givesThen fun _ => givesPure (soundComprehension value all)
  · have list {more : List Expr} (all : ∀ e ∈ more, Sound e) :
        Gives Sound (do expectOp "]"; return .list (first :: more)) :=
      givesThen fun _ => givesPure (soundAll (List.forall_mem_cons.mpr ⟨value, all⟩))
    refine givesThen fun _ => givesIf (givesThen fun _ => givesIf ?_ (list nofun)) (list nofun)
    refine givesBind (givesCommas (givesItem sound)) ?_
    rintro ⟨items, _⟩ all
    exact list all

theorem givesValue : Gives Sound (entryValue g) :=
  givesThen fun _ => givesThen fun _ => givesThen fun _ => givesUnless sound.expression

theorem givesEntry : Gives SoundEntry (entry g) := by
  refine givesThen fun _ => givesIf (givesBind sound.bitOr fun e value => givesPure value) (givesThen fun _ => ?_)
  refine givesBind sound.expression fun key known => givesThen fun _ => givesUnless ?_
  exact givesBind (givesValue sound) fun e value => givesPure ⟨known, value⟩

theorem givesEntries (start : SoundEntry first) : Gives Sound (furtherEntries g first) := by
  have dict {more : List Entry} (all : ∀ x ∈ more, SoundEntry x) :
      Gives Sound (do expectOp "\x7d"; return .dict (first :: more)) :=
    givesThen fun _ => givesPure (soundEntries (List.forall_mem_cons.mpr ⟨start, all⟩))
  refine givesThen fun _ => givesIf (givesThen fun _ => givesIf ?_ (dict nofun)) (dict nofun)
  refine givesBind (givesCommas (givesEntry sound)) ?_
  rintro ⟨entries, _⟩ all
  exact dict all

theorem givesBraced : Gives Sound (braced g) := by
  refine givesThen fun _ => givesIf (givesPure fun _ => rfl) (givesThen fun _ => givesIf ?_ ?_)
  · exact givesBind (givesEntry sound) fun first start => givesEntries sound start
  refine givesThen fun named => givesBind (givesItem sound) fun first key => givesThen fun colon => givesIf ?_ ?_
  · refine givesBind (givesValue sound) fun value known => givesThen fun _ => givesIf ?_ (givesEntries sound ⟨key, known⟩)
    exact givesThen fun _ => givesThen fun _ => givesPure fun _ => rfl
  · have set {more : List Expr} : Gives Sound (do expectOp "\x7d"; return .set (first :: more)) :=
      givesThen fun _ => givesPure fun _ => rfl
    refine givesThen fun _ => givesIf (givesUnless (givesThen fun _ => givesThen fun _ => givesPure fun _ => rfl)) ?_
    exact givesThen fun _ => givesIf (givesThen fun _ => givesIf (givesThen fun _ => set) set) set

theorem givesTexts : Gives Sound (texts g) := by
  refine givesThen fun tokens => ?_
  split
  · next e read => exact givesPure (textsRead sound.embedded read)
  · exact givesThrow

theorem givesAtom : Gives Sound (atom g) := by
  refine givesThen fun t => ?_
  split
  · exact givesThen fun _ => givesPure id
  · refine givesThen fun _ => ?_
    split
    · exact givesPure fun _ => rfl
    · exact givesThrow
  · exact givesTexts sound
  · have constant {k : Constant} : Gives Sound (do advance; return .constant k) :=
      givesThen fun _ => givesPure fun _ => rfl
    split
    · exact constant
    · exact constant
    · exact constant
    · exact givesThen fun _ => constant
  · split
    · exact givesThen fun _ => givesParenthesized sound
    · exact givesThen fun _ => givesBracketed sound
    · exact givesThen fun _ => givesBraced sound
    · exact givesThen fun _ => givesPure fun _ => rfl
    · exact givesThrow
  · exact givesThrow

theorem givesArgument {done : Arguments} (all : ∀ e ∈ done.plain, Sound e) :
    Gives (fun args => ∀ e ∈ args.plain, Sound e) (argument g done) := by
  refine givesThen fun _ => givesIf (givesThen fun _ => givesPure all) (givesThen fun _ => givesIf (givesUnless ?_) ?_)
  · exact givesBind sound.expression fun e value => givesPure (List.forall_mem_cons.mpr ⟨value, all⟩)
  refine givesThen fun _ => givesIf ?_ (givesThen fun _ => ?_)
  · exact givesThen fun _ => givesThen fun _ => givesThen fun _ => givesPure all
  refine givesBind (givesNamed sound sound.expression) fun e value => givesThen fun _ => givesUnless (givesUnless ?_)
  exact givesPure (List.forall_mem_cons.mpr ⟨value, all⟩)

theorem givesArguments : Gives (fun r => ∀ e ∈ r.1, Sound e) (arguments g) := by
  refine givesThen fun _ => givesIf (givesPure nofun) (givesThen fun _ => ?_)
  refine givesBind (givesArgument sound nofun) fun first start => givesThen fun _ => givesIf ?_ ?_
  · split
    · next e plain _ =>
      have value : Sound e := start e (by simp [plain])
      refine givesUnless (givesBind (givesClauses sound) fun cs all => givesThen fun _ => givesUnless (givesThen fun _ => ?_))
      refine givesPure fun a mem => ?_
      obtain rfl := List.mem_singleton.mp mem
      exact soundComprehension value all
    · exact givesThrow
  · refine givesBind (P := fun r => ∀ e ∈ r.1.plain, Sound e) (givesRepeat start ?_) ?_
    · rintro ⟨done, going⟩ all
      refine givesIf givesNone (givesThen fun _ => givesIf givesNone (givesThen fun _ => givesIf ?_ (givesSome all)))
      exact givesBind (givesArgument sound all) fun next more => givesSome more
    · rintro ⟨all, _⟩ every
      exact givesThen fun _ => givesPure fun e mem => every e (List.mem_reverse.mp mem)

theorem givesBound : Gives (fun r => ∀ e ∈ r, Sound e) (bound? g) :=
  givesThen fun _ => givesIf (givesBind sound.expression fun _ value => givesSome value) givesNone

theorem givesSlice (low : ∀ e ∈ lower, Sound e) : Gives Sound (sliceFrom g lower) := by
  refine givesThen fun _ => givesBind (givesBound sound) fun upper high => givesThen fun _ => givesIf ?_ ?_
  · exact givesThen fun step => givesPure (soundSlice low high)
  · exact givesPure (soundSlice low high)

theorem givesIndex : Gives Sound (index g) := by
  refine givesThen fun _ => givesIf (givesSlice sound nofun) (givesThen fun named => ?_)
  refine givesBind (givesStarredOr sound.expression (givesNamed sound sound.expression)) fun e value => ?_
  refine givesThen fun _ => givesIf (givesIf (givesSlice sound ?_) givesThrow) (givesPure value)
  rintro _ ⟨⟩
  exact value

theorem givesIndices : Gives Sound (indices g) := by
  refine givesBind (givesCommas (givesIndex sound)) ?_
  rintro ⟨items, trailing⟩ all
  refine givesThen fun _ => ?_
  split
  · next e =>
    have value : Sound e := all e List.mem_cons_self
    refine givesPure ?_
    split
    · exact soundAll (by simpa using value)
    · exact value
  · exact givesPure (soundAll all)

theorem givesPrimary : Gives Sound (primary g) := by
  refine givesThen fun _ => givesBind (givesAtom sound) fun first start => givesRepeat start fun e base => ?_
  refine givesThen fun t => givesIf givesNone ?_
  split
  · exact givesThen fun _ => givesThen fun name => givesSome (soundField base)
  · refine givesThen fun _ => givesBind (givesArguments sound) ?_
    rintro ⟨args, keyed⟩ all
    exact givesSome (soundCall base all)
  · exact givesThen fun _ => givesBind (givesIndices sound) fun i index => givesSome (soundBoth base index)
  · exact givesNone

theorem givesPower : Gives Sound (power g) := by
  have raised {base : Expr} (h : Sound base) :
      Gives Sound (do if ← takeOp? "**" then return .binary base .pow (← g.factor) else return base) :=
    givesThen fun _ => givesIf (givesBind sound.factor fun e value => givesPure (soundBoth h value)) (givesPure h)
  refine givesThen fun _ => givesIf (givesThen fun e => raised fun _ => rfl) ?_
  exact givesBind (givesPrimary sound) fun e value => raised value

theorem givesFactor : Gives Sound (factor g) := by
  refine givesThen fun t => ?_
  split
  · exact givesThen fun _ => givesBind sound.factor fun e value => givesPure value
  · exact givesPower sound

theorem givesBitOr : Gives Sound (bitOr g) :=
  givesGrouped (givesGrouped (givesGrouped (givesGrouped (givesGrouped (givesGrouped (givesFactor sound))))))

theorem givesComparison : Gives Sound (comparison g) := by
  refine givesBind (givesBitOr sound) fun left start => ?_
  refine givesEach SoundComparison nofun (fun done all => givesThen fun op => ?_) fun rest every => ?_
  · split
    · exact givesBind (givesBitOr sound) fun e value => givesSome (List.forall_mem_cons.mpr ⟨value, all⟩)
    · exact givesNone
  · refine givesPure ?_
    split
    · exact start
    · exact soundCompare start fun x mem => every x (List.mem_reverse.mp mem)

theorem givesInversion : Gives Sound (inversion g) :=
  givesThen fun _ => givesIf (givesBind sound.inversion fun _ value => givesPure value) (givesComparison sound)

theorem givesDisjunction : Gives Sound (disjunction g) := givesJoined (givesJoined (givesInversion sound))

theorem givesCondition {line : Nat} : Gives Sound (conditionOf g line) := by
  refine givesThen fun _ => givesCatch sound.disjunction fun fault => ?_
  split
  · exact givesIf givesThrow givesThrow
  · exact givesThrow

theorem givesExpression : Gives Sound (expression g) := by
  refine givesThen fun _ => givesIf ?_ (givesThen fun start => givesBind (givesDisjunction sound) fun body value => ?_)
  · exact givesThen fun p => givesThen fun _ => givesBind sound.expression fun e body => givesPure (soundLambda body)
  refine givesThen fun _ => givesThen fun _ => givesIf ?_ (givesPure value)
  refine givesBind (givesCondition sound) fun test condition => givesThen fun _ => givesThen fun _ => givesUnless ?_
  exact givesThen fun _ =>
    givesBind sound.expression fun orelse other => givesPure (soundConditional condition value other)

end Grammar

section Whole

variable {e : Expr} {text : String}

theorem givesFail {α : Type} {P : α → Prop} : Gives P fail := givesThrow

theorem givesRun {α : Type} {P : α → Prop} {x : Parser α} {tokens : List Token} {a : α} (h : Gives P x)
    (read : run tokens x = .ok a) : P a := by
  unfold run at read
  split at read
  · next step =>
    cases read
    exact h _ _ _ step
  · cases read

theorem soundDepth : ∀ depth, SoundGrammar (ofDepth depth)
  | 0 => ⟨givesFail, givesFail, givesFail, givesFail, givesFail, givesFail, nofun⟩
  | depth + 1 => by
    have inner := soundDepth depth
    refine ⟨givesExpression inner, givesDisjunction inner, givesInversion inner, givesBitOr inner, givesFactor inner,
      givesPrimary inner, fun source line e read => ?_⟩
    unfold ofDepth at read
    dsimp only at read
    split at read
    · next value ran =>
      cases read
      exact givesRun (givesExpressions inner) ran
    · cases read

theorem readFormed (read : readExpression text = .ok e) : identified e → formed e := by
  refine givesRun (P := Sound) ?_ read
  refine givesBind (givesTuple (givesExpression (soundDepth _))) fun value sound => ?_
  exact givesThen fun _ => givesThen fun _ => givesUnless (givesPure sound)

end Whole

end LiveMarkup.Syntax
