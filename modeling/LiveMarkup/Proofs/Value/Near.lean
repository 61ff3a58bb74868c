import Mathlib.Data.List.Forall2
import Mathlib.Data.List.Infix
import LiveMarkup.Client.Record
import LiveMarkup.Proofs.Outcome
import LiveMarkup.Value.Equal
import LiveMarkup.Value.Literal
import LiveMarkup.Value.Sum
/-! Values of two runs that give elements other identifiers. Texts that name no element are the same in both,
and whatever looks at the values comes to the same. -/
namespace LiveMarkup
open Client

def Named (s : String) : Prop := idAttribute.toList <:+: s.toList

instance {s : String} : Decidable (Named s) := inferInstanceAs (Decidable (_ <:+: _))

inductive Kin : String → String → Prop where
  | same {s} : Kin s s
  | named {s t} (first : Named s) (second : Named t) : Kin s t

section Texts

variable {s t u w left right : String} {enc : Char → List Char} {ss ts : List String}

theorem kinSame (h : Kin s t) (clear : ¬Named s) : t = s := by
  cases h with
  | same => rfl
  | named first _ => exact absurd first clear

theorem kinOf {g : String → String} (h : Kin s t) (keeps : ∀ s, Named s → Named (g s)) : Kin (g s) (g t) := by
  cases h with
  | same => exact .same
  | named first second => exact .named (keeps s first) (keeps t second)

theorem namedBeside (h : Named s ∨ Named t) : Named (s ++ t) := by
  rw [Named, String.toList_append]
  rcases h with h | h
  · exact h.trans (List.prefix_append _ _).isInfix
  · exact h.trans (List.suffix_append _ _).isInfix

theorem kinAppend (h : Kin s t) (h' : Kin u w) : Kin (s ++ u) (t ++ w) := by
  cases h with
  | same =>
    cases h' with
    | same => exact .same
    | named first second => exact .named (namedBeside (.inr first)) (namedBeside (.inr second))
  | named first second => exact .named (namedBeside (.inl first)) (namedBeside (.inl second))

theorem kinAround (h : Kin s t) : Kin (left ++ s ++ right) (left ++ t ++ right) :=
  kinAppend (kinAppend .same h) .same

theorem kinJoin (h : List.Forall₂ Kin ss ts) : Kin (String.join ss) (String.join ts) := by
  induction h with
  | nil => exact .same
  | cons first _ ih =>
    rw [String.join_cons, String.join_cons]
    exact kinAppend first ih

theorem kinSeparated (h : List.Forall₂ Kin ss ts) : Kin (left.intercalate ss) (left.intercalate ts) := by
  induction h with
  | nil => exact .same
  | cons first rest ih =>
    cases rest with
    | nil =>
      rw [String.intercalate_singleton, String.intercalate_singleton]
      exact first
    | cons second rest =>
      rw [String.intercalate_cons_cons, String.intercalate_cons_cons]
      exact kinAppend (kinAppend first .same) ih

theorem kinBracketed (h : List.Forall₂ Kin ss ts) :
    Kin (Value.bracketed left ss right) (Value.bracketed left ts right) := kinAround (kinSeparated h)

theorem promiseKin {chain : List Link} (h : List.Forall₂ Kin ss ts) :
    Kin (Value.writePromise ss chain) (Value.writePromise ts chain) :=
  kinAppend (kinAppend (kinAppend .same (kinBracketed h)) .same) .same

theorem namedEncoded (plain : idAttribute.toList.flatMap enc = idAttribute.toList) (h : Named s) :
    idAttribute.toList <:+: s.toList.flatMap enc := by
  obtain ⟨before, behind, same⟩ := h
  refine ⟨before.flatMap enc, behind.flatMap enc, ?_⟩
  rw [← same, List.flatMap_append, List.flatMap_append, plain]

theorem kinEscaped (h : Kin s t) : Kin (Markup.escape s) (Markup.escape t) := by
  refine kinOf h fun s named => ?_
  rw [Named, Markup.escape, String.toList_ofList]
  exact namedEncoded (by decide) named

theorem kinQuotes (h : Kin s t) : Kin (Markup.escapeQuotes s) (Markup.escapeQuotes t) := by
  refine kinOf h fun s named => ?_
  rw [Named, Markup.escapeQuotes, String.toList_ofList]
  exact namedEncoded (by decide) named

theorem kinQuoted (h : Kin s t) : Kin (Text.quoted s) (Text.quoted t) := by
  refine kinOf h fun s named => ?_
  have plain : idAttribute.toList.flatMap (Text.Quoted.escapeChar (Text.Quoted.quoteFor s.toList)) =
      idAttribute.toList := by
    unfold Text.Quoted.quoteFor
    split
    · decide +kernel
    · decide +kernel
  rw [Named, Text.quoted, String.toList_ofList, Text.Quoted.encode]
  refine (namedEncoded plain named).trans ?_
  exact (List.suffix_cons _ _).isInfix.trans (List.prefix_append _ _).isInfix

end Texts

mutual

inductive Near : Value → Value → Prop where
  | same {v} : Near v v
  | text {s t} (kin : Kin s t) : Near (.text s) (.text t)
  | markup {s t} (kin : Kin s t) : Near (.markup s) (.markup t)
  | safe {s t} (kin : Kin s t) : Near (.safe s) (.safe t)
  | rendered {s t b d owner} (output : Kin s t) (body : Kin b d) : Near (.rendered s b owner) (.rendered t d owner)
  | list {vs ws} (items : NearAll vs ws) : Near (.list vs) (.list ws)
  | tuple {vs ws} (items : NearAll vs ws) : Near (.tuple vs) (.tuple ws)
  | generator {vs ws} (items : NearAll vs ws) : Near (.generator vs) (.generator ws)
  | set {vs ws} (items : NearAll vs ws) : Near (.set vs) (.set ws)
  | dict {es fs} (entries : NearEntries es fs) : Near (.dict es) (.dict fs)
  | promise {u u' chain} (url : Near u u') : Near (.promise u none chain) (.promise u' none chain)
  | promiseWith {u u' o o' chain} (url : Near u u') (options : Near o o') :
      Near (.promise u (some o) chain) (.promise u' (some o') chain)
  | component {c fields} (held : NearFields c.fields fields) : Near (.component c) (.component (c.withFields fields))

inductive NearAll : List Value → List Value → Prop where
  | nil : NearAll [] []
  | cons {v w vs ws} (first : Near v w) (rest : NearAll vs ws) : NearAll (v :: vs) (w :: ws)

inductive NearEntries : List (Value × Value) → List (Value × Value) → Prop where
  | nil : NearEntries [] []
  | cons {k k' v w es fs} (key : Near k k') (value : Near v w) (rest : NearEntries es fs) :
      NearEntries ((k, v) :: es) ((k', w) :: fs)

inductive NearFields : List (String × Value) → List (String × Value) → Prop where
  | nil : NearFields [] []
  | cons {name v w fs gs} (value : Near v w) (rest : NearFields fs gs) :
      NearFields ((name, v) :: fs) ((name, w) :: gs)

end

section Lists

variable {vs ws xs ys : List Value} {fs gs : List (String × Value)} {es hs : List (Value × Value)}

theorem nearSelf : (vs : List Value) → NearAll vs vs
  | [] => .nil
  | _ :: rest => .cons .same (nearSelf rest)

theorem fieldsSelf : (fs : List (String × Value)) → NearFields fs fs
  | [] => .nil
  | _ :: rest => .cons .same (fieldsSelf rest)

theorem nearAppend (h : NearAll vs ws) (h' : NearAll xs ys) : NearAll (vs ++ xs) (ws ++ ys) := by
  induction vs generalizing ws with
  | nil =>
    cases h
    exact h'
  | cons v rest ih =>
    cases h with
    | cons first later => exact .cons first (ih later)

theorem nearLength (h : NearAll vs ws) : ws.length = vs.length := by
  induction vs generalizing ws with
  | nil =>
    cases h
    rfl
  | cons v rest ih =>
    cases h with
    | cons _ later => rw [List.length_cons, List.length_cons, ih later]

theorem nearAt (h : NearAll vs ws) (n : Nat) : Option.Rel Near vs[n]? ws[n]? := by
  induction vs generalizing ws n with
  | nil =>
    cases h
    exact .none
  | cons v rest ih =>
    cases h with
    | cons first later =>
      cases n with
      | zero => exact .some first
      | succ n => exact ih later n

theorem nearLast (h : NearAll vs ws) : Near (vs.getLast?.getD (.text "")) (ws.getLast?.getD (.text "")) := by
  have last := nearAt h (vs.length - 1)
  rw [List.getLast?_eq_getElem?, List.getLast?_eq_getElem?, nearLength h]
  revert last
  generalize vs[vs.length - 1]? = v?, ws[vs.length - 1]? = w?
  rintro (near | _)
  · exact near
  · exact .same

theorem nearField (h : NearFields fs gs) (name : String) :
    Option.Rel Near ((fs.find? (·.1 == name)).map (·.2)) ((gs.find? (·.1 == name)).map (·.2)) := by
  induction fs generalizing gs with
  | nil =>
    cases h
    exact .none
  | cons f rest ih =>
    cases h with
    | @cons field v w _ _ value later =>
      rw [List.find?_cons, List.find?_cons]
      cases field == name with
      | true => exact .some value
      | false => exact ih later

end Lists

section Kinds

variable {v w : Value}

theorem nearText {s : String} (h : Near (.text s) w) : ∃ t, w = .text t ∧ Kin s t := by
  cases h with
  | same => exact ⟨s, rfl, .same⟩
  | text kin => exact ⟨_, rfl, kin⟩

theorem nearList {vs : List Value} (h : Near (.list vs) w) : ∃ ws, w = .list ws ∧ NearAll vs ws := by
  cases h with
  | same => exact ⟨vs, rfl, nearSelf vs⟩
  | list items => exact ⟨_, rfl, items⟩

theorem nearTuple {vs : List Value} (h : Near (.tuple vs) w) : ∃ ws, w = .tuple ws ∧ NearAll vs ws := by
  cases h with
  | same => exact ⟨vs, rfl, nearSelf vs⟩
  | tuple items => exact ⟨_, rfl, items⟩

theorem nearGenerator {vs : List Value} (h : Near (.generator vs) w) : ∃ ws, w = .generator ws ∧ NearAll vs ws := by
  cases h with
  | same => exact ⟨vs, rfl, nearSelf vs⟩
  | generator items => exact ⟨_, rfl, items⟩

theorem nearComponent {c : Component} (h : Near (.component c) w) :
    ∃ fields, w = .component (c.withFields fields) ∧ NearFields c.fields fields := by
  cases h with
  | same => exact ⟨c.fields, by obtain ⟨⟩ := c; rfl, fieldsSelf _⟩
  | component held => exact ⟨_, rfl, held⟩

theorem nearType (h : Near v w) : w.typeName = v.typeName := by
  cases h with
  | @component c _ _ =>
    obtain ⟨⟩ := c
    rfl
  | _ => rfl

theorem nearSafe (h : Near v w) : Option.Rel Kin v.safeHtml? w.safeHtml? := by
  cases h with
  | same =>
    cases v.safeHtml? with
    | none => exact .none
    | some s => exact .some .same
  | markup kin | safe kin | rendered kin _ => exact .some kin
  | _ => exact .none

theorem nearIsSafe (h : Near v w) : w.isSafe = v.isSafe := by
  have safe := nearSafe h
  rw [Value.isSafe, Value.isSafe]
  revert safe
  generalize v.safeHtml? = s?, w.safeHtml? = t?
  rintro (_ | _) <;> rfl

theorem promiseWritten {url o : Value} {chain : List Link} (some : o ≠ .none) :
    (Value.promise url (.some o) chain).written = Value.writePromise [url.written, o.written] chain := by
  rw [Value.written]
  exact some

mutual

-- Tuples of one item and promises without options are written in ways of their own.
theorem nearWritten {v w : Value} : Near v w → Kin v.written w.written
  | .same => .same
  | .text kin => by
    rw [Value.written, Value.written]
    exact kinQuoted kin
  | .markup kin | .rendered kin _ => by
    rw [Value.written, Value.written]
    exact kinAround (kinQuoted kin)
  | .safe _ | .generator _ => by
    rw [Value.written, Value.written]
    exact .same
  | .list items => by
    rw [Value.written, Value.written]
    exact kinBracketed (writtenAllKin items)
  | .tuple .nil => .same
  | .tuple (.cons first .nil) => by
    rw [Value.written, Value.written]
    exact kinAround (nearWritten first)
  | .tuple (.cons first (.cons second rest)) => by
    have all := NearAll.cons first (.cons second rest)
    rw [Value.written, Value.written]
    · exact kinBracketed (.cons (nearWritten first) (.cons (nearWritten second) (writtenAllKin rest)))
    · rintro _ ⟨⟩
    · rintro _ ⟨⟩
  | .set .nil => .same
  | .set (.cons first rest) => by
    rw [Value.written, Value.written]
    · exact kinBracketed (.cons (nearWritten first) (writtenAllKin rest))
    · rintro ⟨⟩
    · rintro ⟨⟩
  | .dict entries => by
    rw [Value.written, Value.written]
    exact kinBracketed (writtenEntriesKin entries)
  | .promise url => by
    rw [Value.written, Value.written]
    exact promiseKin (.cons (nearWritten url) .nil)
  | @Near.promiseWith _ _ o o' _ url options => by
    by_cases nothing : o = .none
    · subst nothing
      cases options
      rw [Value.written, Value.written]
      exact promiseKin (.cons (nearWritten url) .nil)
    · have other : o' ≠ .none := by
        rintro rfl
        cases options
        exact nothing rfl
      rw [promiseWritten nothing, promiseWritten other]
      exact promiseKin (.cons (nearWritten url) (.cons (nearWritten options) .nil))
  | .component (c := c) _ => by
    obtain ⟨⟩ := c
    exact .same

theorem writtenAllKin {vs ws : List Value} :
    NearAll vs ws → List.Forall₂ Kin (Value.writtenAll vs) (Value.writtenAll ws)
  | .nil => .nil
  | .cons first rest => .cons (nearWritten first) (writtenAllKin rest)

theorem writtenEntriesKin {es fs : List (Value × Value)} :
    NearEntries es fs → List.Forall₂ Kin (Value.writtenEntries es) (Value.writtenEntries fs)
  | .nil => .nil
  | .cons key value rest =>
    .cons (kinAppend (kinAppend (nearWritten key) .same) (nearWritten value)) (writtenEntriesKin rest)

end

theorem nearPlain (h : Near v w) : Kin v.plain w.plain := by
  cases h with
  | same => exact .same
  | text kin | markup kin | rendered kin _ => exact kin
  | safe kin => exact nearWritten (.safe kin)
  | list items => exact nearWritten (.list items)
  | tuple items => exact nearWritten (.tuple items)
  | generator items => exact nearWritten (.generator items)
  | set items => exact nearWritten (.set items)
  | dict entries => exact nearWritten (.dict entries)
  | promise url => exact nearWritten (.promise url)
  | promiseWith url options => exact nearWritten (.promiseWith url options)
  | component held => exact nearWritten (.component held)

theorem nearShown (h : Near v w) : Kin v.shown w.shown := by
  have plain := nearPlain h
  cases h with
  | same => exact .same
  | _ => exact plain

theorem nearEscaped (h : Near v w) : Kin v.escaped w.escaped := by
  have safe := nearSafe h
  rw [Value.escaped, Value.escaped]
  revert safe
  generalize v.safeHtml? = s?, w.safeHtml? = t?
  rintro (kin | _)
  · exact kin
  · exact kinEscaped (nearShown h)

theorem nearTrusted (h : Near v w) : Near v.trusted w.trusted := by
  have plain := nearPlain h
  cases h with
  | same => exact .same
  | markup kin => exact .markup kin
  | rendered output body => exact .rendered output body
  | safe kin => exact .markup kin
  | _ => exact .markup plain

mutual

theorem nearChanges {v w : Value} : Near v w → w.changeable? = v.changeable?
  | .same => rfl
  | .tuple items => changesAmong items
  | .text _ | .markup _ | .safe _ | .rendered _ _ | .list _ | .generator _ | .set _ | .dict _ | .promise _
  | .promiseWith _ _ | .component _ => rfl

theorem changesAmong {vs ws : List Value} :
    NearAll vs ws → Value.changeableAmong? ws = Value.changeableAmong? vs
  | .nil => rfl
  | .cons first rest => by
    rw [Value.changeableAmong?, Value.changeableAmong?, nearChanges first, changesAmong rest]

end

end Kinds

section Keys

mutual

def keyForm : Value → Value
  | .none => .none
  | .truth b => .truth b
  | .whole n => .whole n
  | .real x => .real x
  | .text s | .markup s | .rendered s _ _ => .text s
  | .bytes data => .bytes data
  | .tuple items => .tuple (keyForms items)
  | _ => .object ""

def keyForms : List Value → List Value
  | [] => []
  | v :: rest => keyForm v :: keyForms rest

end

mutual

def keyTexts : Value → List String
  | .text s | .markup s | .rendered s _ _ => [s]
  | .tuple items => keyTextsAll items
  | _ => []

def keyTextsAll : List Value → List String
  | [] => []
  | v :: rest => keyTexts v ++ keyTextsAll rest

end

def Unnamed (v : Value) : Prop := ∀ s ∈ keyTexts v, ¬Named s

instance {v : Value} : Decidable (Unnamed v) := inferInstanceAs (Decidable (∀ s ∈ keyTexts v, ¬Named s))

variable {v w key : Value} {vs ws : List Value} {es fs : List (Value × Value)}

theorem leafForm (leaf : ∀ items, v ≠ .tuple items) :
    Value.sameLeaf (keyForm v) (keyForm w) = Value.sameLeaf v w := by
  cases v with
  | tuple items => exact absurd rfl (leaf items)
  | real x => cases x <;> cases w <;> rfl
  | _ => cases w <;> rfl

theorem leafSame (leaf : ∀ items, v ≠ .tuple items) : v.same w = v.sameLeaf w := by
  rw [Value.same]
  exact leaf

theorem leafKept (leaf : ∀ items, v ≠ .tuple items) : (keyForm v).same (keyForm w) = v.same w := by
  have formed : ∀ items, keyForm v ≠ .tuple items := by
    cases v with
    | tuple items => exact absurd rfl (leaf items)
    | _ => rintro _ ⟨⟩
  rw [leafSame formed, leafSame leaf, leafForm leaf]

mutual

theorem sameForm : (v w : Value) → (keyForm v).same (keyForm w) = v.same w
  | .tuple items, w => by
    cases w with
    | tuple others =>
      rw [keyForm, keyForm, Value.same, Value.same]
      exact sameForms items others
    | _ => rfl
  | .none, w | .truth _, w | .whole _, w | .real _, w | .text _, w | .bytes _, w | .list _, w | .generator _, w
  | .set _, w | .dict _, w | .markup _, w | .rendered _ _ _, w | .safe _, w | .object _, w | .promise _ _ _, w
  | .component _, w => leafKept (by rintro _ ⟨⟩)

theorem sameForms : (vs ws : List Value) → Value.sameAll (keyForms vs) (keyForms ws) = Value.sameAll vs ws
  | [], [] | [], _ :: _ | _ :: _, [] => rfl
  | v :: rest, w :: others => by
    rw [keyForms, keyForms, Value.sameAll, Value.sameAll, sameForm v w, sameForms rest others]

end

mutual

theorem nearForm {v w : Value} : Near v w → Unnamed v → keyForm w = keyForm v
  | .same, _ => rfl
  | .text kin, clear | .markup kin, clear | .rendered kin _, clear => by
    obtain rfl := kinSame kin (clear _ List.mem_cons_self)
    rfl
  | .tuple items, clear => congrArg Value.tuple (nearForms items clear)
  | .safe _, _ | .list _, _ | .generator _, _ | .set _, _ | .dict _, _ | .promise _, _ | .promiseWith _ _, _
  | .component _, _ => rfl

theorem nearForms {vs ws : List Value} :
    NearAll vs ws → (∀ s ∈ keyTextsAll vs, ¬Named s) → keyForms ws = keyForms vs
  | .nil, _ => rfl
  | .cons first rest, clear => by
    obtain ⟨here, later⟩ := List.forall_mem_append.mp clear
    rw [keyForms, keyForms, nearForm first here, nearForms rest later]

end

theorem nearSame {v' w' : Value} (h : Near v v') (h' : Near w w') (clear : Unnamed v) (clear' : Unnamed w) :
    v'.same w' = v.same w := by
  rw [← sameForm v' w', nearForm h clear, nearForm h' clear', sameForm]

def follows : Value → Value → Bool
  | .whole m, .whole n => decide (n < m)
  | _, _ => false

theorem adjoinCons : Value.adjoin key (v :: vs) =
    if v.same key then v :: vs
    else if follows v key then key :: v :: vs
    else v :: Value.adjoin key vs := by
  cases v with
  | whole m =>
    cases key with
    | whole n => simp only [Value.adjoin, follows, decide_eq_true_eq]
    | _ => rfl
  | _ => rfl

theorem nearFollows {v' key' : Value} (near : Near v v') (nearKey : Near key key') :
    follows v' key' = follows v key := by
  cases near with
  | same =>
    cases nearKey with
    | same => rfl
    | _ => cases v <;> rfl
  | _ => rfl

theorem nearAdjoin {key' : Value} (near : Near key key') (clear : Unnamed key) (items : NearAll vs ws)
    (all : ∀ v ∈ vs, Unnamed v) : NearAll (Value.adjoin key vs) (Value.adjoin key' ws) := by
  induction vs generalizing ws with
  | nil =>
    cases items
    exact .cons near .nil
  | cons v rest ih =>
    obtain ⟨first, later⟩ := List.forall_mem_cons.mp all
    cases items with
    | cons held others =>
      rw [adjoinCons, adjoinCons, nearSame held near first clear, nearFollows held near]
      split
      · exact .cons held others
      split
      · exact .cons near (.cons held others)
      · exact .cons held (ih others later)

theorem adjoinKeys (clear : Unnamed key) (all : ∀ v ∈ vs, Unnamed v) : ∀ v ∈ Value.adjoin key vs, Unnamed v := by
  induction vs with
  | nil => exact List.forall_mem_singleton.mpr clear
  | cons v rest ih =>
    obtain ⟨first, later⟩ := List.forall_mem_cons.mp all
    rw [adjoinCons]
    split
    · exact all
    split
    · exact List.forall_mem_cons.mpr ⟨clear, all⟩
    · exact List.forall_mem_cons.mpr ⟨first, ih later⟩

theorem nearSet {keys keys' done done' : List Value} (near : NearAll keys keys') (held : NearAll done done')
    (clear : ∀ v ∈ keys, Unnamed v) (all : ∀ v ∈ done, Unnamed v) :
    NearAll (keys.foldl (fun done v => Value.adjoin v done) done)
      (keys'.foldl (fun done v => Value.adjoin v done) done') := by
  induction keys generalizing keys' done done' with
  | nil =>
    cases near
    exact held
  | cons key rest ih =>
    obtain ⟨first, later⟩ := List.forall_mem_cons.mp clear
    cases near with
    | cons here others =>
      have added := ih others (nearAdjoin here first held all) later (adjoinKeys first all)
      exact added

theorem nearInsert {key' : Value} (near : Near key key') (clear : Unnamed key) (value : Near v w)
    (entries : NearEntries es fs) (all : ∀ e ∈ es, Unnamed e.1) :
    NearEntries (Value.insert key v es) (Value.insert key' w fs) := by
  induction es generalizing fs with
  | nil =>
    cases entries
    exact .cons near value .nil
  | cons e rest ih =>
    obtain ⟨first, later⟩ := List.forall_mem_cons.mp all
    cases entries with
    | cons k held others =>
      rw [Value.insert, Value.insert, nearSame k near first clear]
      split
      · exact .cons k value others
      · exact .cons k held (ih others later)

theorem insertKeys (clear : Unnamed key) (all : ∀ e ∈ es, Unnamed e.1) :
    ∀ e ∈ Value.insert key v es, Unnamed e.1 := by
  induction es with
  | nil => exact List.forall_mem_singleton.mpr clear
  | cons e rest ih =>
    obtain ⟨first, later⟩ := List.forall_mem_cons.mp all
    obtain ⟨k, held⟩ := e
    rw [Value.insert]
    split
    · exact List.forall_mem_cons.mpr ⟨first, later⟩
    · exact List.forall_mem_cons.mpr ⟨first, ih later⟩

end Keys

section Results

inductive Matches {ε α β : Type} (R : α → β → Prop) : Except ε α → Except ε β → Prop where
  | ok {a b} (related : R a b) : Matches R (.ok a) (.ok b)
  | error {e} : Matches R (.error e) (.error e)

theorem matchesBind {ε α β γ δ : Type} {R : α → β → Prop} {Q : γ → δ → Prop} {x : Except ε α} {y : Except ε β}
    {g : α → Except ε γ} {h : β → Except ε δ} (first : Matches R x y) (rest : ∀ a b, R a b → Matches Q (g a) (h b)) :
    Matches Q (x >>= g) (y >>= h) := by
  cases first with
  | ok related => exact rest _ _ related
  | error => exact .error

abbrev Agrees {ε α β : Type} : Except ε α → Except ε β → Prop := Matches fun _ _ => True

variable {v w v' w' : Value}

theorem agreesOf {ε α β : Type} {R : α → β → Prop} {x : Except ε α} {y : Except ε β} (h : Matches R x y) :
    Agrees x y := by
  cases h with
  | ok _ => exact .ok trivial
  | error => exact .error

theorem agreesSelf {ε α : Type} {x : Except ε α} : Agrees x x := by
  cases x with
  | error e => exact .error
  | ok a => exact .ok trivial

theorem nearKeyText (h : Near v w) : Agrees (Value.keyText v) (Value.keyText w) := by
  cases h with
  | same => exact agreesSelf
  | text | markup | rendered => exact .ok trivial
  | @component c _ _ =>
    obtain ⟨⟩ := c
    exact .error
  | _ => exact .error

mutual

theorem nearLiteral {v w : Value} : Near v w → Agrees v.literal w.literal
  | .same => agreesSelf
  | .text _ | .markup _ | .rendered _ _ => by
    rw [Value.literal, Value.literal]
    exact .ok trivial
  | .list items | .tuple items => by
    rw [Value.literal, Value.literal]
    exact matchesBind (nearLiterals items) fun _ _ _ => .ok trivial
  | .dict entries => by
    rw [Value.literal, Value.literal]
    exact matchesBind (nearEntryLiterals entries) fun _ _ _ => .ok trivial
  | .safe _ | .generator _ | .set _ | .promise _ | .promiseWith _ _ => .error
  | .component (c := c) _ => by
    obtain ⟨⟩ := c
    exact .error

theorem nearLiterals {vs ws : List Value} : NearAll vs ws → Agrees (Value.literals vs) (Value.literals ws)
  | .nil => .ok trivial
  | .cons first rest =>
    matchesBind (nearLiteral first) fun _ _ _ => matchesBind (nearLiterals rest) fun _ _ _ => .ok trivial

theorem nearEntryLiterals {es fs : List (Value × Value)} :
    NearEntries es fs → Agrees (Value.entryLiterals es) (Value.entryLiterals fs)
  | .nil => .ok trivial
  | .cons key value rest =>
    matchesBind (nearKeyText key) fun _ _ _ => matchesBind (nearLiteral value) fun _ _ _ =>
      matchesBind (nearEntryLiterals rest) fun _ _ _ => .ok trivial

end

theorem nearMarkup? (h : Near v w) : Option.Rel Kin v.asMarkup? w.asMarkup? := by
  have safe := nearSafe h
  cases h with
  | same =>
    cases v.asMarkup? with
    | none => exact .none
    | some s => exact .some .same
  | text kin => exact .some (kinQuotes kin)
  | _ => exact safe

theorem nearNumber (h : Near v w) : w.whole? = v.whole? ∧ w.real? = v.real? := by
  cases h with
  | _ => exact ⟨rfl, rfl⟩

def isSequence : Value → Bool
  | .text _ | .list _ | .tuple _ | .bytes _ => true
  | _ => false

theorem nearSequence (h : Near v w) : isSequence w = isSequence v := by
  cases h with
  | _ => rfl

theorem addOther (other : isSequence v = false) : v.addPlain w =
    match v.whole?, w.whole? with
    | some n, some m => .ok (.whole (n + m))
    | _, _ =>
      match v.real?, w.real? with
      | some x, some y => .ok (.real (x.add y))
      | _, _ => .error (.unsupported v.typeName w.typeName) := by
  cases v with
  | text | list | tuple | bytes => cases other
  | _ => rfl

theorem nearAddText {s t : String} (kin : Kin s t) (h : Near w w') :
    Matches Near (Value.addPlain (.text s) w) (Value.addPlain (.text t) w') := by
  cases h with
  | same =>
    cases w with
    | text u => exact .ok (.text (kinAppend kin .same))
    | _ => exact .error
  | text kin' => exact .ok (.text (kinAppend kin kin'))
  | @component c _ _ =>
    obtain ⟨⟩ := c
    exact .error
  | _ => exact .error

theorem nearAddList {vs ws : List Value} (items : NearAll vs ws) (h : Near w w') :
    Matches Near (Value.addPlain (.list vs) w) (Value.addPlain (.list ws) w') := by
  cases h with
  | same =>
    cases w with
    | list others => exact .ok (.list (nearAppend items (nearSelf others)))
    | _ => exact .error
  | list others => exact .ok (.list (nearAppend items others))
  | @component c _ _ =>
    obtain ⟨⟩ := c
    exact .error
  | _ => exact .error

theorem nearAddTuple {vs ws : List Value} (items : NearAll vs ws) (h : Near w w') :
    Matches Near (Value.addPlain (.tuple vs) w) (Value.addPlain (.tuple ws) w') := by
  cases h with
  | same =>
    cases w with
    | tuple others => exact .ok (.tuple (nearAppend items (nearSelf others)))
    | _ => exact .error
  | tuple others => exact .ok (.tuple (nearAppend items others))
  | @component c _ _ =>
    obtain ⟨⟩ := c
    exact .error
  | _ => exact .error

theorem matchesSelf {x : Except Value.SumError Value} : Matches Near x x := by
  cases x with
  | error e => exact .error
  | ok v => exact .ok .same

theorem nearAddBytes {data : List UInt8} (h : Near w w') :
    Matches Near (Value.addPlain (.bytes data) w) (Value.addPlain (.bytes data) w') := by
  cases h with
  | same => exact matchesSelf
  | @component c _ _ =>
    obtain ⟨⟩ := c
    exact .error
  | _ => exact .error

theorem nearAddPlain (h : Near v v') (h' : Near w w') : Matches Near (v.addPlain w) (v'.addPlain w') := by
  cases kind : isSequence v with
  | true =>
    cases v with
    | text s =>
      obtain ⟨t, rfl, kin⟩ := nearText h
      exact nearAddText kin h'
    | list items =>
      obtain ⟨others, rfl, near⟩ := nearList h
      exact nearAddList near h'
    | tuple items =>
      obtain ⟨others, rfl, near⟩ := nearTuple h
      exact nearAddTuple near h'
    | bytes data =>
      cases h
      exact nearAddBytes h'
    | _ => cases kind
  | false =>
    rw [addOther kind, addOther ((nearSequence h).trans kind), (nearNumber h).1, (nearNumber h').1, (nearNumber h).2,
      (nearNumber h').2, nearType h, nearType h']
    exact matchesSelf

theorem nearIsMarkup (h : Near v w) : w.isMarkup = v.isMarkup := by
  cases h with
  | _ => rfl

theorem nearMarkupLike {s t : String} (h : Near v w) (kin : Kin s t) :
    Near (Value.markupLike v s) (Value.markupLike w t) := by
  cases h with
  | same =>
    cases v with
    | rendered => exact .rendered kin kin
    | _ => exact .markup kin
  | rendered => exact .rendered kin kin
  | _ => exact .markup kin

theorem nearAdd (h : Near v v') (h' : Near w w') : Matches Near (v.add w) (v'.add w') := by
  have first := nearMarkup? h
  have second := nearMarkup? h'
  rw [Value.add, Value.add, nearIsMarkup h, nearIsMarkup h']
  split
  · revert first second
    generalize v.asMarkup? = s?, v'.asMarkup? = t?, w.asMarkup? = u?, w'.asMarkup? = x?
    rintro (kin | _) (kin' | _)
    · refine .ok (nearMarkupLike ?_ (kinAppend kin kin'))
      split
      · exact h
      · exact h'
    all_goals exact nearAddPlain h h'
  · exact nearAddPlain h h'

end Results

end LiveMarkup
