import LiveMarkup.Proofs.Client.Balanced
import LiveMarkup.Proofs.Markup.Embedded
import LiveMarkup.Proofs.Markup.Scan
import LiveMarkup.Proofs.Render.Collected
import LiveMarkup.Render.Compose
/-! A script stays in its element: nothing that it is made of holds an end tag, so that the element ends with the
script unless a comment in it hides the end. -/
namespace LiveMarkup.Render
open Syntax Text Client Standard Outline

section Pieces

variable {o b x y cs : List Char} {c : Char}

theorem unclosingOf (h : '<' ∉ cs) : Unclosing cs := by
  induction cs with
  | nil => decide
  | cons c rest ih =>
    obtain ⟨first, tail⟩ := not_or.mp (mt List.mem_cons.mpr h)
    exact unclosingCons (ih tail) fun angle => absurd angle.symm first

theorem inertBehind (opens : Inert o) (last : o.getLast?.any (· != '<')) (h : Unclosing b) : Inert (o ++ b) := by
  cases o with
  | nil => cases last
  | cons a o =>
    refine ⟨unclosingAppend opens.1 h fun angle => ?_, opens.2⟩
    rw [angle] at last
    exact absurd last (by decide)

theorem joinedAll {p : List Char → Prop} (nil : p []) (append : ∀ {x y}, p x → p y → p (x ++ y)) {parts : List String}
    (h : ∀ s ∈ parts, p s.toList) : p (String.join parts).toList := by
  induction parts with
  | nil => exact nil
  | cons s rest ih =>
    obtain ⟨first, tail⟩ := List.forall_mem_cons.mp h
    rw [String.join_cons, String.toList_append]
    exact append first (ih tail)

theorem separatedAll {p : List Char → Prop} (nil : p []) (append : ∀ {x y}, p x → p y → p (x ++ y)) {sep : String}
    (between : p sep.toList) : {parts : List String} → (∀ s ∈ parts, p s.toList) → p (sep.intercalate parts).toList
  | [], _ => by rwa [String.intercalate_nil]
  | [s], h => by
    rw [String.intercalate_singleton]
    exact h s List.mem_cons_self
  | s :: t :: rest, h => by
    obtain ⟨first, tail⟩ := List.forall_mem_cons.mp h
    rw [String.intercalate_cons_cons, String.toList_append, String.toList_append]
    exact append (append first between) (separatedAll nil append between tail)

theorem unendedOf {element : String} (h : Unclosing x) : Markup.unended element x = true := by
  fun_induction Markup.unended element x with
  | case1 behind => exact absurd rfl ((List.isChain_cons_cons.mp h).1 rfl)
  | case2 _ _ _ ih => exact ih (List.IsChain.of_cons h)
  | case3 => rfl

theorem unendedAcross {element : String} (front : Unclosing (x ++ ['<'])) (behind : Unclosing ('/' :: c :: y))
    (other : Markup.startsEnd element (c :: y) = false) : Markup.unended element (x ++ '<' :: '/' :: c :: y) = true := by
  induction x with
  | nil =>
    rw [List.nil_append, Markup.unended, other, unendedOf behind]
    rfl
  | cons d x ih =>
    have inner := ih (List.IsChain.of_cons front)
    rw [List.cons_append, Markup.unended]
    · exact inner
    · intro rest open' slash
      cases x with
      | nil => exact absurd (List.cons.inj slash).1 (by decide)
      | cons e x =>
        obtain rfl := (List.cons.inj slash).1
        exact (List.isChain_cons_cons.mp front).1 open' rfl

theorem unendedEndless (h : Markup.unended "script" x = true) : Endless x := by
  rintro a w rest rfl script
  rw [List.append_assoc] at h
  induction a with
  | nil =>
    cases w with
    | nil => cases script
    | cons c w =>
      have first : c.toLower = 's' := (List.cons.inj script).1
      have begins : Markup.startsEnd "script" (c :: w ++ rest) = true := by
        simp [Markup.startsEnd, Markup.Reader.afterWord?, first]
      rw [List.nil_append, List.cons_append, List.cons_append, Markup.unended, begins] at h
      cases h
  | cons d a ih =>
    refine ih ?_
    rw [List.cons_append, Markup.unended.eq_def] at h
    split at h
    · next behind same =>
      obtain ⟨rfl, tail⟩ := List.cons.inj same
      rw [tail]
      exact (Bool.and_eq_true_iff.mp h).2
    · next same =>
      obtain ⟨rfl, tail⟩ := List.cons.inj same
      exact tail ▸ h
    · next same => cases same

end Pieces

section Sources

inductive Joint : String → Prop where
  | text (t) : Joint (jsString t)
  | code {s e c} (coded : code s e = .ok c) (ok : formed e) : Joint ("(" ++ c.write ++ ")")

inductive Spelled : String → Prop where
  | nothing : Spelled ""
  | code {s e c} (coded : code s e = .ok c) (ok : formed e) : Spelled c.write
  | body {s params e c} (coded : bodyCode s params e = .ok c) (ok : formed e) : Spelled c.write
  | joined {parts} (all : ∀ t ∈ parts, Joint t) : Spelled (joinSources parts)

variable {s : Scope} {e : Expr} {c : Code} {t : String}

theorem balancedInert (h : Balanced Mark.receiver c) : Inert c.write.toList := by
  obtain ⟨l, reads⟩ := h
  exact charsWrite ▸ reads.inert

theorem printedInert (h : Prints s e c) (ok : formed e) : Inert c.write.toList :=
  balancedInert (outlinedOf followsReceiver h ok).balanced

theorem jointInert (h : Joint t) : Inert t.toList := by
  cases h with
  | text t =>
    rw [jsString, String.toList_ofList]
    refine ⟨unclosingGuarded, ?_⟩
    rw [guardedHead]
    exact (by decide : (some '"') ≠ some '/')
  | code coded ok =>
    rw [String.toList_append, String.toList_append]
    exact inertAppend (inertAppend (by decide) (printedInert (printsOf _ coded) ok)) (by decide)

theorem spelledInert (h : Spelled t) : Inert t.toList := by
  cases h with
  | nothing => exact inertNil
  | code coded ok => exact printedInert (printsOf _ coded) ok
  | body coded ok =>
    rcases bodyForm coded with whole | ⟨items, codes, rfl, all, rfl⟩
    · exact printedInert whole ok
    · rw [separatedWrite]
      refine separatedAll inertNil inertAppend (by decide) fun t mem => ?_
      obtain ⟨c, known, rfl⟩ := List.mem_map.mp mem
      exact balancedInert (balancedAll followsReceiver all ok c known)
  | joined all =>
    have inner := separatedAll inertNil inertAppend (show Inert " + ".toList by decide) fun s mem => jointInert (all s mem)
    unfold joinSources
    simp only
    split
    · exact inner
    · rw [String.toList_append]
      exact inertAppend (by decide) inner

end Sources

section Statements

variable {c : Component} {r : Records} {b : Binding} {h : Handler} {a : AsyncBinding}

def Strips (t : String) : Prop := Spelled t ∧ ¬"<this.".toList <:+: t.toList

theorem stripsUnclosing {t : String} (h : Strips t) : Unclosing (stripReceiver t).toList := by
  rw [stripReceiver, String.toList_ofList]
  exact unclosingStripped (spelledInert h.1).1 h.2

theorem bindingInert (name : '<' ∉ b.id.toList) (source : Unclosing (stripReceiver b.source).toList) :
    Inert b.statement.toList := by
  have id : Inert ("    ".toList ++ b.id.toList) := inertBehind (by decide) rfl (unclosingOf name)
  unfold Binding.statement
  split
  · have value := inertBehind (o := ".textContent = ".toList) (by decide) rfl source
    have all := inertAppend id (inertAppend value (show Inert ";\n".toList by decide))
    simpa only [String.toList_append, List.append_assoc] using all
  · next shown _ =>
    have id := inertBehind (o := "    __attr(".toList) (by decide) rfl (unclosingOf name)
    have quoted := inertBehind (o := ", ".toList) (by decide) rfl (jointInert (.text shown)).1
    have value := inertBehind (o := ", ".toList) (by decide) rfl source
    have all := inertAppend id (inertAppend quoted (inertAppend value (show Inert ");\n".toList by decide)))
    simpa only [String.toList_append, List.append_assoc] using all

theorem handlerInert (name : '<' ∉ h.id.toList) (event : '<' ∉ h.event.toList) (params : ∀ p ∈ h.params, '<' ∉ p.toList)
    (source : Unclosing (stripReceiver h.source).toList) : Inert h.statement.toList := by
  have listed : '<' ∉ (", ".intercalate h.params).toList :=
    @separatedAll ('<' ∉ ·) (by simp) (fun hx hy => by simp [hx, hy]) ", " (by decide) h.params params
  have id := inertBehind (o := "  ".toList) (by decide) rfl (unclosingOf name)
  have event := inertBehind (o := ".".toList) (by decide) rfl (unclosingOf event)
  have params := inertBehind (o := " = (".toList) (by decide) rfl (unclosingOf listed)
  have body := inertBehind (o := ") => \x7b ".toList) (by decide) rfl source
  have all := inertAppend id (inertAppend event (inertAppend params
    (inertAppend body (show Inert "; __update(); \x7d;\n".toList by decide))))
  unfold Handler.statement
  simpa only [String.toList_append, List.append_assoc] using all

theorem chainInert (name : '<' ∉ a.id.toList)
    (sources : ∀ t ∈ a.promise :: a.thenCallback :: a.catchCallback?.toList, Unclosing (stripReceiver t).toList) :
    Inert a.statement.toList := by
  have promise := inertBehind (o := "  ".toList) (by decide) rfl (sources a.promise (by simp))
  have callback := inertBehind (o := "\n    .then(".toList) (by decide) rfl
    (sources a.thenCallback (by simp))
  have fill := inertBehind (o := ")\n    .then((r) => __fill(".toList) (by decide) rfl (unclosingOf name)
  have front := inertAppend promise (inertAppend callback (inertAppend fill (show Inert ", r))".toList by decide)))
  unfold AsyncBinding.statement
  split
  · have all := inertAppend front (show Inert ("".toList ++ ";\n".toList) by decide)
    simpa only [String.toList_append, List.append_assoc] using all
  · next g caught =>
    have again := inertBehind (o := "\n    .catch((e) => __fill(".toList) (by decide) rfl (unclosingOf name)
    have recovery := inertBehind (o := ", (".toList) (by decide) rfl (sources g (by simp [caught]))
    have all := inertAppend front (inertAppend again (inertAppend recovery
      (inertAppend (show Inert ")(e)))".toList by decide) (show Inert ";\n".toList by decide))))
    simpa only [String.toList_append, List.append_assoc] using all

theorem lookUpInert {id : String} (name : '<' ∉ id.toList) : Inert (Client.lookUp id).toList := by
  have front := inertBehind (o := "  const ".toList) (by decide) rfl (unclosingOf name)
  have back := inertBehind (o := "=\"".toList) (by decide) rfl (unclosingOf name)
  have middle : Inert (" = document.querySelector('[".toList ++ "data-zid".toList) := by decide
  have all := inertAppend front (inertAppend middle (inertAppend back (show Inert "\"]');\n".toList by decide)))
  unfold Client.lookUp idAttribute
  simpa only [String.toList_append, List.append_assoc] using all

theorem declaredInert {name line : String} (h : declareField c name = .ok line) : Inert line.toList := by
  obtain ⟨literal, made, h⟩ := bindOk.mp h
  obtain rfl := pureOk.mp h
  have parts : isVariable name ∧ Unclosing literal.toList := by
    unfold fieldLiteral at made
    split at made
    · cases made
    · next usable =>
      refine ⟨by simpa using usable, ?_⟩
      split at made
      · cases made
      · split at made
        · cases made
          rw [String.toList_ofList]
          exact unclosingGuarded
        · cases made
  have named : isName name.toList := (Bool.and_eq_true_iff.mp (Bool.and_eq_true_iff.mp parts.1).1).1
  have value := inertBehind (o := " = ".toList) (by decide) rfl parts.2
  have all := inertAppend (show Inert "  let ".toList by decide) (inertAppend (followsName named).inert
    (inertAppend value (show Inert ";\n".toList by decide)))
  simpa only [String.toList_append, List.append_assoc] using all

theorem linesInert {names lines : List String} (h : names.mapM (declareField c) = .ok lines) :
    ∀ line ∈ lines, Inert line.toList := by
  induction names generalizing lines with
  | nil =>
    obtain rfl := pureOk.mp h
    exact fun _ none => absurd none List.not_mem_nil
  | cons name rest ih =>
    rw [List.mapM_cons] at h
    obtain ⟨line, declared, h⟩ := bindOk.mp h
    obtain ⟨others, tail, h⟩ := bindOk.mp h
    obtain rfl := pureOk.mp h
    exact List.forall_mem_cons.mpr ⟨declaredInert declared, ih tail⟩

end Statements

section Scripts

variable {c : Component} {r : Records}

structure Harmless (r : Records) : Prop where
  sources : ∀ p ∈ r.sources, Strips p.1
  ids : ∀ id ∈ r.ids, '<' ∉ id.toList
  events : ∀ h ∈ r.handlers, '<' ∉ h.event.toList ∧ ∀ p ∈ h.params, '<' ∉ p.toList

structure Closeless (r : Records) : Prop where
  sources : ∀ p ∈ r.sources, Unclosing (stripReceiver p.1).toList
  ids : ∀ id ∈ r.ids, '<' ∉ id.toList
  events : ∀ h ∈ r.handlers, '<' ∉ h.event.toList ∧ ∀ p ∈ h.params, '<' ∉ p.toList

instance (r : Records) : Decidable (Closeless r) :=
  decidable_of_iff ((∀ p ∈ r.sources, Unclosing (stripReceiver p.1).toList) ∧ (∀ id ∈ r.ids, '<' ∉ id.toList) ∧
      ∀ h ∈ r.handlers, '<' ∉ h.event.toList ∧ ∀ p ∈ h.params, '<' ∉ p.toList)
    ⟨fun h => ⟨h.1, h.2.1, h.2.2⟩, fun h => ⟨h.sources, h.ids, h.events⟩⟩

theorem harmlessCloseless (harmless : Harmless r) : Closeless r :=
  ⟨fun p mem => stripsUnclosing (harmless.sources p mem), harmless.ids, harmless.events⟩

def Tracked (c : Component) (r : Records) : Prop :=
  ∀ f ∈ r.mentions, isVariable f ∧ ∃ v, c.get? f = some v ∧ ∃ l, v.literal = .ok l

theorem trackedDeclared (tracked : Tracked c r) :
    ∃ lines, (distinct r.mentions).mapM (declareField c) = .ok lines := by
  have declared (f : String) (mem : f ∈ distinct r.mentions) : ∃ line, declareField c f = .ok line := by
    obtain ⟨usable, v, found, l, literal⟩ := tracked f (memDistinct.mp mem)
    have made : fieldLiteral c f = .ok (String.ofList (Json.guardClosing l.toList)) := by
      simp [fieldLiteral, usable, found, literal]
    exact ⟨_, bindOk.mpr ⟨_, made, rfl⟩⟩
  generalize distinct r.mentions = names at declared
  induction names with
  | nil => exact ⟨[], rfl⟩
  | cons f rest ih =>
    obtain ⟨first, tail⟩ := List.forall_mem_cons.mp declared
    obtain ⟨line, made⟩ := first
    obtain ⟨lines, others⟩ := ih tail
    refine ⟨line :: lines, ?_⟩
    rw [List.mapM_cons]
    exact bindOk.mpr ⟨line, made, bindOk.mpr ⟨lines, others, rfl⟩⟩

def frontText (lines : List String) (r : Records) : String :=
  "\n(function() \x7b\n" ++ String.join lines ++ String.join ((distinct r.ids).map Client.lookUp) ++
    (if r.bindings.any (·.attribute?.isSome) then attributeHelper else "")

def backText (r : Records) : String :=
  "  function __update() \x7b\n" ++ String.join (r.bindings.map (·.statement)) ++ "  \x7d\n" ++
    String.join (r.handlers.map (·.statement)) ++ String.join (r.asyncBindings.map (·.statement)) ++ "\x7d)();\n"

def bodyText (lines : List String) (r : Records) : String :=
  frontText lines r ++ (if r.asyncBindings.isEmpty then "" else asyncHelpers) ++ backText r

theorem scriptWritten {lines : List String} (h : (distinct r.mentions).mapM (declareField c) = .ok lines) :
    script c r = .ok ("\n<script>" ++ bodyText lines r ++ "</script>") := by
  have opening : "\n<script>\n(function() \x7b\n" = "\n<script>" ++ "\n(function() \x7b\n" := by decide
  have closing : "\x7d)();\n</script>" = "\x7d)();\n" ++ "</script>" := by decide
  unfold script bodyText frontText backText
  rw [h, opening, closing]
  simp only [String.append_assoc]
  rfl

set_option maxRecDepth 4000 in
theorem attributeHelperInert : Inert attributeHelper.toList := by
  obtain ⟨l, same, inert⟩ : ∃ l, attributeHelper = String.ofList l ∧ Inert l := ⟨_, rfl, by decide +kernel⟩
  rwa [same, String.toList_ofList]

theorem frontInert {lines : List String} (closeless : Closeless r) (declared : ∀ line ∈ lines, Inert line.toList) :
    Inert (frontText lines r).toList := by
  have fields := joinedAll inertNil inertAppend declared
  have elements : Inert (String.join ((distinct r.ids).map Client.lookUp)).toList := by
    refine joinedAll inertNil inertAppend fun line mem => ?_
    obtain ⟨id, known, rfl⟩ := List.mem_map.mp mem
    exact lookUpInert (closeless.ids id (memDistinct.mp known))
  have helper : Inert (if r.bindings.any (·.attribute?.isSome) then attributeHelper else "").toList := by
    split
    · exact attributeHelperInert
    · exact inertNil
  unfold frontText
  simp only [String.toList_append]
  have opening : Inert "\n(function() \x7b\n".toList := by decide
  exact inertAppend (inertAppend (inertAppend opening fields) elements) helper

theorem backInert (closeless : Closeless r) : Inert (backText r).toList := by
  have bindings : Inert (String.join (r.bindings.map (·.statement))).toList := by
    refine joinedAll inertNil inertAppend fun line mem => ?_
    obtain ⟨b, known, rfl⟩ := List.mem_map.mp mem
    refine bindingInert (closeless.ids b.id ?_) (closeless.sources (b.source, b.signals) ?_)
    · simp only [Records.ids, List.mem_append, List.mem_map]
      exact .inl (.inl ⟨b, known, rfl⟩)
    · exact List.mem_append_left _ (List.mem_map.mpr ⟨b, known, rfl⟩)
  have handlers : Inert (String.join (r.handlers.map (·.statement))).toList := by
    refine joinedAll inertNil inertAppend fun line mem => ?_
    obtain ⟨h, known, rfl⟩ := List.mem_map.mp mem
    obtain ⟨event, params⟩ := closeless.events h known
    refine handlerInert (closeless.ids h.id ?_) event params (closeless.sources (h.source, h.writes ++ h.signals) ?_)
    · simp only [Records.ids, List.mem_append, List.mem_map]
      exact .inl (.inr ⟨h, known, rfl⟩)
    · exact List.mem_append_right _ (List.mem_append_left _ (List.mem_map.mpr ⟨h, known, rfl⟩))
  have chains : Inert (String.join (r.asyncBindings.map (·.statement))).toList := by
    refine joinedAll inertNil inertAppend fun line mem => ?_
    obtain ⟨a, known, rfl⟩ := List.mem_map.mp mem
    refine chainInert (closeless.ids a.id ?_) fun t part => closeless.sources (t, a.fields) ?_
    · simp only [Records.ids, List.mem_append, List.mem_map]
      exact .inr ⟨a, known, rfl⟩
    · refine List.mem_append_right _ (List.mem_append_right _ (List.mem_flatMap.mpr ⟨a, known, ?_⟩))
      exact List.mem_map.mpr ⟨t, part, rfl⟩
  unfold backText
  simp only [String.toList_append]
  exact inertAppend (inertAppend (inertAppend (inertAppend (inertAppend (by decide) bindings)
    (by decide)) handlers) chains) (by decide)

set_option maxRecDepth 8000 in
theorem helpersSplit : ∃ x y, asyncHelpers.toList = x ++ '<' :: '/' :: 'g' :: y ∧ Inert (x ++ ['<']) ∧
    Unclosing ('/' :: 'g' :: y) := by
  obtain ⟨l, same, split⟩ : ∃ l, asyncHelpers = String.ofList l ∧
      l = l.takeWhile (· != '<') ++ '<' :: '/' :: 'g' :: (l.dropWhile (· != '<')).drop 3 ∧
      Inert (l.takeWhile (· != '<') ++ ['<']) ∧ Unclosing ('/' :: 'g' :: (l.dropWhile (· != '<')).drop 3) :=
    ⟨_, rfl, by decide +kernel⟩
  rw [same, String.toList_ofList]
  exact ⟨_, _, split⟩

theorem bodyUnended {lines : List String} (closeless : Closeless r) (declared : ∀ line ∈ lines, Inert line.toList) :
    Markup.unended "script" (bodyText lines r).toList = true := by
  have front := frontInert closeless declared
  have back := backInert closeless
  unfold bodyText
  simp only [String.toList_append]
  split
  · exact unendedOf (inertAppend (inertAppend front inertNil) back).1
  · obtain ⟨x, y, split, before, behind⟩ := helpersSplit
    rw [split]
    have whole : Unclosing ('/' :: 'g' :: (y ++ (backText r).toList)) :=
      unclosingAppend behind back.1 fun _ => back.2
    have front : Unclosing ((frontText lines r).toList ++ x ++ ['<']) :=
      List.append_assoc _ x _ ▸ (inertAppend front before).1
    have joined := @unendedAcross _ _ _ "script" front whole (by rfl)
    simpa only [List.append_assoc, List.cons_append] using joined

theorem scriptUnended {text : String} (closeless : Closeless r) (made : script c r = .ok text) :
    ∃ body, text = "\n<script>" ++ body ++ "</script>" ∧ Markup.unended "script" body.toList = true := by
  obtain ⟨lines, mapped, _⟩ := bindOk.mp made
  have same := Except.ok.inj (made.symm.trans (scriptWritten mapped))
  exact ⟨bodyText lines r, same, bodyUnended closeless (linesInert mapped)⟩

/-- The element of a script is closed by the script's own end tag and nothing before it, if and only if no script is
open in a comment of its text. -/
theorem scriptEnclosed (tracked : Tracked c r) (harmless : Harmless r) :
    ∃ text body, script c r = .ok text ∧ text.toList = scriptElement body ∧
      (EndsOnce text.toList ↔ ¬Standard.Nested body) := by
  obtain ⟨lines, declared⟩ := trackedDeclared tracked
  obtain ⟨body, whole, unended⟩ := scriptUnended (harmlessCloseless harmless) (scriptWritten declared)
  have split : ("\n<script>" ++ bodyText lines r ++ "</script>").toList = scriptElement body.toList := by
    rw [whole, String.toList_append, String.toList_append]
    rfl
  refine ⟨_, body.toList, scriptWritten declared, split, ?_⟩
  rw [split]
  exact endsOnce (unendedEndless unended)

def holding (text : String) : Component := .mk "Comp" [("x", .text text)] none 1 "" [] none

def oneBinding (source : String) : Records := { bindings := [{ id := "_0", signals := ["x"], source }] }

theorem bindingTracked {text source : String} : Tracked (holding text) (oneBinding source) := by
  intro f mem
  obtain rfl := List.mem_singleton.mp mem
  exact ⟨by decide, .text text, rfl, _, rfl⟩

theorem bindingHarmless {source : String} (strips : Strips source) : Harmless (oneBinding source) where
  sources p mem := by
    obtain rfl := List.mem_singleton.mp mem
    exact strips
  ids id mem := by
    obtain rfl : id = "_0" := List.mem_singleton.mp mem
    decide
  events h mem := nomatch mem

theorem fieldStrips : Strips "this.x" := by
  have spelled : Spelled (Code.access "x" "x").write :=
    .code (s := {}) (e := .field (.name "self") "x") rfl (by decide)
  exact ⟨(show (Code.access "x" "x").write = "this.x" by decide) ▸ spelled, by decide⟩

theorem closingFieldEnclosed : Tracked (holding "</script>") (oneBinding "this.x") ∧ Harmless (oneBinding "this.x") ∧
    ∃ text body, script (holding "</script>") (oneBinding "this.x") = .ok text ∧ text.toList = scriptElement body ∧
      (EndsOnce text.toList ↔ ¬Standard.Nested body) :=
  ⟨bindingTracked, bindingHarmless fieldStrips, scriptEnclosed bindingTracked (bindingHarmless fieldStrips)⟩

def hiddenText : String := "
<script>
(function() \x7b
  let x = \"<!--<script>\";
  const _0 = document.querySelector('[data-zid=\"_0\"]');
  function __update() \x7b
    _0.textContent = x;
  \x7d
\x7d)();
</script>"

def strippedText : String := "
<script>
(function() \x7b
  let x = \"\";
  const _0 = document.querySelector('[data-zid=\"_0\"]');
  function __update() \x7b
    _0.textContent = \"</script>\" + x;
  \x7d
\x7d)();
</script>"

theorem apartEnds {text : String} {l : List Char} (same : text = String.ofList l)
    (other : (read l).tags ≠ [scriptTag true, scriptTag false]) : ¬EndsOnce text.toList := by
  rw [same, String.toList_ofList]
  exact fun once => other once.ended.2

def quotedEnd : Expr := .binary (.constant (.text "<this./script>" false)) .add (.field (.name "self") "x")

set_option maxRecDepth 4000 in
/-- A field that holds the front of a script in a comment hides the end of the element. A text in which an end tag is left
once the receiver is stripped ends it early. -/
theorem endsMoved :
    (Tracked (holding "<!--<script>") (oneBinding "this.x") ∧ Harmless (oneBinding "this.x") ∧
      script (holding "<!--<script>") (oneBinding "this.x") = .ok hiddenText ∧ ¬EndsOnce hiddenText.toList) ∧
    ∃ c, code {} quotedEnd = .ok c ∧ Spelled c.write ∧ Tracked (holding "") (oneBinding c.write) ∧
      script (holding "") (oneBinding c.write) = .ok strippedText ∧ ¬EndsOnce strippedText.toList :=
  ⟨⟨bindingTracked, bindingHarmless fieldStrips, by decide +kernel, apartEnds rfl (by decide +kernel)⟩,
    _, rfl, .code (s := {}) (e := quotedEnd) rfl (by decide), bindingTracked, by decide +kernel,
    apartEnds rfl (by decide +kernel)⟩

end Scripts

end LiveMarkup.Render
