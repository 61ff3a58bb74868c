import LiveMarkup.Proofs.Analysis.Listed
import LiveMarkup.Proofs.Client.Outline
import LiveMarkup.Proofs.Client.Script
import LiveMarkup.Proofs.Render.Pieces
/-! The names that a script declares in its function: those of fields, of elements and of its helpers. -/
namespace LiveMarkup.Render
open Analysis Text Client Outline

inductive Statement where
  | field (name literal : String)
  | element (id : String)
  | function (name params body : String)
  | handler (h : Handler)
  | chain (a : AsyncBinding)

namespace Statement

def write : Statement → String
  | field name literal => "  let " ++ name ++ " = " ++ literal ++ ";\n"
  | element id => "  const " ++ id ++ " = document.querySelector('[data-zid=\"" ++ id ++ "\"]');\n"
  | function name params body => "  function " ++ name ++ "(" ++ params ++ ") \x7b\n" ++ body ++ "  \x7d\n"
  | handler h =>
    "  " ++ h.id ++ "." ++ h.event ++ " = (" ++ ", ".intercalate h.params ++ ") => \x7b " ++ stripReceiver h.source ++
      "; __update(); \x7d;\n"
  | chain a =>
    let start := "  " ++ stripReceiver a.promise ++ "\n    .then(" ++ stripReceiver a.thenCallback ++
      ")\n    .then((r) => __fill(" ++ a.id ++ ", r))"
    match a.catchCallback? with
    | none => start ++ ";\n"
    | some g => start ++ "\n    .catch((e) => __fill(" ++ a.id ++ ", (" ++ stripReceiver g ++ ")(e)));\n"

def name? : Statement → Option String
  | field name _ => some name
  | element id => some id
  | function name _ _ => some name
  | handler _ | chain _ => none

end Statement

section Statements

def attributeBody : String := "    if (v === false || v == null) el.removeAttribute(name);
    else el.setAttribute(name, v === true ? \"\" : v);
"

def escapeBody : String :=
  "    return s.replace(/&/g, \"&amp;\").replace(/</g, \"&lt;\").replace(/>/g, \"&gt;\").replace(/\"/g, \"&quot;\");
"

def pieceBody : String := "    if (v === false || v == null) return \"\";
    if (Array.isArray(v)) return v.map(__piece).join(\"\");
    if (v.__html !== undefined) return v.__html;
    return __esc(String(v));
"

def templateBody : String := "    let i = 0;
    return \x7b __html: t.replace(/\\\x7b\\\x7b|\\\x7d\\\x7d|\\\x7b\\\x7d/g, (m) => (m === \"\x7b\x7d\" ? __piece(vs[i++]) : m[0])) \x7d;
"

def fillBody : String := "    if (v != null && v.__html !== undefined) el.innerHTML = v.__html;
    else el.textContent = v == null ? \"\" : String(v);
"

def attributeFunction : Statement := .function "__attr" "el, name, v" attributeBody

def promiseFunctions : List Statement :=
  [.function "__esc" "s" escapeBody, .function "__piece" "v" pieceBody, .function "html" "t, ...vs" templateBody,
    .function "__fill" "el, v" fillBody]

def helperFunctions (r : Records) : List Statement :=
  (if r.bindings.any (·.attribute?.isSome) then [attributeFunction] else []) ++
    if r.asyncBindings.isEmpty then [] else promiseFunctions

def updateLine (b : Binding) : String :=
  match b.attribute? with
  | none => "    " ++ b.id ++ ".textContent = " ++ stripReceiver b.source ++ ";\n"
  | some name => "    __attr(" ++ b.id ++ ", " ++ jsString name ++ ", " ++ stripReceiver b.source ++ ");\n"

def updateFunction (r : Records) : Statement := .function "__update" "" (String.join (r.bindings.map updateLine))

def scriptStatements (literals : List (String × String)) (r : Records) : List Statement :=
  literals.map (fun p => .field p.1 p.2) ++ (distinct r.ids).map .element ++ helperFunctions r ++
    [updateFunction r] ++ r.handlers.map .handler ++ r.asyncBindings.map .chain

def writeStatements (statements : List Statement) : String := String.join (statements.map (·.write))

def scriptOf (statements : List Statement) : String :=
  "\n<script>\n(function() \x7b\n" ++ writeStatements statements ++ "\x7d)();\n</script>"

def declaredNames (statements : List Statement) : List String := statements.filterMap (·.name?)

variable {c : Component} {r : Records} {text : String} {literals : List (String × String)}

theorem functionWritten {name params body : String} : (Statement.function name params body).write =
    "  function " ++ name ++ "(" ++ params ++ ") \x7b\n" ++ body ++ "  \x7d\n" := rfl

theorem frameWritten {all : List Statement} :
    scriptOf all = "\n<script>\n(function() \x7b\n" ++ writeStatements all ++ "\x7d)();\n</script>" := rfl

set_option maxRecDepth 10000 in
theorem attributeWritten : writeStatements [attributeFunction] = attributeHelper := by
  rw [← String.toList_inj]
  simp only [writeStatements, attributeFunction, List.map_cons, List.map_nil, String.join_cons, String.join_nil,
    functionWritten, String.toList_append]
  rw [listedText (s := attributeHelper) rfl, listedText (s := attributeBody) rfl]
  decide +kernel

set_option maxRecDepth 10000 in
theorem promisesWritten : writeStatements promiseFunctions = asyncHelpers := by
  rw [← String.toList_inj]
  simp only [writeStatements, promiseFunctions, List.map_cons, List.map_nil, String.join_cons, String.join_nil,
    functionWritten, String.toList_append]
  rw [listedText (s := asyncHelpers) rfl, listedText (s := escapeBody) rfl, listedText (s := pieceBody) rfl,
    listedText (s := templateBody) rfl, listedText (s := fillBody) rfl]
  decide +kernel

theorem writeAppend {a b : List Statement} : writeStatements (a ++ b) = writeStatements a ++ writeStatements b := by
  rw [writeStatements, List.map_append, String.join_append]
  rfl

theorem writeMapped {α : Type} {f : α → Statement} {xs : List α} :
    writeStatements (xs.map f) = String.join (xs.map fun x => (f x).write) := by
  rw [writeStatements, List.map_map]
  rfl

def FieldsStarted (c : Component) (r : Records) (literals : List (String × String)) : Prop :=
  literals.map (·.1) = distinct r.mentions ∧ ∀ p ∈ literals, fieldLiteral c p.1 = .ok p.2

theorem mappedStarted {names lines : List String} (h : names.mapM (declareField c) = .ok lines) :
    ∃ literals : List (String × String), literals.map (·.1) = names ∧
      (∀ p ∈ literals, fieldLiteral c p.1 = .ok p.2) ∧
      String.join lines = writeStatements (literals.map fun p => .field p.1 p.2) := by
  induction names generalizing lines with
  | nil =>
    obtain rfl := pureOk.mp h
    exact ⟨[], rfl, nofun, rfl⟩
  | cons name rest ih =>
    rw [List.mapM_cons] at h
    obtain ⟨line, declared, h⟩ := bindOk.mp h
    obtain ⟨others, tail, h⟩ := bindOk.mp h
    obtain rfl := pureOk.mp h
    obtain ⟨literal, made, declared⟩ := bindOk.mp declared
    obtain rfl := pureOk.mp declared
    obtain ⟨literals, named, all, joined⟩ := ih tail
    refine ⟨(name, literal) :: literals, congrArg (name :: ·) named, List.forall_mem_cons.mpr ⟨made, all⟩, ?_⟩
    rw [String.join_cons, joined]
    exact (String.join_cons ..).symm

theorem helpersWritten : writeStatements (helperFunctions r) =
    (if r.bindings.any (·.attribute?.isSome) then attributeHelper else "") ++
      if r.asyncBindings.isEmpty then "" else asyncHelpers := by
  rw [helperFunctions, writeAppend]
  congr 1
  · split
    · exact attributeWritten
    · rfl
  · split
    · rfl
    · exact promisesWritten

theorem elementWritten {id : String} : (Statement.element id).write = Client.lookUp id := by
  have front : " = document.querySelector('[" ++ ("data-zid" ++ "=\"") = " = document.querySelector('[data-zid=\"" := by
    decide
  have written : (Statement.element id).write =
    "  const " ++ id ++ " = document.querySelector('[data-zid=\"" ++ id ++ "\"]');\n" := rfl
  rw [written, Client.lookUp, idAttribute, ← front]
  simp only [String.append_assoc]

theorem handlerWritten {h : Handler} : (Statement.handler h).write = h.statement := rfl

theorem promiseWritten {a : AsyncBinding} : (Statement.chain a).write = a.statement := by
  obtain ⟨id, promise, thenCallback, catchCallback?, fields⟩ := a
  cases catchCallback? with
  | none => exact congrArg (· ++ ";\n") String.append_empty.symm
  | some g =>
    have ending : ")(e)))" ++ ";\n" = ")(e)));\n" := by decide
    have written : (Statement.chain ⟨id, promise, thenCallback, some g, fields⟩).write =
      "  " ++ stripReceiver promise ++ "\n    .then(" ++ stripReceiver thenCallback ++
        ")\n    .then((r) => __fill(" ++ id ++ ", r))" ++
        "\n    .catch((e) => __fill(" ++ id ++ ", (" ++ stripReceiver g ++ ")(e)));\n" := rfl
    rw [written, AsyncBinding.statement, ← ending]
    simp only [String.append_assoc]

theorem linesWritten : updateLine = Binding.statement := rfl

theorem updateWritten : writeStatements [updateFunction r] =
    "  function __update() \x7b\n" ++ String.join (r.bindings.map (·.statement)) ++ "  \x7d\n" := by
  have opening : "  function " ++ "__update" ++ "(" ++ "" ++ ") \x7b\n" = "  function __update() \x7b\n" := by decide
  have single : writeStatements [updateFunction r] = (updateFunction r).write := by
    rw [writeStatements, List.map_singleton, String.join_cons, String.join_nil, String.append_empty]
  rw [single, updateFunction, functionWritten, opening, linesWritten]

theorem scriptMade (h : script c r = .ok text) : ∃ literals, FieldsStarted c r literals ∧
    text = scriptOf (scriptStatements literals r) := by
  obtain ⟨lines, mapped, h⟩ := bindOk.mp h
  obtain rfl := pureOk.mp h
  obtain ⟨literals, named, all, joined⟩ := mappedStarted mapped
  refine ⟨literals, ⟨named, all⟩, ?_⟩
  rw [frameWritten]
  simp only [scriptStatements, writeAppend, helpersWritten, updateWritten, ← joined, writeMapped, elementWritten,
    handlerWritten, promiseWritten, String.append_assoc]

theorem namesAppend {a b : List Statement} : declaredNames (a ++ b) = declaredNames a ++ declaredNames b := List.filterMap_append

theorem namesMapped {α : Type} {f : α → Statement} {g : α → String} {xs : List α} (named : ∀ x, (f x).name? = some (g x)) :
    declaredNames (xs.map f) = xs.map g := by
  have all : Statement.name? ∘ f = some ∘ g := funext named
  rw [declaredNames, List.filterMap_map, all, List.filterMap_eq_map]

theorem namesUnnamed {α : Type} {f : α → Statement} {xs : List α} (unnamed : ∀ x, (f x).name? = none) :
    declaredNames (xs.map f) = [] := by
  rw [declaredNames, List.filterMap_map, List.filterMap_eq_nil_iff]
  exact fun x _ => unnamed x

def functionNames (r : Records) : List String :=
  (if r.bindings.any (·.attribute?.isSome) then ["__attr"] else []) ++
    (if r.asyncBindings.isEmpty then [] else ["__esc", "__piece", "html", "__fill"]) ++ ["__update"]

theorem functionsNamed : declaredNames (helperFunctions r ++ [updateFunction r]) = functionNames r := by
  unfold helperFunctions functionNames
  split <;> split <;> rfl

theorem statementsNamed (started : FieldsStarted c r literals) :
    declaredNames (scriptStatements literals r) = distinct r.mentions ++ distinct r.ids ++ functionNames r := by
  have fields : declaredNames (literals.map fun p => .field p.1 p.2) = distinct r.mentions :=
    (namesMapped fun _ => rfl).trans started.1
  have elements : declaredNames ((distinct r.ids).map .element) = distinct r.ids :=
    (namesMapped fun _ => rfl).trans (List.map_id _)
  rw [scriptStatements, List.append_assoc _ (helperFunctions r), namesAppend, namesAppend, namesAppend, namesAppend,
    functionsNamed, fields, elements, namesUnnamed fun _ => rfl, namesUnnamed fun _ => rfl, List.append_nil, List.append_nil]

end Statements

section Distinct

variable {c : Component} {r : Records} {text : String}

def calledGlobals : List String := ["document", "Math", "String", "parseInt", "parseFloat", "Boolean", "console"]

theorem startedVariable {name literal : String} (h : fieldLiteral c name = .ok literal) : isVariable name := by
  unfold fieldLiteral at h
  split at h
  · cases h
  · next usable => simpa using usable

theorem functionNamed {name : String} (h : name ∈ functionNames r) :
    isVariable name = false ∧ ∀ n, name ≠ idText n := by
  have known : name ∈ ["__attr", "__esc", "__piece", "html", "__fill", "__update"] := by
    unfold functionNames at h
    split at h <;> split at h <;> simp at h ⊢ <;> tauto
  have lettered : isVariable name = false ∧ ∃ c rest, name.toList.drop 1 = c :: rest ∧ c.isDigit = false := by
    simp only [List.mem_cons, List.not_mem_nil, or_false] at known
    rcases known with rfl | rfl | rfl | rfl | rfl | rfl <;> exact ⟨by decide, _, _, rfl, by decide⟩
  refine ⟨lettered.1, fun n same => ?_⟩
  obtain ⟨c, rest, behind, letter⟩ := lettered.2
  have digits : (idText n).toList.drop 1 = (toString n).toList := by
    rw [idText, String.toList_append]
    rfl
  rw [same, digits] at behind
  have digit : c.isDigit := digitsWritten c (behind ▸ List.mem_cons_self)
  exact absurd digit (by simp [letter])

theorem functionsOnce : (functionNames r).Nodup := by
  unfold functionNames
  split <;> split <;> decide

theorem distinctOnce {items : List String} : (distinct items).Nodup := addNodup List.nodup_nil

theorem startedMention {literals : List (String × String)} {f : String} (started : FieldsStarted c r literals)
    (mem : f ∈ r.mentions) : isVariable f := by
  obtain ⟨p, known, rfl⟩ := List.mem_map.mp (started.1.symm ▸ memDistinct.mpr mem)
  exact startedVariable (started.2 p known)

/-- A script declares no name twice, if and only if none of its fields has the name of an identifier. The field of a
name that printed code calls is declared all the same, except for `document`. -/
theorem declaredOnce (h : script c r = .ok text) (counted : ∀ id ∈ r.ids, ∃ n, id = idText n) :
    ∃ all : List Statement,
      text = scriptOf all ∧
      declaredNames all = distinct r.mentions ++ distinct r.ids ++ functionNames r ∧
      ((declaredNames all).Nodup ↔ ∀ f ∈ r.mentions, f ∉ r.ids) ∧
      ∀ f ∈ r.mentions, f ∈ calledGlobals ↔ f ∈ ["Math", "String", "parseInt", "parseFloat", "Boolean", "console"] := by
  obtain ⟨literals, started, written⟩ := scriptMade h
  have named := statementsNamed started
  refine ⟨scriptStatements literals r, written, named, ?_, fun f mem => ?_⟩
  · rw [named, List.nodup_append, List.nodup_append]
    constructor
    · intro once f mem known
      exact once.1.2.2 f (memDistinct.mpr mem) f (memDistinct.mpr known) rfl
    · intro apart
      refine ⟨⟨distinctOnce, distinctOnce, ?_⟩, functionsOnce, ?_⟩
      · rintro f mem id known rfl
        exact apart f (memDistinct.mp mem) (memDistinct.mp known)
      · rintro name mem other known rfl
        obtain ⟨field, element⟩ := functionNamed known
        rcases List.mem_append.mp mem with mem | mem
        · exact absurd (startedMention started (memDistinct.mp mem)) (by simp [field])
        · obtain ⟨n, same⟩ := counted name (memDistinct.mp mem)
          exact element n same
  · have usable := startedMention started mem
    rw [calledGlobals, List.mem_cons]
    refine ⟨fun called => called.resolve_left ?_, .inr⟩
    rintro rfl
    exact absurd usable (by decide)

def loneField (field : String) : Component := .mk "Comp" [(field, .whole 1)] none 1 "" [] none

def showingField (field : String) : Records :=
  { bindings := [{ id := "_0", signals := [field], source := "this." ++ field }] }

def loneFieldText (field : String) : String := scriptOf (scriptStatements [(field, "1")] (showingField field))

theorem countOnce : (∀ id ∈ (showingField "count").ids, ∃ n, id = idText n) ∧
    script (loneField "count") (showingField "count") = .ok (loneFieldText "count") ∧
    ∃ all : List Statement,
      loneFieldText "count" = scriptOf all ∧
      (declaredNames all).Nodup := by
  have counted : ∀ id ∈ (showingField "count").ids, ∃ n, id = idText n := by
    intro id mem
    exact ⟨0, List.mem_singleton.mp mem⟩
  have made : script (loneField "count") (showingField "count") = .ok (loneFieldText "count") := by decide +kernel
  obtain ⟨all, written, _, once, _⟩ := declaredOnce made counted
  exact ⟨counted, made, all, written, once.mpr (by decide)⟩

theorem namesTwice :
    script (loneField "_0") (showingField "_0") = .ok (loneFieldText "_0") ∧
      declaredNames (scriptStatements [("_0", "1")] (showingField "_0")) = ["_0", "_0", "__update"] ∧
      script (loneField "String") (showingField "String") = .ok (loneFieldText "String") ∧
      declaredNames (scriptStatements [("String", "1")] (showingField "String")) = ["String", "_0", "__update"] ∧
      "String" ∈ calledGlobals :=
  ⟨by decide +kernel, by decide +kernel, by decide +kernel, by decide +kernel, by decide⟩

end Distinct

end LiveMarkup.Render
