import LiveMarkup.Proofs.Routing.Registered
/-! The paths of named routes. The first route of a name gives its path, in which every parameter is replaced by its
value. -/
namespace LiveMarkup.Routing
open Text

inductive Part.Spelled : Part → Prop where
  | fixed {text} (clear : ∀ c ∈ text, c ∉ ['/', ':', '\x7b', '\x7d']) : Spelled (.fixed text)
  | param {braced name type?} (some : name ≠ []) (words : ∀ c ∈ name, isWord c) (start : ∀ c ∈ name.head?, isDigit c = false)
      (typed : ∀ type ∈ type?, type ≠ [] ∧ ∀ c ∈ type, isWord c) : Spelled (.param braced name type?)

def Part.Valued (params : List (String × Value)) (part : Part) : Prop := ∀ key ∈ part.name?, key ∈ params.map (·.1)

instance {params : List (String × Value)} {part : Part} : Decidable (part.Valued params) :=
  inferInstanceAs (Decidable (∀ key ∈ part.name?, key ∈ params.map (·.1)))

def Part.display (params : List (String × Value)) : Part → Except Template.FillError (List Char)
  | fixed text => .ok text
  | param _ name _ =>
    match params.find? (·.1 == String.ofList name) with
    | some entry => .ok entry.2.plain.toList
    | none => .error (.missing (String.ofList name))

structure Named {α : Type} (entries : List (Registration α)) (name : String) (e : Registration α) : Prop where
  placed : ∃ before after, entries = before ++ e :: after ∧ ∀ other ∈ before, other.name? ≠ some name
  named : e.name? = some name

section Displaying

variable {params : List (String × Value)} {part : Part} {parts front behind : List Part} {key : String}

theorem keyFound (mem : key ∈ params.map (·.1)) : params.find? (·.1 == key) = some (key, given params key) := by
  cases found : params.find? (·.1 == key) with
  | none =>
    obtain ⟨entry, member, rfl⟩ := List.mem_map.mp mem
    exact absurd (beq_self_eq_true entry.1) (List.find?_eq_none.mp found entry member)
  | some entry =>
    have same : entry.1 = key := by simpa using List.find?_some found
    rw [given, found, ← same]
    rfl

theorem keyMissing (absent : key ∉ params.map (·.1)) : params.find? (·.1 == key) = none := by
  refine List.find?_eq_none.mpr fun entry mem same => absent ?_
  exact List.mem_map.mpr ⟨entry, mem, by simpa using same⟩

theorem displayValued (valued : part.Valued params) : part.display params = .ok (part.shown params) := by
  cases part with
  | fixed text => rfl
  | param braced name type? =>
    rw [Part.display, keyFound (valued _ rfl)]
    rfl

theorem displayMissing (named : part.name? = some key) (absent : key ∉ params.map (·.1)) :
    part.display params = .error (.missing key) := by
  cases part with
  | fixed text => cases named
  | param braced name type? =>
    cases named
    rw [Part.display, keyMissing absent]

theorem displaysValued (valued : ∀ part ∈ parts, part.Valued params) :
    parts.mapM (Part.display params) = .ok (parts.map (·.shown params)) := by
  induction parts with
  | nil => rfl
  | cons part parts ih =>
    obtain ⟨first, rest⟩ := List.forall_mem_cons.mp valued
    rw [List.mapM_cons, displayValued first, ih rest]
    rfl

theorem displaysMissing (valued : ∀ part ∈ front, part.Valued params) (named : part.name? = some key)
    (absent : key ∉ params.map (·.1)) :
    (front ++ part :: behind).mapM (Part.display params) = .error (.missing key) := by
  rw [List.mapM_append, displaysValued valued, List.mapM_cons, displayMissing named absent]
  rfl

end Displaying

section Spelling

variable {name rest : List Char} {part : Part} {parts : List Part}

theorem startUnnumbered (start : ∀ c ∈ name.head?, isDigit c = false) (some : name ≠ []) :
    Template.indexNumber? name = .ok none := by
  obtain ⟨c, name, rfl⟩ := List.exists_cons_of_ne_nil some
  simp [Template.indexNumber?, start c rfl, readDigits]

theorem fieldedSpelled (spelled : part.Spelled) (ending : Ending rest) :
    Pattern.fielded (part.write ++ rest) = part.fielded ++ Pattern.fielded rest := by
  cases spelled with
  | fixed clear =>
    refine fieldedFixed fun c mem => ?_
    have apart := clear c mem
    simp only [List.mem_cons, not_or] at apart
    exact ⟨apart.2.1, apart.2.2.1⟩
  | param some words start typed => exact fieldedParam words some typed ending

theorem slashedEnding {parts : List (List Char)} : Ending (slashed parts) := by
  cases parts with
  | nil => exact nofun
  | cons part parts =>
    rintro c ⟨⟩
    decide

theorem fieldedSlashed (spelled : ∀ part ∈ parts, part.Spelled) :
    Pattern.fielded (slashed (parts.map (·.write))) = slashed (parts.map (·.fielded)) := by
  induction parts with
  | nil => rw [List.map_nil, slashed, List.flatMap_nil, Pattern.fielded]; rfl
  | cons part parts ih =>
    obtain ⟨first, tail⟩ := List.forall_mem_cons.mp spelled
    rw [List.map_cons, List.map_cons, slashedCons, slashedCons, fieldedOther (by decide), fieldedSpelled first slashedEnding,
      ih tail]

theorem joinedSlashed {part : List Char} {parts : List (List Char)} :
    ['/'].intercalate (part :: parts) = part ++ slashed parts := by
  induction parts generalizing part with
  | nil => rw [List.intercalate_singleton, slashed, List.flatMap_nil, List.append_nil]
  | cons next parts ih => rw [List.intercalate_cons_cons, ih, slashedCons, List.append_assoc, List.singleton_append]

theorem fieldedJoined (spelled : ∀ part ∈ parts, part.Spelled) :
    Pattern.fielded (['/'].intercalate (parts.map (·.write))) = ['/'].intercalate (parts.map (·.fielded)) := by
  cases parts with
  | nil =>
    rw [List.map_nil, List.map_nil, List.intercalate_nil, Pattern.fielded]
    rfl
  | cons part parts =>
    obtain ⟨first, tail⟩ := List.forall_mem_cons.mp spelled
    rw [List.map_cons, List.map_cons, joinedSlashed, joinedSlashed, fieldedSpelled first slashedEnding, fieldedSlashed tail]

end Spelling

section Filling
open Template

variable {values : List (String × Value)} {depth : Nat} {s rest text name : List Char} {piece : Piece}
  {part : Part} {parts : List Part}

theorem fillFirst (front : pieces s = (piece :: (pieces rest).1, (pieces rest).2)) : fill values (depth + 1) s = (do
    let text ← showPiece values depth piece
    let out ← fill values (depth + 1) rest
    return text ++ out) := by
  rw [fillPieces, fillPieces, front, List.mapM_cons]
  cases showPiece values depth piece with
  | error e => rfl
  | ok text =>
    cases (pieces rest).1.mapM (showPiece values depth) with
    | error e => rfl
    | ok parts => cases (pieces rest).2 <;> rfl

theorem fillLetters (clear : ∀ c ∈ text, ¬(c = '\x7b' ∨ c = '\x7d')) :
    fill values (depth + 1) (text ++ rest) = (fill values (depth + 1) rest).map (text ++ ·) := by
  induction text with
  | nil => rw [List.nil_append]; cases fill values (depth + 1) rest <;> rfl
  | cons c text ih =>
    obtain ⟨first, tail⟩ := List.forall_mem_cons.mp clear
    rw [List.cons_append, fillFirst (piecesOther first), ih tail]
    cases fill values (depth + 1) rest <;> rfl

theorem valueMissing (words : ∀ c ∈ name, isWord c) (some : name ≠ []) (unnumbered : indexNumber? name = .ok none)
    (missing : values.find? (·.1 == String.ofList name) = none) :
    valueOf values name = .error (.missing (String.ofList name)) := by
  have through : ∀ c ∈ name, !endsName c := by
    intro c mem
    have apart := wordApart (words c mem)
    simp only [List.mem_cons, List.not_mem_nil, or_false, not_or] at apart
    simp [endsName, apart]
  have taken : name.takeWhile (!endsName ·) = name := List.takeWhile_eq_self_iff.mpr through
  have filled : name.isEmpty = false := by simpa using some
  rw [valueOf]
  simp only [taken, unnumbered, missing, filled]
  rfl

theorem fillSpelled (spelled : part.Spelled) : fill values (depth + 1) (part.fielded ++ rest) = (do
    let text ← part.display values
    let out ← fill values (depth + 1) rest
    return text ++ out) := by
  cases spelled with
  | fixed clear =>
    refine (fillLetters fun c mem => ?_).trans (by cases fill values (depth + 1) rest <;> rfl)
    have apart := clear c mem
    simp only [List.mem_cons, List.not_mem_nil, or_false, not_or] at apart
    exact not_or.mpr apart.2.2
  | @param braced name type? some words start typed =>
    have unnumbered := startUnnumbered start some
    have apart : name ++ '\x7d' :: rest ≠ [] ∧ (name ++ '\x7d' :: rest).head? ≠ .some '\x7b' := by
      obtain ⟨c, name, rfl⟩ := List.exists_cons_of_ne_nil some
      refine ⟨nofun, fun brace => ?_⟩
      obtain rfl : c = '\x7b' := Option.some.inj brace
      exact absurd (words _ List.mem_cons_self) (by decide)
    have read : field (name ++ '\x7d' :: rest) = .ok (⟨name, none, []⟩, rest) := by
      rw [field, @fieldNameWord rest name [] words]
      rfl
    have shown : showPiece values depth (.field ⟨name, none, []⟩) = (Part.param braced name type?).display values := by
      rw [showPiece, Part.display]
      cases found : values.find? (·.1 == String.ofList name) with
      | none => rw [valueMissing words some unnumbered found]; rfl
      | some entry =>
        have same : entry.1 = String.ofList name := by simpa using List.find?_some found
        rw [valueFound words some unnumbered (v := entry.2) (by rw [found, ← same])]
        rfl
    rw [Part.fielded, List.cons_append, List.append_assoc, List.singleton_append, fillFirst (piecesField apart read), shown]

theorem fillSlashed (spelled : ∀ part ∈ parts, part.Spelled) :
    fill values (depth + 1) (slashed (parts.map (·.fielded))) =
      (parts.mapM (Part.display values)).map slashed := by
  induction parts with
  | nil => exact fillNone
  | cons part parts ih =>
    obtain ⟨first, tail⟩ := List.forall_mem_cons.mp spelled
    have slash := @fillLetters values depth (part.fielded ++ slashed (parts.map (·.fielded))) ['/'] (by simp)
    rw [List.map_cons, slashedCons, ← List.singleton_append, slash, fillSpelled first, ih tail, List.mapM_cons]
    cases part.display values with
    | error e => rfl
    | ok text => cases parts.mapM (Part.display values) <;> rfl

theorem fillJoined (spelled : ∀ part ∈ parts, part.Spelled) :
    fill values (depth + 1) (['/'].intercalate (parts.map (·.fielded))) =
    (parts.mapM (Part.display values)).map (['/'].intercalate ·) := by
  cases parts with
  | nil => exact fillNone
  | cons part parts =>
    obtain ⟨first, tail⟩ := List.forall_mem_cons.mp spelled
    rw [List.map_cons, joinedSlashed, fillSpelled first, fillSlashed tail, List.mapM_cons]
    cases part.display values with
    | error e => rfl
    | ok text =>
      cases parts.mapM (Part.display values) with
      | error e => rfl
      | ok shown => exact congrArg Except.ok joinedSlashed.symm

end Filling

section Addressing

variable {α : Type} {r : Router α} {e : Registration α} {entries : List (Registration α)} {routes : List (Route α)}
  {route : Route α} {p : Pattern} {params : List (String × Value)} {parts front behind : List Part} {part : Part}
  {reserved : List String} {name key owner : String}

theorem clashNone : clash? reserved params = none ↔ ∀ entry ∈ params, entry.1 ∉ reserved := by
  simp [clash?, List.find?_eq_none]

theorem clashSome : (∃ taken, clash? reserved params = some taken) ↔ ∃ entry ∈ params, entry.1 ∈ reserved := by
  rw [← Option.isSome_iff_exists, ← not_iff_not, Option.not_isSome_iff_eq_none, clashNone]
  push Not
  rfl

theorem pathSpelled (written : p.text = joinedText parts) (spelled : ∀ part ∈ parts, part.Spelled) :
    p.path params = (parts.mapM (Part.display params)).map fun shown => String.ofList (['/'].intercalate shown) := by
  rw [Pattern.path, written, joinedText, String.toList_ofList, fieldedJoined spelled, Template.fillNamed, String.toList_ofList,
    fillJoined spelled]
  cases parts.mapM (Part.display params) <;> rfl

theorem routeNamed (read : List.Forall₂ (fun e route => e.route = .ok route) entries routes)
    (first : Named entries name e) :
    ∃ route, e.route = .ok route ∧ routes.find? (·.name? == some name) = some route := by
  obtain ⟨⟨before, after, rfl, others⟩, named⟩ := first
  induction before generalizing routes with
  | nil =>
    cases read with
    | @cons _ route _ _ here _ =>
      have same := (routeRead.mp here).2.2.trans named
      exact ⟨route, here, List.find?_cons_of_pos (beq_iff_eq.mpr same)⟩
  | cons other before ih =>
    obtain ⟨front, others⟩ := List.forall_mem_cons.mp others
    cases read with
    | cons here rest =>
      obtain ⟨route, read, found⟩ := ih others rest
      have apart : _ ≠ some name := (routeRead.mp here).2.2 ▸ front
      exact ⟨route, read, (List.find?_cons_of_neg (by simpa using apart)).trans found⟩

theorem namesRead (read : List.Forall₂ (fun e route => e.route = .ok route) entries routes) :
    routes.map (·.name?) = entries.map (·.name?) := by
  induction read with
  | nil => rfl
  | cons here _ ih => rw [List.map_cons, List.map_cons, ih, (routeRead.mp here).2.2]

theorem unnamedRoutes (read : List.Forall₂ (fun e route => e.route = .ok route) entries routes) :
    routes.find? (·.name? == some name) = none ↔ ∀ e ∈ entries, e.name? ≠ some name := by
  have same : some name ∈ routes.map (·.name?) ↔ some name ∈ entries.map (·.name?) := by rw [namesRead read]
  rw [← not_iff_not]
  simpa using same

theorem readText {text : String} (read : Pattern.read text = .ok p) : p.text = text := by
  rw [Pattern.read] at read
  split at read
  · cases read
  · cases read
    rfl

theorem pathOwn (free : ∀ entry ∈ params, entry.1 ∉ ["self", "name"]) :
    p.pathFor params = (p.path params).mapError .fill := by
  have own : clash? ["self"] params = none :=
    clashNone.mpr fun entry mem same => free entry mem (List.mem_cons.mpr (.inl (List.mem_singleton.mp same)))
  rw [Pattern.pathFor, own]

theorem pathNamed (free : ∀ entry ∈ params, entry.1 ∉ ["self", "name"])
    (found : r.routes.find? (·.name? == some name) = some route) :
    r.pathFor owner name params = route.pattern.pathFor params := by
  rw [Router.pathFor, clashNone.mpr free, found]

theorem pathUnnamed (free : ∀ entry ∈ params, entry.1 ∉ ["self", "name"]) :
    r.pathFor owner name params = .error (.unknown name) ↔ r.routes.find? (·.name? == some name) = none := by
  cases found : r.routes.find? (·.name? == some name) with
  | none =>
    rw [Router.pathFor, clashNone.mpr free, found]
    exact iff_of_true rfl rfl
  | some route =>
    rw [pathNamed free found, pathOwn free]
    cases route.pattern.path params <;> exact iff_of_false nofun nofun

theorem pathClash : (∃ taken, r.pathFor owner name params = .error (.clash owner taken)) ↔
    ∃ entry ∈ params, entry.1 ∈ ["self", "name"] := by
  rw [← clashSome, Router.pathFor]
  cases clash : clash? ["self", "name"] params with
  | some taken => exact iff_of_true ⟨taken, rfl⟩ ⟨taken, rfl⟩
  | none =>
    refine iff_of_false ?_ nofun
    rintro ⟨taken, failed⟩
    cases found : r.routes.find? (·.name? == some name) with
    | none => simp only [found] at failed; cases failed
    | some route =>
      simp only [found, pathOwn (clashNone.mp clash)] at failed
      cases read : route.pattern.path params <;> rw [read] at failed <;> cases failed

/-- A named route gives its path, in which its parameters have their values, unless a value is missing. Only a parameter
that is called like a part of the call gets in the way. -/
theorem namedAddressed (entries : List (Registration α)) (r : Router α) (accepted : registered {} entries = .ok r)
    (owner name : String) (params : List (String × Value)) :
    ((∃ taken, r.pathFor owner name params = .error (.clash owner taken)) ↔ ∃ entry ∈ params, entry.1 ∈ ["self", "name"]) ∧
    ((∀ entry ∈ params, entry.1 ∉ ["self", "name"]) →
      (r.pathFor owner name params = .error (.unknown name) ↔ ∀ e ∈ entries, e.name? ≠ some name) ∧
      ∀ e parts, Named entries name e → e.pattern = joinedText parts → (∀ part ∈ parts, part.Spelled) →
        (∃ p, Pattern.read e.pattern = .ok p ∧ r.pathFor owner name params = p.pathFor params) ∧
        ((∀ part ∈ parts, part.Valued params) →
          r.pathFor owner name params = .ok (String.ofList (['/'].intercalate (parts.map (·.shown params))))) ∧
        ∀ front part key behind, parts = front ++ part :: behind → (∀ p ∈ front, p.Valued params) → part.name? = some key →
          key ∉ params.map (·.1) → r.pathFor owner name params = .error (.fill (.missing key))) := by
  have read := registeredAll.mp accepted
  refine ⟨pathClash, fun free => ⟨(pathUnnamed free).trans (unnamedRoutes read), ?_⟩⟩
  intro e parts first written spelled
  obtain ⟨route, here, found⟩ := routeNamed read first
  have pattern := (routeRead.mp here).1
  have path : r.pathFor owner name params =
      ((parts.mapM (Part.display params)).map fun shown => String.ofList (['/'].intercalate shown)).mapError .fill := by
    rw [pathNamed free found, pathOwn free, pathSpelled ((readText pattern).trans written) spelled]
  refine ⟨⟨_, pattern, pathNamed free found⟩, fun valued => ?_, ?_⟩
  · rw [path, displaysValued valued]
    rfl
  · rintro front part key behind rfl valued named absent
    rw [path, displaysMissing valued named absent]
    rfl

def pageEntries : List (Registration String) := [⟨"/", "home", none⟩, ⟨"/users/:id:int/\x7btab\x7d", "tab", some "page"⟩,
  ⟨"/other", "other", some "page"⟩]

def pageParts : List Part :=
  [.fixed [], .fixed "users".toList, .param false ['i', 'd'] (some Segment.wholeType), .param true ['t', 'a', 'b'] none]

theorem pageAddressed : ∃ r, registered {} pageEntries = .ok r ∧
    r.pathFor "app.url_for()" "page" [("tab", .text "a b"), ("id", .whole 7)] = .ok "/users/7/a b" ∧
    r.pathFor "app.url_for()" "page" [("id", .whole 7)] = .error (.fill (.missing "tab")) ∧
    r.pathFor "app.url_for()" "home" [] = .error (.unknown "home") := by
  have accepted : registered {} pageEntries = .ok ⟨[⟨⟨"/", []⟩, "home", none⟩,
      ⟨⟨"/users/:id:int/\x7btab\x7d", [.fixed "users".toList, .param ['i', 'd'] Segment.wholeType,
        .param ['t', 'a', 'b'] Segment.defaultType]⟩, "tab", some "page"⟩,
      ⟨⟨"/other", [.fixed "other".toList]⟩, "other", some "page"⟩]⟩ := by decide
  have first : Named pageEntries "page" ⟨"/users/:id:int/\x7btab\x7d", "tab", some "page"⟩ :=
    ⟨⟨[⟨"/", "home", none⟩], _, rfl, by decide⟩, rfl⟩
  have wholeTyped : ∀ type ∈ some Segment.wholeType, type ≠ [] ∧ ∀ c ∈ type, isWord c := by
    rintro type ⟨⟩
    exact ⟨by decide, List.all_eq_true.mp rfl⟩
  have spelled : ∀ part ∈ pageParts, part.Spelled := by
    simp only [pageParts, List.forall_mem_cons, List.not_mem_nil, false_imp_iff, implies_true, and_true]
    exact ⟨.fixed nofun, .fixed (by simp), .param (by decide) (List.all_eq_true.mp rfl) (by rintro c ⟨⟩; decide) wholeTyped,
      .param (by decide) (List.all_eq_true.mp rfl) (by rintro c ⟨⟩; decide) nofun⟩
  have both := (namedAddressed pageEntries _ accepted "app.url_for()" "page"
    [("tab", .text "a b"), ("id", .whole 7)]).2 (by decide)
  have one := (namedAddressed pageEntries _ accepted "app.url_for()" "page" [("id", .whole 7)]).2 (by decide)
  have none := (namedAddressed pageEntries _ accepted "app.url_for()" "home" []).2 nofun
  refine ⟨_, accepted, (both.2 _ pageParts first rfl spelled).2.1 (by decide),
    (one.2 _ pageParts first rfl spelled).2.2 (pageParts.take 3) _ _ [] rfl (by decide) rfl (by decide), none.1.mpr (by decide)⟩

theorem nameClashes : ∃ r p, registered {} [⟨"/users/:name", "user", some "user"⟩] = .ok r ∧
    r.routes.find? (·.name? == some "user") = some ⟨p, "user", some "user"⟩ ∧
    p.pathFor [("name", .text "ada")] = .ok "/users/ada" ∧
    r.pathFor "Router.url_for()" "user" [("name", .text "ada")] = .error (.clash "Router.url_for()" "name") := by
  refine ⟨⟨[⟨⟨"/users/:name", [.fixed "users".toList, .param "name".toList Segment.defaultType]⟩, "user", some "user"⟩]⟩, _, ?_, rfl,
    ?_, rfl⟩
  · decide
  · decide +kernel

end Addressing

end LiveMarkup.Routing
