import LiveMarkup.Proofs.Routing.Accepted
/-! The routes that are registered, one behind the other, and the first of them that accepts a path. -/
namespace LiveMarkup.Routing

variable {α : Type}

structure Registration (α : Type) where
  pattern : String
  target : α
  name? : Option String := none
  deriving DecidableEq, Repr

def Registration.route (e : Registration α) : Except PatternError (Route α) := do
  return ⟨← Pattern.read e.pattern, e.target, e.name?⟩

def registered (r : Router α) (entries : List (Registration α)) : Except PatternError (Router α) :=
  entries.foldlM (fun r e => r.add e.pattern e.target e.name?) r

structure Earliest (routes : List (Route α)) (path : String) (route : Route α) (parts : List (List Char)) : Prop where
  placed : ∃ before after, routes = before ++ route :: after ∧
    ∀ other ∈ before, ∀ parts, ¬Accepts other.pattern.segments path parts
  accepts : Accepts route.pattern.segments path parts

variable {r r' : Router α} {e : Registration α} {entries more : List (Registration α)} {routes after : List (Route α)}
  {route first : Route α} {path : String} {parts : List (List Char)}

section Registering

theorem routeRead : e.route = .ok route ↔ Pattern.read e.pattern = .ok route.pattern ∧ route.target = e.target ∧
    route.name? = e.name? := by
  rw [Registration.route, bindOk]
  constructor
  · rintro ⟨p, read, same⟩
    cases pureOk.mp same
    exact ⟨read, rfl, rfl⟩
  · rintro ⟨read, target, name⟩
    refine ⟨_, read, pureOk.mpr ?_⟩
    rw [← target, ← name]

theorem addedRoute :
    r.add e.pattern e.target e.name? = .ok r' ↔ ∃ route, e.route = .ok route ∧ r' = ⟨r.routes ++ [route]⟩ := by
  rw [Router.add, Registration.route]
  simp only [bindOk, pureOk]
  grind

theorem registeredRoutes : registered r entries = .ok r' ↔
    ∃ routes, List.Forall₂ (fun e route => e.route = .ok route) entries routes ∧ r' = ⟨r.routes ++ routes⟩ := by
  induction entries generalizing r with
  | nil =>
    refine (pureOk (ε := PatternError)).trans ?_
    constructor
    · rintro rfl
      exact ⟨[], .nil, by rw [List.append_nil]⟩
    · rintro ⟨routes, read, rfl⟩
      cases read
      rw [List.append_nil]
  | cons e entries ih =>
    have step : registered r (e :: entries) = .ok r' ↔
        ∃ next, r.add e.pattern e.target e.name? = .ok next ∧ registered next entries = .ok r' := by
      rw [registered, List.foldlM_cons]
      exact bindOk
    simp only [step, addedRoute, ih]
    constructor
    · rintro ⟨_, ⟨route, read, rfl⟩, routes, others, rfl⟩
      exact ⟨route :: routes, .cons read others, by rw [List.append_assoc, List.singleton_append]⟩
    · rintro ⟨_, read, rfl⟩
      cases read with
      | cons first others => exact ⟨_, ⟨_, first, rfl⟩, _, others, by rw [List.append_assoc, List.singleton_append]⟩

theorem registeredAll :
    registered {} entries = .ok r ↔ List.Forall₂ (fun e route => e.route = .ok route) entries r.routes := by
  rw [registeredRoutes]
  constructor
  · rintro ⟨routes, read, rfl⟩
    exact read
  · intro read
    exact ⟨_, read, rfl⟩

end Registering

section Matching

theorem matchOther (refused : ∀ parts, ¬Accepts first.pattern.segments path parts) :
    Router.matchFirst path (first :: routes) = Router.matchFirst path routes := by
  rw [Router.matchFirst, parametersNone.mpr refused]
  rfl

theorem matchHead (accepts : Accepts first.pattern.segments path parts) :
    Router.matchFirst path (first :: routes) =
      (first.pattern.parameters? path).map (·.map fun params => (first, params)) := by
  rw [Router.matchFirst]
  cases read : first.pattern.parameters? path with
  | error e => rfl
  | ok found =>
    cases found with
    | none => exact absurd accepts (parametersNone.mp read parts)
    | some found => rfl

theorem matchEarliest (earliest : Earliest routes path route parts) :
    Router.matchFirst path routes = (route.pattern.parameters? path).map (·.map fun params => (route, params)) := by
  obtain ⟨⟨before, after, rfl, refused⟩, accepts⟩ := earliest
  induction before with
  | nil => exact matchHead accepts
  | cons other before ih =>
    obtain ⟨front, others⟩ := List.forall_mem_cons.mp refused
    rw [List.cons_append, matchOther front, ih others]

theorem earliestSome : (∃ route parts, Earliest routes path route parts) ∨
    ∀ route ∈ routes, ∀ parts, ¬Accepts route.pattern.segments path parts := by
  induction routes with
  | nil => exact .inr nofun
  | cons first routes ih =>
    by_cases accepted : ∃ parts, Accepts first.pattern.segments path parts
    · obtain ⟨parts, accepts⟩ := accepted
      exact .inl ⟨first, parts, ⟨[], routes, rfl, nofun⟩, accepts⟩
    · have front := not_exists.mp accepted
      refine ih.imp ?_ fun others => List.forall_mem_cons.mpr ⟨front, others⟩
      rintro ⟨route, parts, ⟨before, after, rfl, refused⟩, accepts⟩
      exact ⟨route, parts, ⟨first :: before, after, rfl, List.forall_mem_cons.mpr ⟨front, refused⟩⟩, accepts⟩

theorem matchNone : Router.matchFirst path routes = .ok none ↔
    ∀ route ∈ routes, ∀ parts, ¬Accepts route.pattern.segments path parts := by
  constructor
  · intro none
    refine earliestSome.resolve_left ?_
    rintro ⟨route, parts, earliest⟩
    rw [matchEarliest earliest] at none
    cases read : route.pattern.parameters? path with
    | error e => rw [read] at none; cases none
    | ok found =>
      cases found with
      | none => exact parametersNone.mp read parts earliest.accepts
      | some found => rw [read] at none; cases none
  · intro refused
    induction routes with
    | nil => rfl
    | cons first routes ih =>
      obtain ⟨front, others⟩ := List.forall_mem_cons.mp refused
      rw [matchOther front, ih others]

theorem matchFound {params : List (String × Value)} : Router.matchFirst path routes = .ok (some (route, params)) ↔
    ∃ parts, Earliest routes path route parts ∧ AllShort route.pattern.segments parts ∧
      params = taken Segment.parameter? route.pattern.segments parts := by
  constructor
  · intro found
    rcases @earliestSome _ routes path with ⟨first, parts, earliest⟩ | refused
    · rw [matchEarliest earliest] at found
      have read : first.pattern.parameters? path = .ok (some params) ∧ first = route := by
        cases read : first.pattern.parameters? path with
        | error e => rw [read] at found; cases found
        | ok given =>
          rw [read] at found
          cases given with
          | none => cases found
          | some given => cases found; exact ⟨rfl, rfl⟩
      obtain ⟨read, rfl⟩ := read
      obtain ⟨others, accepts, short, same⟩ := parametersFound.mp read
      exact ⟨others, ⟨earliest.placed, accepts⟩, short, same⟩
    · cases found.symm.trans (matchNone.mpr refused)
  · rintro ⟨parts, earliest, short, same⟩
    rw [matchEarliest earliest, parametersFound.mpr ⟨parts, earliest.accepts, short, same⟩]
    rfl

theorem matchLong : (∃ e, Router.matchFirst path routes = .error e) ↔
    ∃ route parts, Earliest routes path route parts ∧ ¬AllShort route.pattern.segments parts := by
  constructor
  · rintro ⟨e, failed⟩
    rcases @earliestSome _ routes path with ⟨route, parts, earliest⟩ | refused
    · refine ⟨route, parts, earliest, fun short => ?_⟩
      cases failed.symm.trans (matchFound.mpr ⟨parts, earliest, short, rfl⟩)
    · cases failed.symm.trans (matchNone.mpr refused)
  · rintro ⟨route, parts, earliest, long⟩
    obtain ⟨e, failed⟩ := parametersLong.mpr ⟨parts, earliest.accepts, long⟩
    exact ⟨e, by rw [matchEarliest earliest, failed]; rfl⟩

theorem matchKept (some : Router.matchFirst path routes ≠ .ok none) :
    Router.matchFirst path (routes ++ after) = Router.matchFirst path routes := by
  obtain ⟨route, parts, earliest⟩ := earliestSome.resolve_right (mt matchNone.mpr some)
  obtain ⟨⟨before, behind, rfl, refused⟩, accepts⟩ := earliest
  have longer : Earliest (before ++ route :: behind ++ after) path route parts :=
    ⟨⟨before, behind ++ after, by rw [List.append_assoc, List.cons_append], refused⟩, accepts⟩
  rw [matchEarliest longer, matchEarliest ⟨⟨before, behind, rfl, refused⟩, accepts⟩]

end Matching

/-- A router answers with the first route that was registered for the path, or with none if there is no such route. Only
too long a number keeps it from an answer. What is registered later does not change an answer. -/
theorem earliestMatched (entries : List (Registration α)) (r : Router α) (accepted : registered {} entries = .ok r) :
    List.Forall₂ (fun e route => e.route = .ok route) entries r.routes ∧ ∀ path,
      (r.match? path = .ok none ↔ ∀ route ∈ r.routes, ∀ parts, ¬Accepts route.pattern.segments path parts) ∧
      (∀ route params, r.match? path = .ok (some (route, params)) ↔ ∃ parts, Earliest r.routes path route parts ∧
        AllShort route.pattern.segments parts ∧ params = taken Segment.parameter? route.pattern.segments parts) ∧
      ((∃ e, r.match? path = .error e) ↔
        ∃ route parts, Earliest r.routes path route parts ∧ ¬AllShort route.pattern.segments parts) ∧
      ∀ more r', registered r more = .ok r' → r.match? path ≠ .ok none → r'.match? path = r.match? path := by
  refine ⟨registeredAll.mp accepted, fun path =>
    ⟨matchNone, fun _ _ => matchFound, matchLong, fun more r' further some => ?_⟩⟩
  obtain ⟨after, -, rfl⟩ := registeredRoutes.mp further
  exact matchKept some

def numberEntries : List (Registration String) :=
  [⟨"/n/:id:int", "number", none⟩, ⟨"/n/\x7bword\x7d", "word", some "word"⟩]

def numberRoute : Route String := ⟨⟨"/n/:id:int", [.fixed ['n'], .param ['i', 'd'] Segment.wholeType]⟩, "number", none⟩

def wordRoute : Route String :=
  ⟨⟨"/n/\x7bword\x7d", [.fixed ['n'], .param "word".toList Segment.defaultType]⟩, "word", some "word"⟩

theorem numberRegistered : registered {} numberEntries = .ok ⟨[numberRoute, wordRoute]⟩ := by decide

theorem numberFirst : ∃ r, registered {} numberEntries = .ok r ∧
    r.match? "/n/12" = .ok (some (numberRoute, [("id", .whole 12)])) ∧
    r.match? "/n/1a" = .ok (some (wordRoute, [("word", .text "1a")])) ∧ r.match? "/n/1/2" = .ok none := by
  obtain ⟨-, matched⟩ := earliestMatched numberEntries _ numberRegistered
  have number : Accepts numberRoute.pattern.segments "/n/12" [['n'], ['1', '2']] :=
    .whole ⟨by decide, by decide, by decide⟩
  have word : Accepts wordRoute.pattern.segments "/n/1a" [['n'], ['1', 'a']] :=
    .whole ⟨by decide, by decide, by decide⟩
  have other : ∀ parts, ¬Accepts numberRoute.pattern.segments "/n/1a" parts := parametersNone.mp rfl
  refine ⟨_, numberRegistered, ((matched _).2.1 _ _).mpr ⟨_, ⟨⟨[], _, rfl, nofun⟩, number⟩, by decide, rfl⟩,
    ((matched _).2.1 _ _).mpr ⟨_, ⟨⟨[numberRoute], _, rfl, ?_⟩, word⟩, by decide, rfl⟩, (matched _).1.mpr ?_⟩
  · exact List.forall_mem_singleton.mpr other
  · exact List.forall_mem_cons.mpr ⟨parametersNone.mp rfl, List.forall_mem_singleton.mpr (parametersNone.mp rfl)⟩

def zerosPath (n : Nat) : String := String.ofList ("/n/".toList ++ List.replicate n '0')

theorem zerosLong {n : Nat} (many : digitLimit < n) :
    ∃ e, (Router.mk [numberRoute, wordRoute]).match? (zerosPath n) = .error e := by
  have digits {c : Char} (mem : c ∈ List.replicate n '0') : c = '0' := List.eq_of_mem_replicate mem
  have some : List.replicate n '0' ≠ [] := by
    rw [ne_eq, List.replicate_eq_nil_iff]
    exact Nat.ne_zero_of_lt many
  have reads : Reads numberRoute.pattern.segments (zerosPath n) [['n'], List.replicate n '0'] := by
    refine ⟨?_, ?_, .cons rfl (.cons ⟨some, fun c mem => by rw [digits mem]; decide⟩ .nil)⟩
    · unfold zerosPath
      simp [List.intercalate]
    · refine List.forall_mem_cons.mpr ⟨by decide, List.forall_mem_singleton.mpr fun mem => ?_⟩
      exact absurd (digits mem) (by decide)
  refine matchLong.mpr ⟨numberRoute, _, ⟨⟨[], _, rfl, nofun⟩, .whole reads⟩, fun short => ?_⟩
  have few := (List.forall_mem_cons.mp (List.forall_mem_cons.mp short).2).1 rfl
  rw [List.length_replicate] at few
  exact absurd many (Nat.not_lt.mpr few)

theorem zerosStopped : ∃ r, registered {} numberEntries = .ok r ∧ ∃ e, r.match? (zerosPath 4301) = .error e :=
  ⟨_, numberRegistered, zerosLong (by decide)⟩

end LiveMarkup.Routing
