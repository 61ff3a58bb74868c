import Mathlib.Data.List.Find
import LiveMarkup.Proofs.Analysis.Listed
import LiveMarkup.Render.Factory
/-! The site that a template call is matched to. The sites of a factory are the template calls of its method,
and of those that share a template and a line the first one answers for all. -/
namespace LiveMarkup.Render
open Analysis

section Blocks

variable {template : String} {line : Int} {n : Nat} {s : Slot} {block rest slots : List Slot}

def Begins (slots : List Slot) : Prop := ∀ s, slots.head? = some s → s.slot = 0

theorem firstSite : ∃ site sites others,
    sitesOf (s :: rest) = site :: sites ∧ site.slots = s :: others := by
  rw [sitesOf]
  split
  · exact ⟨_, _, [], rfl, rfl⟩
  · split
    · split
      · exact ⟨_, _, [], rfl, rfl⟩
      · exact ⟨_, _, _, rfl, rfl⟩
    · exact ⟨_, _, [], rfl, rfl⟩

theorem sitesBlock (placed : Placed template line n (s :: block)) (begins : Begins rest) :
    sitesOf (s :: block ++ rest) = ⟨template, line, s :: block⟩ :: sitesOf rest := by
  induction block generalizing n s with
  | nil =>
    cases placed with
    | cons number text place tail =>
    subst text place
    cases rest with
    | nil => rfl
    | cons r rest =>
      obtain ⟨site, sites, others, found, slots⟩ := @firstSite r rest
      show sitesOf (s :: r :: rest) = _
      rw [sitesOf, found]
      simp only [slots, begins r rfl, if_true]
  | cons b block ih =>
    cases placed with
    | cons number text place tail =>
    subst text place
    have inner := ih tail
    cases tail with
    | cons next _ _ _ =>
    show sitesOf (s :: (b :: block ++ rest)) = _
    rw [sitesOf, inner]
    simp only [next, Nat.succ_ne_zero, if_false]

def siteOf? (c : Context) (call : Call) : Option Site :=
  match callSlots c call with
  | [] => none
  | s :: rest => some ⟨s.template, s.line, s :: rest⟩

def Accepted (c : Context) (call : Call) : Prop :=
  call.isTemplateCall c.scope.tag = true → slotsOfCall c call = .ok (callSlots c call)

variable {c : Context} {call : Call} {calls : List Call}

theorem slotsPlaced (accepted : Accepted c call) : match call.literal? c.scope.tag with
    | some (template, count) =>
      Placed template (c.lineOf call) 0 (callSlots c call) ∧ (callSlots c call).length = count
    | none => callSlots c call = [] := by
  by_cases is : call.isTemplateCall c.scope.tag = true
  · exact @sitePlaced c call [] _ (callSlots c call) is (Prod.ext (accepted is) rfl)
  · rw [Call.literal?, if_neg is]
    exact if_neg is

theorem callBegins (accepted : Accepted c call) (begins : Begins rest) : Begins (callSlots c call ++ rest) := by
  have placed := slotsPlaced accepted
  split at placed
  · obtain ⟨placed, _⟩ := placed
    generalize callSlots c call = slots at placed
    cases placed with
    | nil => exact begins
    | cons number _ _ _ =>
      intro s head
      cases head
      exact number
  · rw [placed]
    exact begins

theorem callsBegin (accepted : ∀ call ∈ calls, Accepted c call) : Begins (calls.flatMap (callSlots c)) := by
  induction calls with
  | nil => exact fun _ none => nomatch none
  | cons call rest ih =>
    obtain ⟨here, later⟩ := List.forall_mem_cons.mp accepted
    rw [List.flatMap_cons]
    exact callBegins here (ih later)

theorem sitesByCall (accepted : ∀ call ∈ calls, Accepted c call) :
    sitesOf (calls.flatMap (callSlots c)) = calls.filterMap (siteOf? c) := by
  induction calls with
  | nil => rfl
  | cons call rest ih =>
    obtain ⟨here, later⟩ := List.forall_mem_cons.mp accepted
    have placed := slotsPlaced here
    have others := ih later
    have begins := callsBegin later
    rw [List.flatMap_cons, List.filterMap_cons, siteOf?]
    split at placed
    · obtain ⟨placed, _⟩ := placed
      generalize callSlots c call = slots at placed
      cases slots with
      | nil => exact others
      | cons s block =>
        rw [sitesBlock placed begins, others]
        cases placed with
        | cons number text place tail =>
        subst text
        simp only [place]
    · rw [placed]
      exact others

end Blocks

section Choice

def Site.fits (template : String) (count : Nat) (site : Site) : Bool :=
  site.template == template && site.slots.length == count

variable {slots : List Slot} {template : String} {count : Nat} {line : Int}

theorem laterFirst {sites : List Site} {site : Site} (above : ∀ other ∈ site :: sites, other.line ≤ line)
    (here : ∃ other ∈ site :: sites, other.line = line) :
    (site :: sites).find? (·.line == line) = some (sites.foldl Site.later site) := by
  induction sites generalizing site with
  | nil =>
    obtain ⟨other, mem, same⟩ := here
    obtain rfl := List.mem_singleton.mp mem
    rw [List.find?_cons_of_pos (by simpa using same)]
    rfl
  | cons next rest ih =>
    obtain ⟨low, low', lower⟩ : site.line ≤ line ∧ next.line ≤ line ∧ ∀ other ∈ rest, other.line ≤ line := by
      simpa using above
    have step : (site :: next :: rest).find? (·.line == line) = (site.later next :: rest).find? (·.line == line) := by
      unfold Site.later
      split
      · next less =>
        have other : site.line ≠ line := by omega
        rw [List.find?_cons_of_neg (by simpa using other)]
      · next least =>
        by_cases same : site.line = line
        · rw [List.find?_cons_of_pos (by simpa using same), List.find?_cons_of_pos (by simpa using same)]
        · have other : next.line ≠ line := by omega
          rw [List.find?_cons_of_neg (by simpa using same), List.find?_cons_of_neg (by simpa using other),
            List.find?_cons_of_neg (by simpa using same)]
    rw [step, List.foldl_cons]
    refine ih (List.forall_mem_cons.mpr ⟨?_, lower⟩) ?_
    · unfold Site.later
      split
      · exact low'
      · exact low
    · have found := List.find?_isSome.mpr (by simpa using here :
        ∃ other, other ∈ site :: next :: rest ∧ (other.line == line) = true)
      rw [step] at found
      simpa using List.find?_isSome.mp found

theorem siteOnLine (here : ∃ site ∈ sitesOf slots, site.fits template count = true ∧ site.line = line) :
    siteFor? slots template count line =
      (sitesOf slots).find? fun site => site.fits template count && site.line == line := by
  have both : ((sitesOf slots).filter (·.fits template count)).find? (·.line == line) =
      (sitesOf slots).find? fun site => site.fits template count && site.line == line := by
    rw [List.find?_filter]
    exact congrArg (List.find? · (sitesOf slots)) (funext fun site => by simp [beq_eq_decide])
  have named : (sitesOf slots).filter (fun site => site.template == template && site.slots.length == count) =
      (sitesOf slots).filter (·.fits template count) := rfl
  obtain ⟨site, mem, fits, same⟩ := here
  have candidate := List.mem_filter.mpr ⟨mem, fits⟩
  unfold siteFor?
  simp only
  rw [← both, named]
  generalize (sitesOf slots).filter (·.fits template count) = candidates at candidate
  split
  · cases candidate
  next first rest =>
  split
  · next alone =>
    obtain rfl := List.isEmpty_iff.mp alone
    obtain rfl := List.mem_singleton.mp candidate
    rw [List.find?_cons_of_pos (by simpa using same)]
  · have above : (first :: rest).find? (·.line == line) =
        ((first :: rest).filter fun site => site.line ≤ line).find? (·.line == line) := by
      rw [List.find?_filter]
      refine congrArg (List.find? · (first :: rest)) (funext fun site => ?_)
      by_cases same : site.line = line
      · simp [same]
      · simp [same]
    have some : site ∈ (first :: rest).filter fun site => site.line ≤ line :=
      List.mem_filter.mpr ⟨candidate, by simpa using Int.le_of_eq same⟩
    have low : ∀ other ∈ (first :: rest).filter fun site => site.line ≤ line, other.line ≤ line :=
      fun other mem => by simpa using (List.mem_filter.mp mem).2
    rw [above]
    generalize (first :: rest).filter (fun site => site.line ≤ line) = lower at some low
    cases lower with
    | nil => cases some
    | cons next others => exact (laterFirst low ⟨site, some, same⟩).symm

end Choice

section Matched

def standsAt (c : Context) (template : String) (count : Nat) (line : Int) (call : Call) : Bool :=
  call.literal? c.scope.tag == some (template, count) && c.lineOf call == line

variable {c : Context} {call : Call} {calls : List Call} {template : String} {count : Nat} {line : Int}

theorem siteStands (accepted : Accepted c call) (some : count ≠ 0) :
    (siteOf? c call).any (fun site => site.fits template count && site.line == line) =
      standsAt c template count line call := by
  have placed := slotsPlaced accepted
  rw [siteOf?, standsAt]
  split at placed
  · next text number literal =>
    obtain ⟨placed, length⟩ := placed
    rw [literal]
    generalize callSlots c call = slots at placed length
    cases placed with
    | nil =>
      have other : number ≠ count := fun same => some (same ▸ length.symm)
      simp [other]
    | cons _ text place _ =>
      subst text length
      simp only [Option.any_some, Site.fits, place]
      rfl
  · next literal =>
    rw [placed, literal]
    rfl

theorem standsAccepted {tag : String} (template : String) (call : Call) (own : c.scope.tag = tag)
    (literal : call.literal? tag = some (template, count)) : standsAt c template count (c.lineOf call) call = true := by
  rw [standsAt, own, literal]
  simp

theorem siteOwn (accepted : Accepted c call) (some : count ≠ 0)
    (stands : standsAt c template count line call = true) :
    ∃ site, siteOf? c call = .some site ∧ slotsOfCall c call = .ok site.slots := by
  obtain ⟨site, found, _⟩ := (Option.any_eq_true _ _).mp ((siteStands accepted some).trans stands)
  refine ⟨site, found, ?_⟩
  have is : call.isTemplateCall c.scope.tag = true := by
    refine Decidable.byContradiction fun other => ?_
    rw [siteOf?, callSlots, if_neg other] at found
    cases found
  rw [accepted is]
  unfold siteOf? at found
  split at found
  · cases found
  · next slots =>
    cases found
    rw [slots]

/-- A call is given the slots of the first call, in the order of the analysis, that has the same template and
number of values on the same line. -/
theorem callMatched {source tag : String} {firstLine : Int} {file : Option String} {notes notes' : List Note}
    {slots : List Slot} (analyzed : outcome (analyzeSource source firstLine file tag) notes = (.ok slots, notes')) :
    ∃ c calls, methodCalls? source firstLine file tag = some (c, calls) ∧
      ∀ before call after template count, calls = before ++ call :: after →
        call.literal? tag = some (template, count) → count ≠ 0 →
        ∃ site first, siteFor? slots template count (c.lineOf call) = some site ∧
          calls.find? (standsAt c template count (c.lineOf call)) = some first ∧
          slotsOfCall c first = .ok site.slots ∧
          ((∀ other ∈ before, standsAt c template count (c.lineOf call) other = false) → first = call) := by
  obtain ⟨c, calls, read, own, ran⟩ := methodRead analyzed
  obtain ⟨rfl, accepted⟩ := slotsByCall ran
  refine ⟨c, calls, read, fun before call after template count whole literal some => ?_⟩
  have sites := sitesByCall accepted
  have stands := standsAccepted template call own literal
  have mem : call ∈ calls := whole ▸ List.mem_append_right _ List.mem_cons_self
  have chosen : siteFor? (calls.flatMap (callSlots c)) template count (c.lineOf call) =
      (calls.find? (standsAt c template count (c.lineOf call))).bind (siteOf? c) := by
    obtain ⟨site, found, fits⟩ := (Option.any_eq_true _ _).mp ((siteStands (accepted call mem) some).trans stands)
    obtain ⟨fits, place⟩ := (Bool.and_eq_true _ _).mp fits
    have candidate : site ∈ sitesOf (calls.flatMap (callSlots c)) :=
      sites ▸ List.mem_filterMap.mpr ⟨call, mem, found⟩
    rw [siteOnLine ⟨site, candidate, fits, by simpa using place⟩, sites, List.find?_filterMap]
    exact congrArg (Option.bind · (siteOf? c)) (List.find?_congr fun other h => siteStands (accepted other h) some)
  obtain ⟨first, found⟩ : ∃ first, calls.find? (standsAt c template count (c.lineOf call)) = .some first :=
    Option.isSome_iff_exists.mp (List.find?_isSome.mpr ⟨call, mem, stands⟩)
  have inside := List.mem_of_find?_eq_some found
  obtain ⟨site, given, slots⟩ := siteOwn (accepted first inside) some (List.find?_some found)
  refine ⟨site, first, by rw [chosen, found, Option.bind_some, given], found, slots, fun others => ?_⟩
  have none : before.find? (standsAt c template count (c.lineOf call)) = .none :=
    List.find?_eq_none.mpr fun other h => by simp [others other h]
  rw [whole, List.find?_append, none, Option.none_or, List.find?_cons_of_pos stands] at found
  exact (Option.some.inj found).symm

def boldTemplate : String := "<b>\x7b\x7d</b>"

def boldSource : String :=
  "def render(self, ctx):\n    a = ctx.html('<b>\x7b\x7d</b>', self.a)\n" ++
    "    return ctx.html('<b>\x7b\x7d</b>', self.b) + ctx.html('<b>\x7b\x7d</b>', self.c)\n"

def boldSlots : List Slot :=
  [{ signals := ["a"], source := "this.a", expression := "self.a", template := boldTemplate, line := 2 },
   { signals := ["b"], source := "this.b", expression := "self.b", template := boldTemplate, line := 3 },
   { signals := ["c"], source := "this.c", expression := "self.c", template := boldTemplate, line := 3 }]

example : (siteFor? boldSlots boldTemplate 1 9).map (·.slots) = some ((boldSlots.drop 1).take 1) := by decide +kernel

theorem boldAnalyzed : ∃ notes, outcome (analyzeSource boldSource 1 none "html") [] = (.ok boldSlots, notes) := by
  have evaluated : (outcome (analyzeSource boldSource 1 none "html") []).1.toOption = some boldSlots := by
    have listed : boldSource.toList = _ := listedAppend (listedText rfl) rfl
    rw [analyzeListed listed rfl]
    decide +kernel
  generalize outcome (analyzeSource boldSource 1 none "html") [] = ended at evaluated ⊢
  obtain ⟨_ | slots, notes⟩ := ended
  · cases evaluated
  · cases evaluated
    exact ⟨notes, rfl⟩

theorem boldCalls {calls : List Call} (read : methodCalls? boldSource 1 none "html" = some (c, calls)) :
    ∃ first second third, calls = [first, second, third] ∧
      (∀ call ∈ calls, call.literal? "html" = some (boldTemplate, 1)) ∧
      c.scope.tag = "html" ∧ c.lineOf first = 2 ∧ c.lineOf second = 3 ∧ c.lineOf third = 3 ∧
      (slotsOfCall c third).toOption = some (boldSlots.drop 2) := by
  have evaluated : (methodCalls? boldSource 1 none "html").all (fun p =>
      p.1.scope.tag = "html" ∧ p.2.map (fun call => (call.literal? "html", p.1.lineOf call, (slotsOfCall p.1 call).toOption)) =
        [(some (boldTemplate, 1), 2, some (boldSlots.take 1)),
          (some (boldTemplate, 1), 3, some ((boldSlots.drop 1).take 1)),
          (some (boldTemplate, 1), 3, some (boldSlots.drop 2))]) = true := by
    have listed : boldSource.toList = _ := listedAppend (listedText rfl) rfl
    rw [callsListed listed rfl]
    decide +kernel
  rw [read] at evaluated
  obtain ⟨tag, listed⟩ := of_decide_eq_true evaluated
  obtain ⟨first, rest, rfl, one, listed⟩ := List.map_eq_cons_iff.mp listed
  obtain ⟨second, rest, rfl, two, listed⟩ := List.map_eq_cons_iff.mp listed
  obtain ⟨third, rest, rfl, three, listed⟩ := List.map_eq_cons_iff.mp listed
  obtain rfl := List.map_eq_nil_iff.mp listed
  simp only [Prod.mk.injEq] at one two three
  refine ⟨first, second, third, rfl, ?_, tag, one.2.1, two.2.1, three.2.1, three.2.2⟩
  simp only [List.forall_mem_cons, one.1, two.1, three.1, true_and]
  exact fun _ h => absurd h List.not_mem_nil

theorem boldMatched :
    ∃ notes c calls call site, outcome (analyzeSource boldSource 1 none "html") [] = (.ok boldSlots, notes) ∧
      methodCalls? boldSource 1 none "html" = some (c, calls) ∧ calls[1]? = some call ∧
      call.literal? "html" = some (boldTemplate, 1) ∧ (1 : Nat) ≠ 0 ∧
      siteFor? boldSlots boldTemplate 1 (c.lineOf call) = some site ∧ slotsOfCall c call = .ok site.slots := by
  obtain ⟨notes, analyzed⟩ := boldAnalyzed
  obtain ⟨c, calls, read, matched⟩ := callMatched analyzed
  obtain ⟨first, second, third, rfl, literal, _, line, line', _⟩ := boldCalls read
  have constant := literal second (by simp)
  obtain ⟨site, found, given, _, slots, own⟩ :=
    matched [first] second [third] boldTemplate 1 rfl constant Nat.one_ne_zero
  have other : ∀ call ∈ [first], standsAt c boldTemplate 1 (c.lineOf second) call = false := by
    refine List.forall_mem_singleton.mpr ?_
    rw [standsAt, line, line']
    exact Bool.and_false _
  rw [own other] at slots
  exact ⟨notes, c, _, second, site, analyzed, read, rfl, constant, Nat.one_ne_zero, given, slots⟩

/-- The third call shares template and line with the second, and is given the second's slots. -/
theorem lineShared :
    ∃ notes c calls call site own, outcome (analyzeSource boldSource 1 none "html") [] = (.ok boldSlots, notes) ∧
      methodCalls? boldSource 1 none "html" = some (c, calls) ∧ calls[2]? = some call ∧
      call.literal? "html" = some (boldTemplate, 1) ∧
      siteFor? boldSlots boldTemplate 1 (c.lineOf call) = some site ∧ slotsOfCall c call = .ok own ∧
      site.slots.map (·.signals) = [["b"]] ∧ own.map (·.signals) = [["c"]] := by
  obtain ⟨notes, analyzed⟩ := boldAnalyzed
  obtain ⟨c, calls, read, _⟩ := methodRead analyzed
  obtain ⟨first, second, third, rfl, literal, _, _, _, line, slots⟩ := boldCalls read
  have given : siteFor? boldSlots boldTemplate 1 3 = some ⟨boldTemplate, 3, (boldSlots.drop 1).take 1⟩ := by
    decide +kernel
  obtain ⟨own, is⟩ : ∃ own, slotsOfCall c third = .ok own := by
    cases is : slotsOfCall c third with
    | error e =>
      rw [is] at slots
      cases slots
    | ok own => exact ⟨own, rfl⟩
  rw [is] at slots
  obtain rfl := Option.some.inj slots
  exact ⟨notes, c, _, third, _, _, analyzed, read, rfl, literal third (by simp), line ▸ given, is, rfl, rfl⟩

end Matched

end LiveMarkup.Render
