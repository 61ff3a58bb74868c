import Mathlib.Logic.Function.Basic
import LiveMarkup.Proofs.Analysis.Nesting
import LiveMarkup.Proofs.Render.Sites
import LiveMarkup.Proofs.Render.Walk
/-! The index of a method's slots by template. An analysis is a sequence of complete sites, and the index
has each of them in its place. -/
namespace LiveMarkup.Template

variable {s : List Char} {texts : List (List Char)}

theorem segmentsSome (h : segments s = .ok texts) : texts ≠ [] := by
  have first {c : Char} {ss : List (List Char)} : consFirst c ss ≠ [] := by cases ss <;> simp [consFirst]
  unfold segments at h
  split at h
  · cases h
    simp
  all_goals first
    | cases h
    | (obtain ⟨rest, _, rfl⟩ := mapOk.mp h; first | exact first | exact List.cons_ne_nil _ _)

end LiveMarkup.Template

namespace LiveMarkup.Render
open Analysis

section Gathering

abbrev Index := String → List Site

def Index.add? (index : Index) (s : Slot) : Option Index :=
  if s.slot = 0 then
    some (Function.update index s.template (index s.template ++ [⟨s.template, s.line, [s]⟩]))
  else
    (index s.template).getLast?.map fun site =>
      Function.update index s.template
        ((index s.template).dropLast ++ [{ site with slots := site.slots ++ [s] }])

def indexed? (slots : List Slot) : Option Index := slots.foldlM Index.add? fun _ => []

variable {template : String} {line : Int} {n : Nat} {s : Slot} {index : Index} {before : List Site}
  {seen block : List Slot}

theorem siteGrows (placed : Placed template line (n + 1) block) :
    block.foldlM Index.add? (Function.update index template (before ++ [⟨template, line, seen⟩])) =
      some (Function.update index template (before ++ [⟨template, line, seen ++ block⟩])) := by
  induction block generalizing n seen with
  | nil => simp
  | cons s block ih =>
    cases placed with
    | cons number text place tail =>
    have joins : Index.add? (Function.update index template (before ++ [⟨template, line, seen⟩])) s =
        some (Function.update index template (before ++ [⟨template, line, seen ++ [s]⟩])) := by
      simp [Index.add?, number, text]
    rw [List.foldlM_cons, joins]
    exact (ih tail).trans (by simp)

theorem siteAdded (placed : Placed template line 0 (s :: block)) :
    (s :: block).foldlM Index.add? index =
      some (Function.update index template (index template ++ [⟨template, line, s :: block⟩])) := by
  cases placed with
  | cons number text place tail =>
  have begins : Index.add? index s =
      some (Function.update index template (index template ++ [⟨template, line, [s]⟩])) := by
    simp [Index.add?, number, text, place]
  rw [List.foldlM_cons, begins]
  exact siteGrows tail

end Gathering

section Blocks

def hasTemplate (tag template : String) (call : Call) : Bool :=
  (call.literal? tag).any (·.1 == template)

def blockOf (c : Context) (template : String) (call : Call) : Site :=
  ⟨template, c.lineOf call, callSlots c call⟩

def blocksUnder (c : Context) (calls : List Call) (template : String) : List Site :=
  ((calls.filter (hasTemplate c.scope.tag template)).map (blockOf c template)).filter (!·.slots.isEmpty)

/-- The block of a call has all slots of the template, in order. -/
structure Complete (c : Context) (call : Call) (template : String) (count : Nat) : Prop where
  texts : ∃ texts, Template.split template = .ok texts ∧ texts.length = count + 1
  placed : Placed template (c.lineOf call) 0 (callSlots c call)
  length : (callSlots c call).length = count

variable {c : Context} {call : Call} {calls : List Call} {template : String} {count : Nat} {index : Index}

theorem literalIs (literal : call.literal? c.scope.tag = some (template, count)) :
    call.isTemplateCall c.scope.tag = true := by
  refine Decidable.byContradiction fun other => ?_
  rw [Call.literal?, if_neg other] at literal
  cases literal

theorem callComplete (accepted : Accepted c call) (literal : call.literal? c.scope.tag = some (template, count)) :
    Complete c call template count := by
  have is := literalIs literal
  have placed := slotsPlaced accepted
  rw [literal] at placed
  obtain ⟨first, values, args, ⟨dynamic, _⟩ | ⟨_, segments, constant, split, same, _⟩⟩ :=
    siteRead (Prod.ext (accepted is) rfl)
  · rw [literalOf is args, dynamic] at literal
    cases literal
  · rw [literalOf is args, constant] at literal
    cases literal
    refine ⟨⟨segments, split, ?_⟩, placed.1, placed.2⟩
    obtain ⟨texts, cut, rfl⟩ := mapOk.mp split
    have some := List.length_pos_iff.mpr (Template.segmentsSome cut)
    rw [List.length_map] at same ⊢
    omega

theorem noneUnder (slots : callSlots c call = []) : blocksUnder c [call] template = [] := by
  cases has : hasTemplate c.scope.tag template call <;> simp [blocksUnder, has, blockOf, slots]

theorem onlyUnder {text : String} (literal : call.literal? c.scope.tag = some (text, count))
    (some : callSlots c call ≠ []) :
    blocksUnder c [call] template = if template = text then [blockOf c text call] else [] := by
  have has : hasTemplate c.scope.tag template call = decide (template = text) := by
    simp [hasTemplate, literal, beq_eq_decide, eq_comm]
  by_cases same : template = text
  · subst same
    simp [blocksUnder, has, blockOf, some]
  · simp [blocksUnder, has, same]

theorem underCons : blocksUnder c (call :: calls) template = blocksUnder c [call] template ++ blocksUnder c calls template := by
  rw [blocksUnder, ← List.singleton_append, List.filter_append, List.map_append, List.filter_append]
  rfl

theorem callAdded (accepted : Accepted c call) : (callSlots c call).foldlM Index.add? index =
    some fun template => index template ++ blocksUnder c [call] template := by
  have placed := slotsPlaced accepted
  have unchanged (empty : callSlots c call = []) : (callSlots c call).foldlM Index.add? index =
      some fun template => index template ++ blocksUnder c [call] template := by
    simp [empty, noneUnder]
  split at placed
  · next text count literal =>
    cases slots : callSlots c call with
    | nil => exact slots ▸ unchanged slots
    | cons s block =>
      rw [slots] at placed
      rw [siteAdded placed.1]
      refine congrArg some (funext fun template => ?_)
      rw [onlyUnder literal (by simp [slots]), blockOf, slots]
      by_cases same : template = text
      · subst same
        simp
      · simp [same]
  · exact unchanged placed

theorem callsAdded (accepted : ∀ call ∈ calls, Accepted c call) :
    (calls.flatMap (callSlots c)).foldlM Index.add? index =
      some fun template => index template ++ blocksUnder c calls template := by
  induction calls generalizing index with
  | nil => simp [blocksUnder]
  | cons call rest ih =>
    obtain ⟨here, later⟩ := List.forall_mem_cons.mp accepted
    rw [List.flatMap_cons, List.foldlM_append, callAdded here, Option.bind_eq_bind, Option.bind_some, ih later]
    refine congrArg some (funext fun template => ?_)
    rw [List.append_assoc, ← underCons]

theorem siteUnder (accepted : Accepted c call) :
    (siteOf? c call).toList.filter (·.template == template) = blocksUnder c [call] template := by
  have placed := slotsPlaced accepted
  rw [siteOf?]
  split at placed
  · next text count literal =>
    cases slots : callSlots c call with
    | nil => exact (noneUnder slots).symm
    | cons s block =>
      rw [onlyUnder literal (by simp [slots]), blockOf, slots]
      rw [slots] at placed
      cases placed.1 with
      | cons number same place tail =>
      subst same
      by_cases other : s.template = template
      · simp [other, place]
      · simp [other, Ne.symm other]
  · next literal => rw [noneUnder placed, placed]; rfl

theorem sitesUnder (accepted : ∀ call ∈ calls, Accepted c call) :
    (sitesOf (calls.flatMap (callSlots c))).filter (·.template == template) = blocksUnder c calls template := by
  rw [sitesByCall accepted]
  induction calls with
  | nil => rfl
  | cons call rest ih =>
    obtain ⟨here, later⟩ := List.forall_mem_cons.mp accepted
    rw [underCons, ← ih later, ← siteUnder here]
    cases given : siteOf? c call <;> simp [given, List.filter_cons]
    split <;> simp

theorem siteChosen {slots : List Slot} {line : Int}
    (here : ∃ site ∈ sitesOf slots, site.fits template count = true) :
    ∃ site ∈ sitesOf slots, site.fits template count = true ∧ siteFor? slots template count line = some site := by
  obtain ⟨known, mem, fits⟩ := here
  have some : siteFor? slots template count line ≠ none := by
    have candidate := List.mem_filter.mpr ⟨mem, fits⟩
    intro missing
    unfold siteFor? at missing
    simp only at missing
    split at missing
    · next none => rw [show (sitesOf slots).filter (·.fits template count) = [] from none] at candidate; cases candidate
    · split at missing
      · cases missing
      · split at missing <;> cases missing
  obtain ⟨site, found⟩ := Option.ne_none_iff_exists'.mp some
  obtain ⟨mem, fits⟩ := List.mem_filter.mp (siteFound found)
  exact ⟨site, mem, fits, found⟩

end Blocks

section Runs

variable {f : Factory} {s : State} {c : Context} {call : Call} {calls : List Call} {template : String}
  {values : List Value} {line : Int}

/-- A call with that template passes the count of its values, and gets one slot for each of them: those of a
site under the template. -/
structure Passes (f : Factory) (s : State) (sites : List Site) (template : String) (values : List Value)
    (line : Int) (given : List Slot) : Prop where
  length : given.length = values.length
  site : given ≠ [] → ∃ site ∈ sites, given = site.slots
  filled : ∃ texts, Template.split template = .ok texts ∧ texts.length = values.length + 1 ∧
    out (filled template values line) f s =
      out (fill f (texts.headD "") values (given.map some) (texts.drop 1)) f s

theorem outFilled {texts : List String} (split : Template.split template = .ok texts)
    (count : texts.length = values.length + 1) : out (filled template values line) f s =
      out (fill f (texts.headD "") values (knownSlots f template values line) (texts.drop 1)) f s := by
  have same : ¬texts.length - 1 ≠ values.length := by omega
  rw [filled, outBind, outRead]
  simp only [split]
  rw [outBind, show out (pure texts) f s = (.ok texts, s) from rfl]
  simp only [if_neg same]

theorem callPasses (accepted : ∀ call ∈ calls, Accepted c call) (mem : call ∈ calls)
    (literal : call.literal? c.scope.tag = some (template, values.length))
    (own : f.slots = calls.flatMap (callSlots c)) :
    ∃ given, Passes f s (blocksUnder c calls template) template values line given := by
  obtain ⟨⟨texts, split, count⟩, placed, length⟩ := callComplete (accepted call mem) literal
  have filled := @outFilled f s template values line texts split count
  cases values with
  | nil =>
    have none : knownSlots f template [] line = [] := List.length_eq_zero_iff.mp knownLength
    rw [none] at filled
    exact ⟨[], rfl, fun some => absurd rfl some, texts, split, count, filled⟩
  | cons v rest =>
    have stands := standsAccepted template call rfl literal
    obtain ⟨own?, made, fits⟩ := (Option.any_eq_true _ _).mp
      ((siteStands (accepted call mem) (Nat.succ_ne_zero _)).trans stands)
    have known : own? ∈ sitesOf f.slots := by
      rw [own, sitesByCall accepted]
      exact List.mem_filterMap.mpr ⟨call, mem, made⟩
    obtain ⟨site, inside, fits, found⟩ :=
      @siteChosen template (v :: rest).length f.slots line ⟨own?, known, ((Bool.and_eq_true _ _).mp fits).1⟩
    obtain ⟨text, length⟩ : (site.template == template) = true ∧ (site.slots.length == (v :: rest).length) = true :=
      (Bool.and_eq_true _ _).mp fits
    have given : knownSlots f template (v :: rest) line = site.slots.map some := by rw [knownSlots, found]
    rw [given] at filled
    refine ⟨site.slots, by simpa using length, fun _ => ⟨site, ?_, rfl⟩, texts, split, count, filled⟩
    rw [← sitesUnder accepted, ← own]
    exact List.mem_filter.mpr ⟨inside, text⟩

/-- An analysis is a sequence of complete sites, one for each template call with a text constant, an outer call
before those in it. The index of its slots has under each template its sites, and a call of the template with as
many values as the site has slots gets one slot for each value. -/
theorem sitesComplete {source tag : String} {firstLine : Int} {file : Option String} {notes notes' : List Note}
    {slots : List Slot} (analyzed : outcome (analyzeSource source firstLine file tag) notes = (.ok slots, notes')) :
    ∃ c calls index, methodCalls? source firstLine file tag = some (c, calls) ∧ OuterFirst calls ∧
      slots = (calls.filter fun call => (call.literal? tag).isSome).flatMap (callSlots c) ∧
      (∀ call ∈ calls, ∀ template count, call.literal? tag = some (template, count) →
        Complete c call template count) ∧
      indexed? slots = some index ∧
      (∀ template, index template = blocksUnder c calls template ∧
        index template = (sitesOf slots).filter (·.template == template)) ∧
      ∀ call ∈ calls, ∀ template values line f s, call.literal? tag = some (template, values.length) →
        f.slots = slots → ∃ given, Passes f s (index template) template values line given := by
  obtain ⟨c, calls, read, own, ran⟩ := methodRead analyzed
  have nested : OuterFirst calls := by
    unfold methodCalls? at read
    simp only at read
    split at read
    · cases read
    · obtain ⟨_, _, same⟩ := Option.map_eq_some_iff.mp read
      cases same
      exact blockOuter _
  subst own
  obtain ⟨rfl, accepted⟩ := slotsByCall ran
  have index := @callsAdded _ _ (fun _ => []) accepted
  refine ⟨c, calls, _, read, nested, ?_, fun call mem _ _ => callComplete (accepted call mem), index, fun template => ?_,
    fun call mem template values line f s literal own => ?_⟩
  · clear ran read nested index analyzed
    induction calls with
    | nil => rfl
    | cons call rest ih =>
      obtain ⟨here, later⟩ := List.forall_mem_cons.mp accepted
      rw [List.flatMap_cons, ih later]
      cases literal : call.literal? c.scope.tag with
      | some p => rw [List.filter_cons_of_pos (by simp [literal]), List.flatMap_cons]
      | none =>
        have none := slotsPlaced here
        rw [literal] at none
        rw [List.filter_cons_of_neg (by simp [literal]), none, List.nil_append]
  · rw [List.nil_append, sitesUnder accepted]
    exact ⟨rfl, rfl⟩
  · rw [List.nil_append]
    exact callPasses accepted mem literal own

def pairTemplate : String := "<b>\x7b\x7d\x7b\x7d</b>"

def pairSource : String :=
  "def render(self, ctx):\n    return ctx.html('<b>\x7b\x7d\x7b\x7d</b>', " ++
    "ctx.html('<b>\x7b\x7d\x7b\x7d</b>', self.a, 1), self.b)\n"

theorem pairComplete :
    ∃ slots notes calls index, outcome (analyzeSource pairSource 1 none "html") [] = (.ok slots, notes) ∧
      OuterFirst calls ∧ indexed? slots = some index ∧
      (index pairTemplate).map (·.slots.map (·.expression)) =
        [["ctx.html('<b>\x7b\x7d\x7b\x7d</b>', self.a, 1)", "self.b"], ["self.a", "1"]] ∧
      ∃ call ∈ calls, call.literal? "html" = some (pairTemplate, 2) ∧
        ∀ f s, f.slots = slots → ∃ given, Passes f s (index pairTemplate) pairTemplate [.whole 3, .whole 1] 2 given := by
  have listed : pairSource.toList = _ := listedAppend (listedText rfl) rfl
  have evaluated : (outcome (analyzeSource pairSource 1 none "html") []).1.toOption.map (fun slots =>
      ((sitesOf slots).filter (·.template == pairTemplate)).map (·.slots.map (·.expression))) =
        some [["ctx.html('<b>\x7b\x7d\x7b\x7d</b>', self.a, 1)", "self.b"], ["self.a", "1"]] := by
    rw [analyzeListed listed rfl]
    decide +kernel
  have literals : (methodCalls? pairSource 1 none "html").map (fun p => p.2.map (·.literal? "html")) =
      some [some (pairTemplate, 2), some (pairTemplate, 2)] := by
    rw [callsListed listed rfl]
    decide +kernel
  obtain ⟨slots, given, sites⟩ := Option.map_eq_some_iff.mp evaluated
  have ok : ∃ notes, outcome (analyzeSource pairSource 1 none "html") [] = (.ok slots, notes) := by
    generalize outcome (analyzeSource pairSource 1 none "html") [] = ended at given ⊢
    obtain ⟨_ | slots, notes⟩ := ended <;> cases given
    exact ⟨notes, rfl⟩
  obtain ⟨notes, analyzed⟩ := ok
  obtain ⟨_, calls, index, read, nested, _, _, gathered, listed, passes⟩ := sitesComplete analyzed
  rw [read] at literals
  obtain ⟨call, mem, literal⟩ : ∃ call ∈ calls, call.literal? "html" = some (pairTemplate, 2) := by
    have two : calls.map (·.literal? "html") = [some (pairTemplate, 2), some (pairTemplate, 2)] := by
      simpa using literals
    exact List.mem_map.mp (two ▸ List.mem_cons_self)
  exact ⟨slots, notes, calls, index, analyzed, nested, gathered, (listed pairTemplate).2 ▸ sites, call, mem, literal,
    fun f s own => passes call mem pairTemplate [.whole 3, .whole 1] 2 f s literal own⟩

end Runs

end LiveMarkup.Render
