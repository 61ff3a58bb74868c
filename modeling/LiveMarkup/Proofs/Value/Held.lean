import LiveMarkup.Value.Equal
import LiveMarkup.Value.Sum
/-! The finished markup that values hold, wherever it stands in them. What is made of values holds no other
markup than they do, but for sums, which join it. -/
namespace LiveMarkup

structure Finished where
  output : String
  body : String

mutual

def Value.held : Value → List Finished
  | .list items | .tuple items | .generator items | .set items => Value.heldAll items
  | .dict entries => Value.heldEntries entries
  | .promise url options _ => url.held ++ (match options with | some o => o.held | none => [])
  | .component c => c.held
  | .markup s | .safe s => [⟨s, s⟩]
  | .rendered output body _ => [⟨output, body⟩]
  | _ => []

def Value.heldAll : List Value → List Finished
  | [] => []
  | v :: rest => v.held ++ Value.heldAll rest

def Value.heldEntries : List (Value × Value) → List Finished
  | [] => []
  | (k, v) :: rest => k.held ++ v.held ++ Value.heldEntries rest

def Value.heldFields : List (String × Value) → List Finished
  | [] => []
  | (_, v) :: rest => v.held ++ Value.heldFields rest

def Component.held : Component → List Finished
  | .mk _ fields _ _ _ steps returns =>
    Value.heldFields fields ++ Step.heldAll steps ++ (match returns with | some r => r.held | none => [])

def Step.held : Step → List Finished
  | .mk _ values _ _ => Recipe.heldAll values

def Step.heldAll : List Step → List Finished
  | [] => []
  | s :: rest => s.held ++ Step.heldAll rest

def Recipe.held : Recipe → List Finished
  | .value v => v.held
  | .list items | .tuple items | .generator items | .set items => Recipe.heldAll items
  | .dict entries => Recipe.heldEntries entries
  | .promise url options _ => url.held ++ (match options with | some o => o.held | none => [])
  | .component c fields => c.held ++ Recipe.heldFields fields
  | .add left right => left.held ++ right.held
  | .html s => s.held
  | _ => []

def Recipe.heldAll : List Recipe → List Finished
  | [] => []
  | r :: rest => r.held ++ Recipe.heldAll rest

def Recipe.heldEntries : List (Recipe × Recipe) → List Finished
  | [] => []
  | (k, v) :: rest => k.held ++ v.held ++ Recipe.heldEntries rest

def Recipe.heldFields : List (String × Recipe) → List Finished
  | [] => []
  | (_, r) :: rest => r.held ++ Recipe.heldFields rest

end

section Holds

variable {P : String → Prop} {ps qs : List Finished} {v w : Value} {vs : List Value} {entries : List (Value × Value)}
  {fields : List (String × Value)} {c : Component}

def Holds (P : String → Prop) (ps : List Finished) : Prop := ∀ p ∈ ps, P p.output ∧ P p.body

theorem holdsNone : Holds P [] := fun _ mem => absurd mem List.not_mem_nil

theorem holdsOne {s : String} (h : P s) : Holds P [⟨s, s⟩] := List.forall_mem_singleton.mpr ⟨h, h⟩

theorem holdsAppend : Holds P (ps ++ qs) ↔ Holds P ps ∧ Holds P qs := List.forall_mem_append

theorem holdsMore {Q : String → Prop} (more : ∀ s, P s → Q s) (h : Holds P ps) : Holds Q ps :=
  fun p mem => ⟨more _ (h p mem).1, more _ (h p mem).2⟩

theorem holdsAll : Holds P (Value.heldAll vs) ↔ ∀ v ∈ vs, Holds P v.held := by
  induction vs with
  | nil => exact ⟨fun _ _ mem => absurd mem List.not_mem_nil, fun _ => holdsNone⟩
  | cons v rest ih => rw [Value.heldAll, holdsAppend, ih, List.forall_mem_cons]

theorem holdsEntries : Holds P (Value.heldEntries entries) ↔ ∀ e ∈ entries, Holds P e.1.held ∧ Holds P e.2.held := by
  induction entries with
  | nil => exact ⟨fun _ _ mem => absurd mem List.not_mem_nil, fun _ => holdsNone⟩
  | cons e rest ih => rw [Value.heldEntries, holdsAppend, holdsAppend, ih, List.forall_mem_cons]

theorem holdsFields : Holds P (Value.heldFields fields) ↔ ∀ field ∈ fields, Holds P field.2.held := by
  induction fields with
  | nil => exact ⟨fun _ _ mem => absurd mem List.not_mem_nil, fun _ => holdsNone⟩
  | cons field rest ih => rw [Value.heldFields, holdsAppend, ih, List.forall_mem_cons]

theorem componentHolds : Holds P c.held ↔ Holds P (Value.heldFields c.fields) ∧ Holds P (Step.heldAll c.steps) ∧
    ∀ r ∈ c.returns?, Holds P r.held := by
  obtain ⟨_, fields, _, _, _, steps, _ | r⟩ := c
  all_goals simp [Component.held, holdsAppend, Component.returns?, Component.fields, Component.steps]

theorem withFieldsHolds (own : Holds P c.held) (given : Holds P (Value.heldFields fields)) :
    Holds P (c.withFields fields).held :=
  componentHolds.mpr ⟨given, (componentHolds.mp own).2⟩

theorem inheritedHolds {name : String} (found : Component.inherited? name = some v) : Holds P v.held := by
  unfold Component.inherited? at found
  repeat' split at found
  all_goals cases found
  all_goals exact holdsNone

theorem getHolds {name : String} (own : Holds P (Value.heldFields c.fields)) (found : c.get? name = some v) :
    Holds P v.held := by
  unfold Component.get? at found
  split at found
  · next field =>
    cases found
    exact holdsFields.mp own _ (List.mem_of_find?_eq_some field)
  · split at found
    · cases found
      refine holdsEntries.mpr (List.forall_mem_map.mpr fun field mem => ⟨holdsNone, ?_⟩)
      exact holdsFields.mp own field mem
    · exact inheritedHolds found

theorem insertHolds (key : Holds P v.held) (value : Holds P w.held) (done : Holds P (Value.heldEntries entries)) :
    Holds P (Value.heldEntries (Value.insert v w entries)) := by
  rw [holdsEntries] at done ⊢
  induction entries with
  | nil => exact List.forall_mem_singleton.mpr ⟨key, value⟩
  | cons e rest ih =>
    obtain ⟨⟨own, held⟩, others⟩ := List.forall_mem_cons.mp done
    rw [Value.insert]
    split
    · exact List.forall_mem_cons.mpr ⟨⟨own, value⟩, others⟩
    · exact List.forall_mem_cons.mpr ⟨⟨own, held⟩, ih others⟩

theorem adjoinMember (mem : w ∈ Value.adjoin v vs) : w = v ∨ w ∈ vs := by
  induction vs with
  | nil => exact .inl (List.mem_singleton.mp mem)
  | cons u rest ih =>
    have later (mem : w ∈ u :: Value.adjoin v rest) : w = v ∨ w ∈ u :: rest := by
      rcases List.mem_cons.mp mem with rfl | mem
      · exact .inr List.mem_cons_self
      · exact (ih mem).imp_right (List.mem_cons_of_mem u)
    unfold Value.adjoin at mem
    split at mem
    · exact .inr mem
    · split at mem
      · split at mem
        · exact List.mem_cons.mp mem
        · exact later mem
      · exact later mem

theorem setMember {done : List Value} (mem : w ∈ vs.foldl (fun done v => Value.adjoin v done) done) :
    w ∈ done ∨ w ∈ vs := by
  induction vs generalizing done with
  | nil => exact .inl mem
  | cons v rest ih =>
    rcases ih mem with mem | mem
    · exact (adjoinMember mem).elim (fun same => .inr (same ▸ List.mem_cons_self)) .inl
    · exact .inr (List.mem_cons_of_mem v mem)

theorem safeHolds {s : String} (h : Holds P v.held) (safe : v.safeHtml? = some s) : P s := by
  unfold Value.safeHtml? at safe
  split at safe
  all_goals cases safe
  all_goals exact (h _ List.mem_cons_self).1

theorem asMarkupHolds {s : String} (escapes : ∀ s, P (Markup.escapeQuotes s)) (h : Holds P v.held)
    (is : v.asMarkup? = some s) : P s := by
  unfold Value.asMarkup? at is
  split at is
  · cases is
    exact escapes _
  · exact safeHolds h is

theorem addPlainHolds {sum : Value} (hv : Holds P v.held) (hw : Holds P w.held) (h : v.addPlain w = .ok sum) :
    Holds P sum.held := by
  have joined {vs ws : List Value} (hv : Holds P (Value.heldAll vs)) (hw : Holds P (Value.heldAll ws)) :
      Holds P (Value.heldAll (vs ++ ws)) :=
    holdsAll.mpr (List.forall_mem_append.mpr ⟨holdsAll.mp hv, holdsAll.mp hw⟩)
  unfold Value.addPlain at h
  split at h
  case h_2 => exact Except.ok.inj h ▸ joined hv hw
  case h_3 => exact Except.ok.inj h ▸ joined hv hw
  case h_9 =>
    repeat' split at h
    all_goals cases h
    all_goals exact holdsNone
  all_goals cases h
  all_goals exact holdsNone

theorem addHolds {sum : Value} (escapes : ∀ s, P (Markup.escapeQuotes s)) (joins : ∀ s t, P s → P t → P (s ++ t))
    (hv : Holds P v.held) (hw : Holds P w.held) (h : v.add w = .ok sum) : Holds P sum.held := by
  unfold Value.add at h
  split at h
  · split at h
    · next s t left right =>
      cases h
      have both := joins s t (asMarkupHolds escapes hv left) (asMarkupHolds escapes hw right)
      unfold Value.markupLike
      split
      · exact holdsOne both
      · exact holdsOne both
    · exact addPlainHolds hv hw h
  · exact addPlainHolds hv hw h

end Holds

end LiveMarkup
