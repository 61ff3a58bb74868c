import LiveMarkup.Client.Script
import LiveMarkup.Proofs.Client.Forms
/-! The fields that a script declares: all that its records name. -/
namespace LiveMarkup.Client

variable {c : Component} {r : Records} {text name : String}

theorem memDistinct {items : List String} {f : String} : f ∈ distinct items ↔ f ∈ items := by
  have seen (items seen : List String) : f ∈ items.foldl
      (fun seen s => if seen.contains s then seen else seen ++ [s]) seen ↔ f ∈ seen ∨ f ∈ items := by
    induction items generalizing seen with
    | nil => simp
    | cons a rest ih =>
      rw [List.foldl_cons, ih]
      split
      · next known =>
        have member : a ∈ seen := by simpa using known
        simp only [List.mem_cons]
        constructor
        · rintro (h | h)
          · exact .inl h
          · exact .inr (.inr h)
        · rintro (h | rfl | h)
          · exact .inl h
          · exact .inl member
          · exact .inr h
      · simp only [List.mem_append, List.mem_cons, List.not_mem_nil, or_false, or_assoc]
  exact (seen items []).trans (by simp)

section Distinct

variable {items more seen : List String}

def addDistinct (seen items : List String) : List String :=
  items.foldl (fun seen s => if seen.contains s then seen else seen ++ [s]) seen

theorem addNodup (h : seen.Nodup) : (addDistinct seen items).Nodup := by
  induction items generalizing seen with
  | nil => exact h
  | cons a rest ih =>
    rw [addDistinct, List.foldl_cons]
    split
    · exact ih h
    · next new =>
      have apart : a ∉ seen := by simpa using new
      exact ih (List.nodup_append.mpr ⟨h, List.nodup_cons.mpr ⟨List.not_mem_nil, List.nodup_nil⟩, fun b hb c hc same =>
        apart (List.mem_singleton.mp hc ▸ same ▸ hb)⟩)

theorem addKnown (h : ∀ a ∈ items, a ∈ seen) : addDistinct seen items = seen := by
  induction items with
  | nil => rfl
  | cons a rest ih =>
    have known : seen.contains a = true := by simpa using h a List.mem_cons_self
    rw [addDistinct, List.foldl_cons, if_pos known]
    exact ih fun b hb => h b (List.mem_cons_of_mem _ hb)

theorem addNew (h : (seen ++ items).Nodup) : addDistinct seen items = seen ++ items := by
  induction items generalizing seen with
  | nil => exact (List.append_nil seen).symm
  | cons a rest ih =>
    have new : ¬seen.contains a = true := by
      intro known
      exact (List.nodup_append.mp h).2.2 a (by simpa using known) a List.mem_cons_self rfl
    rw [addDistinct, List.foldl_cons, if_neg new, ← addDistinct, ih, List.append_assoc, List.singleton_append]
    rwa [List.append_assoc, List.singleton_append]

theorem distinctKnown (h : ∀ a ∈ more, a ∈ items) : distinct (distinct items ++ more) = distinct items := by
  have once : addDistinct [] (distinct items) = distinct items := addNew (addNodup List.nodup_nil)
  have joined : distinct (distinct items ++ more) = addDistinct (addDistinct [] (distinct items)) more :=
    List.foldl_append
  rw [joined, once, addKnown]
  exact fun a ha => memDistinct.mpr (h a ha)

end Distinct

def Records.sources (r : Records) : List (String × List String) :=
  r.bindings.map (fun b => (b.source, b.signals)) ++
    (r.handlers.map (fun h => (h.source, h.writes ++ h.signals)) ++
      r.asyncBindings.flatMap fun a =>
        (a.promise :: a.thenCallback :: a.catchCallback?.toList).map fun source => (source, a.fields))

theorem sourceFields : ∀ p ∈ r.sources, ∀ f ∈ p.2, f ∈ r.mentions := by
  intro p hp f hf
  rw [Records.mentions, List.mem_append, List.mem_append, List.mem_append]
  rcases List.mem_append.mp hp with hp | hp
  · obtain ⟨b, hb, rfl⟩ := List.mem_map.mp hp
    exact .inl (.inl (.inl (List.mem_flatMap.mpr ⟨b, hb, hf⟩)))
  rcases List.mem_append.mp hp with hp | hp
  · obtain ⟨h, hh, rfl⟩ := List.mem_map.mp hp
    rcases List.mem_append.mp hf with hf | hf
    · exact .inl (.inl (.inr (List.mem_flatMap.mpr ⟨h, hh, hf⟩)))
    · exact .inl (.inr (List.mem_flatMap.mpr ⟨h, hh, hf⟩))
  · obtain ⟨a, ha, hp⟩ := List.mem_flatMap.mp hp
    obtain ⟨_, _, rfl⟩ := List.mem_map.mp hp
    exact .inr (List.mem_flatMap.mpr ⟨a, ha, hf⟩)

def Declares (c : Component) (text name : String) : Prop :=
  ∃ line before after, declareField c name = .ok line ∧ text = before ++ line ++ after

theorem memJoin {parts : List String} {part : String} (h : part ∈ parts) :
    ∃ before after, String.join parts = before ++ part ++ after := by
  obtain ⟨before, after, rfl⟩ := List.append_of_mem h
  exact ⟨String.join before, String.join after, by
    rw [String.join_append, String.join_cons, String.append_assoc]⟩

theorem memMapped {names lines : List String} (h : names.mapM (declareField c) = .ok lines)
    (mem : name ∈ names) : ∃ line ∈ lines, declareField c name = .ok line := by
  induction names generalizing lines with
  | nil => exact absurd mem List.not_mem_nil
  | cons first rest ih =>
    rw [List.mapM_cons] at h
    obtain ⟨line, declared, h⟩ := bindOk.mp h
    obtain ⟨others, tail, h⟩ := bindOk.mp h
    obtain rfl := pureOk.mp h
    rcases List.mem_cons.mp mem with rfl | mem
    · exact ⟨line, List.mem_cons_self, declared⟩
    · obtain ⟨found, hf, declared⟩ := ih tail mem
      exact ⟨found, List.mem_cons_of_mem _ hf, declared⟩

theorem mentionDeclared (h : script c r = .ok text) (mem : name ∈ r.mentions) :
    Declares c text name := by
  obtain ⟨lines, mapped, h⟩ := bindOk.mp h
  obtain rfl := pureOk.mp h
  obtain ⟨line, hl, declared⟩ := memMapped mapped (memDistinct.mpr mem)
  obtain ⟨before, after, joined⟩ := memJoin hl
  simp only [Declares, joined, String.append_assoc]
  exact ⟨line, _ ++ before, _, declared, String.append_assoc.symm⟩

end LiveMarkup.Client
