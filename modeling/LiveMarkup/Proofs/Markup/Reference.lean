import LiveMarkup.Markup.Entity
import LiveMarkup.Markup.Escape
import LiveMarkup.Markup.Writer
/-! Texts with references in the place of some characters. Decoding gives the text back. -/
namespace LiveMarkup.Markup

def references : List (List Char × Char) :=
  [(['a', 'm', 'p'], '&'), (['l', 't'], '<'), (['g', 't'], '>'), (['q', 'u', 'o', 't'], '"'), (['#', '3', '9'], '\'')]

inductive Coded : List Char → List Char → Prop where
  | none : Coded [] []
  | plain {c cs text} (other : c ≠ '&') (rest : Coded cs text) : Coded (c :: cs) (c :: text)
  | reference {name c cs text} (known : (name, c) ∈ references) (rest : Coded cs text) :
      Coded ('&' :: name ++ ';' :: cs) (c :: text)

theorem decodeCoded {cs text : List Char} {fuel : Nat} (coded : Coded cs text) (enough : cs.length ≤ fuel) :
    Entity.decodeFrom fuel cs = text := by
  induction coded generalizing fuel with
  | none => cases fuel <;> rfl
  | plain other rest ih =>
    cases fuel with
    | zero => cases enough
    | succ fuel =>
      rw [Entity.decodeFrom, ih (Nat.le_of_succ_le_succ enough)]
      exact other
  | @reference name c cs text known rest ih =>
    have shorter : cs.length + 1 ≤ fuel := by
      simp only [List.cons_append, List.length_cons, List.length_append] at enough
      omega
    have read : Entity.inAttribute? (name ++ ';' :: cs) = some ([c], cs) := by
      simp only [references, List.mem_cons, Prod.mk.injEq, List.not_mem_nil, or_false] at known
      rcases known with ⟨rfl, rfl⟩ | ⟨rfl, rfl⟩ | ⟨rfl, rfl⟩ | ⟨rfl, rfl⟩ | ⟨rfl, rfl⟩ <;> rfl
    cases fuel with
    | zero => cases shorter
    | succ fuel =>
      rw [List.cons_append, Entity.decodeFrom, read]
      simp only
      rw [ih (Nat.le_of_succ_le_succ shorter)]
      rfl

def Written (e : Char → List Char) : Prop :=
  ∀ c, c ≠ '&' ∧ e c = [c] ∨ ∃ name, (name, c) ∈ references ∧ e c = '&' :: name ++ [';']

theorem codedMap {e : Char → List Char} (written : Written e) (text : List Char) : Coded (text.flatMap e) text := by
  induction text with
  | nil => exact .none
  | cons c text ih =>
    rw [List.flatMap_cons]
    rcases written c with ⟨other, same⟩ | ⟨name, known, same⟩
    · rw [same]
      exact .plain other ih
    · rw [same, List.append_assoc]
      exact .reference known ih

theorem charWritten : Written writtenChar := by
  intro c
  unfold writtenChar
  split
  · next same => exact .inr ⟨['a', 'm', 'p'], by simp [references, beq_iff_eq.mp same], rfl⟩
  · next other =>
    split
    · next same => exact .inr ⟨['l', 't'], by simp [references, beq_iff_eq.mp same], rfl⟩
    · split
      · next same => exact .inr ⟨['g', 't'], by simp [references, beq_iff_eq.mp same], rfl⟩
      · exact .inl ⟨by simpa using other, rfl⟩

theorem escapeWritten : Written escapeChar := by
  intro c
  unfold escapeChar
  split
  · next same => exact .inr ⟨['a', 'm', 'p'], by simp [references, beq_iff_eq.mp same], rfl⟩
  · next other =>
    split
    · next same => exact .inr ⟨['l', 't'], by simp [references, beq_iff_eq.mp same], rfl⟩
    · split
      · next same => exact .inr ⟨['g', 't'], by simp [references, beq_iff_eq.mp same], rfl⟩
      · split
        · next same => exact .inr ⟨['q', 'u', 'o', 't'], by simp [references, beq_iff_eq.mp same], rfl⟩
        · exact .inl ⟨by simpa using other, rfl⟩

theorem escapeFree {c : Char} : '"' ∉ escapeChar c ∧ '<' ∉ escapeChar c ∧ '>' ∉ escapeChar c := by
  unfold escapeChar
  grind

end LiveMarkup.Markup
