import LiveMarkup.Proofs.Client.Quoted
import Mathlib.Data.List.Chain
import Mathlib.Data.List.Infix
/-! Texts without `</`, which would begin an end tag in a script element. -/
namespace LiveMarkup.Client
open Text

def Unclosing (cs : List Char) : Prop := cs.IsChain fun c d => c = '<' → d ≠ '/'

instance {cs : List Char} : Decidable (Unclosing cs) := inferInstanceAs (Decidable (cs.IsChain _))

/-- Nothing in the text begins an end tag, whatever stands in front of it. -/
def Inert (cs : List Char) : Prop := Unclosing cs ∧ cs.head? ≠ some '/'

instance {cs : List Char} : Decidable (Inert cs) := inferInstanceAs (Decidable (_ ∧ _))

variable {a b cs : List Char} {c : Char}

theorem unclosingAppend (ha : Unclosing a) (hb : Unclosing b) (apart : a.getLast? = some '<' → b.head? ≠ some '/') :
    Unclosing (a ++ b) := by
  refine List.isChain_append.mpr ⟨ha, hb, fun c last d head angle slash => ?_⟩
  subst angle slash
  exact apart last head

theorem unclosingCons (h : Unclosing cs) (apart : c = '<' → cs.head? ≠ some '/') : Unclosing (c :: cs) := by
  refine List.isChain_cons.mpr ⟨fun d head angle slash => ?_, h⟩
  subst slash
  exact apart angle head

theorem inertAppend (ha : Inert a) (hb : Inert b) : Inert (a ++ b) := by
  refine ⟨unclosingAppend ha.1 hb.1 fun _ => hb.2, ?_⟩
  cases a with
  | nil => exact hb.2
  | cons c rest => exact ha.2

theorem unclosingSplit (h : Unclosing (a ++ '<' :: '/' :: b)) : False :=
  (List.isChain_cons_cons.mp (List.isChain_append.mp h).2.1).1 rfl rfl

theorem unclosingApart (h : Unclosing cs) : ¬"</".toList <:+: cs := by
  rintro ⟨front, behind, rfl⟩
  rw [List.append_assoc] at h
  exact unclosingSplit h

theorem inertNil : Inert [] := by decide

theorem inertOf (h : '/' ∉ cs) : Inert cs := by
  induction cs with
  | nil => exact inertNil
  | cons c rest ih =>
    obtain ⟨first, tail⟩ := not_or.mp (mt List.mem_cons.mpr h)
    exact ⟨unclosingCons (ih tail).1 fun _ => (ih tail).2, fun slash => first (Option.some.inj slash).symm⟩

theorem guardedHead : (Json.guardClosing cs).head? = cs.head? := by
  fun_cases Json.guardClosing cs <;> rfl

theorem unclosingGuarded : Unclosing (Json.guardClosing cs) := by
  fun_induction Json.guardClosing cs with
  | case1 rest ih =>
    exact unclosingCons (unclosingCons (unclosingCons ih (absurd · (by decide))) (absurd · (by decide))) (by simp)
  | case2 c rest plain ih =>
    refine unclosingCons ih fun angle slash => ?_
    obtain ⟨rest, rfl⟩ := List.head?_eq_some_iff.mp (guardedHead ▸ slash)
    exact plain rest angle rfl
  | case3 => decide

section Stripping

theorem strippedHead {w : Bool} (h : ¬['t', 'h', 'i', 's', '.'] <+: cs) : (stripFrom w cs).head? = cs.head? := by
  fun_cases stripFrom w cs with
  | case1 => rfl
  | case2 rest => exact absurd ⟨rest, rfl⟩ h
  | case3 => rfl

theorem unclosingStripped {w : Bool} (h : Unclosing cs) (apart : ¬"<this.".toList <:+: cs) :
    Unclosing (stripFrom w cs) := by
  have tailApart {c : Char} {rest : List Char} (h : ¬"<this.".toList <:+: c :: rest) : ¬"<this.".toList <:+: rest :=
    fun within => h (within.trans (List.suffix_cons c rest).isInfix)
  fun_induction stripFrom w cs with
  | case1 => exact h
  | case2 rest ih =>
    have split : Unclosing (['t', 'h', 'i', 's', '.'] ++ rest) := h
    refine ih (List.isChain_append.mp split).2.1 fun within => apart ?_
    exact within.trans (List.suffix_append ['t', 'h', 'i', 's', '.'] rest).isInfix
  | case3 w c rest plain ih =>
    obtain ⟨next, tail⟩ := List.isChain_cons.mp h
    refine unclosingCons (ih tail (tailApart apart)) fun angle slash => ?_
    subst angle
    have front : ¬['t', 'h', 'i', 's', '.'] <+: rest := by
      rintro ⟨more, same⟩
      exact apart ⟨[], more, by rw [← same]; rfl⟩
    exact next '/' (strippedHead front ▸ slash) rfl rfl

end Stripping

end LiveMarkup.Client
