import LiveMarkup.Proofs.Render.Nonce
/-! The placeholders of a text: those that a scan from the left finds, and all that stand in it, at whatever
place they begin. A scan finds some of those that stand in the text, in their order. -/
namespace LiveMarkup.Render

variable {number : Nat} {c sep : Char} {a b s key rest : List Char} {text : String}

section Scan

theorem scanPieces {ps : List Piece} (h : Pieces number s ps) :
    placeholders number (String.ofList s) = ps.filterMap (·.key?) := by
  have split : Piece.split number (String.ofList s) = ps := splitOf (by rwa [String.toList_ofList])
  rw [placeholders, split]

theorem scanFound (found : Placeholder.atFront? number s = some (key, rest)) :
    placeholders number (String.ofList s) = String.ofList key :: placeholders number (String.ofList rest) := by
  obtain ⟨rfl, front⟩ := frontOf found
  have tail := @splitPieces number (String.ofList rest)
  rw [String.toList_ofList] at tail
  exact scanPieces (@Pieces.step number [] key rest _ freeNil front tail)

theorem scanMissed (missed : Placeholder.atFront? number (c :: s) = none) :
    placeholders number (String.ofList (c :: s)) = placeholders number (String.ofList s) := by
  have pieces := @splitPieces number (String.ofList s)
  rw [String.toList_ofList] at pieces
  rw [scanPieces pieces]
  generalize Piece.split number (String.ofList s) = ps at pieces
  cases pieces with
  | last free =>
    have first : Free number [c] (s ++ []) := freeOne (by rwa [List.append_nil])
    exact (scanPieces (.last (freeAppend first free))).trans rfl
  | @step a key rest ps free front tail =>
    exact (scanPieces (.step (freeAppend (freeOne missed) free) front tail)).trans rfl

theorem scanNone : placeholders number "" = [] := rfl

theorem scanPlain (plain : '_' ∉ s) : placeholders number (String.ofList s) = [] := by
  induction s with
  | nil => rfl
  | cons c s ih =>
    obtain ⟨other, later⟩ := not_or.mp (mt List.mem_cons.mpr plain)
    have missed : Placeholder.atFront? number (c :: s) = none := by
      refine Option.eq_none_iff_forall_ne_some.mpr fun p found => ?_
      obtain ⟨behind, same⟩ := foundLead found
      exact other (List.cons.inj same).1
    rw [scanMissed missed, ih later]

theorem scanDivided (divides : Divides sep) : placeholders number (String.ofList (a ++ sep :: b)) =
    placeholders number (String.ofList a) ++ placeholders number (String.ofList b) := by
  induction length : a.length using Nat.strongRecOn generalizing a with
  | ind n ih =>
    subst length
    cases a with
    | nil =>
      have missed : Placeholder.atFront? number (sep :: b) = none := by
        refine Option.eq_none_iff_forall_ne_some.mpr fun p found => ?_
        obtain ⟨same, front⟩ := frontOf found
        obtain ⟨first, key, is⟩ := List.exists_cons_of_ne_nil front.1
        rw [is] at same
        exact dividesFront divides front (is ▸ (List.cons.inj same).1 ▸ List.mem_cons_self)
      rw [List.nil_append, scanMissed missed]
      rfl
    | cons c a =>
      cases found : Placeholder.atFront? number (c :: a) with
      | some p =>
        obtain ⟨key, rest⟩ := p
        obtain ⟨same, front⟩ := frontOf found
        have shorter : rest.length < (c :: a).length := by
          have positive := List.length_pos_iff.mpr front.1
          rw [same, List.length_append]
          omega
        rw [scanFound (frontExtend found), scanFound found, ih _ shorter rfl]
        rfl
      | none =>
        have missed : Placeholder.atFront? number (c :: (a ++ sep :: b)) = none := by
          refine Option.eq_none_iff_forall_ne_some.mpr fun p longer => ?_
          obtain ⟨same, front⟩ := frontOf longer
          have fits {more : List Char} (is : c :: a = p.1 ++ more) : False := by
            rw [is, front.2] at found
            cases found
          obtain ⟨mid, is, tail⟩ | ⟨mid, is, _⟩ := List.append_eq_append_iff.mp (List.cons_append.trans same)
          · cases mid with
            | nil => exact @fits [] (by rw [is]; simp)
            | cons d mid =>
              refine dividesFront divides front (is ▸ List.mem_append_right _ ?_)
              exact (List.cons.inj tail).1 ▸ List.mem_cons_self
          · exact fits is
        rw [List.cons_append, scanMissed missed, scanMissed found, ih _ (Nat.lt_succ_self _) rfl]

end Scan

section Standing

def standing (number : Nat) : List Char → List String
  | [] => []
  | c :: s => ((Placeholder.atFront? number (c :: s)).map fun p => String.ofList p.1).toList ++ standing number s

theorem standingAppend : (standing number a ++ standing number b).Sublist (standing number (a ++ b)) := by
  induction a with
  | nil => exact List.Sublist.refl _
  | cons c a ih =>
    rw [standing, List.append_assoc, List.cons_append, standing]
    refine List.Sublist.append ?_ ih
    cases found : Placeholder.atFront? number (c :: a) with
    | none => exact List.nil_sublist _
    | some p =>
      have longer : Placeholder.atFront? number (c :: (a ++ b)) = some (p.1, p.2 ++ b) := frontExtend found
      rw [longer]
      exact List.Sublist.refl _

theorem standingBehind : (standing number b).Sublist (standing number (a ++ b)) :=
  (List.sublist_append_right _ _).trans standingAppend

theorem standingSuffix (h : rest <:+ s) : (standing number rest).Sublist (standing number s) := by
  obtain ⟨before, rfl⟩ := h
  exact standingBehind

theorem scanStanding : (placeholders number (String.ofList s)).Sublist (standing number s) := by
  induction length : s.length using Nat.strongRecOn generalizing s with
  | ind n ih =>
    subst length
    cases s with
    | nil => exact List.nil_sublist _
    | cons c s =>
      cases found : Placeholder.atFront? number (c :: s) with
      | none =>
        rw [scanMissed found]
        exact (ih _ (Nat.lt_succ_self _) rfl).trans (List.sublist_append_right _ _)
      | some p =>
        obtain ⟨key, rest⟩ := p
        obtain ⟨same, front⟩ := frontOf found
        obtain ⟨first, key, rfl⟩ := List.exists_cons_of_ne_nil front.1
        obtain ⟨rfl, rfl⟩ := List.cons.inj same
        have shorter : rest.length < (c :: (key ++ rest)).length := by
          rw [List.length_cons, List.length_append]
          omega
        rw [scanFound found, standing, found]
        exact List.Sublist.cons_cons _ ((ih _ shorter rfl).trans standingBehind)

theorem standingShort (short : s.length < 16) : standing number s = [] := by
  induction s with
  | nil => rfl
  | cons c s ih =>
    have missed : Placeholder.atFront? number (c :: s) = none := by
      refine Option.eq_none_iff_forall_ne_some.mpr fun p found => ?_
      have enough := (foundLead found).length_le
      exact Nat.not_lt_of_le enough short
    rw [standing, missed, ih (Nat.lt_of_succ_lt short)]
    rfl

end Standing

end LiveMarkup.Render
