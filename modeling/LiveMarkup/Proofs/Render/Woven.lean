import LiveMarkup.Proofs.Render.Leaked
import LiveMarkup.Proofs.Render.Stamped
/-! The markup of trees in two runs. It differs in identifiers of elements, and the placeholders in it are the
same. -/
namespace LiveMarkup.Render
open Analysis Client Markup

def tagText (n : Nat) : List Char := (" " ++ idAttribute ++ "=\"").toList ++ ((idText n).toList ++ ['"'])

inductive Woven : List Char → List Char → Prop where
  | nil : Woven [] []
  | char {c s t} (rest : Woven s t) : Woven (c :: s) (c :: t)
  | id {n m s t} (rest : Woven s t) : Woven (tagText n ++ s) (tagText m ++ t)

inductive Facing : Piece → Piece → Prop where
  | plain {s t} (kin : Kin s t) : Facing (.plain s) (.plain t)
  | placeholder {key} : Facing (.placeholder key) (.placeholder key)

variable {number n : Nat} {a s t key rest : List Char}

section Scan

theorem wovenSelf : (s : List Char) → Woven s s
  | [] => .nil
  | _ :: rest => .char (wovenSelf rest)

theorem wovenSwap (h : Woven s t) : Woven t s := by
  induction h with
  | nil => exact .nil
  | char _ ih => exact .char ih
  | id _ ih => exact .id ih

theorem wovenAppend {u w : List Char} (h : Woven s t) (h' : Woven u w) : Woven (s ++ u) (t ++ w) := by
  induction h with
  | nil => exact h'
  | char _ ih => exact .char ih
  | id _ ih =>
    rw [List.append_assoc, List.append_assoc]
    exact .id ih

theorem tagHead : ∃ more, tagText n = ' ' :: more := ⟨_, rfl⟩

theorem wovenKey (plain : ' ' ∉ key) (h : Woven (key ++ rest) t) : ∃ rest', t = key ++ rest' ∧ Woven rest rest' := by
  induction key generalizing t with
  | nil => exact ⟨t, rfl, h⟩
  | cons c key ih =>
    obtain ⟨other, later⟩ := not_or.mp (mt List.mem_cons.mpr plain)
    generalize whole : c :: key ++ rest = s at h
    cases h with
    | nil => cases whole
    | char behind =>
      obtain ⟨rfl, rfl⟩ := List.cons.inj whole
      obtain ⟨rest', rfl, woven⟩ := ih later behind
      exact ⟨rest', rfl, woven⟩
    | @id n _ _ _ _ =>
      obtain ⟨more, tag⟩ := @tagHead n
      rw [tag] at whole
      exact absurd (List.cons.inj whole).1.symm other

theorem wovenFront (h : Woven s t) (found : Placeholder.atFront? number s = some (key, rest)) :
    ∃ rest', Placeholder.atFront? number t = some (key, rest') ∧ Woven rest rest' := by
  obtain ⟨rfl, front⟩ := frontOf found
  obtain ⟨rest', rfl, woven⟩ := wovenKey (dividesFront (by decide) front) h
  exact ⟨rest', front.2 rest', woven⟩

theorem wovenMissed (h : Woven s t) (missed : Placeholder.atFront? number s = none) :
    Placeholder.atFront? number t = none := by
  refine Option.eq_none_iff_forall_ne_some.mpr fun p found => ?_
  obtain ⟨rest, found, _⟩ := wovenFront (wovenSwap h) found
  rw [missed] at found
  cases found

theorem freeAway (plain : '_' ∉ a) : Free number a rest := by
  rintro before c after rfl
  refine Option.eq_none_iff_forall_ne_some.mpr fun p found => plain ?_
  obtain ⟨same, front⟩ := frontOf found
  obtain ⟨more, under⟩ := frontUnder front
  rw [under] at same
  simp [(List.cons.inj same).1]

theorem tagFree : Free number (tagText n) rest := by
  obtain ⟨d, ds, digits⟩ := List.exists_cons_of_ne_nil (digitsOf ▸ Nat.toDigits_ne_nil : (toString n).toList ≠ [])
  have other : '_' ∉ (toString n).toList := fun mem => absurd (digitOf '_' mem) (by decide)
  have written : (idText n).toList = '_' :: (toString n).toList := by
    rw [idText, String.toList_append]
    rfl
  rw [tagText, written]
  refine freeAppend (freeAway (by decide)) (freeAppend (a := ['_']) (freeOne ?_) (freeAway ?_))
  · refine Option.eq_none_iff_forall_ne_some.mpr fun p found => other ?_
    obtain ⟨more, lead⟩ := foundLead found
    rw [leadForm, digits] at lead
    have under : d = '_' := (List.cons.inj (List.cons.inj lead).2).1.symm
    exact digits ▸ under ▸ List.mem_cons_self
  · simp

def prepend (a : List Char) : List Piece → List Piece
  | .plain s :: rest => .plain (String.ofList a ++ s) :: rest
  | ps => ps

theorem piecesPrepend {ps : List Piece} (free : Free number a s) (h : Pieces number s ps) :
    Pieces number (a ++ s) (prepend a ps) := by
  cases h with
  | @last s whole =>
    rw [prepend, ← String.ofList_append]
    exact .last (freeAppend (by rwa [List.append_nil]) whole)
  | @step b key rest ps own front tail =>
    rw [prepend, ← String.ofList_append, ← List.append_assoc]
    exact .step (freeAppend free own) front tail

theorem facingPrepend {b : List Char} {ps qs : List Piece} (kin : Kin (String.ofList a) (String.ofList b))
    (h : List.Forall₂ Facing ps qs) : List.Forall₂ Facing (prepend a ps) (prepend b qs) := by
  cases h with
  | nil => exact .nil
  | cons first rest =>
    cases first with
    | plain own => exact .cons (.plain (kinAppend kin own)) rest
    | placeholder => exact .cons .placeholder rest

theorem tagNamed : Named (String.ofList (tagText n)) := by
  rw [Named, String.toList_ofList, tagText]
  exact List.IsInfix.trans (by decide) (List.prefix_append _ _).isInfix

theorem wovenPieces (h : Woven s t) :
    ∃ ps qs, Pieces number s ps ∧ Pieces number t qs ∧ List.Forall₂ Facing ps qs := by
  induction length : s.length using Nat.strongRecOn generalizing s t with
  | ind l ih =>
    subst length
    cases h with
    | nil => exact ⟨_, _, .last freeNil, .last freeNil, .cons (.plain .same) .nil⟩
    | @char c s t woven =>
      cases found : Placeholder.atFront? number (c :: s) with
      | some p =>
        obtain ⟨key, rest⟩ := p
        obtain ⟨rest', found', later⟩ := wovenFront (.char woven) found
        obtain ⟨same, front⟩ := frontOf found
        obtain ⟨same', _⟩ := frontOf found'
        have shorter : rest.length < (c :: s).length := by
          have positive := List.length_pos_iff.mpr front.1
          rw [same, List.length_append]
          omega
        obtain ⟨ps, qs, pieces, pieces', facing⟩ := ih _ shorter later rfl
        rw [same, same']
        exact ⟨_, _, @Pieces.step number [] key rest _ freeNil front pieces,
          @Pieces.step number [] key rest' _ freeNil front pieces', .cons (.plain .same) (.cons .placeholder facing)⟩
      | none =>
        obtain ⟨ps, qs, pieces, pieces', facing⟩ := ih _ (Nat.lt_succ_self _) woven rfl
        have missed := wovenMissed (.char woven) found
        exact ⟨_, _, piecesPrepend (freeOne found) pieces, piecesPrepend (freeOne missed) pieces',
          facingPrepend .same facing⟩
    | @id n m s t woven =>
      have shorter : s.length < (tagText n ++ s).length := by
        obtain ⟨more, tag⟩ := @tagHead n
        rw [tag, List.length_append, List.length_cons]
        omega
      obtain ⟨ps, qs, pieces, pieces', facing⟩ := ih _ shorter woven rfl
      exact ⟨_, _, piecesPrepend tagFree pieces, piecesPrepend tagFree pieces',
        facingPrepend (.named tagNamed tagNamed) facing⟩

theorem facingSplit {text text' : String} (h : Woven text.toList text'.toList) :
    List.Forall₂ Facing (Piece.split number text) (Piece.split number text') := by
  obtain ⟨ps, qs, pieces, pieces', facing⟩ := @wovenPieces number _ _ h
  rwa [splitOf pieces, splitOf pieces']

theorem facingKeys {ps qs : List Piece} (h : List.Forall₂ Facing ps qs) :
    qs.filterMap (·.key?) = ps.filterMap (·.key?) := by
  induction h with
  | nil => rfl
  | cons first _ ih =>
    cases first with
    | plain => exact ih
    | placeholder => exact congrArg (List.cons _) ih

end Scan

section Write

variable {k : Nat} {f : Factory} {a a' : Attribute} {as as' : List Attribute} {nodes nodes' : List Node}

theorem idKept : ∀ c ∈ (idText n).toList, writtenChar c = [c] ∧ c ≠ '"' := by
  intro c mem
  have other (d : Char) (no : d ≠ '_' ∧ Text.isDigit d = false) : c ≠ d := by
    rintro rfl
    rw [idText, String.toList_append] at mem
    rcases List.mem_append.mp mem with under | digit
    · exact no.1 (List.mem_singleton.mp under)
    · rw [digitOf c digit] at no
      cases no.2
  have amp := other '&' (by decide)
  have less := other '<' (by decide)
  have more := other '>' (by decide)
  exact ⟨by simp [writtenChar, amp, less, more], other '"' (by decide)⟩

theorem idWritten : (Attribute.write { name := idAttribute, value := idText n }).toList = tagText n := by
  have kept : writeText (idText n) = idText n := by
    rw [← String.toList_inj, writeText, String.toList_ofList]
    exact (List.flatMap_congr fun c mem => (idKept c mem).1).trans (List.flatMap_singleton' _)
  have unquoted : (idText n).toList.contains '"' = false := by
    simpa using fun mem => (idKept _ mem).2 rfl
  show (" " ++ idAttribute ++ "=" ++ writeQuoted (writeText (idText n))).toList = _
  rw [kept, writeQuoted]
  simp only [unquoted, tagText, String.toList_append]
  simp

theorem wovenAttribute (h : Tagged k f a a') : Woven a.write.toList a'.write.toList := by
  cases h with
  | same _ => exact wovenSelf _
  | id later =>
    obtain ⟨n, rfl, rfl⟩ := later
    have tag := @Woven.id n (n + k) [] [] .nil
    rwa [List.append_nil, List.append_nil, ← idWritten, ← idWritten] at tag

theorem insertTagged (first : Tagged k f a a') (h : List.Forall₂ (Tagged k f) as as') :
    List.Forall₂ (Tagged k f) (Attribute.insertByName a as) (Attribute.insertByName a' as') := by
  induction h with
  | nil => exact .cons first .nil
  | cons next rest ih =>
    rw [Attribute.insertByName, Attribute.insertByName, taggedName first, taggedName next]
    split
    · exact .cons next ih
    · exact .cons first (.cons next rest)

theorem sortTagged (h : List.Forall₂ (Tagged k f) as as') :
    List.Forall₂ (Tagged k f) (Attribute.sortByName as) (Attribute.sortByName as') := by
  induction h with
  | nil => exact .nil
  | cons first _ ih => exact insertTagged first ih

theorem wovenAttributes (h : List.Forall₂ (Tagged k f) as as') :
    Woven (String.join (as.map (·.write))).toList (String.join (as'.map (·.write))).toList := by
  induction h with
  | nil => exact .nil
  | cons first _ ih =>
    rw [List.map_cons, List.map_cons, String.join_cons, String.join_cons, String.toList_append, String.toList_append]
    exact wovenAppend (wovenAttribute first) ih

theorem stampedEmpty (h : Stamped k f nodes nodes') : nodes'.isEmpty = nodes.isEmpty := by
  cases h with
  | _ => rfl

theorem wovenAll (h : Stamped k f nodes nodes') (raw : Bool) :
    Woven (Node.writeAll raw nodes).toList (Node.writeAll raw nodes').toList := by
  induction h generalizing raw with
  | nil => exact .nil
  | text _ ih =>
    rw [Node.writeAll, Node.writeAll, String.toList_append, String.toList_append]
    exact wovenAppend (wovenSelf _) (ih raw)
  | @element name as as' children children' _ _ here inner _ ih ih' =>
    have node : Woven (Node.write raw (.element name as children)).toList
        (Node.write raw (.element name as' children')).toList := by
      have attributes := wovenAttributes (sortTagged here)
      rw [Node.write, Node.write, stampedEmpty inner]
      split
      · simp only [String.toList_append]
        exact wovenAppend (wovenAppend (wovenSelf _) attributes) (wovenSelf _)
      · simp only [String.toList_append]
        exact wovenAppend (wovenAppend (wovenAppend (wovenAppend (wovenAppend (wovenAppend (wovenSelf _) attributes)
          (wovenSelf _)) (ih _)) (wovenSelf _)) (wovenSelf _)) (wovenSelf _)
    rw [Node.writeAll, Node.writeAll, String.toList_append, String.toList_append]
    exact wovenAppend node (ih' raw)

theorem wovenTree (h : Stamped k f nodes nodes') : Woven (writeTree nodes).toList (writeTree nodes').toList :=
  wovenAll h false

end Write

end LiveMarkup.Render
