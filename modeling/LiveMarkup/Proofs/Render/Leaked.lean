import Mathlib.Data.List.Forall2
import LiveMarkup.Proofs.Render.Direct
import LiveMarkup.Proofs.Render.Accounted
import LiveMarkup.Proofs.Render.Failed
/-! Where placeholders come out in records. The code of a record holds one if and only if a bound attribute holds the
placeholder of deferred content: texts are cut apart at those, attributes are not. -/
namespace LiveMarkup.Render
open Analysis Client Markup Text Json

section Clear

variable {number : Nat} {key a b cs : List Char} {c sep : Char} {text : String}

def Clear (number : Nat) (text : List Char) : Prop := ∀ key, Front number key → ¬key <:+: text

theorem clearNil : Clear number [] := fun _ front inside => front.1 (List.infix_nil.mp inside)

theorem infixDivided (apart : sep ∉ key) (inside : key <:+: a ++ sep :: b) : key <:+: a ∨ key <:+: b := by
  obtain ⟨before, behind, same⟩ := inside
  obtain ⟨mid, rfl, _⟩ | ⟨mid, front, tail⟩ := List.append_eq_append_iff.mp same
  · exact .inl ⟨before, mid, rfl⟩
  cases mid with
  | nil => exact .inl ⟨before, [], by simpa using front⟩
  | cons d mid =>
    obtain ⟨rfl, rfl⟩ := List.cons.inj tail
    obtain ⟨others, rfl, rfl⟩ | ⟨others, rfl, tail⟩ := List.append_eq_append_iff.mp front
    · exact absurd (List.mem_append_right _ List.mem_cons_self) apart
    cases others with
    | nil =>
      rw [List.nil_append] at tail
      exact absurd (tail ▸ List.mem_cons_self) apart
    | cons e others =>
      obtain ⟨rfl, rfl⟩ := List.cons.inj tail
      exact .inr ⟨others, behind, rfl⟩

theorem clearAround (divides : Divides sep) (ha : Clear number a) (hb : Clear number b) :
    Clear number (a ++ sep :: b) := fun key front inside =>
  (infixDivided (dividesFront divides front) inside).elim (ha key front) (hb key front)

theorem clearBehind (divides : Divides sep) (h : Clear number a) : Clear number (sep :: a) :=
  @clearAround number [] a sep divides clearNil h

theorem clearBefore (divides : Divides sep) (h : Clear number a) : Clear number (a ++ [sep]) :=
  clearAround divides h clearNil

theorem escapedChars : ∀ d ∈ Json.escapeChar c, (32 ≤ d.toNat ∧ d.toNat < 127) ∧ (d = '_' → c = '_') := by
  intro d mem
  have letters : ∀ d ∈ escapeLetters, (32 ≤ d.toNat ∧ d.toNat < 127) ∧ d ≠ '_' := allSeen (by decide)
  rcases escapedLetters mem with part | ⟨rfl, printed⟩
  · exact ⟨(letters d part).1, fun is => absurd is (letters d part).2⟩
  · exact ⟨printed, id⟩

theorem keptPrinted (printed : 32 ≤ c.toNat ∧ c.toNat < 127) (quote : c ≠ '"') (slash : c ≠ '\\') :
    Json.escapeChar c = [c] := by
  have low (d : Char) (below : d.toNat < 32) : c ≠ d := by
    rintro rfl
    omega
  unfold Json.escapeChar
  simp only [beq_iff_eq, quote, slash, low '\n' (by decide), low '\r' (by decide), low '\t' (by decide),
    low '\x0c' (by decide), low '\x08' (by decide), if_false, if_pos printed]

theorem infixBehind {first : Char} {block : List Char} (none : first ∉ block)
    (inside : first :: key <:+: block ++ b) : first :: key <:+: b := by
  induction block with
  | nil => exact inside
  | cons c block ih =>
    obtain ⟨other, later⟩ := not_or.mp (mt List.mem_cons.mpr none)
    rcases List.infix_cons_iff.mp inside with front | inside
    · obtain ⟨_, same⟩ := front
      exact absurd (List.cons.inj same).1 other
    · exact ih later inside

theorem infixEscaped (kept : ∀ a ∈ '_' :: key, Json.escapeChar a = [a] ∧ a ≠ '\\' ∧ a ≠ '"')
    (inside : '_' :: key <:+: cs.flatMap Json.escapeChar ++ ['"']) : '_' :: key <:+: cs := by
  induction cs with
  | nil => exact absurd (inside.subset List.mem_cons_self) (by decide)
  | cons c rest ih =>
    by_cases same : c = '_'
    · subst same
      rcases List.infix_cons_iff.mp inside with front | inside
      · have quoted := @prefixQuoted ('_' :: key) ('_' :: rest) kept
        exact (List.isPrefixOf_iff_prefix.mp (quoted ▸ List.isPrefixOf_iff_prefix.mpr front)).isInfix
      · exact (ih inside).trans (List.suffix_cons _ _).isInfix
    · rw [List.flatMap_cons, List.append_assoc] at inside
      have none : '_' ∉ Json.escapeChar c := fun mem => same ((escapedChars _ mem).2 rfl)
      exact (ih (infixBehind none inside)).trans (List.suffix_cons _ _).isInfix

theorem frontUnder (front : Front number key) : ∃ rest, key = '_' :: rest := by
  obtain ⟨digits, rfl, _⟩ := frontShape front
  exact ⟨_, rfl⟩

theorem clearEscaped (clear : Clear number cs) : Clear number (cs.flatMap Json.escapeChar ++ ['"']) := by
  intro key front inside
  refine clear key front ?_
  have kept : ∀ a ∈ key, Json.escapeChar a = [a] ∧ a ≠ '\\' ∧ a ≠ '"' := by
    intro a mem
    have printed : 32 ≤ a.toNat ∧ a.toNat < 127 := by
      rcases List.mem_append.mp (inside.subset mem) with written | quote
      · obtain ⟨c, _, written⟩ := List.mem_flatMap.mp written
        exact (escapedChars a written).1
      · obtain rfl := List.mem_singleton.mp quote
        decide
    have chars := frontChars front mem
    have apart : a ≠ '\\' ∧ a ≠ '"' := by
      refine ⟨?_, ?_⟩ <;> rintro rfl <;> exact absurd chars (by decide)
    exact ⟨keptPrinted printed apart.2 apart.1, apart⟩
  obtain ⟨rest, rfl⟩ := frontUnder front
  exact infixEscaped kept inside

theorem infixGuarded (angle : '<' ∉ '_' :: key) (inside : '_' :: key <:+: guardClosing cs) : '_' :: key <:+: cs := by
  fun_induction guardClosing cs with
  | case1 rest ih =>
    have behind := @infixBehind key (guardClosing rest) '_' ['<', '\\', '/'] (by decide) inside
    exact (ih behind).trans (List.suffix_append ['<', '/'] rest).isInfix
  | case2 c rest plain ih =>
    rcases List.infix_cons_iff.mp inside with front | inside
    · have guarded := @prefixGuarded ('_' :: key) (c :: rest) angle
      rw [guardClosing.eq_2 c rest plain] at guarded
      exact (List.isPrefixOf_iff_prefix.mp (guarded ▸ List.isPrefixOf_iff_prefix.mpr front)).isInfix
    · exact (ih inside).trans (List.suffix_cons _ _).isInfix
  | case3 => exact inside

theorem clearGuarded (clear : Clear number cs) : Clear number (guardClosing cs) := by
  intro key front inside
  refine clear key front ?_
  have angle : '<' ∉ key := fun mem => absurd (frontChars front mem) (by decide)
  obtain ⟨rest, rfl⟩ := frontUnder front
  exact infixGuarded angle inside

theorem clearQuoted (clear : Clear number text.toList) : Clear number (jsString text).toList := by
  have quote : Divides '"' := by decide
  rw [jsString, String.toList_ofList]
  exact clearGuarded (clearBehind quote (clearEscaped clear))

theorem guardKept (angle : '<' ∉ cs) : guardClosing cs = cs := by
  fun_induction guardClosing cs with
  | case1 rest ih => exact absurd List.mem_cons_self angle
  | case2 c rest plain ih => rw [ih fun mem => angle (List.mem_cons_of_mem _ mem)]
  | case3 => rfl

theorem keyPrinted {n : Nat} : ∀ c ∈ (Placeholder.text number n).toList, 32 ≤ c.toNat ∧ c.toNat < 127 := by
  have letters : ∀ c ∈ brand ++ "0123456789abcdef".toList, 32 ≤ c.toNat ∧ c.toNat < 127 := allSeen (by decide)
  exact fun c mem => letters c (keyLetters c mem)

theorem keyQuoted {n : Nat} :
    (Placeholder.text number n).toList <:+: (jsString (Placeholder.text number n)).toList := by
  have apart {c : Char} (divides : Divides c) : c ∉ (Placeholder.text number n).toList :=
    dividesFront divides textFront
  have same : (Placeholder.text number n).toList.flatMap Json.escapeChar = (Placeholder.text number n).toList := by
    have quote := apart (c := '"') (by decide)
    have slash := apart (c := '\\') (by decide)
    have printed := @keyPrinted number n
    generalize (Placeholder.text number n).toList = cs at quote slash printed
    induction cs with
    | nil => rfl
    | cons c rest ih =>
      obtain ⟨quote, quotes⟩ := not_or.mp (mt List.mem_cons.mpr quote)
      obtain ⟨slash, slashes⟩ := not_or.mp (mt List.mem_cons.mpr slash)
      obtain ⟨own, others⟩ := List.forall_mem_cons.mp printed
      rw [List.flatMap_cons, keptPrinted own (Ne.symm quote) (Ne.symm slash), ih quotes slashes others]
      rfl
  have angle : '<' ∉ encode (Placeholder.text number n).toList := by
    rw [encode, same]
    intro mem
    rcases List.mem_append.mp mem with mem | mem
    · rcases List.mem_cons.mp mem with quote | mem
      · exact absurd quote (by decide)
      · exact apart (by decide) mem
    · exact absurd mem (by decide)
  rw [jsString, String.toList_ofList, guardKept angle, encode, same]
  exact ⟨['"'], ['"'], rfl⟩

theorem freeClear (free : Free number a []) : Clear number a := by
  rintro key front ⟨before, behind, same⟩
  rw [List.append_assoc] at same
  exact frontBlocks front same free

theorem clearPlain {ps : List Piece} (pieces : Pieces number cs ps) (mem : .plain text ∈ ps) :
    Clear number text.toList := by
  induction pieces with
  | last free =>
    cases List.mem_singleton.mp mem
    rw [String.toList_ofList]
    exact freeClear free
  | step free front tail ih =>
    rcases List.mem_cons.mp mem with same | mem
    · cases same
      rw [String.toList_ofList]
      exact freeClear (@freeShort number _ [] _ free)
    rcases List.mem_cons.mp mem with other | mem
    · cases other
    · exact ih mem

theorem clearSplit : Clear number text.toList ↔ placeholders number text = [] := by
  have pieces := @splitPieces number text
  rw [placeholders]
  generalize Piece.split number text = ps at pieces
  generalize text.toList = cs at pieces
  cases pieces with
  | last free => exact ⟨fun _ => rfl, fun _ => freeClear free⟩
  | step free front tail =>
    refine ⟨fun clear => absurd ⟨_, _, List.append_assoc _ _ _⟩ (clear _ front), fun none => ?_⟩
    cases none

end Clear

section Sources

variable {f : Factory} {s s₁ s' : State} {text source : String}

def codesOf (slot : Slot) : List String :=
  slot.source :: slot.bodySource.toList ++ slot.promiseSource.toList ++ slot.thenCallback.toList ++
    slot.catchCallback.toList

def CodeClear (f : Factory) : Prop := ∀ slot ∈ f.slots, ∀ code ∈ codesOf slot, Clear f.number code.toList

def ShownClear (f : Factory) (s : State) : Prop := ∀ l ∈ s.live, Clear f.number l.2.value.shown.toList

theorem clearJoined {number : Nat} {sources : List String} (clear : ∀ source ∈ sources, Clear number source.toList) :
    Clear number (joinSources sources).toList := by
  have blank : Divides ' ' := by decide
  have plus : Divides '+' := by decide
  have quote : Divides '"' := by decide
  have joined : Clear number (" + ".intercalate sources).toList := by
    induction sources with
    | nil => exact clearNil
    | cons first rest ih =>
      have own := clear first List.mem_cons_self
      cases rest with
      | nil =>
        have same : " + ".intercalate [first] = first := String.intercalate_singleton
        rwa [same]
      | cons second rest =>
        rw [String.intercalate_cons_cons, String.toList_append, String.toList_append, List.append_assoc]
        refine clearAround blank own (clearBehind plus (clearBehind blank (ih fun source mem => ?_)))
        exact clear source (List.mem_cons_of_mem _ mem)
  unfold joinSources
  simp only
  split
  · exact joined
  · rw [String.toList_append]
    exact clearBehind quote (clearBehind quote (clearBehind blank (clearBehind plus (clearBehind blank joined))))

theorem partClear {piece : Piece} {part : Part} (known : Known f s) (code : CodeClear f) (shown : ShownClear f s)
    (mem : piece ∈ Piece.split f.number text) (live : ∀ key, piece = .placeholder key → (s.live? key).isSome)
    (made : partOf s piece = some part) : Clear f.number part.source.toList := by
  unfold partOf at made
  split at made
  · next none =>
    split at made
    · cases made
    cases made
    cases piece with
    | plain text => exact clearQuoted (clearPlain splitPieces mem)
    | placeholder key =>
      have found := live key rfl
      rw [show s.live? key = _ from none] at found
      cases found
  · next l found =>
    obtain ⟨key, _, found⟩ := Option.bind_eq_some_iff.mp found
    split at made
    · cases made
      have opening : Divides '(' := by decide
      have closing : Divides ')' := by decide
      have own := code l.slot (liveKnown known found).1 l.slot.source List.mem_cons_self
      rw [String.toList_append, String.toList_append]
      exact clearBefore closing (clearBehind opening own)
    · cases made
      obtain ⟨entry, he, rfl⟩ := Option.map_eq_some_iff.mp found
      exact clearQuoted (shown entry (List.mem_of_find?_eq_some he))

theorem composedClear (known : Known f s) (code : CodeClear f) (shown : ShownClear f s)
    (live : ∀ key ∈ placeholders f.number text, (s.live? key).isSome)
    (composed : (compose f.number s text).source? = some source) : Clear f.number source.toList := by
  have parts : ∀ p ∈ partsIn f.number s text, Clear f.number p.source.toList := by
    intro p hp
    obtain ⟨piece, mem, made⟩ := List.mem_filterMap.mp hp
    refine partClear known code shown mem (fun key same => live key ?_) made
    exact List.mem_filterMap.mpr ⟨piece, mem, same ▸ rfl⟩
  rcases composedForms composed with ⟨p, r, one, reactive, rfl⟩ | ⟨_, rfl⟩
  · have mem : p ∈ partsIn f.number s text := one ▸ List.mem_cons_self
    obtain ⟨piece, _, made⟩ := List.mem_filterMap.mp mem
    obtain ⟨key, live, _, found, _, rfl, _⟩ := partReactive made reactive
    exact code live.slot (liveKnown known found).1 live.slot.source List.mem_cons_self
  · refine clearJoined fun source mem => ?_
    obtain ⟨p, hp, rfl⟩ := List.mem_map.mp mem
    exact parts p hp

theorem composedLeaks {n : Nat} (mem : Placeholder.text f.number n ∈ placeholders f.number text)
    (off : s.live? (Placeholder.text f.number n) = none)
    (composed : (compose f.number s text).source? = some source) : ¬Clear f.number source.toList := by
  obtain ⟨piece, hp, found⟩ := List.mem_filterMap.mp mem
  obtain rfl : piece = .placeholder (Placeholder.text f.number n) := by
    cases piece with
    | plain text => cases found
    | placeholder key => exact congrArg Piece.placeholder (Option.some.inj found)
  have some : (Placeholder.text f.number n).isEmpty = false := by
    refine Bool.eq_false_iff.mpr fun empty => (@textFront f.number n).1 ?_
    rw [String.isEmpty_iff.mp empty]
    rfl
  have part : ⟨Placeholder.text f.number n, jsString (Placeholder.text f.number n), none⟩ ∈
      partsIn f.number s text := by
    refine List.mem_filterMap.mpr ⟨_, hp, ?_⟩
    have off : (Piece.placeholder (Placeholder.text f.number n)).key?.bind s.live? = none := off
    rw [partOf, off]
    simp only [Piece.text, some, Bool.false_eq_true, if_false]
  intro clear
  refine clear _ (@textFront f.number n) ?_
  rcases composedForms composed with ⟨p, r, one, reactive, _⟩ | ⟨_, rfl⟩
  · rw [one] at part
    cases List.mem_singleton.mp part
    cases reactive
  · exact keyQuoted.trans (joinedWithin (List.mem_map.mpr ⟨_, part, rfl⟩))

end Sources

section Records

variable {f : Factory} {s s₁ s' : State} {tree : List Node} {number : Nat} {r : Records}

structure RecordsClear (number : Nat) (r : Records) : Prop where
  bindings : ∀ b ∈ r.bindings, Clear number b.source.toList ∧ ∀ name ∈ b.attribute?, Clear number name.toList
  handlers : ∀ h ∈ r.handlers, Clear number h.source.toList ∧ Clear number h.event.toList
  chains : ∀ a ∈ r.asyncBindings, Clear number a.promise.toList ∧ Clear number a.thenCallback.toList ∧
    ∀ code ∈ a.catchCallback?, Clear number code.toList

theorem clearUnnamed : RecordsClear number r.unnamed ↔ RecordsClear number r :=
  ⟨fun h => ⟨List.forall_mem_map.mp h.bindings, List.forall_mem_map.mp h.handlers, List.forall_mem_map.mp h.chains⟩,
    fun h => ⟨List.forall_mem_map.mpr h.bindings, List.forall_mem_map.mpr h.handlers, List.forall_mem_map.mpr h.chains⟩⟩

/-- The placeholders in bound texts are the factory's own: no value and no template reads as one. -/
def OwnOnly (f : Factory) (s : State) (tree : List Node) : Prop :=
  ∀ p ∈ boundTexts f s tree, ∀ key ∈ placeholders f.number p.2,
    (s.live? key).isSome ∨ s.deferred.any (·.1 == key) = true

/-- No bound attribute holds deferred content, and no bound attribute and no event has a placeholder in its
name. -/
structure Sealed (f : Factory) (s : State) (tree : List Node) : Prop where
  attributes : ∀ p ∈ boundTexts f s tree, ∀ name ∈ p.1, Undeferred f s p.2 ∧ Clear f.number name.toList
  events : ∀ e ∈ elements tree, ∀ a ∈ e.1, (eventAt s a).isSome → Clear f.number a.name.toList

theorem undeferredLive {text : String} (undeferred : Undeferred f s text)
    (own : ∀ key ∈ placeholders f.number text, (s.live? key).isSome ∨ s.deferred.any (·.1 == key) = true) :
    ∀ key ∈ placeholders f.number text, (s.live? key).isSome := by
  intro key mem
  rcases own key mem with live | off
  · exact live
  · rw [undeferred key mem] at off
    cases off

theorem deferredApart {key : String} (keyed : Keyed f s) (off : s.deferred.any (·.1 == key) = true) :
    s.live? key = none := by
  cases found : s.live? key with
  | none => rfl
  | some live =>
    obtain ⟨l, hl, is⟩ := liveKey (by rw [found]; rfl)
    obtain ⟨d, hd, same⟩ := List.any_eq_true.mp off
    exact absurd (is.trans (beq_iff_eq.mp same).symm) (keyed.apart l hl d hd)

theorem chunkUndeferred {chunk : String} (keyed : Keyed f s) (mem : (none, chunk) ∈ boundTexts f s tree) :
    Undeferred f s chunk := by
  obtain ⟨source, composed⟩ := Option.isSome_iff_exists.mp (Option.isSome_map.symm.trans (allBound _ mem))
  rcases List.mem_append.mp mem with mem | mem
  · obtain ⟨e, _, mem⟩ := List.mem_flatMap.mp mem
    obtain ⟨a, _, same⟩ := List.mem_map.mp mem
    cases same
  · obtain ⟨text, _, mem⟩ := List.mem_flatMap.mp mem
    obtain ⟨_, hc, same⟩ := List.mem_map.mp mem
    cases same
    exact separateChunks keyed chunk (List.mem_filter.mp hc).1 (composedLive composed)

theorem recordsSealed (keyed : Keyed f s) (clear : RecordsClear f.number (placed f s tree)) : Sealed f s tree := by
  refine ⟨?_, fun e he a ha event => ?_⟩
  · rintro ⟨_, text⟩ mem name rfl
    obtain ⟨source, composed⟩ := Option.isSome_iff_exists.mp (Option.isSome_map.symm.trans (allBound _ mem))
    have made : bindingFor f s (some name, text) =
        some ⟨"", (compose f.number s text).signals, source, some name⟩ := by
      rw [bindingFor, bindingOf, composed]
      rfl
    obtain ⟨sourceClear, nameClear⟩ := clear.bindings _ (bindingsFound ▸ List.mem_filterMap.mpr ⟨_, mem, made⟩)
    -- Deferred content in a bound attribute would come out in the code.
    refine ⟨fun key hk => Bool.eq_false_iff.mpr fun off => ?_, nameClear name rfl⟩
    have apart := deferredApart keyed off
    obtain ⟨d, hd, same⟩ := List.any_eq_true.mp off
    obtain ⟨n, _, given⟩ := keyed.deferred d hd
    obtain rfl : key = Placeholder.text f.number n := (beq_iff_eq.mp same).symm.trans given
    exact composedLeaks hk apart composed sourceClear
  · obtain ⟨live, found⟩ := Option.isSome_iff_exists.mp event
    have made : handlerAt s a = some (handlerOf a.name live.slot) := by rw [handlerAt, found]; rfl
    have mem : handlerOf a.name live.slot ∈ (placed f s tree).handlers :=
      List.mem_flatMap.mpr ⟨e, he, List.mem_filterMap.mpr ⟨a, ha, made⟩⟩
    exact (clear.handlers _ mem).2

theorem sealedRecords (known : Known f s) (keyed : Keyed f s) (code : CodeClear f) (shown : ShownClear f s)
    (own : OwnOnly f s tree) (apart : Sealed f s tree) : RecordsClear f.number (placed f s tree) := by
  have maybe {slot : Slot} {code? : Option String} (given : slot ∈ f.slots)
      (within : ∀ text ∈ code?, text ∈ codesOf slot) : Clear f.number (code?.getD "").toList := by
    cases code? with
    | none => exact clearNil
    | some text => exact code slot given text (within text rfl)
  refine ⟨fun b hb => ?_, fun h hh => ?_, fun a ha => ?_⟩
  · rw [bindingsFound] at hb
    obtain ⟨⟨name?, text⟩, mem, made⟩ := List.mem_filterMap.mp hb
    obtain ⟨source, composed, rfl⟩ := Option.map_eq_some_iff.mp made
    have undeferred : Undeferred f s text := by
      cases name? with
      | none => exact chunkUndeferred keyed mem
      | some name => exact (apart.attributes _ mem name rfl).1
    refine ⟨composedClear known code shown (undeferredLive undeferred (own _ mem)) composed, ?_⟩
    rintro name rfl
    exact (apart.attributes _ mem name rfl).2
  · obtain ⟨e, he, hh⟩ := List.mem_flatMap.mp hh
    obtain ⟨a, ha, made⟩ := List.mem_filterMap.mp hh
    obtain ⟨live, found, rfl⟩ := Option.map_eq_some_iff.mp made
    obtain ⟨at', _⟩ := Option.filter_eq_some_iff.mp found
    refine ⟨maybe (liveKnown known at').1 fun text given => ?_, apart.events e he a ha (by rw [found]; rfl)⟩
    simp [codesOf, Option.mem_def.mp given]
  · obtain ⟨e, he, made⟩ := List.mem_filterMap.mp ha
    unfold chainAt at made
    split at made
    · cases made
    obtain ⟨live, found, rfl⟩ := Option.map_eq_some_iff.mp made
    have given := (liveKnown known found).1
    refine ⟨maybe given fun text is => ?_, maybe given fun text is => ?_, fun text is => ?_⟩
    · simp [codesOf, Option.mem_def.mp is]
    · simp [codesOf, Option.mem_def.mp is]
    · exact code live.slot given text (by
        have caught : live.slot.catchCallback = some text := is
        simp [codesOf, caught])

theorem placedClear (known : Known f s) (keyed : Keyed f s) (code : CodeClear f) (shown : ShownClear f s)
    (own : OwnOnly f s tree) : RecordsClear f.number (placed f s tree) ↔ Sealed f s tree :=
  ⟨recordsSealed keyed, sealedRecords known keyed code shown own⟩

end Records

end LiveMarkup.Render
