import LiveMarkup.Proofs.Render.Nonce
import LiveMarkup.Proofs.Render.Walk
import Mathlib.Data.List.Chain
/-! How a text is cut into chunks: each placeholder whose content waits stands alone, and what is between two of them stays
together. A placeholder is where a scan from the left finds it. -/
namespace LiveMarkup.Render

variable {number : Nat} {a b s before key rest : List Char} {text : String} {p : Piece} {ps qs seen : List Piece}

section Scanning

def IsKey (number : Nat) (key : List Char) : Prop :=
  ∃ digits, key = Placeholder.lead number ++ digits ++ ['_', '_'] ∧ digits ≠ [] ∧ ∀ d ∈ digits, Text.isDigit d = true

theorem keyFront : IsKey number key ↔ Front number key := by
  refine ⟨?_, frontShape⟩
  rintro ⟨digits, rfl, some, all⟩
  exact ⟨by simp, fun rest => frontForm some all⟩

structure Foremost (number : Nat) (before key after : List Char) : Prop where
  own : IsKey number key
  first : ∀ b k c, IsKey number k → before ++ (key ++ after) = b ++ (k ++ c) → before.length ≤ b.length

inductive Finds (number : Nat) : (text before key : List Char) → Prop where
  | first {before key after} (foremost : Foremost number before key after) :
      Finds number (before ++ (key ++ after)) before key
  | later {before key after inner other} (foremost : Foremost number before key after)
      (behind : Finds number after inner other) :
      Finds number (before ++ (key ++ after)) (before ++ (key ++ inner)) other

theorem foremostStep (free : Free number a (key ++ rest)) (front : Front number key) : Foremost number a key rest :=
  ⟨keyFront.mpr front, fun _ _ _ is same => frontOnce free (keyFront.mp is) same.symm⟩

theorem foremostOnce {other after : List Char} (foremost : Foremost number before other after)
    (free : Free number a (key ++ rest)) (front : Front number key)
    (same : a ++ (key ++ rest) = before ++ (other ++ after)) : a = before ∧ key = other ∧ rest = after := by
  have own := keyFront.mp foremost.own
  have lengths := Nat.le_antisymm (frontOnce free own same.symm) (foremost.first a key rest (keyFront.mpr front) same.symm)
  obtain ⟨place, behind⟩ := List.append_inj same lengths
  have keys : some (key, rest) = some (other, after) := by
    rw [← front.2 rest, ← own.2 after, behind]
  cases keys
  exact ⟨place, rfl, rfl⟩

def moved (front : List Char) (places : List (List Char × List Char)) : List (List Char × List Char) :=
  places.map fun (before, key) => (front ++ before, key)

def spots : List Piece → List (List Char × List Char)
  | [] => []
  | .plain s :: rest => moved s.toList (spots rest)
  | .placeholder key :: rest => ([], key.toList) :: moved key.toList (spots rest)

theorem movedNil {places : List (List Char × List Char)} : moved [] places = places := List.map_id _

theorem movedAppend {as bs : List (List Char × List Char)} : moved a (as ++ bs) = moved a as ++ moved a bs :=
  List.map_append

theorem movedTwice {places : List (List Char × List Char)} : moved a (moved b places) = moved (a ++ b) places := by
  simp [moved]

theorem spotsAppend : spots (ps ++ qs) = spots ps ++ moved (charsOf ps) (spots qs) := by
  induction ps with
  | nil => exact movedNil.symm
  | cons p ps ih =>
    have chars : charsOf (p :: ps) = p.text.toList ++ charsOf ps := rfl
    cases p <;> simp only [List.cons_append, spots, ih, movedAppend, movedTwice, chars, Piece.text]

theorem spotsSplit (mem : (before, key) ∈ spots ps) :
    ∃ qs rs, ps = qs ++ .placeholder (String.ofList key) :: rs ∧ charsOf qs = before := by
  induction ps generalizing before with
  | nil => cases mem
  | cons p ps ih =>
    have behind {before : List Char} (mem : (before, key) ∈ moved p.text.toList (spots ps)) :
        ∃ qs rs, p :: ps = qs ++ .placeholder (String.ofList key) :: rs ∧ charsOf qs = before := by
      obtain ⟨⟨inner, _⟩, mem, same⟩ := List.mem_map.mp mem
      cases same
      obtain ⟨qs, rs, rfl, rfl⟩ := ih mem
      exact ⟨p :: qs, rs, rfl, rfl⟩
    cases p with
    | plain text => exact behind mem
    | placeholder other =>
      rcases List.mem_cons.mp mem with same | mem
      · cases same
        exact ⟨[], ps, by rw [String.ofList_toList, List.nil_append], rfl⟩
      · exact behind mem

theorem findsPieces (h : Pieces number s ps) : Finds number s before key ↔ (before, key) ∈ spots ps := by
  induction h generalizing before with
  | @last a free =>
    refine ⟨fun finds => ?_, fun mem => nomatch mem⟩
    generalize whole : a = s at finds
    cases finds with
    | first foremost => exact absurd free (frontBlocks (keyFront.mp foremost.own) whole.symm)
    | later foremost behind => exact absurd free (frontBlocks (keyFront.mp foremost.own) whole.symm)
  | @step a found rest ps free front tail ih =>
    have listed : spots (.plain (String.ofList a) :: .placeholder (String.ofList found) :: ps) =
        (a, found) :: moved (a ++ found) (spots ps) := by
      simp [spots, moved]
    rw [listed, List.mem_cons]
    constructor
    · intro finds
      generalize whole : a ++ (found ++ rest) = s at finds
      cases finds with
      | first foremost =>
        obtain ⟨rfl, rfl, -⟩ := foremostOnce foremost free front whole
        exact .inl rfl
      | later foremost behind =>
        obtain ⟨rfl, rfl, rfl⟩ := foremostOnce foremost free front whole
        exact .inr (List.mem_map.mpr ⟨_, ih.mp behind, by simp⟩)
    · rintro (same | mem)
      · cases same
        exact .first (foremostStep free front)
      · obtain ⟨⟨inner, other⟩, mem, same⟩ := List.mem_map.mp mem
        cases same
        rw [List.append_assoc]
        exact .later (foremostStep free front) (ih.mpr mem)

theorem findsSplit : Finds number text.toList before key ↔ (before, key) ∈ spots (Piece.split number text) :=
  findsPieces splitPieces

theorem findsKey (found : Finds number text.toList before key) : String.ofList key ∈ placeholders number text := by
  obtain ⟨qs, rs, split, -⟩ := spotsSplit (findsSplit.mp found)
  rw [placeholders, split]
  exact List.mem_filterMap.mpr ⟨_, List.mem_append_right _ List.mem_cons_self, rfl⟩

end Scanning

section Cutting

variable {waits : String → Bool} {current : String} {parts : List String}

theorem pendingFilled : "" ∉ pending current := by
  unfold pending
  split
  · exact List.not_mem_nil
  · next some => simpa using fun empty => some (String.isEmpty_iff.mpr empty)

theorem pendingChained {R : String → String → Prop} : (pending current).IsChain R := by
  unfold pending
  split <;> simp

theorem chunksFilled (some : waits "" = false) : "" ∉ chunks waits current ps := by
  induction ps generalizing current with
  | nil => exact pendingFilled
  | cons p ps ih =>
    cases off : waits p.text with
    | false => exact chunksStay off ▸ ih
    | true =>
      rw [chunksWait off]
      refine fun mem => (List.mem_append.mp mem).elim pendingFilled fun mem => ?_
      rcases List.mem_cons.mp mem with same | mem
      · rw [← same, some] at off
        cases off
      · exact ih mem

theorem chunksChained : (chunks waits current ps).IsChain fun a b => waits a = true ∨ waits b = true := by
  induction ps generalizing current with
  | nil => exact pendingChained
  | cons p ps ih =>
    cases off : waits p.text with
    | false => exact chunksStay off ▸ ih
    | true =>
      rw [chunksWait off, List.isChain_append]
      refine ⟨pendingChained, List.isChain_cons.mpr ⟨fun _ _ => .inl off, ih⟩, fun _ _ b hb => .inr ?_⟩
      obtain rfl := Option.some.inj hb
      exact off

theorem chunksAlone (off : waits p.text = true) :
    ∃ cs ds, chunks waits current (qs ++ p :: ps) = cs ++ p.text :: ds ∧
      String.join cs = current ++ String.join (qs.map (·.text)) := by
  induction qs generalizing current with
  | nil =>
    refine ⟨pending current, _, chunksWait off, ?_⟩
    rw [pendingJoin, List.map_nil, String.join_nil, String.append_empty]
  | cons q qs ih =>
    rw [List.cons_append, List.map_cons, String.join_cons]
    cases first : waits q.text with
    | false =>
      obtain ⟨cs, ds, same, joined⟩ := @ih (current ++ q.text)
      exact ⟨cs, ds, (chunksStay first).trans same, by rw [joined, String.append_assoc]⟩
    | true =>
      obtain ⟨cs, ds, same, joined⟩ := @ih ""
      refine ⟨pending current ++ q.text :: cs, ds, by rw [chunksWait first, same]; simp, ?_⟩
      rw [String.join_append, String.join_cons, pendingJoin, joined, String.empty_append]

def spotsIn (number : Nat) : List String → List (List Char × List Char)
  | [] => []
  | chunk :: rest => spots (Piece.split number chunk) ++ moved chunk.toList (spotsIn number rest)

theorem spotsInAppend {cs ds : List String} :
    spotsIn number (cs ++ ds) = spotsIn number cs ++ moved (String.join cs).toList (spotsIn number ds) := by
  induction cs with
  | nil => exact movedNil.symm
  | cons c cs ih =>
    simp only [List.cons_append, spotsIn, ih, movedAppend, movedTwice, List.append_assoc, String.join_cons,
      String.toList_append]

theorem spotsInSplit : (before, key) ∈ spotsIn number parts ↔
    ∃ cs chunk ds inner, parts = cs ++ chunk :: ds ∧ (inner, key) ∈ spots (Piece.split number chunk) ∧
      before = (String.join cs).toList ++ inner := by
  constructor
  · intro mem
    induction parts generalizing before with
    | nil => cases mem
    | cons c rest ih =>
      rcases List.mem_append.mp mem with mem | mem
      · exact ⟨[], c, rest, before, rfl, mem, rfl⟩
      · obtain ⟨⟨behind, _⟩, mem, same⟩ := List.mem_map.mp mem
        cases same
        obtain ⟨cs, chunk, ds, inner, rfl, found, rfl⟩ := ih mem
        exact ⟨c :: cs, chunk, ds, inner, rfl, found, by simp⟩
  · rintro ⟨cs, chunk, ds, inner, rfl, mem, rfl⟩
    rw [spotsInAppend]
    exact List.mem_append_right _ (List.mem_map.mpr ⟨(inner, key), List.mem_append_left _ mem, rfl⟩)

theorem spotsPending (h : Pieces number s seen) :
    spotsIn number (pending (String.join (seen.map (·.text)))) = spots seen := by
  have split := splitJoined h
  unfold pending
  split
  · next empty =>
    rw [← split, String.isEmpty_iff.mp empty]
    rfl
  · rw [spotsIn, split]
    exact List.append_nil _

def keysAt (places : List (List Char × List Char)) : List String := places.map fun (_, key) => String.ofList key

theorem movedKeys {places : List (List Char × List Char)} : keysAt (moved a places) = keysAt places := List.map_map

theorem spotsKeys : keysAt (spots ps) = ps.filterMap (·.key?) := by
  induction ps with
  | nil => rfl
  | cons p ps ih =>
    cases p with
    | plain text => exact movedKeys.trans ih
    | placeholder key =>
      have first : keysAt (spots (.placeholder key :: ps)) = key :: keysAt (moved key.toList (spots ps)) := by
        simp [keysAt, spots]
      rw [first, movedKeys, ih]
      rfl

theorem spotsInKeys {cs : List String} : keysAt (spotsIn number cs) = cs.flatMap (placeholders number) := by
  induction cs with
  | nil => rfl
  | cons c cs ih =>
    have both : keysAt (spotsIn number (c :: cs)) =
        keysAt (spots (Piece.split number c)) ++ keysAt (moved c.toList (spotsIn number cs)) := List.map_append
    rw [both, spotsKeys, movedKeys, ih, List.flatMap_cons, placeholders]

theorem spotsChunks (fronts : ∀ key, waits key = true → Front number key.toList) (h : Pieces number s (seen ++ ps)) :
    spotsIn number (chunks waits (String.join (seen.map (·.text))) ps) = spots (seen ++ ps) := by
  induction ps generalizing s seen with
  | nil =>
    rw [List.append_nil] at h ⊢
    exact spotsPending h
  | cons p rest ih =>
    cases off : waits p.text with
    | false =>
      have next := @ih s (seen ++ [p]) (by rwa [List.append_assoc])
      rw [joinLast, List.append_assoc] at next
      exact chunksStay off ▸ next
    | true =>
      cases p with
      | plain text => exact absurd (fronts text off) (plainFree h (by simp))
      | placeholder key =>
        obtain ⟨before, after⟩ := piecesCut h
        have tail := @ih _ [] after
        have own : spots (Piece.split number key) = [([], key.toList)] := by
          rw [splitFront (fronts key off)]
          rfl
        rw [List.map_nil, String.join_nil, List.nil_append] at tail
        rw [chunksWait off, spotsInAppend, spotsPending before, pendingJoin, charsJoin, spotsAppend, Piece.text, spotsIn,
          tail, own]
        rfl

theorem chunkedKeys (fronts : ∀ key, waits key = true → Front number key.toList) (h : Pieces number s (seen ++ ps)) :
    (chunks waits (String.join (seen.map (·.text))) ps).flatMap (placeholders number) =
      (seen ++ ps).filterMap (·.key?) := by
  rw [← spotsInKeys, spotsChunks fronts h, spotsKeys]

end Cutting

section Chunks

variable {f : Factory} {s : State}

/-- How a text is cut where some placeholders are to stand alone. -/
structure Cut (number : Nat) (deferred : List String) (text : String) (chunks : List String) : Prop where
  joined : String.join chunks = text
  filled : "" ∉ chunks
  alone : ∀ before key, Finds number text.toList before key → String.ofList key ∈ deferred →
    ∃ cs ds, chunks = cs ++ String.ofList key :: ds ∧ (String.join cs).toList = before
  clear : ∀ chunk ∈ chunks, chunk ∈ deferred ∨
    ∀ before key, Finds number chunk.toList before key → String.ofList key ∉ deferred
  apart : chunks.IsChain fun a b => a ∈ deferred ∨ b ∈ deferred
  whole : ∀ before key, Finds number text.toList before key ↔ ∃ cs chunk ds inner, chunks = cs ++ chunk :: ds ∧
    Finds number chunk.toList inner key ∧ before = (String.join cs).toList ++ inner

theorem splitCut (keys : ∀ d ∈ s.deferred, IsKey f.number d.1.toList) :
    Cut f.number (s.deferred.map (·.1)) text (splitDeferred f.number s text) := by
  have waits (key : String) : s.deferred.any (·.1 == key) = true ↔ key ∈ s.deferred.map (·.1) := by
    simp [List.any_eq_true]
  have fronts (key : String) (off : s.deferred.any (·.1 == key) = true) : Front f.number key.toList := by
    obtain ⟨d, hd, rfl⟩ := List.mem_map.mp ((waits key).mp off)
    exact keyFront.mp (keys d hd)
  have pieces : Pieces f.number text.toList ([] ++ Piece.split f.number text) := splitPieces
  have places : spotsIn f.number (splitDeferred f.number s text) = spots (Piece.split f.number text) :=
    spotsChunks fronts pieces
  have some : s.deferred.any (·.1 == "") = false :=
    Bool.eq_false_iff.mpr fun off => (fronts "" off).1 rfl
  refine ⟨?_, chunksFilled some, fun before key found off => ?_, fun chunk mem => ?_, ?_, fun before key => ?_⟩
  · rw [splitDeferred, joinChunks, joinSplit, String.empty_append]
  · obtain ⟨qs, rs, split, rfl⟩ := spotsSplit (findsSplit.mp found)
    obtain ⟨cs, ds, same, joined⟩ := @chunksAlone (.placeholder (String.ofList key)) rs qs
      (fun key => s.deferred.any (·.1 == key)) "" ((waits _).mpr off)
    refine ⟨cs, ds, by rw [splitDeferred, split, same, Piece.text], ?_⟩
    rw [joined, String.empty_append, charsJoin]
  · refine (chunkApart fronts pieces (fun _ none => absurd none List.not_mem_nil) mem).imp (waits chunk).mp ?_
    intro clear before key found off
    rw [← waits, clear _ (findsKey found)] at off
    cases off
  · simp only [← waits]
    exact chunksChained
  · rw [findsSplit, ← places, spotsInSplit]
    simp only [findsSplit]

theorem findsWhole (own : IsKey number key) : Finds number key [] key := by
  have found := @Finds.first number [] key [] ⟨own, fun _ _ _ _ _ => Nat.zero_le _⟩
  rwa [List.nil_append, List.append_nil] at found

theorem cutFew {deferred chunks : List String} (cut : Cut number deferred text chunks)
    (keys : ∀ key ∈ deferred, IsKey number key.toList) (none : placeholders number text = []) : chunks.length ≤ 1 := by
  have plain (chunk : String) (mem : chunk ∈ chunks) : chunk ∉ deferred := by
    intro off
    obtain ⟨cs, ds, same⟩ := List.append_of_mem mem
    have found := (cut.whole _ _).mpr ⟨cs, chunk, ds, [], same, findsWhole (keys chunk off), rfl⟩
    exact absurd (none ▸ findsKey found) List.not_mem_nil
  match chunks, cut.apart with
  | [], _ | [_], _ => simp
  | a :: b :: rest, apart =>
    rcases (List.isChain_cons_cons.mp apart).1 with off | off
    · exact absurd off (plain a (by simp))
    · exact absurd off (plain b (by simp))

/-- Cutting a text loses nothing. The chunks are the text, none of them is empty, and each placeholder whose content waits
is one of them; the others hold none, two of them never stand side by side, and no placeholder of either kind is cut. A
text that makes one chunk at most stays as it is. -/
theorem textCut (keys : ∀ d ∈ s.deferred, IsKey f.number d.1.toList) (text : String) :
    Cut f.number (s.deferred.map (·.1)) text (splitDeferred f.number s text) ∧
      out (chunksOf text) f s =
        (.ok (if (splitDeferred f.number s text).length ≤ 1 then [text] else splitDeferred f.number s text), s) := by
  have cut : Cut f.number (s.deferred.map (·.1)) text (splitDeferred f.number s text) := splitCut keys
  refine ⟨cut, ?_⟩
  rw [outChunks, chunksIn]
  split
  · next none =>
    have few := cutFew cut (List.forall_mem_map.mpr keys) (List.isEmpty_iff.mp none)
    rw [if_pos few]
  · rfl

def slicedState : State :=
  { page := {}, written := ["n"]
    live := [(Placeholder.text 0 1,
      ⟨.whole 1, { signals := ["n"], source := "this.n", expression := "self.n", template := "", line := 1 }⟩)]
    deferred := [(Placeholder.text 0 0, .markup "*"), (Placeholder.text 0 2, .markup "!")] }

def slicedFactory : Factory := ⟨.ofFields "Sliced" [], 0, [], none⟩

def slicedText : String :=
  "a__zinc_00000000_0____zinc_00000000_2__b__zinc_00000000_1__c__zinc_00000000_0__"

def slicedChunks : List String :=
  ["a", "__zinc_00000000_0__", "__zinc_00000000_2__", "b__zinc_00000000_1__c", "__zinc_00000000_0__"]

theorem slicedCut : (∀ d ∈ slicedState.deferred, IsKey slicedFactory.number d.1.toList) ∧
    Cut 0 ["__zinc_00000000_0__", "__zinc_00000000_2__"] slicedText slicedChunks ∧
    out (chunksOf slicedText) slicedFactory slicedState = (.ok slicedChunks, slicedState) := by
  have keys : ∀ d ∈ slicedState.deferred, IsKey slicedFactory.number d.1.toList := by
    intro d hd
    rcases List.mem_cons.mp hd with rfl | hd
    · exact keyFront.mpr textFront
    · obtain rfl := List.mem_singleton.mp hd
      exact keyFront.mpr textFront
  have made : splitDeferred slicedFactory.number slicedState slicedText = slicedChunks := by decide +kernel
  have deferred : slicedState.deferred.map (·.1) = ["__zinc_00000000_0__", "__zinc_00000000_2__"] := by decide +kernel
  obtain ⟨cut, chunks⟩ := textCut keys slicedText
  rw [made] at cut chunks
  exact ⟨keys, deferred ▸ cut, chunks⟩

end Chunks

end LiveMarkup.Render
