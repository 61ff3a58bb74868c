import LiveMarkup.Proofs.Markup.Reference
import LiveMarkup.Proofs.Markup.Scan
import LiveMarkup.Proofs.Render.Direct
/-! Trees that are read back with the identifiers they are written with. Each start tag of a text gives one
element of its tree, and a tree is written with a start tag for each of its elements. -/
namespace LiveMarkup.Render
open Client Markup

section Counted

def carried (nodes : List Node) : List String := (elements nodes).filterMap fun e => Attribute.get? e.1 idAttribute

variable {a b : List Node} {id : String}

theorem carriedAppend : carried (a ++ b) = carried a ++ carried b := by
  rw [carried, elementsAppend, List.filterMap_append]
  rfl

theorem carriedElement {name : String} {attributes : List Attribute} {children : List Node} :
    carried [.element name attributes children] = (Attribute.get? attributes idAttribute).toList ++ carried children := by
  have listed : elements [.element name attributes children] = (attributes, children) :: elements children := by
    rw [elements, elementsIn, elements, List.append_nil]
  rw [carried, listed, List.filterMap_cons]
  cases Attribute.get? attributes idAttribute <;> rfl

theorem carriedCons {n : Node} : carried (n :: a) = carried [n] ++ carried a := by
  rw [← carriedAppend, List.singleton_append]

open Tree

variable {s : Tree.State}

end Counted

section Decoded

def betweenQuotes (c : Char) : List Char := if c == '"' then ['&', 'q', 'u', 'o', 't', ';'] else [c]

theorem quoteApart {c : Char} : '"' ∉ betweenQuotes c := by
  unfold betweenQuotes
  split
  · decide
  · next other => exact fun mem => other (beq_iff_eq.mpr (List.mem_singleton.mp mem).symm)

theorem bothWritten : Written fun c => (writtenChar c).flatMap betweenQuotes := by
  intro c
  by_cases quote : c = '"'
  · subst quote
    exact .inr ⟨['q', 'u', 'o', 't'], by simp [references], rfl⟩
  · rcases charWritten c with ⟨other, same⟩ | ⟨name, known, same⟩
    · refine .inl ⟨other, ?_⟩
      show (writtenChar c).flatMap betweenQuotes = [c]
      rw [same, List.flatMap_singleton, betweenQuotes, if_neg (by simpa using quote)]
    · refine .inr ⟨name, known, ?_⟩
      show (writtenChar c).flatMap betweenQuotes = _
      rw [same]
      simp only [references, List.mem_cons, Prod.mk.injEq, List.not_mem_nil, or_false] at known
      rcases known with ⟨rfl, rfl⟩ | ⟨rfl, rfl⟩ | ⟨rfl, rfl⟩ | ⟨rfl, rfl⟩ | ⟨rfl, rfl⟩ <;> rfl

def shownText (a : Attribute) : String := a.written?.getD a.value

def quoting (a : Attribute) : Quoting :=
  let chars := (shownText a).toList.flatMap writtenChar
  if chars.contains '"' then
    if chars.contains '\'' then ⟨a.name.toList, '"', chars.flatMap betweenQuotes⟩ else ⟨a.name.toList, '\'', chars⟩
  else ⟨a.name.toList, '"', chars⟩

variable {a : Attribute}

theorem quotingName : (quoting a).name = a.name.toList := by
  unfold quoting
  simp only
  split
  · split <;> rfl
  · rfl

theorem quotingWritten : a.write.toList = (quoting a).chars := by
  have text : (writeText (shownText a)).toList = (shownText a).toList.flatMap writtenChar := String.toList_ofList
  have quotes : (fun c => if c == '"' then ['&', 'q', 'u', 'o', 't', ';'] else [c]) = betweenQuotes := rfl
  unfold Attribute.write writeQuoted quoting
  rw [show a.written?.getD a.value = shownText a from rfl]
  simp only [text]
  split
  · split
    · simp only [String.toList_append, String.toList_ofList, quotes, Quoting.chars, Quoting.body]
      simp
    · simp only [String.toList_append, text, Quoting.chars, Quoting.body]
      simp
  · simp only [String.toList_append, text, Quoting.chars, Quoting.body]
    simp

theorem quotingDecoded : Entity.decode (quoting a).inner = (shownText a).toList := by
  have coded : Coded (quoting a).inner (shownText a).toList := by
    have plain := codedMap charWritten (shownText a).toList
    unfold quoting
    simp only
    split
    · split
      · simp only [List.flatMap_assoc]
        exact codedMap bothWritten _
      · exact plain
    · exact plain
  exact decodeCoded coded (Nat.le_refl _)

end Decoded

section Tags

structure TagFit (name : String) (attributes : List Attribute) : Prop where
  plain : PlainName name.toList
  named : ∀ a ∈ attributes, a.name.toList ≠ [] ∧ (∀ c ∈ a.name.toList, Tag.isAttributeChar c = true) ∧
    Tag.lowerText a.name.toList = a.name
  shown : ∀ a ∈ attributes, a.name = idAttribute → a.written? = none
  once : (attributes.map (·.name)).Nodup

instance (name : String) (attributes : List Attribute) : Decidable (TagFit name attributes) :=
  decidable_of_iff (PlainName name.toList ∧ (∀ a ∈ attributes, a.name.toList ≠ [] ∧
      a.name.toList.all Tag.isAttributeChar = true ∧ Tag.lowerText a.name.toList = a.name) ∧
      (∀ a ∈ attributes, a.name = idAttribute → a.written? = none) ∧ (attributes.map (·.name)).Nodup)
    (by
      simp only [List.all_eq_true]
      exact ⟨fun h => ⟨h.1, h.2.1, h.2.2.1, h.2.2.2⟩, fun h => ⟨h.plain, h.named, h.shown, h.once⟩⟩)

variable {name : String} {attributes : List Attribute} {a : Attribute}

theorem quotingValid (some : a.name.toList ≠ []) (chars : ∀ c ∈ a.name.toList, Tag.isAttributeChar c = true) :
    (quoting a).Valid where
  some := quotingName ▸ some
  name := quotingName ▸ chars
  quote := by
    unfold quoting
    simp only
    split
    · split
      · exact .inl rfl
      · exact .inr rfl
    · exact .inl rfl
  inner := by
    unfold quoting
    simp only
    split
    · split
      · intro mem
        obtain ⟨c, _, mem⟩ := List.mem_flatMap.mp mem
        exact quoteApart mem
      · next none => exact fun mem => none (List.contains_iff_mem.mpr mem)
    · next none => exact fun mem => none (List.contains_iff_mem.mpr mem)

theorem insertPerm {as : List Attribute} : (Attribute.insertByName a as).Perm (a :: as) := by
  induction as with
  | nil => exact .refl _
  | cons b as ih =>
    rw [Attribute.insertByName]
    split
    · exact (ih.cons b).trans (.swap a b as)
    · exact .refl _

theorem sortPerm : (Attribute.sortByName attributes).Perm attributes := by
  induction attributes with
  | nil => exact .refl _
  | cons a rest ih => exact insertPerm.trans (ih.cons a)

theorem getMember {value : String} (once : (attributes.map (·.name)).Nodup) :
    Attribute.get? attributes name = some value ↔ ∃ a ∈ attributes, a.name = name ∧ a.value = value := by
  unfold Attribute.get?
  induction attributes with
  | nil => simp
  | cons a rest ih =>
    obtain ⟨new, once⟩ := List.nodup_cons.mp once
    rw [List.find?_cons]
    split
    · next same =>
      have named : a.name = name := beq_iff_eq.mp same
      constructor
      · intro found
        exact ⟨a, List.mem_cons_self, named, Option.some.inj found⟩
      · rintro ⟨b, mem, called, rfl⟩
        rcases List.mem_cons.mp mem with rfl | mem
        · rfl
        · exact absurd (List.mem_map.mpr ⟨b, mem, called.trans named.symm⟩) new
    · next other =>
      rw [ih once]
      have differs : a.name ≠ name := by simpa using other
      simp [differs]

theorem getWritten {written : List (String × String)} {done : List Attribute} {value : String}
    (once : (written.map (·.1)).Nodup) :
    Attribute.get? (written.foldl (fun done (name, value) => Attribute.put name value done) done) name = some value ↔
      (name, value) ∈ written ∨ name ∉ written.map (·.1) ∧ Attribute.get? done name = some value := by
  induction written generalizing done with
  | nil => simp
  | cons p rest ih =>
    obtain ⟨other, given⟩ := p
    obtain ⟨new, once⟩ := List.nodup_cons.mp once
    rw [List.foldl_cons, ih once]
    by_cases same : other = name
    · subst same
      simp only [getPut, List.mem_cons, List.map_cons, Prod.mk.injEq, Option.some.injEq]
      grind
    · simp only [getPutOther same, List.mem_cons, List.map_cons, Prod.mk.injEq]
      grind

theorem tagIdentifier {closed : Bool} (fit : TagFit name attributes) {called : List Char} :
    identifiers [tagToken called ((Attribute.sortByName attributes).map quoting) closed] =
      (Attribute.get? attributes idAttribute).toList := by
  have pairs : ((Attribute.sortByName attributes).map quoting).map (fun a => a.written.attribute) =
      (Attribute.sortByName attributes).map fun a => (a.name, shownText a) := by
    rw [List.map_map]
    refine List.map_congr_left fun a mem => ?_
    have lowered := (fit.named a (sortPerm.mem_iff.mp mem)).2.2
    simp only [Function.comp_apply, Quoting.written, Tag.Written.attribute, quotingName, quotingDecoded, lowered,
      String.ofList_toList]
  have once : (((Attribute.sortByName attributes).map fun a => (a.name, shownText a)).map (·.1)).Nodup := by
    rw [List.map_map]
    exact (sortPerm.map _).nodup_iff.mpr fit.once
  have same : Attribute.get? (Attribute.ofWritten ((Attribute.sortByName attributes).map fun a => (a.name, shownText a)))
      idAttribute = Attribute.get? attributes idAttribute := by
    refine Option.ext fun value => ?_
    rw [Attribute.ofWritten, getWritten once, getMember fit.once]
    have none : Attribute.get? [] idAttribute = Option.none := rfl
    simp only [none, reduceCtorEq, and_false, or_false, List.mem_map, Prod.mk.injEq, sortPerm.mem_iff]
    constructor
    · rintro ⟨a, mem, named, rfl⟩
      refine ⟨a, mem, named, ?_⟩
      rw [shownText, fit.shown a mem named]
      rfl
    · rintro ⟨a, mem, named, rfl⟩
      refine ⟨a, mem, named, ?_⟩
      rw [shownText, fit.shown a mem named]
      rfl
  unfold tagToken identifiers
  rw [pairs, List.filterMap_cons, identifier?, same]
  cases Attribute.get? attributes idAttribute <;> rfl

end Tags

section Pieces

inductive ClosedPieces : List Piece → List String → Prop where
  | none : ClosedPieces [] []
  | plain {s ids rest ids'} (own : Closed s.toList ids) (behind : ClosedPieces rest ids') :
      ClosedPieces (.plain s :: rest) (ids ++ ids')
  | placeholder {rest ids} (key) (behind : ClosedPieces rest ids) : ClosedPieces (.placeholder key :: rest) ids

variable {number : Nat} {ps qs : List Piece} {ids ids' : List String}

theorem closedPiecesAppend (h : ClosedPieces ps ids) (h' : ClosedPieces qs ids') :
    ClosedPieces (ps ++ qs) (ids ++ ids') := by
  induction h with
  | none => exact h'
  | plain own _ ih =>
    rw [List.append_assoc]
    exact .plain own ih
  | placeholder key _ ih => exact .placeholder key ih

theorem closedOne {s : String} (own : Closed s.toList ids) : ClosedPieces [.plain s] ids :=
  List.append_nil ids ▸ .plain own .none

def textPieces (number : Nat) (text : String) : List Piece :=
  (Piece.split number text).map fun
    | .plain s => .plain (writeText s)
    | .placeholder key => .placeholder key

def startText (name : String) (attributes : List Attribute) : String :=
  "<" ++ name ++ String.join ((Attribute.sortByName attributes).map (·.write))

mutual

def nodePieces (number : Nat) : Node → List Piece
  | .text (.aside kind) s => [.plain (kind.write s)]
  | .text _ s => textPieces number s
  | .element name attributes children =>
    if children.isEmpty && isVoid name then [.plain (startText name attributes ++ "/>")]
    else if Reader.rawElements.contains name then
      [.plain (startText name attributes ++ ">" ++ Node.writeAll true children ++ "</" ++ name ++ ">")]
    else .plain (startText name attributes ++ ">") :: (treePieces number children ++ [.plain ("</" ++ name ++ ">")])

def treePieces (number : Nat) : List Node → List Piece
  | [] => []
  | n :: rest => nodePieces number n ++ treePieces number rest

end

mutual

def Legible : Node → Prop
  | .text (.aside kind) s => Closed (kind.write s).toList []
  | .text _ _ => True
  | .element name attributes children =>
    TagFit name attributes ∧
      if Reader.rawElements.contains name then
        elements children = [] ∧ unended name (Node.writeAll true children).toList = true
      else Reader.rawElements.contains (Tag.lowerText name.toList) = false ∧ AllLegible children

def AllLegible : List Node → Prop
  | [] => True
  | n :: rest => Legible n ∧ AllLegible rest

end

mutual

def isLegible : Node → Bool
  | .text (.aside _) _ => false
  | .text _ _ => true
  | .element name attributes children =>
    decide (TagFit name attributes) &&
      if Reader.rawElements.contains name then
        (elements children).isEmpty && unended name (Node.writeAll true children).toList
      else !Reader.rawElements.contains (Tag.lowerText name.toList) && areLegible children

def areLegible : List Node → Bool
  | [] => true
  | n :: rest => isLegible n && areLegible rest

end

mutual

theorem legibleSeen : (n : Node) → isLegible n = true → Legible n
  | .text .plain _, _ | .text .hidden _, _ => trivial
  | .text (.aside _) _, seen => nomatch seen
  | .element name attributes children, seen => by
    have inner := allLegibleSeen children
    rw [isLegible, Bool.and_eq_true_iff, decide_eq_true_eq] at seen
    obtain ⟨fit, content⟩ := seen
    refine ⟨fit, ?_⟩
    split at content
    · next raw =>
      rw [Bool.and_eq_true_iff, List.isEmpty_iff] at content
      rw [if_pos raw]
      exact content
    · next markup =>
      rw [Bool.and_eq_true_iff, Bool.not_eq_true'] at content
      rw [if_neg markup]
      exact ⟨content.1, inner content.2⟩

theorem allLegibleSeen : (nodes : List Node) → areLegible nodes = true → AllLegible nodes
  | [], _ => trivial
  | n :: rest, seen => by
    rw [areLegible, Bool.and_eq_true_iff] at seen
    exact ⟨legibleSeen n seen.1, allLegibleSeen rest seen.2⟩

end

theorem keyWritten {key : List Char} (front : Front number key) : key.flatMap writtenChar = key := by
  have kept : ∀ c ∈ key, writtenChar c = [c] := by
    intro c mem
    have apart : c ≠ '&' ∧ c ≠ '<' ∧ c ≠ '>' := by
      refine ⟨?_, ?_, ?_⟩ <;> rintro rfl <;> exact absurd (frontChars front mem) (by decide)
    simp [writtenChar, apart]
  rw [List.flatMap_def, List.map_congr_left kept, ← List.flatMap_def, List.flatMap_singleton']

theorem charsCons {p : Piece} : charsOf (p :: ps) = p.text.toList ++ charsOf ps := rfl

theorem charsText {text : String} : charsOf (textPieces number text) = (writeText text).toList := by
  have fronts (p : Piece) (mem : p ∈ Piece.split number text) (key : String) (is : p = .placeholder key) :
      Front number key.toList := splitFronts (is ▸ mem)
  have whole := charsPieces (@splitPieces number text)
  rw [writeText, String.toList_ofList, ← whole, textPieces]
  generalize Piece.split number text = ps at fronts
  induction ps with
  | nil => rfl
  | cons p rest ih =>
    obtain ⟨own, others⟩ := List.forall_mem_cons.mp fronts
    have behind := ih others
    rw [charsCons, List.flatMap_append, ← behind]
    cases p with
    | plain s =>
      have text : (writeText s).toList = s.toList.flatMap writtenChar := String.toList_ofList
      rw [List.map_cons, charsCons, Piece.text, Piece.text, text]
    | placeholder key => rw [List.map_cons, charsCons, Piece.text, keyWritten (own key rfl)]

mutual

theorem charsNode : (n : Node) → charsOf (nodePieces number n) = (Node.write false n).toList
  | .text .plain s | .text .hidden s => charsText
  | .text (.aside kind) s => List.append_nil _
  | .element name attributes children => by
    have inner := charsTree children
    have one {s : String} : charsOf [.plain s] = s.toList := List.append_nil _
    have start : "<" ++ name ++ String.join ((Attribute.sortByName attributes).map (·.write)) = startText name attributes :=
      rfl
    rw [nodePieces, Node.write]
    simp only [start]
    split
    · exact one
    split
    · next raw =>
      rw [raw]
      exact one
    · next markup =>
      have split : charsOf (.plain (startText name attributes ++ ">") ::
          (treePieces number children ++ [.plain ("</" ++ name ++ ">")])) =
          (startText name attributes ++ ">").toList ++ (charsOf (treePieces number children) ++
            charsOf [.plain ("</" ++ name ++ ">")]) := congrArg _ List.flatMap_append
      rw [Bool.eq_false_iff.mpr markup, split, inner, one]
      simp only [String.toList_append, List.append_assoc]

theorem charsTree : (nodes : List Node) → charsOf (treePieces number nodes) = (Node.writeAll false nodes).toList
  | [] => rfl
  | n :: rest => by
    rw [treePieces, Node.writeAll, String.toList_append, ← charsNode n, ← charsTree rest]
    exact List.flatMap_append

end

theorem closedWritten {e : Char → List Char} {c : Char} (written : Written e) (angleless : '<' ∉ e c) :
    Closed (e c) [] := by
  rcases written c with ⟨other, same⟩ | ⟨name, known, same⟩
  · rw [same] at angleless ⊢
    refine closedOrdinary ?_
    simp only [Reader.isOrdinary, Bool.and_eq_true, bne_iff_ne]
    exact ⟨fun is => angleless (is ▸ List.mem_cons_self), other⟩
  · have kinds : ∀ r ∈ references, r.1 = ['#', '3', '9'] ∨ r.1 ≠ [] ∧ r.1.all (·.isAlpha) = true := by decide
    rw [same]
    rcases kinds _ known with is | ⟨some, letters⟩
    · obtain rfl : name = ['#', '3', '9'] := is
      exact @closedStep _ [Reader.textToken ['\'']] (by decide) fun _ => rfl
    · exact closedReference some (List.all_eq_true.mp letters)

theorem closedChar {c : Char} : Closed (writtenChar c) [] := by
  refine closedWritten charWritten fun mem => ?_
  unfold writtenChar at mem
  split at mem
  · exact absurd mem (by decide)
  split at mem
  · exact absurd mem (by decide)
  next other =>
  split at mem
  · exact absurd mem (by decide)
  · exact other (beq_iff_eq.mpr (List.mem_singleton.mp mem).symm)

theorem closedEscaped {text : String} : Closed (escapeQuotes text).toList [] := by
  rw [escapeQuotes, String.toList_ofList]
  refine closedParts fun c _ => ?_
  unfold escapeQuotesChar
  split
  · exact @closedStep ['&', '#', '3', '4', ';'] [Reader.textToken ['"']] (by decide) fun _ => rfl
  split
  · exact @closedStep ['&', '#', '3', '9', ';'] [Reader.textToken ['\'']] (by decide) fun _ => rfl
  · exact closedWritten escapeWritten escapeFree.2.1

theorem closedTexts {text : String} : ClosedPieces (textPieces number text) [] := by
  unfold textPieces
  induction Piece.split number text with
  | nil => exact .none
  | cons p rest ih =>
    cases p with
    | plain s =>
      have own : Closed (writeText s).toList [] := by
        rw [writeText, String.toList_ofList]
        exact closedParts fun _ _ => closedChar
      exact .plain own ih
    | placeholder key => exact .placeholder key ih

theorem startChars {name : String} {attributes : List Attribute} : (startText name attributes).toList =
    '<' :: (name.toList ++ ((Attribute.sortByName attributes).map quoting).flatMap (·.chars)) := by
  have attributes : (String.join ((Attribute.sortByName attributes).map (·.write))).toList =
      ((Attribute.sortByName attributes).map quoting).flatMap (·.chars) := by
    rw [String.toList_join, List.flatMap_map, List.flatMap_map]
    exact congrArg (List.flatMap · _) (funext fun a => quotingWritten)
  rw [startText, String.toList_append, String.toList_append, attributes]
  rfl

mutual

theorem nodeClosed : (n : Node) → Legible n → ClosedPieces (nodePieces number n) (carried [n])
  | .text .plain s, _ | .text .hidden s, _ => closedTexts
  | .text (.aside kind) s, legible => closedOne legible
  | .element name attributes children, legible => by
    obtain ⟨fit, content⟩ := legible
    have inner := treeClosed children
    have valid : ∀ q ∈ (Attribute.sortByName attributes).map quoting, q.Valid := by
      intro q mem
      obtain ⟨a, inside, rfl⟩ := List.mem_map.mp mem
      obtain ⟨some, chars, _⟩ := fit.named a (sortPerm.mem_iff.mp inside)
      exact quotingValid some chars
    rw [carriedElement, nodePieces]
    -- A void element is a single tag, a raw one keeps its text between the tags, and any other has pieces of its own there.
    split
    · next void =>
      have none : children = [] := List.isEmpty_iff.mp (Bool.and_eq_true_iff.mp void).1
      have closed := closedVoid fit.plain valid
      rw [tagIdentifier fit] at closed
      rw [none]
      have whole : (startText name attributes ++ "/>").toList =
          '<' :: (name.toList ++ (((Attribute.sortByName attributes).map quoting).flatMap (·.chars) ++ ['/', '>'])) := by
        rw [String.toList_append, startChars, List.cons_append, List.append_assoc]
        rfl
      have empty : carried [] = [] := rfl
      rw [empty, List.append_nil]
      exact closedOne (whole ▸ closed)
    split at content
    · next raw =>
      obtain ⟨empty, clear⟩ := content
      have closed := closedRaw (List.contains_iff_mem.mp raw) valid clear
      rw [tagIdentifier fit] at closed
      have whole : (startText name attributes ++ ">" ++ Node.writeAll true children ++ "</" ++ name ++ ">").toList =
          '<' :: (name.toList ++ (((Attribute.sortByName attributes).map quoting).flatMap (·.chars) ++
            '>' :: ((Node.writeAll true children).toList ++ '<' :: '/' :: (name.toList ++ ['>'])))) := by
        simp only [String.toList_append, startChars, List.cons_append, List.append_assoc]
        rfl
      have none : carried children = [] := by rw [carried, empty]; rfl
      rw [if_pos raw, none, List.append_nil]
      exact closedOne (whole ▸ closed)
    · next markup =>
      obtain ⟨other, legible⟩ := content
      have start : Closed (startText name attributes ++ ">").toList (Attribute.get? attributes idAttribute).toList := by
        have closed := closedStart fit.plain valid other
        rw [tagIdentifier fit] at closed
        have whole : (startText name attributes ++ ">").toList =
            '<' :: (name.toList ++ (((Attribute.sortByName attributes).map quoting).flatMap (·.chars) ++ ['>'])) := by
          rw [String.toList_append, startChars, List.cons_append, List.append_assoc]
          rfl
        exact whole ▸ closed
      have last : Closed ("</" ++ name ++ ">").toList [] := by
        have whole : ("</" ++ name ++ ">").toList = '<' :: '/' :: (name.toList ++ ['>']) := by
          rw [String.toList_append, String.toList_append]
          rfl
        exact whole ▸ closedEnd fit.plain
      rw [if_neg markup]
      exact .plain start (List.append_nil (carried children) ▸ closedPiecesAppend (inner legible) (closedOne last))

theorem treeClosed : (nodes : List Node) → AllLegible nodes → ClosedPieces (treePieces number nodes) (carried nodes)
  | [], _ => .none
  | n :: rest, legible => by
    rw [carriedCons]
    exact closedPiecesAppend (nodeClosed n legible.1) (treeClosed rest legible.2)

end

mutual

theorem nodeFronts {key : String} : (n : Node) → .placeholder key ∈ nodePieces number n → Front number key.toList
  | .text .plain s, mem | .text .hidden s, mem => by
    obtain ⟨p, inside, is⟩ := List.mem_map.mp mem
    cases p with
    | plain text => cases is
    | placeholder key' =>
      cases is
      exact splitFronts inside
  | .text (.aside kind) s, mem => nomatch List.mem_singleton.mp mem
  | .element name attributes children, mem => by
    have inner := @treeFronts key children
    rw [nodePieces] at mem
    split at mem
    · cases List.mem_singleton.mp mem
    split at mem
    · cases List.mem_singleton.mp mem
    · rcases List.mem_cons.mp mem with other | mem
      · cases other
      rcases List.mem_append.mp mem with mem | mem
      · exact inner mem
      · cases List.mem_singleton.mp mem

theorem treeFronts {key : String} :
    (nodes : List Node) → .placeholder key ∈ treePieces number nodes → Front number key.toList
  | [], mem => absurd mem List.not_mem_nil
  | n :: rest, mem => (List.mem_append.mp mem).elim (nodeFronts n) (treeFronts rest)

end

end Pieces

end LiveMarkup.Render
