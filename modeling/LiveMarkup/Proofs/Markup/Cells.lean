import LiveMarkup.Proofs.Markup.Gathered
import LiveMarkup.Proofs.Markup.Reference
/-! Trees as they are written: tags and texts by turns. Writing a text keeps its placeholders. -/
namespace LiveMarkup.Markup
open Render

variable {number : Nat}

section Escaping

theorem scanReferenced {g : Char → List Char} (coded : Written g) {front s : List Char} :
    placeholders number (String.ofList (front ++ s.flatMap g)) = placeholders number (String.ofList (front ++ s)) := by
  have apart : ∀ r ∈ references, Divides r.2 ∧ '_' ∉ r.1 := by decide
  induction s generalizing front with
  | nil => rfl
  | cons c s ih =>
    rw [List.flatMap_cons]
    rcases coded c with ⟨_, same⟩ | ⟨name, known, same⟩
    · rw [same, ← List.append_assoc, ih, List.append_assoc, List.singleton_append]
    · obtain ⟨divides, plain⟩ := apart _ known
      have behind := @ih []
      rw [List.nil_append, List.nil_append] at behind
      rw [same, List.append_assoc, List.cons_append, scanDivided (by decide), List.singleton_append, scanDivided (by decide),
        scanPlain plain, List.nil_append, behind, scanDivided divides]

theorem codedKeys {g : Char → List Char} (coded : Written g) {text : String} :
    placeholders number (String.ofList (text.toList.flatMap g)) = placeholders number text := by
  rw [← List.nil_append (text.toList.flatMap g), scanReferenced coded, List.nil_append, String.ofList_toList]

theorem writeKeys {text : String} : placeholders number (writeText text) = placeholders number text := codedKeys charWritten

end Escaping

section Cells

inductive Cell where
  | tag (s : String)
  | text (s : String)
  deriving DecidableEq, Repr

def Cell.written : Cell → String
  | tag s | text s => s

def Aside.marks : Aside → String × String
  | comment => ("<!--", "-->")
  | doctype => ("<!DOCTYPE ", ">\n")
  | cdata => ("<![CDATA[", "]]>")
  | declaration => ("<?", "?>")
  | instruction => ("<?", ">")

mutual

def cellsIn (raw : Bool) : Node → List Cell
  | .text (.aside kind) s => [.tag kind.marks.1, .text s, .tag kind.marks.2]
  | .text .plain s | .text .hidden s => [.text (if raw then s else writeText s)]
  | .element name attributes children =>
    let start := "<" ++ name ++ String.join ((Attribute.sortByName attributes).map (·.write))
    if children.isEmpty && isVoid name then [.tag (start ++ "/>")]
    else .tag (start ++ ">") :: (cells (Reader.rawElements.contains name) children ++ [.tag ("</" ++ name ++ ">")])

def cells (raw : Bool) : List Node → List Cell
  | [] => []
  | n :: rest => cellsIn raw n ++ cells raw rest

end

def tagsOf (cs : List Cell) : List String :=
  cs.filterMap fun
    | .tag s => some s
    | .text _ => none

def textsOf (cs : List Cell) : List String :=
  cs.filterMap fun
    | .tag _ => none
    | .text s => some s

theorem textsOfAppend {cs ds : List Cell} : textsOf (cs ++ ds) = textsOf cs ++ textsOf ds := List.filterMap_append

mutual

theorem cellsInKeys {raw : Bool} : (n : Node) → (textsOf (cellsIn raw n)).flatMap (placeholders number) = textKeys number [n]
  | .text (.aside kind) s => by
    rw [textKeys, stringsOne]
    rfl
  | .text .plain s | .text .hidden s => by
    have one (text : String) : (textsOf [.text text]).flatMap (placeholders number) = placeholders number text :=
      List.append_nil _
    rw [textKeys, stringsOne, stringsIn, List.flatMap_singleton, cellsIn, one]
    cases raw with
    | true => rfl
    | false => exact writeKeys
  | .element name attributes children => by
    have inner {raw : Bool} := @cellsKeys raw children
    rw [textKeys, stringsOne, stringsIn, cellsIn]
    split
    · next void =>
      rw [List.isEmpty_iff.mp (Bool.and_eq_true_iff.mp void).1]
      rfl
    · have tags : textsOf (.tag ("<" ++ name ++ String.join ((Attribute.sortByName attributes).map (·.write)) ++ ">") ::
          (cells (Reader.rawElements.contains name) children ++ [.tag ("</" ++ name ++ ">")])) =
          textsOf (cells (Reader.rawElements.contains name) children) := by
        rw [← List.singleton_append, textsOfAppend, textsOfAppend]
        exact List.append_nil _
      rw [tags, inner, textKeys]

theorem cellsKeys {raw : Bool} :
    (nodes : List Node) → (textsOf (cells raw nodes)).flatMap (placeholders number) = textKeys number nodes
  | [] => rfl
  | n :: rest => by
    rw [cells, textsOfAppend, List.flatMap_append, cellsInKeys n, cellsKeys rest, ← textKeysAppend, List.singleton_append]

end

end Cells

end LiveMarkup.Markup
