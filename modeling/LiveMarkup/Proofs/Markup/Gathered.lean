import LiveMarkup.Proofs.Markup.Drawn
/-! The texts of a tree, in document order. Building a tree neither loses, doubles nor moves a placeholder in the
texts of its tokens, as long as none is made or broken where two texts are joined. -/
namespace LiveMarkup.Markup
open Render

variable {number : Nat} {st : Tree.State} {n : Node} {a b : List Node}

mutual

def stringsIn : Node → List String
  | .text _ s => [s]
  | .element _ _ children => strings children

def strings : List Node → List String
  | [] => []
  | n :: rest => stringsIn n ++ strings rest

end

theorem stringsAppend : strings (a ++ b) = strings a ++ strings b := by
  induction a with
  | nil => rfl
  | cons n rest ih => rw [List.cons_append, strings, strings, ih, List.append_assoc]

theorem stringsOne : strings [n] = stringsIn n := List.append_nil _

def textKeys (number : Nat) (nodes : List Node) : List String := (strings nodes).flatMap (placeholders number)

theorem textKeysAppend : textKeys number (a ++ b) = textKeys number a ++ textKeys number b := by
  rw [textKeys, stringsAppend, List.flatMap_append]
  rfl

section Building

def gathered (st : Tree.State) : List String :=
  strings st.top.reverse ++ st.stack.reverse.flatMap fun o => strings o.children.reverse

theorem gatheredAdd : gathered (st.add n) = gathered st ++ stringsIn n := by
  unfold Tree.State.add
  split
  · next closed =>
    rw [gathered, gathered, closed]
    simp only [List.reverse_cons, stringsAppend, stringsOne, List.reverse_nil, List.flatMap_nil, List.append_nil]
  · next o rest opened =>
    rw [gathered, gathered, opened]
    simp only [List.reverse_cons, List.flatMap_append, List.flatMap_singleton, stringsAppend, stringsOne,
      List.append_assoc]

theorem gatheredPush {name : String} {attributes : List Attribute} :
    gathered (st.push name attributes) = gathered st := by
  rw [gathered, gathered, Tree.State.push]
  simp only [List.reverse_cons, List.flatMap_append, List.flatMap_singleton, List.reverse_nil, strings, List.append_nil]

theorem gatheredPop : gathered st.pop = gathered st := by
  unfold Tree.State.pop
  split
  · rfl
  · next o rest opened =>
    rw [gatheredAdd, gathered, gathered, opened, stringsIn]
    simp only [List.reverse_cons, List.flatMap_append, List.flatMap_singleton, List.append_assoc]

theorem gatheredMany {count : Nat} : gathered (st.popMany count) = gathered st := by
  induction count generalizing st with
  | zero => rfl
  | succ count ih => rw [Tree.State.popMany, ih, gatheredPop]

theorem addStack : (st.add n).stack.length = st.stack.length := by
  unfold Tree.State.add
  split
  · rfl
  · next o rest opened => rw [opened, List.length_cons, List.length_cons]

theorem popStack : st.pop.stack.length = st.stack.length - 1 := by
  unfold Tree.State.pop
  split
  · next closed => rw [closed, List.length_nil]
  · next o rest opened => rw [addStack, opened, List.length_cons, Nat.add_sub_cancel]

theorem stackMany {count : Nat} : (st.popMany count).stack.length = st.stack.length - count := by
  induction count generalizing st with
  | zero => rfl
  | succ count ih =>
    rw [Tree.State.popMany, ih, popStack]
    omega

theorem shrinkKeys {t : List Char} :
    placeholders number (String.ofList (Tree.State.shrink t)) = placeholders number (String.ofList t) := by
  have blank (c : Char) (h : c = '_') : Text.isMarkupBlank c = false := by rw [h]; decide
  unfold Tree.State.shrink
  split
  · next blanks =>
    have plain : '_' ∉ t := fun mem => by
      have is := List.all_eq_true.mp blanks _ mem
      rw [blank _ rfl] at is
      cases is
    rw [scanPlain plain]
    split
    · exact scanPlain (by decide)
    · exact scanPlain (by decide)
  · rfl

def keysSoFar (number : Nat) (st : Tree.State) : List String :=
  (gathered st).flatMap (placeholders number) ++ placeholders number (String.ofList (st.pending.getD []))

theorem pendingAdd : (st.add n).pending = st.pending := by
  unfold Tree.State.add
  split <;> rfl

theorem pendingPop : st.pop.pending = st.pending := by
  unfold Tree.State.pop
  split
  · rfl
  · exact pendingAdd

theorem pendingMany {count : Nat} : (st.popMany count).pending = st.pending := by
  induction count generalizing st with
  | zero => rfl
  | succ count ih => rw [Tree.State.popMany, ih, pendingPop]

theorem keysPop : keysSoFar number st.pop = keysSoFar number st := by
  rw [keysSoFar, gatheredPop, pendingPop, keysSoFar]

theorem keysMany {count : Nat} : keysSoFar number (st.popMany count) = keysSoFar number st := by
  rw [keysSoFar, gatheredMany, pendingMany, keysSoFar]

theorem keysPush {name : String} {attributes : List Attribute} :
    keysSoFar number (st.push name attributes) = keysSoFar number st := by
  rw [keysSoFar, gatheredPush, keysSoFar]
  rfl

theorem keysText {kind : TextKind} {t : List Char} (none : st.pending = none) :
    keysSoFar number (st.addText kind t) = keysSoFar number st ++ placeholders number (String.ofList t) := by
  have written : placeholders number (String.ofList (if st.stack.any (keepsBlanks ·.name) then t
      else Tree.State.shrink t)) = placeholders number (String.ofList t) := by
    split
    · rfl
    · exact shrinkKeys
  unfold keysSoFar Tree.State.addText
  simp only [gatheredAdd, pendingAdd, stringsIn, List.flatMap_append, List.flatMap_singleton, written, none,
    Option.getD_none, String.ofList_nil, scanNone, List.append_nil]

theorem flushed : st.flush.pending = none := by
  unfold Tree.State.flush
  split
  · next none => exact none
  · exact pendingAdd

theorem keysFlush : keysSoFar number st.flush = keysSoFar number st := by
  unfold Tree.State.flush
  split
  · rfl
  · next text pending =>
    rw [keysText rfl, keysSoFar, keysSoFar, pending]
    exact congrArg (· ++ _) (List.append_nil _)

def Joins (number : Nat) (st : Tree.State) : Token → Prop
  | .text t => placeholders number (String.ofList (st.pending.getD [] ++ t.toList)) =
      placeholders number (String.ofList (st.pending.getD [])) ++ placeholders number t
  | _ => True

theorem keysStep {token : Token} (joins : Joins number st token) :
    keysSoFar number (st.step token) = keysSoFar number st ++ tokenKeys number token := by
  cases token with
  | text t =>
    rw [Tree.State.step, keysSoFar, keysSoFar, List.append_assoc]
    exact congrArg _ joins
  | aside kind t =>
    rw [Tree.State.step, keysText flushed, keysFlush, String.ofList_toList]
    rfl
  | closing name =>
    refine Eq.trans ?_ (List.append_nil _).symm
    rw [Tree.State.step]
    split
    · rfl
    · simp only
      split
      · rw [keysMany, keysFlush]
      · exact keysFlush
  | opening name written closed =>
    refine Eq.trans ?_ (List.append_nil _).symm
    rw [Tree.State.step]
    simp only
    split
    · rw [keysPop, keysPush, keysFlush]
    split
    · exact keysPop.trans (keysPush.trans keysFlush)
    · rw [keysPush, keysFlush]

def Seamless (number : Nat) : Tree.State → List Token → Prop
  | _, [] => True
  | st, token :: rest => Joins number st token ∧ Seamless number (st.step token) rest

theorem keysFold {tokens : List Token} (seamless : Seamless number st tokens) :
    keysSoFar number (tokens.foldl Tree.State.step st) = keysSoFar number st ++ tokens.flatMap (tokenKeys number) := by
  induction tokens generalizing st with
  | nil => exact (List.append_nil _).symm
  | cons token rest ih =>
    rw [List.foldl_cons, ih seamless.2, keysStep seamless.1, List.flatMap_cons, List.append_assoc]

theorem treeKeys {tokens : List Token} (seamless : Seamless number {} tokens) :
    textKeys number (Tree.ofTokens tokens) = tokens.flatMap (tokenKeys number) := by
  have all := (@keysFlush number _).trans (keysFold seamless)
  rw [keysSoFar, flushed] at all
  have empty : keysSoFar number {} = [] := rfl
  rw [empty, List.nil_append] at all
  rw [Tree.ofTokens, ← all]
  generalize (tokens.foldl Tree.State.step {}).flush = st
  have closed : (st.popMany st.stack.length).stack = [] :=
    List.eq_nil_of_length_eq_zero (by rw [stackMany, Nat.sub_self])
  have whole := @gatheredMany st st.stack.length
  rw [gathered, closed, List.reverse_nil, List.flatMap_nil, List.append_nil] at whole
  rw [textKeys, whole]
  exact (List.append_nil _).symm

end Building

section Seams

instance (number : Nat) (st : Tree.State) (token : Token) : Decidable (Joins number st token) := by
  unfold Joins
  split <;> infer_instance

instance seamlessDecidable (number : Nat) : (st : Tree.State) → (tokens : List Token) →
    Decidable (Seamless number st tokens)
  | _, [] => .isTrue trivial
  | st, token :: rest =>
    have := seamlessDecidable number (st.step token) rest
    inferInstanceAs (Decidable (Joins number st token ∧ Seamless number (st.step token) rest))

end Seams

end LiveMarkup.Markup
