import LiveMarkup.Proofs.Analysis.Calls
import LiveMarkup.Proofs.Analysis.Slot
import LiveMarkup.Proofs.Outcome
import LiveMarkup.Render.Component
/-! Sources that are given by their characters. Taking a text apart is slow where it is computed in a proof, so its
characters are found by a lemma, and the analysis starts from them. -/
namespace LiveMarkup.Analysis
open Syntax Syntax.Reading Render

variable {a b s : String} {l l' : List Char}

theorem listedText (h : s = String.ofList l) : s.toList = l := by
  rw [h, String.toList_ofList]

theorem listedAppend (listed : a.toList = l) (h : b = String.ofList l') : (a ++ b).toList = l ++ l' := by
  rw [String.toList_append, listed, listedText h]

variable {source text tag : String} {chars : List Char} {firstLine : Int} {file : Option String} {c : Component}
  {slots : List Slot}

def readChars (chars : List Char) : Except SyntaxError (List Stmt) :=
  let s := unifyBreaks chars
  let s := if s.getLast? == some '\n' then s else s ++ ['\n']
  let b := blocksOfDepth (forText s) (s.length + 2)
  run (tokensOf 1 s) (statementsUntil (statement b) .stop)

theorem readListed (listed : text.toList = chars) : readStatements text = readChars chars := by
  subst listed
  rfl

theorem methodListed (listed : source.toList = chars) (flush : isIndented chars = false) :
    readStatements (methodText source) = readChars chars := by
  rw [methodText, listed, flush, if_neg Bool.false_ne_true, readListed listed]

theorem callsListed (listed : source.toList = chars) (flush : isIndented chars = false) :
    methodCalls? source firstLine file tag = (readChars chars).toOption.bind fun body =>
      (outermostStmt body).map fun f =>
        (⟨{ receiver := f.receiver.getD "self", tag }, firstLine - 1, file⟩, callsOfBlock f.body) := by
  unfold methodCalls?
  simp only [listed, flush, Bool.false_eq_true, if_false, Int.sub_zero, readListed listed]
  cases readChars chars <;> rfl

def analyzeChars (chars : List Char) (firstLine : Int) (file : Option String) (tag : String) : Noting (List Slot) := do
  if chars.contains '\x00' then throw .nullCharacter
  match readChars chars with
  | .error e =>
    let line := if e.line = 0 then 1 else e.line
    throw (.located .unparsable file (some (line + (firstLine - 1))))
  | .ok body =>
    match outermostStmt body with
    | none => throw (.located .noFunction file none)
    | some f =>
      let scope : Scope := { receiver := f.receiver.getD "self", tag }
      analyzeCalls ⟨scope, firstLine - 1, file⟩ (callsOfBlock f.body)

theorem analyzeListed (listed : source.toList = chars) (flush : isIndented chars = false) :
    analyzeSource source firstLine file tag = analyzeChars chars firstLine file tag := by
  unfold analyzeSource
  simp only [listed, flush, Bool.false_eq_true, if_false, Int.sub_zero, readListed listed]
  rfl

theorem slotsListed (given : c.source? = some source) (listed : source.toList = chars) (flush : isIndented chars = false)
    (analyzed : (outcome (analyzeChars chars c.firstLine (some c.file) "html") []).1.toOption = some slots) :
    (slotsOf c).toOption = some slots := by
  rw [← analyzeListed listed flush] at analyzed
  have read : (analyzeSource source c.firstLine (some c.file) "html").run [] =
      outcome (analyzeSource source c.firstLine (some c.file) "html") [] := rfl
  unfold slotsOf
  rw [given]
  simp only [read]
  generalize outcome (analyzeSource source c.firstLine (some c.file) "html") [] = ended at analyzed
  obtain ⟨_ | found, notes⟩ := ended
  · cases analyzed
  · exact analyzed

end LiveMarkup.Analysis
