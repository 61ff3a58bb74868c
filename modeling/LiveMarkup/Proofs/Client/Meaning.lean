import LiveMarkup.Client.Print
import LiveMarkup.Proofs.Client.Arithmetic
import Mathlib.Data.List.Forall2
/-! Printed arithmetic. The browser reads the text of an expression as a formula that has the value of the
expression on the server, as long as both take the same remainders. -/
namespace LiveMarkup.Client
open Syntax

variable {s : Scope} {fields : String → Int} {e left right : Expr} {k : Kind} {a b : Plain} {c d : Code}
variable {ts us : List Lexeme} {f g : Formula}

def ReadAs (c : Code) (f : Formula) : Prop := ∃ ts, Lexes c.write.toList ts ∧ Whole ts f

def OperandOf (c : Code) (f : Formula) : Prop :=
  ∃ ts, Lexes c.write.toList ts ∧ Atomic ts f ∧ Opens c.write.toList

theorem OperandOf.readAs : OperandOf c f → ReadAs c f
  | ⟨ts, lexed, atomic, _⟩ => ⟨ts, lexed, atomic.whole⟩

theorem ReadAs.group : ReadAs c f → OperandOf c.group f
  | ⟨ts, lexed, whole⟩ => by
    have text : c.group.write.toList = '(' :: c.write.toList ++ [')'] := by
      show ("(" ++ c.write ++ ")").toList = _
      simp
    refine ⟨_, ?_, whole.group, ?_⟩
    · rw [text]
      exact lexesGroup lexed
    · rw [text]
      exact ⟨'(', _, rfl, by decide⟩

theorem ReadAs.of (same : c.write = d.write) : ReadAs c f → ReadAs d f
  | ⟨ts, lexed, whole⟩ => ⟨ts, same ▸ lexed, whole⟩

theorem separatedText {sep : String} {codes : List Code} : (Code.separated sep (c :: codes)).write.toList =
    c.write.toList ++ codes.flatMap fun d => sep.toList ++ d.write.toList := by
  induction codes generalizing c with
  | nil => simp [Code.separated]
  | cons d codes ih =>
    show (c.write ++ sep ++ (Code.separated sep (d :: codes)).write).toList = _
    rw [String.toList_append, String.toList_append, ih]
    simp

theorem readSeparated {op : Operator} {codes : List Code} {formulas : List Formula} (first : OperandOf c f)
    (others : List.Forall₂ OperandOf codes formulas) :
    ReadAs (.separated (" " ++ op.sign ++ " ") (c :: codes)) (formulas.foldl (.operation op) f) := by
  obtain ⟨ts, lexed, atomic, _⟩ := first
  have parts : ∃ parts : List (List Lexeme × Formula), parts.map Prod.snd = formulas ∧
      (∀ p ∈ parts, Atomic p.1 p.2) ∧ ∀ {front us}, Lexes front us →
        Lexes (front ++ codes.flatMap fun d => (" " ++ op.sign ++ " ").toList ++ d.write.toList)
          (us ++ parts.flatMap fun p => .sign op.sign :: p.1) := by
    clear lexed atomic
    induction others with
    | nil => exact ⟨[], rfl, by simp, by simp⟩
    | @cons d g codes formulas operand _ ih =>
      obtain ⟨us, read, atomic, _⟩ := operand
      obtain ⟨parts, rfl, all, lexed⟩ := ih
      refine ⟨(us, g) :: parts, rfl, List.forall_mem_cons.mpr ⟨atomic, all⟩, fun {front vs} before => ?_⟩
      have longer := lexed (lexesBetween before read (@signSpaced op))
      simpa using longer
  obtain ⟨parts, rfl, all, more⟩ := parts
  refine ⟨_, ?_, by simpa only [List.foldl_map] using atomic.chain all⟩
  rw [separatedText]
  exact more lexed

def Means (s : Scope) (e : Expr) (f : Formula) : Prop :=
  ∀ fields, f.value fields = (value? s fields truncated e).map Plain.client

def Understood (s : Scope) (e : Expr) : Prop :=
  ∃ c f, code s e = .ok c ∧ ReadAs c f ∧ OperandOf (wrapped e c) f ∧ Means s e f

theorem understoodCompound (compound : e.isCompound) (coded : code s e = .ok c) (read : ReadAs c f)
    (means : Means s e f) : Understood s e :=
  ⟨c, f, coded, read, by simpa only [wrapped, compound, if_true] using read.group, means⟩

theorem understoodNumber {n : Nat} : Understood s (.constant (.whole n)) := by
  have operand : OperandOf (.text (toString n)) (.number n) := by
    refine ⟨_, lexesNumber, atomicNumber, ?_⟩
    have digits : (toString n).toList = Nat.toDigits 10 n := by
      rw [Nat.toString_eq_ofList_toDigits, String.toList_ofList]
    show Opens (toString n).toList
    cases split : (toString n).toList with
    | nil => exact absurd (digits.symm.trans split) Nat.toDigits_ne_nil
    | cons d more =>
      have digit : d.isDigit := Nat.isDigit_of_mem_toDigits (by decide) (by decide)
        (digits ▸ split ▸ List.mem_cons_self : d ∈ Nat.toDigits 10 n)
      refine ⟨d, more, rfl, ?_, ?_⟩ <;>
      · rintro rfl
        exact absurd digit (by decide)
  exact ⟨_, _, rfl, operand.readAs, operand, fun fields => by simp [Formula.value, value?, Plain.client]⟩

theorem understoodField {id name : String} (receiver : s.isReceiver id) (identifier : Text.isName name.toList) :
    Understood s (.field (.name id) name) := by
  have coded : code s (.field (.name id) name) = .ok (.access name name) := by
    simp [code, memberCode, isComponent, receiver, nameCode, bind, Except.bind, pure, Except.pure]
  have operand : OperandOf (.access name name) (.field name) := by
    have text : (Code.access name name).write.toList = "this.".toList ++ name.toList := String.toList_append
    refine ⟨_, ?_, atomicField, ?_⟩
    · rw [text]
      exact lexesField identifier
    · rw [text]
      exact ⟨'t', _, rfl, by decide⟩
  refine ⟨_, _, coded, operand.readAs, operand, fun fields => ?_⟩
  rw [value?, if_pos receiver]
  rfl

theorem understoodSigned {op : UnaryOp} {sign : Char} {form : Formula → Formula} {e : Expr}
    (text : (unaryText op).toList = [sign])
    (lexes : ∀ {a ts}, Lexes a ts → Opens a → Lexes (sign :: a) (.sign (unaryText op) :: ts))
    (atomic : ∀ {ts f}, Atomic ts f → Atomic (.sign (unaryText op) :: ts) (form f))
    (means : ∀ {f}, Means s e f → Means s (.unary op e) (form f)) :
    Understood s e → Understood s (.unary op e)
  | ⟨c, f, coded, _, ⟨ts, lexed, read, opens⟩, same⟩ => by
    have written : code s (.unary op e) = .ok (unaryText op ++ wrapped e c) := by
      simp [code, coded, bind, Except.bind, pure, Except.pure]
    refine understoodCompound rfl written ⟨_, ?_, (atomic read).whole⟩ (means same)
    show Lexes (unaryText op ++ (wrapped e c).write).toList _
    rw [String.toList_append, text]
    exact lexes lexed opens

theorem understoodMinus : Understood s e → Understood s (.unary .minus e) := by
  refine understoodSigned rfl lexesMinus Atomic.minus fun {f} means fields => ?_
  rw [Formula.value, value?, means fields, Option.map_map, Option.map_map]
  congr 1
  funext a
  simp [clientReal, clientWhole]

theorem understoodNegation : Understood s e → Understood s (.unary .negation e) := by
  refine understoodSigned rfl lexesBang Atomic.negation fun {f} means fields => ?_
  rw [Formula.value, value?, means fields, Option.map_map, Option.map_map]
  congr 1
  funext a
  simp only [Function.comp_def, clientHolds]
  rfl

theorem pairText {sep : String} : (Code.separated sep [c, d]).write = c.write ++ sep ++ d.write := rfl

theorem operationMeans {o : Operator} (both : ∀ v, o.decides v = false) (first : Means s left f)
    (second : Means s right g) : (Formula.operation o f g).value fields =
      (value? s fields truncated left).bind fun a => (value? s fields truncated right).bind fun b =>
        o.apply a.client b.client := by
  simp only [Formula.value, both, Bool.false_eq_true, if_false, first fields, second fields, Option.bind_map,
    Function.comp_def]

theorem understoodBinary {op : BinaryOp} (plain : op ∈ [BinaryOp.add, .sub, .mul, .mod]) :
    Understood s left → Understood s right → Understood s (.binary left op right)
  | ⟨c, f, codedLeft, _, first, meansLeft⟩, ⟨d, g, codedRight, _, second, meansRight⟩ => by
    have text : binaryText? op = some (arithmeticOperator op).sign := by
      simp only [List.mem_cons, List.not_mem_nil, or_false] at plain
      rcases plain with rfl | rfl | rfl | rfl <;> rfl
    have coded : code s (.binary left op right) =
        .ok (wrapped left c ++ (" " ++ (arithmeticOperator op).sign ++ " ") ++ wrapped right d) := by
      have other : op ≠ .floorDiv := by
        rintro rfl
        exact absurd plain (by decide)
      simp only [code, codedLeft, codedRight, bind, Except.bind, pure, Except.pure, text]
    have read := @readSeparated _ _ (arithmeticOperator op) _ _ first (.cons second .nil)
    have both (v : Datum) : (arithmeticOperator op).decides v = false := by cases op <;> rfl
    refine understoodCompound rfl coded (read.of ?_) fun fields => ?_
    · simp only [pairText]
      rfl
    · simp only [List.foldl_cons, List.foldl_nil, operationMeans both meansLeft meansRight,
        arithmeticApplied plain, value?, Option.map_bind, Function.comp_def]

theorem understoodFloor : Understood s left → Understood s right → Understood s (.binary left .floorDiv right)
  | ⟨c, f, codedLeft, _, first, meansLeft⟩, ⟨d, g, codedRight, _, second, meansRight⟩ => by
    have coded : code s (.binary left .floorDiv right) =
        .ok ("Math.floor(" ++ wrapped left c ++ " / " ++ wrapped right d ++ ")") := by
      simp only [code, codedLeft, codedRight, bind, Except.bind, pure, Except.pure]
    obtain ⟨ts, lexed, whole⟩ := @readSeparated _ _ .divide _ _ first (.cons second .nil)
    have both (v : Datum) : Operator.divide.decides v = false := rfl
    refine understoodCompound rfl coded ⟨_, ?_, whole.floor.whole⟩ fun fields => ?_
    · have text : ("Math.floor(" ++ wrapped left c ++ " / " ++ wrapped right d ++ ")" : Code).write.toList =
          "Math.floor(".toList ++ ((wrapped left c).write ++ " / " ++ (wrapped right d).write).toList ++ [')'] := by
        show ("Math.floor(" ++ (wrapped left c).write ++ " / " ++ (wrapped right d).write ++ ")").toList = _
        simp
      rw [text]
      exact lexesFloor lexed
    · simp only [List.foldl_cons, List.foldl_nil, Formula.value.eq_3, operationMeans both meansLeft meansRight,
        value?, Option.map_bind, Function.comp_def, floorApplied]

theorem understoodConditional {t b o : Expr} :
    Understood s t → Understood s b → Understood s o → Understood s (.conditional t b o)
  | ⟨c₁, f₁, coded₁, _, ⟨ts₁, lexed₁, atomic₁, _⟩, means₁⟩, ⟨c₂, f₂, coded₂, _, ⟨ts₂, lexed₂, atomic₂, _⟩, means₂⟩,
      ⟨c₃, f₃, coded₃, _, ⟨ts₃, lexed₃, atomic₃, _⟩, means₃⟩ => by
    have coded : code s (.conditional t b o) =
        .ok (wrapped t c₁ ++ " ? " ++ wrapped b c₂ ++ " : " ++ wrapped o c₃) := by
      simp only [code, coded₁, coded₂, coded₃, bind, Except.bind, pure, Except.pure]
    refine understoodCompound rfl coded ⟨_, ?_, atomic₁.conditional atomic₂ atomic₃⟩ fun fields => ?_
    · have branches := lexesBetween lexed₂ lexed₃ (s := ":") (by decide)
      have lexed := lexesBetween lexed₁ branches (s := "?") (by decide)
      have text : (wrapped t c₁ ++ " ? " ++ wrapped b c₂ ++ " : " ++ wrapped o c₃ : Code).write.toList =
          (wrapped t c₁).write.toList ++ (" " ++ "?" ++ " ").toList ++ ((wrapped b c₂).write.toList ++
            (" " ++ ":" ++ " ").toList ++ (wrapped o c₃).write.toList) := by
        show ((wrapped t c₁).write ++ " ? " ++ (wrapped b c₂).write ++ " : " ++ (wrapped o c₃).write).toList = _
        simp
      rw [text]
      exact lexed
    · simp only [Formula.value, value?, means₁ fields, means₂ fields, means₃ fields, Option.bind_map,
        Option.map_bind, Function.comp_def, clientHolds]
      congr 1
      funext v
      split <;> rfl

section Several

def restValue (fields : String → Int) (op : BooleanOp) (v : Datum) : List Formula → Option Datum
  | [] => some v
  | f :: rest =>
    if (booleanOperator op).decides v then some v else (f.value fields).bind (restValue fields op · rest)

theorem restDecided {op : BooleanOp} {v : Datum} {fs : List Formula} (h : (booleanOperator op).decides v) :
    restValue fields op v fs = some v := by
  cases fs <;> simp [restValue, h]

theorem foldValue {op : BooleanOp} {fs : List Formula} :
    (fs.foldl (.operation (booleanOperator op)) f).value fields =
      (f.value fields).bind (restValue fields op · fs) := by
  have applied {a b : Datum} (h : (booleanOperator op).decides a = false) :
      (booleanOperator op).apply a b = some b := by
    cases op <;> simp_all [booleanOperator, Operator.decides, Operator.apply]
  induction fs generalizing f with
  | nil => simp [restValue]
  | cons g fs ih =>
    rw [List.foldl_cons, ih, Formula.value, Option.bind_assoc]
    congr 1
    funext a
    rw [restValue]
    split
    · next decides => rw [Option.bind_some, restDecided decides]
    · next counts =>
      simp only [Bool.not_eq_true] at counts
      simp only [applied counts, Option.bind_assoc, Option.bind_some]

theorem decidesHolds {op : BooleanOp} : (booleanOperator op).decides a.client ↔ a.holds = decide (op = .or) := by
  cases op <;> simp [booleanOperator, Operator.decides, clientHolds]

theorem operandsMean {op : BooleanOp} {rest : List Expr} {fs : List Formula} (first : Means s e f)
    (others : List.Forall₂ (Means s) rest fs) :
    (fs.foldl (.operation (booleanOperator op)) f).value fields =
      (valueOf? s fields truncated op (e :: rest)).map Plain.client := by
  rw [foldValue]
  induction others generalizing e f with
  | nil => simpa [restValue, valueOf?] using first fields
  | @cons e' g rest fs second _ ih =>
    rw [first fields, valueOf?]
    · simp only [Option.bind_map, Option.map_bind, Function.comp_def, restValue, decidesHolds]
      congr 1
      funext a
      split
      · rfl
      · exact ih second
    · simp

theorem understoodBoolean {op : BooleanOp} {rest : List Expr} (first : Understood s e)
    (others : ∀ e ∈ rest, Understood s e) : Understood s (.boolean op (e :: rest)) := by
  obtain ⟨c, f, coded, _, operand, means⟩ := first
  have all : ∃ codes fs, codeOperands s rest = .ok codes ∧ List.Forall₂ OperandOf codes fs ∧
      List.Forall₂ (Means s) rest fs := by
    induction rest with
    | nil => exact ⟨[], [], rfl, .nil, .nil⟩
    | cons e rest ih =>
      obtain ⟨c, f, coded, _, operand, means⟩ := others e List.mem_cons_self
      obtain ⟨codes, fs, done, operands, same⟩ := ih fun e mem => others e (List.mem_cons_of_mem _ mem)
      refine ⟨wrapped e c :: codes, f :: fs, ?_, .cons operand operands, .cons means same⟩
      simp only [codeOperands, coded, done, bind, Except.bind, pure, Except.pure]
  obtain ⟨codes, fs, done, operands, same⟩ := all
  have text : booleanText op = " " ++ (booleanOperator op).sign ++ " " := by cases op <;> rfl
  have written : code s (.boolean op (e :: rest)) =
      .ok (.separated (" " ++ (booleanOperator op).sign ++ " ") (wrapped e c :: codes)) := by
    simp only [code, codeOperands, coded, done, text, bind, Except.bind, pure, Except.pure]
  refine understoodCompound rfl written (readSeparated operand operands) fun fields => ?_
  rw [value?]
  exact operandsMean means same

theorem chainUnderstood {rest : List Comparison} (typed : HasKind s left k) (operand : OperandOf (wrapped left c) f)
    (means : Means s left f)
    (plain : ∀ op right, .mk op right ∈ rest → op ∈ [CompareOp.eq, .notEq, .lt, .le, .gt, .ge])
    (others : ∀ op right, .mk op right ∈ rest → HasKind s right k ∧ Understood s right) :
    ∃ codes fs, codeChain s left (.ok c) rest = .ok codes ∧ List.Forall₂ ReadAs codes fs ∧ codes.length = rest.length ∧
      (∀ fields a, value? s fields truncated left = some a →
        restValue fields .and (.truth true) fs = (holds? s fields truncated a rest).map Plain.client) ∧
      ∀ fields, value? s fields truncated left = none → ∀ g ∈ fs.head?, g.value fields = none := by
  induction rest generalizing left c f with
  | nil => exact ⟨[], [], rfl, .nil, rfl, fun _ _ _ => rfl, fun _ _ g mem => nomatch mem⟩
  | cons comparison rest ih =>
    obtain ⟨op, right⟩ := comparison
    have ordered := plain op right List.mem_cons_self
    obtain ⟨typedRight, d, g, coded, _, second, meansRight⟩ := others op right List.mem_cons_self
    obtain ⟨codes, fs, done, read, count, same, _⟩ := ih typedRight second meansRight
      (fun op right mem => plain op right (List.mem_cons_of_mem _ mem))
      fun op right mem => others op right (List.mem_cons_of_mem _ mem)
    have both (v : Datum) : (compareOperator op).decides v = false := by cases op <;> rfl
    have text : compareText op = (compareOperator op).sign := by
      simp only [List.mem_cons, List.not_mem_nil, or_false] at ordered
      rcases ordered with rfl | rfl | rfl | rfl | rfl | rfl <;> rfl
    have part : Client.comparison op left right (.ok c) (.ok d) =
        .ok (wrapped left c ++ (" " ++ (compareOperator op).sign ++ " ") ++ wrapped right d) := by
      rw [← text]
      simp only [List.mem_cons, List.not_mem_nil, or_false] at ordered
      rcases ordered with rfl | rfl | rfl | rfl | rfl | rfl <;> rfl
    have pair := @readSeparated _ _ (compareOperator op) _ _ operand (.cons second .nil)
    have value (fields) := @operationMeans _ fields _ _ _ _ _ both means meansRight
    have one : ReadAs (wrapped left c ++ (" " ++ (compareOperator op).sign ++ " ") ++ wrapped right d)
        (.operation (compareOperator op) f g) := by
      refine pair.of ?_
      simp only [pairText]
      rfl
    refine ⟨_ :: codes, .operation (compareOperator op) f g :: fs, ?_, .cons one read, ?_, ?_, ?_⟩
    · simp only [codeChain, coded, part, done, bind, Except.bind, pure, Except.pure]
    · simp [count]
    · intro fields a is
      rw [restValue, if_neg (by simp [booleanOperator, Operator.decides, Datum.holds]), value, is, Option.bind_some,
        holds?, Option.bind_assoc, Option.map_bind]
      cases known : value? s fields truncated right with
      | none => rfl
      | some b =>
        have kinds : a.kind = b.kind := (valueKind typed is).trans (valueKind typedRight known).symm
        simp only [Option.bind_some, compareApplied ordered kinds, Function.comp_def, Option.bind_map,
          Option.map_bind]
        congr 1
        funext t
        cases t with
        | true => exact same fields b known
        | false => exact restDecided rfl
    · rintro fields none _ ⟨⟩
      rw [value, none]
      rfl

theorem understoodCompare {rest : List Comparison} (filled : rest ≠ []) (typed : HasKind s left k)
    (first : Understood s left)
    (plain : ∀ op right, .mk op right ∈ rest → op ∈ [CompareOp.eq, .notEq, .lt, .le, .gt, .ge])
    (others : ∀ op right, .mk op right ∈ rest → HasKind s right k ∧ Understood s right) :
    Understood s (.compare left rest) := by
  obtain ⟨c, f, coded, _, operand, means⟩ := first
  obtain ⟨codes, fs, done, read, count, same, unknown⟩ := chainUnderstood typed operand means plain others
  cases read with
  | nil =>
    exact absurd (List.length_eq_zero_iff.mp count.symm) filled
  | @cons part g codes fs one more =>
    have value (fields) : (g.value fields).bind (restValue fields .and · fs) =
        (value? s fields truncated (.compare left rest)).map Plain.client := by
      rw [value?]
      cases known : value? s fields truncated left with
      | none =>
        rw [unknown fields known g rfl]
        rfl
      | some a => exact same fields a known
    cases more with
    | nil =>
      have written : code s (.compare left rest) = .ok part := by
        simp only [code, coded, done, bind, Except.bind, pure, Except.pure]
      refine understoodCompound rfl written one fun fields => ?_
      rw [← value fields]
      simp [restValue]
    | @cons next g' codes fs two more =>
      have written : code s (.compare left rest) =
          .ok (.separated " && " (part.group :: next.group :: codes.map Code.group)) := by
        simp only [code, coded, done, bind, Except.bind, pure, Except.pure, List.map_cons]
      have groups : List.Forall₂ OperandOf (next.group :: codes.map Code.group) (g' :: fs) := by
        refine .cons two.group ?_
        rw [List.forall₂_map_left_iff]
        exact more.imp fun _ _ => ReadAs.group
      refine understoodCompound rfl written (@readSeparated _ _ .and _ _ one.group groups) fun fields => ?_
      rw [← value fields]
      exact @foldValue _ _ .and _

end Several

theorem understood (typed : HasKind s e k) : Understood s e := by
  induction typed with
  | number => exact understoodNumber
  | field receiver identifier => exact understoodField receiver identifier
  | minus _ ih => exact understoodMinus ih
  | negation _ ih => exact understoodNegation ih
  | @arithmetic l op r operator _ _ ihLeft ihRight =>
    by_cases floor : op = .floorDiv
    · exact floor ▸ understoodFloor ihLeft ihRight
    · refine understoodBinary ?_ ihLeft ihRight
      simp only [List.mem_cons, List.not_mem_nil, or_false] at operator ⊢
      tauto
  | boolean _ _ ihFirst ihOthers => exact understoodBoolean ihFirst ihOthers
  | compare filled first operators others ihFirst ihOthers =>
    exact understoodCompare filled first ihFirst operators fun op right mem =>
      ⟨others op right mem, ihOthers op right mem⟩
  | conditional _ _ _ ihTest ihBody ihOrelse => exact understoodConditional ihTest ihBody ihOrelse

/-- The printed text of arithmetic is read as a formula whose value is the server's, with the browser's
remainder for the server's; both are the same where every remainder taken agrees. -/
theorem arithmeticKept (typed : HasKind s e k) : ∃ text formula, print s e = .ok text ∧
    readFormula text = some formula ∧
    ∀ fields, formula.value fields = (value? s fields truncated e).map Plain.client ∧
      ∀ v, value? s fields agreed e = some v →
        value? s fields floored e = some v ∧ formula.value fields = some v.client := by
  obtain ⟨c, f, coded, ⟨ts, lexed, whole⟩, _, means⟩ := understood typed
  refine ⟨c.write, f, by rw [print, coded]; rfl, formulaRead lexed whole, fun fields => ⟨means fields, ?_⟩⟩
  have inFloored : agreed.Within floored := by
    intro a b r is
    simp only [agreed, floored, Option.ite_none_right_eq_some] at is ⊢
    simpa [is.1.1] using is.2
  have inTruncated : agreed.Within truncated := by
    intro a b r is
    simp only [agreed, truncated, Option.ite_none_right_eq_some] at is ⊢
    simpa [is.1.1, ← is.1.2] using is.2
  intro v is
  refine ⟨valueExtends inFloored e is, ?_⟩
  rw [means fields, valueExtends inTruncated e is]
  rfl

def sumExpr : Expr :=
  .binary (.binary (.unary .minus (.field (.name "self") "n")) .floorDiv (.constant (.whole 2))) .add
    (.binary (.constant (.whole 7)) .mod (.constant (.whole 3)))

theorem sumKept : HasKind {} sumExpr .whole ∧ ∃ text formula, print {} sumExpr = .ok text ∧
    text = "(Math.floor((-this.n) / 2)) + (7 % 3)" ∧ readFormula text = some formula ∧
    formula.value (fun _ => 5) = some (.number (-2)) := by
  have typed : HasKind {} sumExpr .whole :=
    .arithmetic (by decide)
      (.arithmetic (by decide) (.minus (.field rfl (by decide))) .number)
      (.arithmetic (by decide) .number .number)
  obtain ⟨text, formula, printed, read, means⟩ := arithmeticKept typed
  refine ⟨typed, text, formula, printed, ?_, read, ?_⟩
  · have written : print {} sumExpr = .ok "(Math.floor((-this.n) / 2)) + (7 % 3)" := by decide +kernel
    exact Except.ok.inj (printed.symm.trans written)
  · have value : value? {} (fun _ => 5) agreed sumExpr = some (.whole (-2)) := by decide +kernel
    exact ((means _).2 _ value).2

def remainderExpr : Expr := .binary (.unary .minus (.constant (.whole 7))) .mod (.constant (.whole 3))

theorem remainderChanged : HasKind {} remainderExpr .whole ∧ ∃ formula,
    print {} remainderExpr = .ok "(-7) % 3" ∧ readFormula "(-7) % 3" = some formula ∧
    value? {} (fun _ => 0) floored remainderExpr = some (.whole 2) ∧
    formula.value (fun _ => 0) = some (.number (-1)) := by
  have typed : HasKind {} remainderExpr .whole := .arithmetic (by decide) (.minus .number) .number
  have printed : print {} remainderExpr = .ok "(-7) % 3" := by decide +kernel
  obtain ⟨c, f, coded, ⟨ts, lexed, whole⟩, _, means⟩ := understood typed
  have text : c.write = "(-7) % 3" := by
    rw [print, coded] at printed
    exact Except.ok.inj printed
  refine ⟨typed, f, printed, text ▸ formulaRead lexed whole, by decide +kernel, ?_⟩
  rw [means, show value? {} (fun _ => 0) truncated remainderExpr = some (.whole (-1)) by decide +kernel]
  rfl

end LiveMarkup.Client
