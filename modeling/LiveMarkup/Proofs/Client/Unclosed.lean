import LiveMarkup.Proofs.Client.Balanced
import LiveMarkup.Proofs.Syntax.Read
/-! Printed code ends no script element. Texts are guarded in their literals, and where two pieces meet the second one
never begins with a slash. -/
namespace LiveMarkup.Client
open Syntax Text Outline

variable {s : Scope} {e : Expr} {params : LambdaParams} {body : Expr} {c : Code}

theorem unclosedCode (h : Balanced Mark.receiver c) : ¬"</".toList <:+: c.write.toList := by
  obtain ⟨_, reads⟩ := h
  exact charsWrite (c := c) ▸ unclosingApart reads.inert.1

theorem balancedPrinted (h : code s e = .ok c) (ok : formed e) : Balanced Mark.receiver c :=
  (outlinedOf followsReceiver (printsOf e h) ok).balanced

theorem partsStatements : Parts "; ".toList false where
  inert := by decide
  read frames code last l := by cases code <;> cases l <;> rfl

theorem balancedStatements (h : bodyCode s params body = .ok c) (ok : formed body) : Balanced Mark.receiver c := by
  rcases bodyForm h with whole | ⟨items, codes, rfl, all, rfl⟩
  · exact (outlinedOf followsReceiver whole ok).balanced
  · exact balancedSeparated partsStatements (balancedAll followsReceiver all ok)

/-- Neither an expression nor the statements of a function hold the beginning of an end tag when they are printed. Any
expression will do that is read from a text and whose names are identifiers. -/
theorem printedUnclosed (ok : formed e ∨ identified e ∧ ∃ source, Syntax.readExpression source = .ok e) :
    (∀ text, print s e = .ok text → ¬"</".toList <:+: text.toList) ∧
      ∀ params body text, e = .lambda params body → printBody s params body = .ok text →
        ¬"</".toList <:+: text.toList := by
  have ok : formed e := by
    rcases ok with ok | ⟨names, source, read⟩
    · exact ok
    · exact readFormed read names
  constructor
  · intro text printed
    obtain ⟨c, coded, rfl⟩ := mapOk.mp printed
    exact unclosedCode (balancedPrinted coded ok)
  · rintro params body text rfl printed
    obtain ⟨c, coded, rfl⟩ := mapOk.mp printed
    exact unclosedCode (balancedStatements coded (Bool.and_eq_true_iff.mp ok).2)

def closings : Expr :=
  .compare (.field (.name "self") "a") [.mk .lt (.joined [.constant (.text "</" false),
    .formatted (.field (.name "self") "b") none none, .constant (.text "</script>" false)])]

theorem closingsUnclosed :
    print {} closings = .ok "this.a < `<\\/$\x7bthis.b\x7d<\\/script>`" ∧
    (∀ text, print {} closings = .ok text → ¬"</".toList <:+: text.toList) ∧
      ∀ params body text, closings = .lambda params body → printBody {} params body = .ok text →
        ¬"</".toList <:+: text.toList :=
  ⟨rfl, printedUnclosed (.inl (by decide))⟩

end LiveMarkup.Client
