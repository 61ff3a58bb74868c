import LiveMarkup.Markup.Escape
import LiveMarkup.Value.Written
/-! Values as they are shown in markup. -/
namespace LiveMarkup.Value

/-- The text of a value as markup shows it. Nothing and falsehood are not shown. -/
def shown : Value → String
  | none => ""
  | truth b => if b then "true" else ""
  | v => v.plain

def escaped (v : Value) : String :=
  match v.safeHtml? with
  | some s => s
  | Option.none => Markup.escape v.shown

def trusted (v : Value) : Value :=
  match v with
  | markup _ => v
  | rendered .. => v
  | _ => markup (v.safeHtml?.getD v.plain)

end LiveMarkup.Value
