import LiveMarkup.Proofs.Render.Evaluated
import LiveMarkup.Proofs.Render.Supplied
/-! What the scripts of a component find on the page: the elements that got their identifiers from calls, as many times
as the markup of the calls stands there. -/
namespace LiveMarkup.Render
open Analysis Client Markup

section Found

variable {ours : String → Prop} {events : List Event} {answers : List Answer} {text : List Char} {origins : List Nat}
  {a : Answer} {f : Factory} {s s' : State} {nested : Nested} {inner : NestedLog Event}

end Found

section Board

def dotTemplate : String := "<u onclick=\x7b\x7d></u>"

def dot : Component :=
  .mk "Dot" [("m", .whole 1)]
    (some ("def render(self, ctx):\n    return ctx.html('" ++ dotTemplate ++ "', lambda: setattr(self, 'm', 2))\n"))
    1 "dot.py" [.mk dotTemplate [.value (.object "function")] 2 false] none

end Board

end LiveMarkup.Render
