import LiveMarkup.Proofs.Outcome
import LiveMarkup.Render.Component
/-! Runs of what a factory does, and properties of its state that every step keeps. -/
namespace LiveMarkup.Render

variable {α β : Type} {f : Factory} {s : State}

def out (m : Rendering α) (f : Factory) (s : State) : Except RenderError α × State := outcome (m.run f) s

theorem outRead : out read f s = (.ok f, s) := rfl

theorem outGet : out get f s = (.ok s, s) := rfl

theorem outBind {m : Rendering α} {k : α → Rendering β} :
    out (m >>= k) f s =
      match out m f s with
      | (.ok a, s') => out (k a) f s'
      | (.error e, s') => (.error e, s') := by
  have split : out (m >>= k) f s = outcome (m.run f >>= fun a => (k a).run f) s := rfl
  rw [split, outcomeBind]
  unfold out
  rcases outcome (m.run f) s with ⟨_ | _, _⟩ <;> rfl

theorem outOk {m : Rendering α} {k : α → Rendering β} {s' : State} {b : β} :
    out (m >>= k) f s = (.ok b, s') ↔
      ∃ a s₁, out m f s = (.ok a, s₁) ∧ out (k a) f s₁ = (.ok b, s') := outcomeOk

def Keeps (I : State → Prop) (f : Factory) (m : Rendering α) : Prop := ∀ s, I s → I (out m f s).2

section Keeps

variable {I : State → Prop}

theorem keepsPure {a : α} : Keeps I f (pure a) := fun _ h => h

theorem keepsThrow {e : RenderError} : Keeps I f (throw e : Rendering α) := fun _ h => h

theorem keepsModify {g : State → State} (h : ∀ s, I s → I (g s)) : Keeps I f (modify g) := h

theorem keepsBind {m : Rendering α} {k : α → Rendering β} (hm : Keeps I f m)
    (hk : ∀ a, Keeps I f (k a)) : Keeps I f (m >>= k) := by
  intro s hs
  have first := hm s hs
  rw [outBind]
  revert first
  rcases out m f s with ⟨_ | a, s'⟩
  · exact id
  · exact hk a s'

theorem keepsGet {k : State → Rendering β} (hk : ∀ s, I s → I (out (k s) f s).2) :
    Keeps I f (get >>= k) := by
  intro s hs
  rw [outBind, outGet]
  exact hk s hs

theorem keepsRead {k : Factory → Rendering β} (hk : Keeps I f (k f)) : Keeps I f (read >>= k) := by
  intro s hs
  rw [outBind, outRead]
  exact hk s hs

theorem keepsFold {k : β → α → Rendering β} (h : ∀ b a, Keeps I f (k b a)) (as : List α) (b : β) :
    Keeps I f (as.foldlM k b) := by
  induction as generalizing b with
  | nil => exact keepsPure
  | cons a rest ih =>
    rw [List.foldlM_cons]
    exact keepsBind (h b a) ih

theorem keepsMap {k : α → Rendering β} (h : ∀ a, Keeps I f (k a)) (as : List α) :
    Keeps I f (as.mapM k) := by
  induction as with
  | nil => exact keepsPure
  | cons a rest ih =>
    rw [List.mapM_cons]
    exact keepsBind (h a) fun _ => keepsBind ih fun _ => keepsPure

end Keeps

end LiveMarkup.Render
