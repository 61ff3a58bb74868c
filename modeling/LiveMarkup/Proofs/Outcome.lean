/-! Computations that may fail, with a state or without: what they give, and the state they end in. -/
namespace LiveMarkup

variable {ε σ α β : Type}

theorem bindOk {x : Except ε α} {f : α → Except ε β} {b : β} :
    (x >>= f) = .ok b ↔ ∃ a, x = .ok a ∧ f a = .ok b := by
  cases x <;> simp [bind, Except.bind]

theorem mapOk {x : Except ε α} {f : α → β} {b : β} :
    x.map f = .ok b ↔ ∃ a, x = .ok a ∧ f a = b := by
  cases x <;> simp [Except.map]

theorem pureOk {a b : α} : (pure a : Except ε α) = .ok b ↔ a = b := by
  simp [pure, Except.pure]

def outcome (m : ExceptT ε (StateM σ) α) (s : σ) : Except ε α × σ := m.run.run s

theorem outcomeBind {m : ExceptT ε (StateM σ) α} {k : α → ExceptT ε (StateM σ) β} {s : σ} :
    outcome (m >>= k) s =
      match outcome m s with
      | (.ok a, s') => outcome (k a) s'
      | (.error e, s') => (.error e, s') := by
  have run : outcome (m >>= k) s = (match (outcome m s).1 with
      | .ok a => outcome (k a) (outcome m s).2
      | .error e => (.error e, (outcome m s).2)) := by
    show (ExceptT.bindCont k (outcome m s).1).run (outcome m s).2 = _
    cases (outcome m s).1 <;> rfl
  rw [run]
  rcases outcome m s with ⟨_ | _, _⟩ <;> rfl

theorem outcomeOk {m : ExceptT ε (StateM σ) α} {k : α → ExceptT ε (StateM σ) β} {s s' : σ} {b : β} :
    outcome (m >>= k) s = (.ok b, s') ↔
      ∃ a s₁, outcome m s = (.ok a, s₁) ∧ outcome (k a) s₁ = (.ok b, s') := by
  rw [outcomeBind]
  constructor
  · intro h
    split at h
    · next a s₁ first => exact ⟨a, s₁, first, h⟩
    · cases h
  · rintro ⟨a, s₁, first, second⟩
    rw [first]
    exact second

theorem outcomeTry {m : ExceptT ε (StateM σ) α} {handler : ε → ExceptT ε (StateM σ) α} {s : σ} :
    outcome (tryCatch m handler) s =
      match outcome m s with
      | (.ok a, s') => (.ok a, s')
      | (.error e, s') => outcome (handler e) s' := by
  have run : outcome (tryCatch m handler) s = (match (outcome m s).1 with
      | .ok a => (.ok a, (outcome m s).2)
      | .error e => outcome (handler e) (outcome m s).2) := by
    show StateT.run (m := Id) (match (outcome m s).1 with
      | .ok a => pure (.ok a)
      | .error e => handler e) (outcome m s).2 = _
    cases (outcome m s).1 <;> rfl
  rw [run]
  rcases outcome m s with ⟨_ | _, _⟩ <;> rfl

end LiveMarkup
