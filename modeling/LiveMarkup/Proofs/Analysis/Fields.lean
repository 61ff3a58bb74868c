import LiveMarkup.Proofs.Client.Words
/-! The fields that an expression touches against those that its printed code accesses. They are the
same unless a field is printed under another name, or not at all. -/
namespace LiveMarkup.Analysis
open Syntax Client

structure Touched.Tidy (t : Touched) : Prop where
  signals : t.signals.Nodup
  writes : t.writes.Nodup
  declared : ∀ f ∈ t.writes, f ∈ t.signals

theorem tidyRead {t : Touched} (h : t.Tidy) (name : String) : (t.read name).Tidy where
  signals := Touched.nodup_insertNew h.signals
  writes := h.writes
  declared f hf := Touched.mem_insertNew.mpr (.inl (h.declared f hf))

theorem tidyWrite {t : Touched} (h : t.Tidy) (name : String) : (t.write name).Tidy where
  signals := Touched.nodup_insertNew h.signals
  writes := Touched.nodup_insertNew h.writes
  declared f hf := by
    rcases Touched.mem_insertNew.mp hf with hf | rfl
    · exact Touched.mem_insertNew.mpr (.inl (h.declared f hf))
    · exact Touched.mem_insertNew.mpr (.inr rfl)

theorem tidyWord {t : Touched} (h : t.Tidy) (w : Word) : (w.touch t).Tidy := by
  cases w with
  | field name shown? written =>
    cases written with
    | false => exact tidyRead h name
    | true => exact tidyWrite h name
  | component => exact h
  | «variable» id shown => exact h

theorem tidyAll {t : Touched} (h : t.Tidy) (ms : List Mention) : (touchAllOf t ms).Tidy := by
  induction ms generalizing t with
  | nil => exact h
  | cons m rest ih => exact ih (tidyWord h m.1)

theorem tidyFields {s : Scope} {e : Expr} : (fieldsOf s e).Tidy := by
  have empty : Touched.Tidy {} := ⟨List.nodup_nil, List.nodup_nil, fun f hf => hf⟩
  rw [fieldsOf, @touchWords s [] {} e]
  exact tidyAll empty _

theorem signalsWord {t : Touched} {w : Word} {f : String} :
    f ∈ (w.touch t).signals ↔ f ∈ t.signals ∨ ∃ g? written, w = .field f g? written := by
  cases w with
  | field name shown? written =>
    cases written with
    | false => simp [Word.touch, Touched.read, Touched.mem_insertNew, eq_comm]
    | true => simp [Word.touch, Touched.write, Touched.mem_insertNew, eq_comm]
  | component => simp [Word.touch]
  | «variable» id shown => simp [Word.touch]

theorem signalsAll {t : Touched} {ms : List Mention} {f : String} :
    f ∈ (touchAllOf t ms).signals ↔
      f ∈ t.signals ∨ ∃ m ∈ ms, ∃ g? written, m.1 = .field f g? written := by
  induction ms generalizing t with
  | nil => simp [touchNil]
  | cons m rest ih =>
    rw [touchCons, ih, signalsWord, or_assoc]
    simp only [List.mem_cons, exists_eq_or_imp]

theorem memSignals {s : Scope} {b : Binders} {e : Expr} {f : String} :
    f ∈ (fieldsOf s e).signals ↔ ∃ m ∈ words s b e, ∃ g? written, m.1 = .field f g? written := by
  rw [fieldsOf, @touchWords s b {} e, signalsAll]
  simp

end LiveMarkup.Analysis

namespace LiveMarkup.Client
open Syntax Analysis

def Code.accesses : Code → List (String × String)
  | access field shown => [(field, shown)]
  | arrow _ _ body => body.accesses
  | join first second => first.accesses ++ second.accesses
  | _ => []

theorem memAccesses {b : Binders} {c : Code} {f g : String} :
    (f, g) ∈ c.accesses ↔ ∃ m ∈ c.mentions b, m.1 = .field f (some g) false := by
  induction c generalizing b with
  | access field shown => simp [Code.accesses, Code.mentions, eq_comm]
  | arrow params listed body ih => exact ih
  | join first second ih₁ ih₂ =>
    rw [Code.accesses, Code.mentions, List.mem_append, @ih₁ b, @ih₂ b]
    simp only [List.mem_append, or_and_right, exists_or]
  | _ => simp [Code.accesses, Code.mentions]

theorem printedField {w : Word} {f g : String} :
    w.printed? = some (.field f (some g) false) ↔ ∃ written, w = .field f (some g) written := by
  cases w with
  | field name shown? written => cases shown? <;> simp [Word.printed?]
  | component => simp [Word.printed?]
  | «variable» id text => simp [Word.printed?]

theorem shownField {ms : List Mention} {f g : String} :
    (∃ m ∈ shown ms, m.1 = .field f (some g) false) ↔
      ∃ m ∈ ms, ∃ written, m.1 = .field f (some g) written := by
  constructor
  · rintro ⟨⟨w, b⟩, hm, rfl⟩
    obtain ⟨w, hw, printed⟩ := memShown.mp hm
    exact ⟨(w, b), hw, printedField.mp printed⟩
  · rintro ⟨⟨w, b⟩, hm, written⟩
    exact ⟨(_, b), memShown.mpr ⟨w, hm, printedField.mpr written⟩, rfl⟩

theorem memPrinted {s : Scope} {b : Binders} {e : Expr} {c : Code} (h : Prints s e c) {f g : String} :
    (f, g) ∈ c.accesses ↔ ∃ m ∈ words s b e, ∃ written, m.1 = .field f (some g) written := by
  rw [@memAccesses b, ← shownField]
  constructor
  · rintro ⟨m, hm, same⟩
    exact ⟨m, (mentionsOf h m).mp hm, same⟩
  · rintro ⟨m, hm, same⟩
    exact ⟨m, (mentionsOf h m).mpr hm, same⟩

def Code.emitted (c : Code) : List String := c.accesses.map (·.2)

/-- The names of its fields are, taken together, those that they are printed under. -/
def SameNames (s : Scope) (e : Expr) : Prop :=
  ∀ f, (∃ m ∈ words s [] e, ∃ g? written, m.1 = .field f g? written) ↔
    ∃ m ∈ words s [] e, ∃ g written, m.1 = .field g (some f) written

theorem memEmitted {s : Scope} {e : Expr} {c : Code} (h : Prints s e c) {f : String} :
    f ∈ c.emitted ↔ ∃ m ∈ words s [] e, ∃ g written, m.1 = .field g (some f) written := by
  rw [Code.emitted, List.mem_map]
  constructor
  · rintro ⟨⟨g, f⟩, access, rfl⟩
    obtain ⟨m, hm, written, named⟩ := (@memPrinted s [] e c h g f).mp access
    exact ⟨m, hm, g, written, named⟩
  · rintro ⟨m, hm, g, written, named⟩
    exact ⟨(g, f), (@memPrinted s [] e c h g f).mpr ⟨m, hm, written, named⟩, rfl⟩

theorem emittedIff {s : Scope} {e : Expr} {c : Code} (h : Prints s e c) :
    (∀ f, f ∈ c.emitted ↔ f ∈ (fieldsOf s e).signals) ↔ SameNames s e := by
  refine forall_congr' fun f => ?_
  rw [memEmitted h, @memSignals s [] e f]
  exact iff_comm

end LiveMarkup.Client
