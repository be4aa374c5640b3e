import Mathlib.Tactic.Common

/-! Labelled runs of a step relation, with the labels in the order they happened. -/
namespace IcebergRs

inductive Trace {σ ε : Type*} (R : σ → ε → σ → Prop) (s : σ) : List ε → σ → Prop
  | nil : Trace R s [] s
  | snoc {es : List ε} {t u : σ} {e : ε} (run : Trace R s es t) (step : R t e u) :
      Trace R s (es ++ [e]) u

/-- An event of a history with one more event is that event, or it was there before. -/
theorem snoc_eq_append_cons {ε : Type*} {es pre post : List ε} {e x : ε}
    (h : es ++ [e] = pre ++ x :: post) :
    (es = pre ∧ e = x ∧ post = []) ∨ ∃ post', post = post' ++ [e] ∧ es = pre ++ x :: post' := by
  rcases List.eq_nil_or_concat post with rfl | ⟨post', y, rfl⟩
  · obtain ⟨rfl, hx⟩ := List.append_inj' h rfl
    exact .inl ⟨rfl, List.singleton_inj.mp hx, rfl⟩
  · rw [List.concat_eq_append, ← List.cons_append, ← List.append_assoc] at h
    obtain ⟨rfl, hy⟩ := List.append_inj' h rfl
    obtain rfl := List.singleton_inj.mp hy
    exact .inr ⟨post', List.concat_eq_append, rfl⟩

namespace Trace
variable {σ ε : Type*} {R : σ → ε → σ → Prop} {s t : σ} {es : List ε}

/-- What holds at the start and is kept by each step, history included, holds after
every run. -/
theorem invariant {I : List ε → σ → Prop} (h : Trace R s es t) (start : I [] s)
    (keep : ∀ es t e u, Trace R s es t → I es t → R t e u → I (es ++ [e]) u) : I es t := by
  induction h with
  | nil => exact start
  | snoc run step ih => exact keep _ _ _ _ run ih step

theorem append {fs : List ε} {u : σ} (h : Trace R s es t) (h' : Trace R t fs u) :
    Trace R s (es ++ fs) u := by
  induction h' with
  | nil => rwa [List.append_nil]
  | snoc _ step ih =>
    rw [← List.append_assoc]
    exact ih.snoc step

end Trace
end IcebergRs
