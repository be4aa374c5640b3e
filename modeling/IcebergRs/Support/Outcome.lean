import Mathlib.Data.List.Forall2

/-! Results of Rust computations: a value, an `Err` with its text, or a panic.
The three outcomes form a monad whose sequencing stops at the first failure. -/
namespace IcebergRs

universe u

inductive Outcome (α : Type u) where
  | ok (a : α)
  | err (msg : String)
  | panic (why : String)
  deriving DecidableEq, Repr

namespace Outcome
variable {α β : Type u}

protected def bind (x : Outcome α) (f : α → Outcome β) : Outcome β :=
  match x with
  | ok a => f a
  | err m => err m
  | panic w => panic w

instance : Monad Outcome where
  pure := ok
  bind := Outcome.bind

@[simp] theorem pure_eq (a : α) : (pure a : Outcome α) = ok a := rfl

@[simp] theorem ok_bind (a : α) (f : α → Outcome β) : (ok a >>= f) = f a := rfl

@[simp] theorem err_bind (m : String) (f : α → Outcome β) :
    (err m >>= f) = err m := rfl

@[simp] theorem panic_bind (w : String) (f : α → Outcome β) :
    (panic w >>= f) = panic w := rfl

instance : LawfulMonad Outcome := LawfulMonad.mk' Outcome
  (fun x => by cases x <;> rfl) (fun _ _ => rfl) (fun x _ _ => by cases x <;> rfl)

theorem bind_eq_ok {x : Outcome α} {f : α → Outcome β} {b : β} :
    (x >>= f) = ok b ↔ ∃ a, x = ok a ∧ f a = ok b := by
  cases x <;> simp

theorem bind_eq_panic {x : Outcome α} {f : α → Outcome β} {w : String} :
    (x >>= f) = panic w ↔ x = panic w ∨ ∃ a, x = ok a ∧ f a = panic w := by
  cases x <;> simp

theorem bind_ne_err {x : Outcome α} {f : α → Outcome β} {m : String} (hx : x ≠ err m)
    (hf : ∀ a, f a ≠ err m) : (x >>= f) ≠ err m := by
  cases x with
  | ok a => exact hf a
  | err m' => simpa using hx
  | panic w => simp

/-- `Option::ok_or_else`. -/
def okOr (x : Option α) (msg : String) : Outcome α :=
  match x with
  | some a => ok a
  | none => err msg

/-- `Option::unwrap`, which panics on `None`. -/
def unwrap (x : Option α) : Outcome α :=
  match x with
  | some a => ok a
  | none => panic "called `Option::unwrap()` on a `None` value"

/-- A `Result` with its error text rewritten by `map_err`. -/
def ofExcept (x : Except String α) (f : String → String) : Outcome α :=
  match x with
  | .ok a => ok a
  | .error e => err (f e)

/-- The same for the text of an `err`. -/
def mapErr (f : String → String) : Outcome α → Outcome α
  | ok a => ok a
  | err m => err (f m)
  | panic w => panic w

@[simp] theorem okOr_eq_ok {x : Option α} {m : String} {a : α} :
    okOr x m = ok a ↔ x = some a := by
  cases x <;> simp [okOr]

@[simp] theorem okOr_ne_panic {x : Option α} {m w : String} : okOr x m ≠ panic w := by
  cases x <;> simp [okOr]

@[simp] theorem unwrap_eq_ok {x : Option α} {a : α} : unwrap x = ok a ↔ x = some a := by
  cases x <;> simp [unwrap]

@[simp] theorem ofExcept_eq_ok {x : Except String α} {f : String → String} {a : α} :
    ofExcept x f = ok a ↔ x = .ok a := by
  cases x <;> simp [ofExcept]

@[simp] theorem ofExcept_ne_panic {x : Except String α} {f : String → String} {w : String} :
    ofExcept x f ≠ panic w := by
  cases x <;> simp [ofExcept]

@[simp] theorem mapErr_eq_ok {x : Outcome α} {f : String → String} {a : α} :
    x.mapErr f = ok a ↔ x = ok a := by
  cases x <;> simp [mapErr]

/-- Collecting a list of outcomes succeeds exactly when every element does. -/
theorem mapM_eq_ok {f : α → Outcome β} {xs : List α} {ys : List β} :
    xs.mapM f = ok ys ↔ List.Forall₂ (fun x y => f x = ok y) xs ys := by
  induction xs generalizing ys with
  | nil => cases ys <;> simp
  | cons x xs ih =>
    simp only [List.mapM_cons, bind_eq_ok, pure_eq, ok.injEq]
    constructor
    · rintro ⟨y, hy, ys', hys, rfl⟩
      exact .cons hy (ih.mp hys)
    · intro h
      cases h with
      | cons hy hys => exact ⟨_, hy, _, ih.mpr hys, rfl⟩

/-- The same with the elements and their results paired up. -/
theorem mapM_eq_ok_pairs {f : α → Outcome β} {xs : List α} {ys : List β} :
    xs.mapM f = ok ys ↔ ∃ qs : List (α × β), xs = qs.map Prod.fst ∧ ys = qs.map Prod.snd ∧
      ∀ q ∈ qs, f q.1 = ok q.2 := by
  rw [mapM_eq_ok]
  constructor
  · intro h
    induction h with
    | nil => exact ⟨[], rfl, rfl, by simp⟩
    | cons hab _ ih =>
      obtain ⟨qs, rfl, rfl, hqs⟩ := ih
      exact ⟨(_, _) :: qs, rfl, rfl, by simpa using ⟨hab, fun a b h => hqs (a, b) h⟩⟩
  · rintro ⟨qs, rfl, rfl, hqs⟩
    induction qs with
    | nil => simp
    | cons q qs ih =>
      exact .cons (hqs q (by simp)) (ih fun r hr => hqs r (by simp [hr]))

theorem ok_of_mapM_ok {f : α → Outcome β} {xs : List α} {ys : List β} (h : xs.mapM f = ok ys)
    {x : α} (hx : x ∈ xs) : ∃ y ∈ ys, f x = ok y := by
  obtain ⟨qs, rfl, rfl, hqs⟩ := mapM_eq_ok_pairs.mp h
  obtain ⟨q, hq, rfl⟩ := List.mem_map.mp hx
  exact ⟨q.2, List.mem_map_of_mem hq, hqs q hq⟩

theorem exists_mapM_ok {f : α → Outcome β} {xs : List α} (h : ∀ x ∈ xs, ∃ y, f x = ok y) :
    ∃ ys, xs.mapM f = ok ys := by
  induction xs with
  | nil => exact ⟨[], rfl⟩
  | cons x xs ih =>
    obtain ⟨y, hy⟩ := h x (by simp)
    obtain ⟨ys, hys⟩ := ih fun z hz => h z (by simp [hz])
    exact ⟨y :: ys, by simp [List.mapM_cons, hy, hys]⟩

theorem mem_of_mapM_ok {f : α → Outcome β} {xs : List α} {ys : List β} (h : xs.mapM f = ok ys)
    {y : β} (hy : y ∈ ys) : ∃ x ∈ xs, f x = ok y := by
  obtain ⟨qs, rfl, rfl, hqs⟩ := mapM_eq_ok_pairs.mp h
  obtain ⟨q, hq, rfl⟩ := List.mem_map.mp hy
  exact ⟨q.1, List.mem_map_of_mem hq, hqs q hq⟩

/-- An accumulator loop over outcomes collects them all and then folds. -/
theorem foldlM_map {γ : Type u} (f : α → Outcome β) (g : γ → β → γ) (xs : List α) (c : γ) :
    (xs.map f).foldlM (fun acc next => do pure (g acc (← next))) c =
      xs.mapM f >>= fun ys => ok (ys.foldl g c) := by
  induction xs generalizing c with
  | nil => rfl
  | cons x xs ih =>
    rw [List.map_cons, List.foldlM_cons, List.mapM_cons]
    cases f x with
    | ok y =>
      simp only [pure_eq, ok_bind, bind_assoc, List.foldl_cons]
      exact ih (g c y)
    | err m => rfl
    | panic w => rfl

/-- Collecting panics exactly at an element that panics after a prefix that succeeded. -/
theorem mapM_eq_panic {f : α → Outcome β} {xs : List α} {w : String} :
    xs.mapM f = panic w ↔ ∃ pre x post, xs = pre ++ x :: post ∧
      (∀ y ∈ pre, ∃ b, f y = ok b) ∧ f x = panic w := by
  induction xs with
  | nil => simp
  | cons x xs ih =>
    simp only [List.mapM_cons, bind_eq_panic, pure_eq, reduceCtorEq, and_false, exists_false,
      or_false, ih]
    constructor
    · rintro (hx | ⟨b, hb, pre, y, post, rfl, hpre, hy⟩)
      · exact ⟨[], x, xs, rfl, by simp, hx⟩
      · exact ⟨x :: pre, y, post, rfl, by simpa using ⟨⟨b, hb⟩, hpre⟩, hy⟩
    · rintro ⟨pre, y, post, heq, hpre, hy⟩
      cases pre with
      | nil =>
        obtain ⟨rfl, rfl⟩ := List.cons.inj heq
        exact Or.inl hy
      | cons z pre =>
        obtain ⟨rfl, rfl⟩ := List.cons.inj heq
        obtain ⟨b, hb⟩ := hpre x (by simp)
        exact Or.inr ⟨b, hb, pre, y, post, rfl, fun a ha => hpre a (by simp [ha]), hy⟩

end Outcome

section
variable {ε α β : Type u}

@[simp] theorem except_ok_bind (a : α) (f : α → Except ε β) : (Except.ok a >>= f) = f a := rfl

theorem except_bind_eq_ok {x : Except ε α} {f : α → Except ε β} {b : β} :
    (x >>= f) = .ok b ↔ ∃ a, x = .ok a ∧ f a = .ok b := by
  cases x <;> simp [bind, Except.bind]

/-- A first step that only checks a condition before it gives its value. -/
theorem except_exists_bind {x : Except ε α} {f : α → Except ε β} {p : Prop} {a : α}
    (hx : ∀ b, x = .ok b ↔ p ∧ a = b) :
    (∃ r, (x >>= f) = .ok r) ↔ p ∧ ∃ r, f a = .ok r := by
  constructor
  · rintro ⟨r, hr⟩
    obtain ⟨b, hb, hr⟩ := except_bind_eq_ok.mp hr
    obtain ⟨hp, rfl⟩ := (hx b).mp hb
    exact ⟨hp, r, hr⟩
  · rintro ⟨hp, r, hr⟩
    exact ⟨r, except_bind_eq_ok.mpr ⟨a, (hx a).mpr ⟨hp, rfl⟩, hr⟩⟩

/-- The same for a loop that can only fail. -/
theorem except_mapM_eq_ok {f : α → Except ε β} {xs : List α} {ys : List β} :
    xs.mapM f = .ok ys ↔ List.Forall₂ (fun x y => f x = .ok y) xs ys := by
  induction xs generalizing ys with
  | nil => cases ys <;> simp [pure, Except.pure]
  | cons x xs ih =>
    rw [List.mapM_cons]
    constructor
    · intro h
      cases hx : f x with
      | error e => simp [hx, bind, Except.bind] at h
      | ok y =>
        cases hxs : xs.mapM f with
        | error e => simp [hx, hxs, bind, Except.bind] at h
        | ok ys' =>
          obtain rfl : y :: ys' = ys := by
            simpa [hx, hxs, bind, Except.bind, pure, Except.pure] using h
          exact .cons hx (ih.mp hxs)
    · intro h
      cases h with
      | cons hy hys => simp [hy, ih.mpr hys, bind, Except.bind, pure, Except.pure]

/-- A loop whose steps succeed under a condition and then compute a value. -/
theorem except_mapM_eq_map {f : α → Except ε β} {p : α → Prop} {g : α → β}
    (h : ∀ x y, f x = .ok y ↔ p x ∧ g x = y) {xs : List α} {ys : List β} :
    xs.mapM f = .ok ys ↔ (∀ x ∈ xs, p x) ∧ xs.map g = ys := by
  simp only [except_mapM_eq_ok, h, List.forall₂_and_left]
  rw [← List.forall₂_map_left_iff (R := fun a b => a = b), List.forall₂_eq_eq_eq]

end
end IcebergRs
