import IcebergRs.Support.Outcome
import Mathlib.Tactic.Common

/-! Programs that work on a state and may raise, and rules for how they end. A program that
raises leaves the state behind that it has reached. -/
namespace IcebergRs

universe u

/-- `lost` is a panic or no return at all. `undefined` is a misuse of memory, after which
anything may happen. -/
inductive Exit (σ α : Type u) where
  | value (a : α) (s : σ)
  | raised (m : String) (s : σ)
  | lost (why : String)
  | undefined

/-- The state that is left when a program comes back. -/
def Exit.state {σ α : Type u} : Exit σ α → Option σ
  | .value _ s | .raised _ s => some s
  | .lost _ | .undefined => none

def Program (σ α : Type u) : Type u := σ → Exit σ α

namespace Program
variable {σ α β : Type u}

protected def bind (x : Program σ α) (f : α → Program σ β) : Program σ β := fun s =>
  match x s with
  | .value a t => f a t
  | .raised m t => .raised m t
  | .lost w => .lost w
  | .undefined => .undefined

instance : Monad (Program σ) where
  pure a s := .value a s
  bind := Program.bind

def raise (m : String) : Program σ α := fun s => .raised m s

def lose (why : String) : Program σ α := fun _ => .lost why

def undefined : Program σ α := fun _ => .undefined

/-- What the state has to say. -/
def ask (f : σ → α) : Program σ α := fun s => .value (f s) s

def modify (f : σ → σ) : Program σ PUnit := fun s => .value ⟨⟩ (f s)

/-- A program that cleans up before it lets an error pass. -/
def cleanup (x : Program σ α) (c : Program σ PUnit) : Program σ α := fun s =>
  match x s with
  | .raised m t =>
    match c t with
    | .value _ u => .raised m u
    | .raised m' u => .raised m' u
    | .lost w => .lost w
    | .undefined => .undefined
  | other => other

/-- The program is defined in the state. If it returns there is `Q`, and if it raises `E`. -/
def Ends (x : Program σ α) (s : σ) (Q : α → σ → Prop) (E : String → σ → Prop) : Prop :=
  match x s with
  | .value a t => Q a t
  | .raised m t => E m t
  | .lost _ => True
  | .undefined => False

/-- The program ends in the state as the outcome does. `Q` relates what both return, and says
what state is left then, and `E` says what an error leaves. -/
def Follows {γ : Type u} (x : Program σ α) (s : σ) (o : Outcome γ) (Q : α → γ → σ → Prop)
    (E : σ → Prop) : Prop :=
  match o with
  | .ok c => ∃ a t, x s = .value a t ∧ Q a c t
  | .err m => ∃ t, x s = .raised m t ∧ E t
  | .panic _ => ∃ w, x s = .lost w

/-- Whatever state the program leaves, `f` of it is `c`. -/
def Sets {γ : Type*} (f : σ → γ) (x : Program σ α) (s : σ) (c : γ) : Prop :=
  ∀ t ∈ (x s).state, f t = c

/-- The program may change the state, but not what `f` says of it. -/
abbrev Preserves {γ : Type*} (f : σ → γ) (x : Program σ α) (s : σ) : Prop := x.Sets f s (f s)

variable {x : Program σ α} {f : α → Program σ β} {s t : σ} {a : α}
variable {Q R : α → σ → Prop} {E E' : String → σ → Prop} {m : String}

theorem Ends.defined (h : x.Ends s Q E) : x s ≠ .undefined := by
  intro hx
  rw [Ends, hx] at h
  exact h

theorem Ends.value (h : x.Ends s Q E) (hx : x s = .value a t) : Q a t := by
  rwa [Ends, hx] at h

theorem Ends.raised (h : x.Ends s Q E) (hx : x s = .raised m t) : E m t := by
  rwa [Ends, hx] at h

theorem Ends.mono (h : x.Ends s Q E) (hQ : ∀ a t, Q a t → R a t) (hE : ∀ m t, E m t → E' m t) :
    x.Ends s R E' := by
  unfold Ends at h ⊢
  split at h
  · exact hQ _ _ h
  · exact hE _ _ h
  · trivial
  · exact h

theorem ends_lose {w : String} : (lose w : Program σ α).Ends s Q E := trivial

/-- The first part has to end where the second one can go on. -/
theorem Ends.bind {Q : β → σ → Prop} (h : x.Ends s R E) (hf : ∀ a t, R a t → (f a).Ends t Q E) :
    (x >>= f).Ends s Q E := by
  change (Program.bind x f).Ends s Q E
  unfold Ends at h
  cases hx : x s with
  | value a t =>
    rw [hx] at h
    simpa only [Ends, Program.bind, hx] using hf a t h
  | raised m t => simpa only [Ends, Program.bind, hx] using h
  | lost w => simp only [Ends, Program.bind, hx]
  | undefined => simp [hx] at h

/-- How the program has ended is known where it goes on. -/
theorem Ends.traced (h : x.Ends s Q E) : x.Ends s (fun a t => x s = .value a t ∧ Q a t) E := by
  unfold Ends at h ⊢
  split at h
  next hx => exact ⟨hx, h⟩
  · exact h
  · trivial
  · exact h

/-- What is cleaned up after an error is what the error has left. -/
theorem Ends.cleanup {c : Program σ PUnit} (h : x.Ends s Q E')
    (hc : ∀ m t, E' m t → c.Ends t (fun _ u => E m u) E) : (x.cleanup c).Ends s Q E := by
  unfold Ends at h
  cases hx : x s with
  | value a t => simpa only [Ends, Program.cleanup, hx] using h
  | raised m t =>
    rw [hx] at h
    have hend := hc m t h
    unfold Ends at hend
    cases hu : c t with
    | value _ u => simpa only [Ends, Program.cleanup, hx, hu] using hend
    | raised m' u => simpa only [Ends, Program.cleanup, hx, hu] using hend
    | lost w => simp only [Ends, Program.cleanup, hx, hu]
    | undefined => simp [hu] at hend
  | lost w => simp only [Ends, Program.cleanup, hx]
  | undefined => simp [hx] at h

section
variable {γ δ : Type u} {o : Outcome γ} {c : γ} {P : α → γ → σ → Prop} {D D' : σ → Prop}

theorem follows_pure {P : α → γ → σ → Prop} (h : P a c s) :
    (pure a : Program σ α).Follows s (.ok c) P D := ⟨a, s, rfl, h⟩

theorem Follows.ends (h : x.Follows s o P D) :
    x.Ends s (fun a t => ∃ c, P a c t) fun _ t => D t := by
  cases o with
  | ok c =>
    obtain ⟨a, t, ht, hp⟩ := h
    rw [Ends, ht]
    exact ⟨c, hp⟩
  | err m =>
    obtain ⟨t, ht, hd⟩ := h
    rwa [Ends, ht]
  | panic w =>
    obtain ⟨w', hw⟩ := h
    rw [Ends, hw]
    trivial

theorem Follows.mono {P' : α → γ → σ → Prop} (h : x.Follows s o P D)
    (hP : ∀ a c t, P a c t → P' a c t) (hD : ∀ t, D t → D' t) : x.Follows s o P' D' := by
  cases o with
  | ok c =>
    obtain ⟨a, t, ht, hp⟩ := h
    exact ⟨a, t, ht, hP a c t hp⟩
  | err m =>
    obtain ⟨t, ht, hd⟩ := h
    exact ⟨t, ht, hD t hd⟩
  | panic w => exact h

theorem Follows.mono_of_ok {P' : α → γ → σ → Prop} (h : x.Follows s o P D)
    (hP : ∀ a c t, o = .ok c → P a c t → P' a c t) : x.Follows s o P' D := by
  cases o with
  | ok c =>
    obtain ⟨a, t, ht, hp⟩ := h
    exact ⟨a, t, ht, hP a c t rfl hp⟩
  | err m => exact h
  | panic w => exact h

/-- The second part follows where the first one has got to. -/
theorem Follows.bind {g : γ → Outcome δ} {P' : β → δ → σ → Prop} (h : x.Follows s o P D)
    (hf : ∀ a c t, o = .ok c → P a c t → (f a).Follows t (g c) P' D) :
    (x >>= f).Follows s (o >>= g) P' D := by
  cases o with
  | ok c =>
    obtain ⟨a, t, ht, hp⟩ := h
    have hbind : (x >>= f) s = f a t := by simp only [Bind.bind, Program.bind, ht]
    have hend := hf a c t rfl hp
    unfold Follows at hend ⊢
    rwa [Outcome.ok_bind, hbind]
  | err m =>
    obtain ⟨t, ht, hd⟩ := h
    exact ⟨t, by simp only [Bind.bind, Program.bind, ht], hd⟩
  | panic w =>
    obtain ⟨w', hw⟩ := h
    exact ⟨w', by simp only [Bind.bind, Program.bind, hw]⟩

theorem Follows.map_right {g : γ → δ} {P' : α → δ → σ → Prop} (h : x.Follows s o P D)
    (hP : ∀ a c t, P a c t → P' a (g c) t) : x.Follows s (do pure (g (← o))) P' D := by
  cases o with
  | ok c =>
    obtain ⟨a, t, ht, hp⟩ := h
    exact ⟨a, t, ht, hP a c t hp⟩
  | err m => exact h
  | panic w => exact h

theorem Follows.map_left {g : α → β} {P' : β → γ → σ → Prop} (h : x.Follows s o P D)
    (hP : ∀ a c t, P a c t → P' (g a) c t) : (do pure (g (← x))).Follows s o P' D := by
  cases o with
  | ok c =>
    obtain ⟨a, t, ht, hp⟩ := h
    exact ⟨g a, t, by simp only [Bind.bind, Program.bind, ht, pure], hP a c t hp⟩
  | err m =>
    obtain ⟨t, ht, hd⟩ := h
    exact ⟨t, by simp only [Bind.bind, Program.bind, ht], hd⟩
  | panic w =>
    obtain ⟨w', hw⟩ := h
    exact ⟨w', by simp only [Bind.bind, Program.bind, hw]⟩

/-- What an error has left is cleaned up, and the error passes. -/
theorem Follows.cleanup {y : Program σ PUnit} (h : x.Follows s o P D)
    (hy : ∀ t, D t → ∃ u, y t = .value ⟨⟩ u ∧ D' u) : (x.cleanup y).Follows s o P D' := by
  cases o with
  | ok c =>
    obtain ⟨a, t, ht, hp⟩ := h
    exact ⟨a, t, by simp only [Program.cleanup, ht], hp⟩
  | err m =>
    obtain ⟨t, ht, hd⟩ := h
    obtain ⟨u, hu, hd'⟩ := hy t hd
    exact ⟨u, by simp only [Program.cleanup, ht, hu], hd'⟩
  | panic w =>
    obtain ⟨w', hw⟩ := h
    exact ⟨w', by simp only [Program.cleanup, hw]⟩

end

section
variable {γ : Type*} {g : σ → γ} {c : γ}

theorem bind_of_value (hx : x s = .value a t) : (x >>= f) s = f a t := by
  simp only [Bind.bind, Program.bind, hx]

theorem preserves_pure : (pure a : Program σ α).Preserves g s := by
  rintro _ ⟨⟩
  rfl

theorem preserves_raise : (raise m : Program σ α).Preserves g s := by
  rintro _ ⟨⟩
  rfl

theorem preserves_lose {w : String} : (lose w : Program σ α).Preserves g s := by
  rintro _ ⟨⟩

theorem sets_modify {q : σ → σ} (h : g (q s) = c) : (modify q).Sets g s c := by
  rintro _ ⟨⟩
  exact h

/-- The second part starts where the first one has returned. -/
theorem Sets.bind (hx : x.Sets g s c) (hf : ∀ a t, x s = .value a t → (f a).Preserves g t) :
    (x >>= f).Sets g s c := by
  intro u hu
  cases hxs : x s with
  | value a t =>
    rw [bind_of_value hxs] at hu
    exact (hf a t hxs u hu).trans (hx t (by rw [hxs]; rfl))
  | raised m t =>
    refine hx u ?_
    simp only [Bind.bind, Program.bind, hxs] at hu
    rwa [hxs]
  | lost w =>
    simp only [Bind.bind, Program.bind, hxs] at hu
    cases hu
  | undefined =>
    simp only [Bind.bind, Program.bind, hxs] at hu
    cases hu

theorem Sets.cleanup {y : Program σ PUnit} (hx : x.Sets g s c) (hy : ∀ t, y.Preserves g t) :
    (x.cleanup y).Sets g s c := by
  intro u hu
  cases hxs : x s with
  | raised m t =>
    have ht : g t = c := hx t (by rw [hxs]; rfl)
    refine Eq.trans (hy t u ?_) ht
    simp only [Program.cleanup, hxs] at hu
    cases hyt : y t <;> simp only [hyt] at hu <;> exact hu
  | value a t =>
    simp only [Program.cleanup, hxs] at hu
    exact hx u (by rwa [hxs])
  | lost w =>
    simp only [Program.cleanup, hxs] at hu
    cases hu
  | undefined =>
    simp only [Program.cleanup, hxs] at hu
    cases hu

end
end Program
end IcebergRs
