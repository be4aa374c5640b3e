import IcebergRs.Support.Trace
import Mathlib.Data.List.Infix

/-! Streams that are polled one answer at a time, and readers that report what they got.
After a stream has answered that it is finished its further answers are arbitrary. -/
namespace IcebergRs

/-- `stuck` is a poll that panics or never returns. -/
inductive Poll (ε α : Type*) where
  | item (a : α)
  | fault (e : ε)
  | finished
  | stuck

def Poll.item? {ε α : Type*} : Poll ε α → Option α
  | item a => some a
  | _ => none

/-- A stream with the answers to all polls, of which the first `taken` were asked for. -/
structure Polled (ε α : Type*) where
  polls : ℕ → Poll ε α
  taken : ℕ

namespace Polled
variable {ε α : Type*} (s : Polled ε α)

def head : Poll ε α := s.polls s.taken

def tail : Polled ε α := { s with taken := s.taken + 1 }

/-- The items among the first `k` answers. -/
def items (k : ℕ) : List α := (List.range k).filterMap fun i => (s.polls i).item?

/-- The stream has not ended before answer `k`. -/
def OpenAt (k : ℕ) : Prop := ∀ i < k, s.polls i ≠ .finished

/-- The stream ends with answer `k`. -/
def EndsAt (k : ℕ) : Prop := s.OpenAt k ∧ s.polls k = .finished

theorem items_succ (k : ℕ) : s.items (k + 1) = s.items k ++ (s.polls k).item?.toList := by
  rw [items, List.range_succ, List.filterMap_append]
  cases h : (s.polls k).item? <;> simp [items, h]

theorem openAt_succ {k : ℕ} : s.OpenAt (k + 1) ↔ s.OpenAt k ∧ s.polls k ≠ .finished := by
  constructor
  · intro h
    exact ⟨fun i hi => h i (by omega), h k (by omega)⟩
  · rintro ⟨h, hk⟩ i hi
    rcases Nat.lt_succ_iff_lt_or_eq.mp hi with hi | rfl
    · exact h i hi
    · exact hk

theorem items_succ_of {k : ℕ} (h : (s.polls k).item? = none) : s.items (k + 1) = s.items k := by
  rw [items_succ, h, Option.toList_none, List.append_nil]

end Polled

/-- What a reader of a stream says about one attempt to get the next item. -/
inductive Report (α : Type*) where
  | got (a : α)
  | ended
  | failed
  | crashed

/-- The items among the reports. -/
def received {α : Type*} (rs : List (Report α)) : List α :=
  rs.filterMap fun
    | .got a => some a
    | _ => none

namespace Polled
variable {ε α : Type*} (s : Polled ε α)

/-- The reader got the items of the stream in their order from the first one on, it reported
the end only after it got all of them, and it reported nothing else afterwards. -/
structure Delivers (rs : List (Report α)) : Prop where
  items : ∃ k, s.OpenAt k ∧ received rs = s.items k
  ended : ∀ pre post, rs = pre ++ .ended :: post →
    (∃ k, s.EndsAt k ∧ received pre = s.items k) ∧ ∀ r ∈ post, r = .ended

/-- One attempt of a reader that loses no item, from one position of the stream to the next.
Before the end it may refuse to read. Beyond the end it has to read and to find the end. -/
inductive Read : ℕ → Report α → ℕ → Prop
  | refused {k : ℕ} (hk : s.OpenAt k) : Read k .failed k
  | item {k : ℕ} {a : α} (hk : s.OpenAt k) (poll : s.polls k = .item a) : Read k (.got a) (k + 1)
  | fault {k : ℕ} {e : ε} (hk : s.OpenAt k) (poll : s.polls k = .fault e) : Read k .failed (k + 1)
  | stuck {k : ℕ} (hk : s.OpenAt k) (poll : s.polls k = .stuck) : Read k .crashed k
  | finished {k : ℕ} (poll : s.polls k = .finished) : Read k .ended (k + 1)

/-- A reader before the end has all items so far and has not reported the end. Beyond it the
reports are as they should be and all items have been received. -/
def Progress (rs : List (Report α)) (k : ℕ) : Prop :=
  (s.OpenAt k ∧ received rs = s.items k ∧ .ended ∉ rs) ∨
  (¬ s.OpenAt k ∧ s.Delivers rs ∧ ∃ e, s.EndsAt e ∧ received rs = s.items e)

variable {s} {rs : List (Report α)} {k k' : ℕ} {r : Report α}

theorem delivers_of_not_ended (hk : s.OpenAt k) (hr : received rs = s.items k)
    (hn : .ended ∉ rs) : s.Delivers rs := by
  refine ⟨⟨k, hk, hr⟩, ?_⟩
  rintro pre post rfl
  simp at hn

theorem Progress.delivers (h : s.Progress rs k) : s.Delivers rs := by
  rcases h with ⟨hk, hr, hn⟩ | ⟨-, hd, -⟩
  · exact delivers_of_not_ended hk hr hn
  · exact hd

theorem Delivers.snoc_ended {e : ℕ} (h : s.Delivers rs) (he : s.EndsAt e)
    (hr : received rs = s.items e) : s.Delivers (rs ++ [.ended]) := by
  refine ⟨⟨e, he.1, by simpa [received] using hr⟩, ?_⟩
  intro pre post heq
  rcases snoc_eq_append_cons heq with ⟨rfl, -, rfl⟩ | ⟨post, rfl, rfl⟩
  · exact ⟨⟨e, he, hr⟩, by simp⟩
  · obtain ⟨hpre, hpost⟩ := h.ended pre post rfl
    refine ⟨hpre, fun r hr => ?_⟩
    rcases List.mem_append.mp hr with hr | hr
    · exact hpost r hr
    · exact List.mem_singleton.mp hr

theorem Read.progress (h : s.Read k r k') (hp : s.Progress rs k) :
    s.Progress (rs ++ [r]) k' := by
  have before (hk : s.OpenAt k) : received rs = s.items k ∧ .ended ∉ rs := by
    rcases hp with ⟨-, h⟩ | ⟨hn, -⟩
    · exact h
    · exact absurd hk hn
  cases h with
  | refused hk =>
    obtain ⟨hr, hn⟩ := before hk
    exact .inl ⟨hk, by simpa [received] using hr, by simpa using hn⟩
  | item hk poll =>
    obtain ⟨hr, hn⟩ := before hk
    refine .inl ⟨s.openAt_succ.mpr ⟨hk, by simp [poll]⟩, ?_, by simpa using hn⟩
    rw [items_succ, ← hr, poll]
    simp [received, Poll.item?]
  | fault hk poll =>
    obtain ⟨hr, hn⟩ := before hk
    refine .inl ⟨s.openAt_succ.mpr ⟨hk, by simp [poll]⟩, ?_, by simpa using hn⟩
    rw [items_succ_of s (by rw [poll]; rfl), ← hr]
    simp [received]
  | stuck hk poll =>
    obtain ⟨hr, hn⟩ := before hk
    exact .inl ⟨hk, by simpa [received] using hr, by simpa using hn⟩
  | finished poll =>
    have past : ¬ s.OpenAt (k + 1) := fun h => h k (by omega) poll
    rcases hp with ⟨hk, hr, hn⟩ | ⟨-, hd, e, he, hr⟩
    · have hd := delivers_of_not_ended hk hr hn
      exact .inr ⟨past, hd.snoc_ended ⟨hk, poll⟩ hr, k, ⟨hk, poll⟩, by simpa [received] using hr⟩
    · exact .inr ⟨past, hd.snoc_ended he hr, e, he, by simpa [received] using hr⟩

/-- A reader that loses nothing and keeps to the end delivers the stream. -/
theorem delivers_of_reads (run : Trace s.Read 0 rs k) : s.Delivers rs := by
  have start : s.Progress [] 0 := .inl ⟨by intro i hi; omega, rfl, by simp⟩
  exact (run.invariant start fun _ _ _ _ _ hp hr => hr.progress hp).delivers

variable (s) in
/-- A reader that gets from one position of the stream to another may lose items, but hands over
what is left of them once and in their order. `whole` says that it loses none. -/
def Hands (k : ℕ) (xs : List α) (whole : Prop) (k' : ℕ) : Prop :=
  ∃ ys, s.items k' = s.items k ++ ys ∧ xs.Sublist ys ∧ (whole → xs = ys)

variable {xs ys : List α} {whole whole' : Prop} {k'' : ℕ}

theorem Hands.refl : s.Hands k [] whole k := ⟨[], (List.append_nil _).symm, .slnil, fun _ => rfl⟩

theorem Hands.mono (h : s.Hands k xs whole k') (hw : whole' → whole) : s.Hands k xs whole' k' := by
  obtain ⟨zs, hk, hsub, heq⟩ := h
  exact ⟨zs, hk, hsub, fun w => heq (hw w)⟩

/-- What is read in two parts. -/
theorem Hands.append (h : s.Hands k xs whole k') (h' : s.Hands k' ys whole' k'') :
    s.Hands k (xs ++ ys) (whole ∧ whole') k'' := by
  obtain ⟨zs, hk, hsub, heq⟩ := h
  obtain ⟨zs', hk', hsub', heq'⟩ := h'
  refine ⟨zs ++ zs', by rw [hk', hk, List.append_assoc], hsub.append hsub', ?_⟩
  rintro ⟨hw, hw'⟩
  rw [heq hw, heq' hw']

theorem hands_poll : s.Hands k (s.polls k).item?.toList whole (k + 1) :=
  ⟨_, s.items_succ k, .refl _, fun _ => rfl⟩

theorem hands_lost (hw : ¬ whole) : s.Hands k [] whole (k + 1) :=
  ⟨_, s.items_succ k, List.nil_sublist _, fun w => absurd w hw⟩

theorem hands_empty (h : (s.polls k).item? = none) : s.Hands k [] whole (k + 1) := by
  have hpoll : s.Hands k (s.polls k).item?.toList whole (k + 1) := hands_poll
  rwa [h] at hpoll

/-- A reader that goes on hands over all that it has read, if it loses nothing. -/
theorem Hands.lost (h : s.Hands k xs whole k') (hw : ¬ whole') : s.Hands k [] whole' k' := by
  obtain ⟨zs, hk, -, -⟩ := h
  exact ⟨zs, hk, List.nil_sublist _, fun w => absurd w hw⟩

theorem Hands.of_start (h : s.Hands 0 xs whole k) :
    xs.Sublist (s.items k) ∧ (whole → xs = s.items k) := by
  obtain ⟨zs, hk, hsub, heq⟩ := h
  obtain rfl : s.items k = zs := hk
  exact ⟨hsub, heq⟩

end Polled
end IcebergRs
