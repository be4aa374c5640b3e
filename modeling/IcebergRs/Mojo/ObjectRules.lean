import IcebergRs.Mojo.Objects
import IcebergRs.Shim.Ownership

/-! What the methods of the binding do to the boxes of the process. A text that the shim hands out
is freed by the method that takes it. A new box becomes the object that the method returns, unless
the library cannot be opened for it. -/
namespace IcebergRs.Mojo

/-- From a state with the boxes `C` the program uses some of them and adds new ones to them. When it
raises it leaves at most so many new ones behind that nobody owns. -/
def Acts {Scan α : Type} (U : List ℕ) (C : Boxes) (x : Abi Scan α) (new : α → List Owned)
    (spilled : ℕ) : Prop :=
  ∀ s, Owns s C → x.Ends s (fun a t => ∃ N : Boxes, N.owned = new a ∧ Leaves U s (N ++ C) t)
    fun _ t => ∃ N : Boxes, N.length ≤ spilled ∧ Leaves U s (N ++ C) t

/-- The boxes that a method leaves behind when the library cannot be opened for them. -/
def spill {Library : Type} (env : Env Library) : ℕ :=
  match shim env with
  | .ok _ => 0
  | .error _ => 1

/-- The objects of some batches. -/
def batchObjects (bs : List ℕ) : List Owned := bs.map fun b => ⟨.batch, b⟩

variable {Scan Library α β ρ τ : Type} {s t : Process Scan} {C D M N : Boxes} {U : List ℕ}
variable {k p q : ℕ} {cls : BoxClass} {what : String} {env : Env Library}
variable {x : Abi Scan α} {f : α → Abi Scan β} {new : α → List Owned} {new' : β → List Owned}

theorem acts_of_runs (h : Runs U C x new) : Acts U C x new k :=
  fun s hs => (h s hs).mono (fun _ _ h => h) fun _ _ h => h.elim

theorem acts_pure {a : α} : Acts U C (pure a : Abi Scan α) (fun _ => []) k :=
  acts_of_runs (runs_pure rfl)

theorem Acts.seq (hx : Acts U C x (fun _ => []) k) (hf : ∀ a, Acts U C (f a) new' k) :
    Acts U C (x >>= f) new' k := by
  intro s hs
  refine (hx s hs).bind ?_
  rintro a t ⟨N, hN, hl⟩
  obtain rfl := List.map_eq_nil_iff.mp hN
  refine (hf a t hl.owns).mono ?_ ?_
  · rintro b u ⟨N', hN', hl'⟩
    exact ⟨N', hN', hl.trans hl'⟩
  · rintro m u ⟨N', hN', hl'⟩
    exact ⟨N', hN', hl.trans hl'⟩

theorem Acts.map {g : α → β} (hx : Acts U C x new k) (hg : ∀ a, new' (g a) = new a) :
    Acts U C (do pure (g (← x))) new' k := by
  intro s hs
  refine (hx s hs).bind ?_
  rintro a t ⟨N, hN, hl⟩
  exact ⟨N, hN.trans (hg a).symm, hl⟩

/-- Nothing changes before the error. -/
theorem raiseLast_ends {Q : α → Process Scan → Prop} {E : String → Process Scan → Prop}
    (h : ∀ m, E m s) : (raiseLast what).Ends s Q E := h _

/-- A method that checks what it got from a call that hands out nothing. -/
theorem Runs.check (bad : α → Prop) [DecidablePred bad] (hx : Runs U C x fun _ => [])
    (hf : ∀ a, Acts U C (f a) new' k) :
    Acts U C (do let a ← x; if bad a then raiseLast what else f a) new' k := by
  refine (acts_of_runs hx).seq fun a => ?_
  split
  · exact fun s hs => raiseLast_ends fun _ => ⟨[], Nat.zero_le _, .refl hs⟩
  · exact hf a

variable (Scan) in
theorem openShim_cases (env : Env Library) :
    ((openShim env : Abi Scan PUnit) = pure ⟨⟩ ∧ spill env = 0) ∨
    ∃ m, (openShim env : Abi Scan PUnit) = .raise m ∧ spill env = 1 := by
  unfold openShim spill
  cases shim env with
  | ok library => exact .inl ⟨rfl, rfl⟩
  | error m => exact .inr ⟨m, rfl, rfl⟩

theorem acts_openShim : Acts U C (openShim env : Abi Scan PUnit) (fun _ => []) k := by
  rcases openShim_cases Scan env with ⟨h, -⟩ | ⟨m, h, -⟩ <;> rw [h]
  · exact acts_pure
  · exact fun s hs => ⟨[], Nat.zero_le _, .refl hs⟩

/-- A new box becomes an object or is left behind. -/
theorem openShim_ends (new : α → List Owned) {a : α} (hN : N.owned = new a) (hone : N.length = 1)
    (hl : Leaves U s (N ++ C) t) :
    (openShim env >>= fun _ => (pure a : Abi Scan α)).Ends t
      (fun a u => ∃ N : Boxes, N.owned = new a ∧ Leaves U s (N ++ C) u)
      fun _ u => ∃ N : Boxes, N.length ≤ spill env ∧ Leaves U s (N ++ C) u := by
  rcases openShim_cases Scan env with ⟨h, -⟩ | ⟨m, h, hspill⟩ <;> rw [h]
  · exact ⟨N, hN, hl⟩
  · exact ⟨N, by rw [hone, hspill], hl⟩

theorem acts_checked {bad : ℤ → Bool} {call : Abi Scan ℤ} (h : Runs U C call fun _ => []) :
    Acts U C (checked what bad call) (fun _ => []) k :=
  Runs.check (fun rc => bad rc = true) h fun _ => acts_pure

theorem acts_status {bad : ℤ → Bool} {call : Abi Scan ℤ} (h : Runs U C call fun _ => []) :
    Acts U C (status what bad call) (fun _ => []) k := (acts_checked h).seq fun _ => acts_pure

theorem acts_filled {bad : ℤ → Bool} {call : Abi Scan (ℤ × α)} (h : Runs U C call fun _ => []) :
    Acts U C (filled what bad call) (fun _ => []) k :=
  Runs.check (fun r : ℤ × α => bad r.1 = true) h fun _ => acts_pure

/-- The text is copied while its box is there. -/
theorem takeText_ends (hs : Owns s C) (hN : N.owned = [⟨.text, q⟩]) (hl : Leaves U s (N ++ C) t) :
    (takeText q).Ends t (fun _ u => Leaves U s C u) fun _ _ => False := by
  obtain ⟨e, rfl, he⟩ := List.map_eq_singleton_iff.mp hN
  obtain ⟨hcls, hq⟩ := Owned.mk.inj he
  have hmem : ⟨.text, q⟩ ∈ Boxes.owned ([e] ++ C) := he ▸ List.mem_cons_self
  have hfree := (Abi.ibStringFree_frees : Frees (Abi.ibStringFree e.1 : Abi Scan PUnit) .text e.1)
  rw [← hcls] at hfree
  obtain ⟨hq0, o, ho, hocls⟩ := hl.owns.lookup hmem
  obtain ⟨text, rfl⟩ := Abi.text_make o hocls
  have hread : Abi.cString q t = .value (cName text) t := by
    rw [Abi.cString, if_neg hq0]
    simp only [bind, Program.bind, Abi.read_eq ho, pure]
  refine Program.Ends.bind (R := fun _ u => u = t) ?_ ?_
  · rw [Program.Ends, hread]
  · rintro c _ rfl
    refine (hq ▸ hfree.away (M := []) hs hl).bind ?_
    exact fun _ _ h => h

/-- A method that goes on with the box that a call has handed out. -/
theorem acts_handed {call : Abi Scan ℕ} {f : ℕ → Abi Scan β} (h : Runs U C call (handedOut cls))
    (hf : ∀ s t q N, Owns s C → Boxes.owned N = [⟨cls, q⟩] → Leaves U s (N ++ C) t →
      (f q).Ends t (fun b u => ∃ N : Boxes, N.owned = new' b ∧ Leaves U s (N ++ C) u)
        fun _ u => ∃ N : Boxes, N.length ≤ k ∧ Leaves U s (N ++ C) u) :
    Acts U C (do let p ← call; if p = 0 then raiseLast what else f p) new' k := by
  intro s hs
  refine (acts_of_runs h s hs).bind ?_
  rintro q t ⟨N, hN, hl⟩
  unfold handedOut at hN
  split at hN
  next hq =>
    obtain rfl := List.map_eq_nil_iff.mp hN
    rw [if_pos hq]
    exact raiseLast_ends fun _ => ⟨[], Nat.zero_le _, hl⟩
  next hq =>
    rw [if_neg hq]
    exact hf s t q N hs hN hl

theorem acts_text {call : Abi Scan ℕ} (h : Runs U C call (handedOut .text)) :
    Acts U C (text what call) (fun _ => []) k :=
  acts_handed h fun _ _ _ _ hs hN hl =>
    (takeText_ends hs hN hl).mono (fun _ _ h => ⟨[], rfl, h⟩) fun _ _ h => h.elim

theorem acts_wrapped {call : Abi Scan ℕ} (h : Runs U C call (handedOut cls)) :
    Acts U C (wrapped env what call) (fun p => [⟨cls, p⟩]) (spill env) :=
  acts_handed h fun _ _ _ N _ hN hl =>
    openShim_ends _ hN (by rw [← Boxes.length_owned, hN]; rfl) hl

theorem acts_opened {call : Abi Scan ℕ} (h : Runs U C call (handedOut cls)) :
    Acts U C (Catalog.opened env what call) (fun p => [⟨cls, p⟩]) k :=
  acts_openShim.seq fun _ => acts_handed h fun _ _ _ N _ hN hl => ⟨N, hN, hl⟩

section
variable {mem : Allocators Scan}

theorem acts_next (hp : ⟨.scan, p⟩ ∈ C.owned) (hU : p ∈ U)
    (toArrow : Except String (ℕ → Poll String RecordBatch)) :
    Acts U C (Mojo.Scan.next mem env p toArrow) (fun b => batchObjects b.toList) (spill env) := by
  intro s hs
  let new (b : Option ℕ) := batchObjects b.toList
  refine (acts_of_runs (Abi.runs_ibScanNext mem hp hU toArrow true) s hs).bind ?_
  rintro ⟨rc, out⟩ t ⟨N, hN, hl⟩
  unfold Abi.pulled at hN
  dsimp only at hN ⊢
  split at hN
  next hrc =>
    obtain rfl := List.map_eq_nil_iff.mp hN
    split
    · exact raiseLast_ends fun _ => ⟨[], Nat.zero_le _, hl⟩
    · rw [if_pos (by omega)]
      exact ⟨[], rfl, hl⟩
  next hrc =>
    rw [if_neg (by omega), if_neg (by omega)]
    exact openShim_ends new hN (by rw [← Boxes.length_owned, hN]; rfl) hl

/-- A destructor does nothing to an object that is not there. -/
theorem frees_of_nonnull {free : Abi Scan PUnit} (h : Frees free cls p) :
    Frees (if p ≠ 0 then free else pure ⟨⟩) cls p := by
  intro s C hs hp
  rw [if_pos (hs.lookup hp).1]
  exact h s C hs hp

theorem dropAll_ends (hs : Owns s C) {out : List ℕ} (hD : D.owned = batchObjects out)
    (hl : Leaves U s (D ++ (M ++ C)) t) :
    (Mojo.Scan.dropAll out).Ends t (fun _ u => Leaves U s (M ++ C) u) fun _ _ => False := by
  induction out generalizing D t with
  | nil =>
    obtain rfl := List.map_eq_nil_iff.mp hD
    exact hl
  | cons b out ih =>
    obtain ⟨e, D, rfl, he, hD'⟩ := List.map_eq_cons_iff.mp hD
    obtain ⟨hcls, rfl⟩ := Owned.mk.inj he
    have hfree := frees_of_nonnull
      (Abi.ibBatchFree_frees : Frees (Abi.ibBatchFree e.1 : Abi Scan PUnit) .batch e.1)
    rw [← hcls] at hfree
    rw [List.cons_append, ← List.append_assoc] at hl
    refine (hfree.away hs hl).bind fun _ u hu => ?_
    exact ih hD' (List.append_assoc D M C ▸ hu)

/-- The batches so far are objects, and an error drops them. -/
theorem batchesLoop_ends (hs : Owns s C) (hp : ⟨.scan, p⟩ ∈ C.owned) (hU : p ∈ U)
    (answers : ℕ → Except String (ℕ → Poll String RecordBatch)) (rounds : ℕ) {out : List ℕ}
    (hD : D.owned = batchObjects out) (hl : Leaves U s (D ++ C) t) :
    (Mojo.Scan.batchesLoop mem env p answers rounds out).Ends t
      (fun bs u => ∃ N : Boxes, N.owned = batchObjects bs ∧ Leaves U s (N ++ C) u)
      fun _ u => ∃ N : Boxes, N.length ≤ spill env ∧ Leaves U s (N ++ C) u := by
  induction rounds generalizing D t out with
  | zero => exact Program.ends_lose
  | succ rounds ih =>
    have hp' : ⟨.scan, p⟩ ∈ (D ++ C).owned := by
      rw [Boxes.owned_append]
      exact List.mem_append_right _ hp
    refine ((acts_next hp' hU (answers out.length) t hl.owns).cleanup ?_).bind ?_
    · rintro m u ⟨N, hN, hl'⟩
      have hdrop : Leaves U s (D ++ (N ++ C)) u :=
        (hl.trans hl').perm (List.perm_append_comm_assoc N D C)
      exact (dropAll_ends hs hD hdrop).mono (fun _ _ h => ⟨N, hN, h⟩) fun _ _ h => h.elim
    · rintro (_ | b) u ⟨N, hN, hl'⟩
      · obtain rfl := List.map_eq_nil_iff.mp hN
        exact ⟨D, hD, hl.trans hl'⟩
      · have hout : (D ++ N).owned = batchObjects (out ++ [b]) := by
          rw [Boxes.owned_append, hD, hN, batchObjects, batchObjects, List.map_append]
          rfl
        refine ih hout ((hl.trans hl').perm ?_)
        rw [List.append_assoc]
        exact List.perm_append_comm_assoc N D C

theorem acts_batches (hp : ⟨.scan, p⟩ ∈ C.owned) (hU : p ∈ U)
    (answers : ℕ → Except String (ℕ → Poll String RecordBatch)) (rounds : ℕ) :
    Acts U C (Mojo.Scan.batches mem env p answers rounds) batchObjects (spill env) :=
  fun _ hs => batchesLoop_ends (D := []) hs hp hU answers rounds rfl (.refl hs)

end
end IcebergRs.Mojo
