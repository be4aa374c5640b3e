import IcebergRs.Mojo.Calls
import IcebergRs.Mojo.Masks

/-! What a method on an address returns, told by the contents of the object there. An error is the
one that the reply of the shim tells, and what the call was not to change is as it was. -/
namespace IcebergRs

/-- A reply with a bad code has a message, and the message can be read. -/
def Reply.Speaks {σ ρ : Type} (bad : ρ → Prop) (r : Reply σ ρ) : Prop :=
  bad r.ret → ∃ m, r.lastError = some m ∧ NulFree m

namespace Reply
variable {σ ρ α : Type} {bad : ρ → Prop} {s : σ} {ret : ρ} {m : String}

theorem nulFree_setErr (m : String) : NulFree (setErr m) := by
  unfold setErr NulFree
  split
  · decide
  · simp_all

@[simp] theorem speaks_done : (done s ret).Speaks bad ↔ ¬ bad ret := by
  simp [Speaks, done]

@[simp] theorem speaks_fail : (fail s ret m).Speaks bad :=
  fun _ => ⟨_, rfl, nulFree_setErr m⟩

theorem speaks_pointer (x : Except String α) : (pointer s x).Speaks (· = none) := by
  cases x <;> simp [pointer]

theorem pointer_state (x : Except String α) : (pointer s x).state = s := by
  cases x <;> rfl

theorem speaks_status (x : Except String Unit) : (status s x).Speaks (· < 0) := by
  cases x <;> simp [status]

theorem speaks_flag (x : Except String Bool) : (flag s x).Speaks (· < 0) := by
  rcases x with m | b
  · simp [flag]
  · cases b <;> simp [flag]

end Reply

namespace Mojo

/-- Nothing has changed but the last error. -/
structure Still {Scan : Type} (s t : Process Scan) : Prop where
  heap : ∀ q, t.heap.lookup q = s.heap.lookup q
  catalogs : t.catalogs = s.catalogs

/-- Everything but the object at the address is as it was. -/
def Spares {Scan : Type} (s : Process Scan) (p : ℕ) (t : Process Scan) : Prop :=
  ∀ q, q ≠ p → t.heap.lookup q = s.heap.lookup q

/-- The call returns the value and changes nothing. -/
def Answers {Scan α : Type} (s : Process Scan) (x : Abi Scan α) (o : Outcome α) : Prop :=
  x.Follows s o (fun a b t => a = b ∧ Still s t) (Still s)

variable {Scan Spec α β γ σ ρ τ : Type} {s t u : Process Scan} {x : Abi Scan α} {p q : ℕ}
variable {what : String} {o : Outcome α}

theorem Still.refl (s : Process Scan) : Still s s := ⟨fun _ => rfl, rfl⟩

theorem Still.trans (h : Still s t) (h' : Still t u) : Still s u :=
  ⟨fun q => (h'.heap q).trans (h.heap q), h'.catalogs.trans h.catalogs⟩

theorem answers_pure {a : α} : Answers s (pure a : Abi Scan α) (.ok a) :=
  ⟨a, s, rfl, rfl, .refl s⟩

/-- A call that answers, and then another. -/
theorem Answers.seq {f : α → Abi Scan β} {g : α → Outcome β} (hx : Answers s x o)
    (hf : ∀ a t, o = .ok a → Still s t → Answers t (f a) (g a)) :
    Answers s (x >>= f) (o >>= g) := by
  refine Program.Follows.bind hx ?_
  rintro a _ t ho ⟨rfl, hs⟩
  exact (hf a t ho hs).mono (fun _ _ _ h => ⟨h.1, hs.trans h.2⟩) fun _ h => hs.trans h

theorem Answers.map {g : α → β} (hx : Answers s x o) :
    Answers s (do pure (g (← x))) (do pure (g (← o))) :=
  hx.seq fun _ _ _ _ => answers_pure

variable (Scan) in
theorem openShim_eq {Library : Type} {env : Env Library} (henv : spill env = 0) :
    (openShim env : Abi Scan PUnit) = pure ⟨⟩ := by
  rcases openShim_cases Scan env with ⟨h, -⟩ | ⟨m, -, h⟩
  · exact h
  · omega

/-- The state when a reply has been recorded. -/
def recorded (s : Process Scan) (r : Reply τ ρ) : Process Scan :=
  { s with lastError := r.lastError.getD s.lastError }

theorem still_recorded (s : Process Scan) (r : Reply τ ρ) : Still s (recorded s r) :=
  ⟨fun _ => rfl, rfl⟩

/-- An object that is written back as it was. -/
theorem still_put {o : Object Scan} (ho : s.heap.lookup p = some o) (r : Reply τ ρ) :
    Still s { recorded s r with heap := s.heap.insert p o } := by
  refine ⟨fun q => ?_, rfl⟩
  by_cases hq : q = p
  · rw [hq, AList.lookup_insert, ho]
  · rw [AList.lookup_insert_ne hq]

/-- The message that is raised is the one of the reply. -/
theorem raiseLast_eq {r : Reply τ ρ} {bad : ρ → Prop} (hr : r.Speaks bad) (hbad : bad r.ret)
    {before : String} (ht : t.lastError = r.lastError.getD before) :
    (raiseLast what : Abi Scan α) t = .raised (what ++ ": " ++ r.lastError.getD "") t := by
  obtain ⟨m, hm, hfree⟩ := hr hbad
  have hread : readString (cName t.lastError) = m := by
    rw [readString_cName, ht, hm, Option.getD_some, uptoNul_eq_self_iff.mpr hfree]
  change Exit.raised (what ++ ": " ++ readString (cName t.lastError)) _ = _
  rw [hread, hm, Option.getD_some]

theorem onHandle_eq {k : Kind Scan σ} {y : σ} (hp : p ≠ 0)
    (hy : s.heap.lookup p = some (k.make y)) {failure : ρ} {call : σ → Abi Scan ρ} :
    Abi.onHandle k p failure call s = call y s := by
  rw [Abi.onHandle, if_neg hp]
  simp only [bind, Program.bind, Abi.read_eq hy]

/-- What a call leaves of the object of its handle. -/
theorem update_eq {k : Kind Scan σ} {y : σ} (hp : p ≠ 0) (hy : s.heap.lookup p = some (k.make y))
    {failure : ρ} {call : σ → Outcome (Reply σ ρ)} {r : Reply σ ρ} (hr : call y = .ok r) :
    Abi.update k p failure call s =
      .value r.ret { recorded s r with heap := s.heap.insert p (k.make r.state) } := by
  rw [Abi.update, onHandle_eq hp hy, hr]
  rfl

theorem update_lost {k : Kind Scan σ} {y : σ} (hp : p ≠ 0) (hy : s.heap.lookup p = some (k.make y))
    {failure : ρ} {call : σ → Outcome (Reply σ ρ)} {w : String} (hw : call y = .panic w) :
    Abi.update k p failure call s = .lost w := by
  rw [Abi.update, onHandle_eq hp hy, hw]
  rfl

/-- A call that is checked by the code of its reply. -/
theorem answers_check {r : Reply τ ρ} {bad : ρ → Prop} [DecidablePred bad] {test : α → Bool} {a : α}
    (hx : x s = .value a (recorded s r)) (hr : r.Speaks bad) (htest : test a = decide (bad r.ret)) :
    Answers s (do let a ← x; if test a then raiseLast what else pure a)
      (if bad r.ret then fail what r else .ok a) := by
  have hrun : (do let a ← x; if test a then raiseLast what else pure a) s =
      (if bad r.ret then raiseLast what else pure a : Abi Scan α) (recorded s r) := by
    simp only [bind, Program.bind, hx, htest, decide_eq_true_eq]
  split at hrun
  next hbad =>
    rw [if_pos hbad]
    exact ⟨recorded s r, hrun.trans (raiseLast_eq hr hbad rfl), still_recorded s r⟩
  next hbad =>
    rw [if_neg hbad]
    exact ⟨a, recorded s r, hrun, rfl, still_recorded s r⟩

theorem answers_checked (what : String) (bad : ℤ → Prop) [DecidablePred bad] {r : Reply τ ℤ}
    {call : Abi Scan ℤ} (hcall : call s = Abi.answer r s) (hr : r.Speaks bad) :
    Answers s (checked what (fun c => bad c) call)
      (if bad r.ret then fail what r else .ok r.ret) := answers_check hcall hr rfl

theorem answers_filled (what : String) (bad : ℤ → Prop) [DecidablePred bad] {r : Reply τ ℤ}
    {call : Abi Scan (ℤ × τ)} (hcall : call s = Abi.answerInto r s) (hr : r.Speaks bad) :
    Answers s (filled what (fun c => bad c) call)
      (if bad r.ret then fail what r else .ok (r.ret, r.state)) := answers_check hcall hr rfl

theorem check_bind {c : Prop} [Decidable c] {r : Reply τ ρ} {a : α} (g : α → Outcome β) :
    ((if c then fail what r else .ok a) >>= g) = if c then fail what r else g a := by
  split <;> rfl

/-- The box of a text is gone when its text has been read. -/
theorem takeText_eq (mem : Allocators Scan) (s : Process Scan) (m : String) :
    ∃ q t u, Abi.text mem (some m) s = .value q t ∧ q ≠ 0 ∧
      takeText q t = .value (takeString (cName m)) u ∧ Still s u := by
  let q := mem.object.place s.heap
  let t : Process Scan := { s with heap := s.heap.insert q (.text m) }
  have hq : q ≠ 0 := mem.object.nonnull s.heap
  have hlookup : t.heap.lookup q = some (Kind.text.make m) := AList.lookup_insert s.heap
  refine ⟨q, t, { t with heap := t.heap.erase q }, rfl, hq, ?_, fun q' => ?_, rfl⟩
  · have hread : Abi.cString q t = .value (cName m) t := by
      rw [Abi.cString, if_neg hq]
      simp only [bind, Program.bind, Abi.read_eq hlookup, pure]
    have hfree : Abi.ibStringFree q t = .value ⟨⟩ { t with heap := t.heap.erase q } := by
      rw [Abi.ibStringFree, if_neg hq]
      simp only [Abi.takeBox, bind, Program.bind, Abi.read_eq hlookup, Program.modify, pure]
    simp only [takeText, bind, Program.bind, hread, hfree, pure]
    rfl
  · by_cases hq' : q' = q
    · subst hq'
      rw [AList.lookup_erase]
      exact (AList.lookup_eq_none.mpr (mem.object.unused s.heap)).symm
    · rw [AList.lookup_erase_ne hq', AList.lookup_insert_ne hq']

/-- A call that has recorded its reply and hands its text out. -/
theorem answers_text_at {mem : Allocators Scan} {r : Reply τ (Option String)} {call : Abi Scan ℕ}
    (hcall : call s = Abi.text mem r.ret t) (ht : Still s t)
    (hlast : t.lastError = r.lastError.getD s.lastError) (hr : r.Speaks (· = none)) :
    Answers s (text what call) (match r.ret with
      | some text => .ok (takeString (cName text))
      | none => fail what r) := by
  cases hret : r.ret with
  | none =>
    rw [hret] at hcall
    refine ⟨t, ?_, ht⟩
    rw [← raiseLast_eq hr hret hlast]
    simp only [text, bind, Program.bind, hcall]
    rfl
  | some m =>
    rw [hret] at hcall
    obtain ⟨q, t', u, hbox, hq, htake, hu⟩ := takeText_eq mem t m
    refine ⟨takeString (cName m), u, ?_, rfl, ht.trans hu⟩
    simp only [text, bind, Program.bind, hcall.trans hbox, if_neg hq, htake]

theorem answers_text {mem : Allocators Scan} {r : Reply τ (Option String)} {call : Abi Scan ℕ}
    (hcall : call s = (do Abi.text mem (← Abi.answer r)) s) (hr : r.Speaks (· = none)) :
    Answers s (text what call) (match r.ret with
      | some text => .ok (takeString (cName text))
      | none => fail what r) :=
  answers_text_at hcall (still_recorded s r) rfl hr

section
variable {crates : Crates Spec} {b : RecordBatch} {A : Arrow}

theorem asI64_of_lt {n : ℕ} (hn : n < 2 ^ 63) : asI64 n = n :=
  Int.bmod_eq_of_le_mul_two (by omega) (by omega)

theorem getColumn_speaks {t : DataType} (slot : Option t.Val → α) (name : CString)
    (bufs : OutBuffers α) (cap : ℕ) :
    (getColumn what t slot A b name bufs cap).Speaks (· < 0) := by
  unfold getColumn
  split
  · simp
  · split
    · simp
    · split
      · simp
      · split
        · simp
        · simp

theorem ibBatchUtf8Size_speaks (name : CString) : (ibBatchUtf8Size A b name).Speaks (· < 0) := by
  unfold ibBatchUtf8Size
  dsimp only
  split
  · simp
  · split <;> simp

theorem ibBatchGetStr_speaks (name : CString) (bufs : StrBuffers) (bytesCap cap : ℕ) :
    (ibBatchGetStr A b name bufs bytesCap cap).Speaks (· < 0) := by
  unfold ibBatchGetStr
  dsimp only
  split
  · simp
  · split
    · split
      · simp
      · split <;> simp
    · simp

/-- A batch whose rows can be counted. -/
structure HoldsBatch (s : Process Scan) (p : ℕ) (b : RecordBatch) : Prop where
  nonnull : p ≠ 0
  lookup : s.heap.lookup p = some (.batch b)
  rows : b.numRows < 2 ^ 63

variable (hb : HoldsBatch s p b)
include hb

theorem HoldsBatch.still (hs : Still s t) : HoldsBatch t p b :=
  ⟨hb.nonnull, (hs.heap p).trans hb.lookup, hb.rows⟩

theorem answers_numRows : Answers s (Batch.numRows p) (.ok (b.numRows : ℤ)) := by
  have hreply : ibBatchNumRows b = .done () (b.numRows : ℤ) := by
    rw [ibBatchNumRows, asI64_of_lt hb.rows]
  have hcall : Abi.ibBatchNumRows p s = Abi.answer (Reply.done () (b.numRows : ℤ)) s :=
    hreply ▸ onHandle_eq (k := .batch) hb.nonnull hb.lookup
  have hnonneg : ¬ (b.numRows : ℤ) < 0 := Int.not_lt.mpr (Int.natCast_nonneg _)
  have h := answers_checked "Batch.num_rows" (· < 0) hcall (Reply.speaks_done.mpr hnonneg)
  rwa [Reply.done_ret, if_neg hnonneg] at h

theorem answers_counted {f : ℤ → Abi Scan α} {o : Outcome α}
    (hf : ∀ t, Still s t → HoldsBatch t p b → Answers t (f b.numRows) o) :
    Answers s (Batch.numRows p >>= f) o := by
  refine (answers_numRows hb).seq (g := fun _ => o) fun rows t hrows hs => ?_
  obtain rfl := Outcome.ok.inj hrows
  exact hf t hs (hb.still hs)

/-- A call that reads the batch, and what the method makes of the memory that it fills. -/
theorem answers_into (what : String) (reply : RecordBatch → Reply τ ℤ) (bufs : τ)
    (g : ℤ × τ → α) (hreply : (reply b).Speaks (· < 0)) :
    Answers s (do pure (g (← filled what (· < 0)
        (Abi.onHandle .batch p (-1, bufs) fun x => Abi.answerInto (reply x)))))
      (if (reply b).ret < 0 then fail what (reply b)
        else .ok (g ((reply b).ret, (reply b).state))) := by
  have hcall : Abi.onHandle .batch p (-1, bufs) (fun x => Abi.answerInto (reply x)) s =
      Abi.answerInto (reply b) s := onHandle_eq hb.nonnull hb.lookup
  have hmap := (answers_filled what (· < 0) hcall hreply).map (g := g)
  rwa [check_bind] at hmap

variable (name : String)

theorem answers_intCol :
    Answers s (Batch.intCol crates p name) (intCol crates.arrow b name) := by
  refine answers_counted hb fun t _ ht => ?_
  exact answers_into ht "Batch.int_col" (fun x => ibBatchGetI64 crates.arrow x (arg name) _ _) _
    (fun got => resize (owned got.2.out) got.1.toNat 0) (getColumn_speaks _ _ _ _)

theorem answers_floatCol :
    Answers s (Batch.floatCol crates p name) (floatCol crates.arrow b name) := by
  refine answers_counted hb fun t _ ht => ?_
  exact answers_into ht "Batch.float_col" (fun x => ibBatchGetF64 crates.arrow x (arg name) _ _) _
    (fun got => resize (owned got.2.out) got.1.toNat 0.0) (getColumn_speaks _ _ _ _)

theorem answers_boolCol :
    Answers s (Batch.boolCol crates p name) (boolCol crates.arrow b name) := by
  refine answers_counted hb fun t _ ht => ?_
  exact answers_into ht "Batch.bool_col" (fun x => ibBatchGetBool crates.arrow x (arg name) _ _) _
    (fun got => ((owned got.2.out).take got.1.toNat).map (· != 0)) (getColumn_speaks _ _ _ _)

theorem answers_validity :
    Answers s (Batch.validity crates p name) (validity crates.arrow b name) := by
  refine answers_counted hb fun t _ ht => ?_
  exact answers_into ht "Batch.validity" (fun x => ibBatchGetI64 crates.arrow x (arg name) _ _) _
    (fun got => ((owned got.2.outValid).take got.1.toNat).map (· != 0)) (getColumn_speaks _ _ _ _)

/-- The size of the texts is asked for first. -/
theorem answers_strCol :
    Answers s (Batch.strCol crates p name) (strCol crates.arrow b name) := by
  refine answers_counted hb fun t _ ht => ?_
  let size := ibBatchUtf8Size crates.arrow b (arg name)
  have hcall : Abi.ibBatchUtf8Size crates.arrow p (arg name) t = Abi.answer size t :=
    onHandle_eq ht.nonnull ht.lookup
  have hsize := answers_checked "Batch.str_col" (· < 0) hcall (ibBatchUtf8Size_speaks _)
  let blob (total : ℕ) : StrBuffers := ⟨unsafePtr (List.replicate (b.numRows + 1) 0),
    unsafePtr (List.replicate (total + 1) 0), none⟩
  have hget (total : ℕ) (u : Process Scan) (hu : HoldsBatch u p b) := answers_into hu
    "Batch.str_col" (fun x => ibBatchGetStr crates.arrow x (arg name) (blob total) total b.numRows)
    (blob total) (fun got => cutStrings (owned got.2.outOffsets) (owned got.2.outBytes) got.1.toNat)
    (ibBatchGetStr_speaks _ _ _ _)
  have h := hsize.seq fun rc u _ hu => hget rc.toNat u (ht.still hu)
  rwa [check_bind] at h

end

/-- A new box has been put at an address that was free. -/
structure Boxed (s : Process Scan) (q : ℕ) (b : Object Scan) (t : Process Scan) : Prop where
  nonnull : q ≠ 0
  fresh : s.heap.lookup q = none
  heap : ∀ q', t.heap.lookup q' = (s.heap.insert q b).lookup q'

/-- What a method makes of a pointer that is null on failure. -/
def handed (what : String) (r : Reply τ (Option α)) : Outcome α :=
  match r.ret with
  | some a => .ok a
  | none => fail what r

theorem handle_eq (what : String) (r : Reply Unit (Option α)) : handle what r = handed what r := by
  unfold handle handed
  cases r.ret <;> rfl

theorem build_eq (A : Arrow) (b : BuilderHandle) :
    build A b = handed "BatchBuilder.build" (ibBatchBuilderBuild A b) := by
  dsimp only [build, handed]
  cases (ibBatchBuilderBuild A b).ret <;> rfl

/-- The call returns a new object that the value describes. -/
def Makes (s : Process Scan) (x : Abi Scan ℕ) (o : Outcome α) (R : α → Object Scan → Prop) :
    Prop :=
  x.Follows s o (fun q a t => ∃ b, R a b ∧ Boxed s q b t) (Still s)

section
variable {mem : Allocators Scan} {Library : Type} {env : Env Library}
variable {R : α → Object Scan → Prop} {call : Abi Scan ℕ}

theorem boxed_allocate (mem : Allocators Scan) (s : Process Scan) (b : Object Scan) :
    ∃ q t, Abi.allocate mem b s = .value q t ∧ Boxed s q b t :=
  ⟨_, _, rfl, mem.object.nonnull _, AList.lookup_eq_none.mpr (mem.object.unused _), fun _ => rfl⟩

/-- A method that makes an object of what a reply hands out. -/
theorem makes_handed {r : Reply τ (Option α)} {box : α → Abi Scan ℕ} {f : ℕ → Abi Scan ℕ}
    (hf : ∀ q, f q = pure q) (ho : o = handed what r)
    (hcall : call s = (do Abi.pointer box (← Abi.answer r)) s) (hr : r.Speaks (· = none))
    (hbox : ∀ a, ∃ q t b, box a (recorded s r) = .value q t ∧ R a b ∧ Boxed s q b t) :
    Makes s (do let p ← call; if p = 0 then raiseLast what else f p) o R := by
  have hanswer : call s = Abi.pointer box r.ret (recorded s r) := hcall
  subst ho
  unfold handed
  cases hret : r.ret with
  | none =>
    rw [hret] at hanswer
    refine ⟨recorded s r, ?_, still_recorded s r⟩
    rw [← raiseLast_eq (t := recorded s r) hr hret rfl]
    simp only [bind, Program.bind, hanswer]
    rfl
  | some a =>
    obtain ⟨q, t, b, hq, hab, hb⟩ := hbox a
    rw [hret] at hanswer
    refine ⟨q, t, ?_, b, hab, hb⟩
    simp only [bind, Program.bind, hanswer.trans hq, if_neg hb.nonnull, hf]
    rfl

theorem makes_wrapped {r : Reply τ (Option α)} {box : α → Abi Scan ℕ} (henv : spill env = 0)
    (ho : o = handed what r) (hcall : call s = (do Abi.pointer box (← Abi.answer r)) s)
    (hr : r.Speaks (· = none))
    (hbox : ∀ a, ∃ q t b, box a (recorded s r) = .value q t ∧ R a b ∧ Boxed s q b t) :
    Makes s (wrapped env what call) o R :=
  makes_handed (fun q => by rw [openShim_eq Scan henv]; rfl) ho hcall hr hbox

/-- A constructor of a catalog opens the library first. -/
theorem makes_opened {r : Reply τ (Option α)} {mem : Allocators Scan} (henv : spill env = 0)
    (ho : o = handed what r)
    (hcall : call s = (do Abi.pointer (fun _ => Abi.boxedCatalog mem) (← Abi.answer r)) s)
    (hr : r.Speaks (· = none)) :
    Makes s (Catalog.opened env what call) o
      fun _ b => ∃ inner, inner ∉ s.catalogs ∧ b = .catalog inner := by
  rw [Catalog.opened, openShim_eq Scan henv]
  refine makes_handed (fun _ => rfl) ho hcall hr fun a => ?_
  let inner := mem.inner.place s.catalogs
  obtain ⟨q, t, hq, hb⟩ := boxed_allocate mem
    { recorded s r with catalogs := s.catalogs.insert inner 1 } (.catalog inner)
  exact ⟨q, t, _, hq, ⟨inner, mem.inner.unused _, rfl⟩, hb.nonnull, hb.fresh, hb.heap⟩

theorem box_table {inner : ℕ} (mem : Allocators Scan) (hinner : inner ∈ s.catalogs)
    (h : TableHandle) : ∃ q t b, Abi.boxedTable mem inner h s = .value q t ∧
      b = .table inner h ∧ Boxed s q b t := by
  obtain ⟨n, hn⟩ := Option.isSome_iff_exists.mp (AList.lookup_isSome.mpr hinner)
  have hclone : Abi.cloneCatalog inner s =
      .value ⟨⟩ { s with catalogs := s.catalogs.insert inner (n + 1) } := by
    rw [Abi.cloneCatalog, Heap.retain, hn]
    rfl
  obtain ⟨q, t, hq, hb⟩ := boxed_allocate mem
    { s with catalogs := s.catalogs.insert inner (n + 1) } (.table inner h)
  refine ⟨q, t, _, ?_, rfl, hb.nonnull, hb.fresh, hb.heap⟩
  simp only [Abi.boxedTable, bind, Program.bind, hclone, hq]

end

section
variable {crates : Crates Spec} {mem : Allocators Scan} {inner : ℕ} {failure : ρ}

/-- A catalog handle whose catalog is alive. -/
structure HoldsCatalog (s : Process Scan) (p inner : ℕ) : Prop where
  nonnull : p ≠ 0
  lookup : s.heap.lookup p = some (.catalog inner)
  alive : inner ∈ s.catalogs

theorem holdsCatalog_of_owns {C : Boxes} (hs : Owns s C)
    (hp : s.heap.lookup p = some (.catalog inner)) : HoldsCatalog s p inner where
  nonnull := hs.nonnull _ (hs.mem hp)
  lookup := hp
  alive := AList.lookup_isSome.mp (by rw [hs.counts.lookup (hs.refs_ne_zero hp rfl)]; rfl)

variable (hc : HoldsCatalog s p inner)
include hc

theorem onCatalog_eq {call : ℕ → Abi Scan ρ} : Abi.onCatalog p failure call s = call inner s := by
  rw [Abi.onCatalog, onHandle_eq (k := .catalog) hc.nonnull hc.lookup]
  have huse : Abi.useCatalog inner s = .value ⟨⟩ s := by rw [Abi.useCatalog, if_pos hc.alive]
  simp only [bind, Program.bind, huse]

theorem answers_catalogText {f : CString → Reply Unit (Option String)} (sym a : String)
    (hf : (f (optArg a)).Speaks (· = none)) :
    Answers s (text sym (Abi.onCatalog p 0 fun _ => do Abi.text mem (← Abi.answer (f (optArg a)))))
      (strCall1 sym f a) := answers_text (onCatalog_eq hc) hf

theorem answers_catalogCode {r : Reply τ ℤ} (what : String) (hr : r.Speaks (· < 0)) :
    Answers s (checked what (· < 0) (Abi.onCatalog p (-1) fun _ => Abi.answer r))
      (if r.ret < 0 then fail what r else .ok r.ret) :=
  answers_checked what (· < 0) (onCatalog_eq hc) hr

theorem answers_catalogStatus {r : Reply τ ℤ} (what : String) (hr : r.Speaks (· < 0)) :
    Answers s (status what (· < 0) (Abi.onCatalog p (-1) fun _ => Abi.answer r))
      (if r.ret < 0 then fail what r else .ok ⟨⟩) := by
  have h := (answers_catalogCode hc what hr).map (g := fun _ => PUnit.unit)
  rwa [check_bind] at h

theorem makes_table {Library : Type} {env : Env Library} {r : Reply τ (Option TableHandle)}
    {o : Outcome TableHandle} (henv : spill env = 0) (ho : o = handed what r)
    (hr : r.Speaks (· = none)) :
    Makes s (wrapped env what (Abi.onCatalog p 0 fun inner => do
      Abi.pointer (Abi.boxedTable mem inner) (← Abi.answer r))) o
      fun h b => ∃ inner, s.heap.lookup p = some (.catalog inner) ∧ b = .table inner h := by
  have hcall : Abi.onCatalog p 0 (fun inner => do
      Abi.pointer (Abi.boxedTable mem inner) (← Abi.answer r)) s =
        (do Abi.pointer (Abi.boxedTable mem inner) (← Abi.answer r)) s := onCatalog_eq hc
  refine makes_wrapped henv ho hcall hr fun h => ?_
  obtain ⟨q, t, b, hq, hb, hboxed⟩ := box_table mem (s := recorded s r) hc.alive h
  exact ⟨q, t, b, hq, ⟨inner, hc.lookup, hb⟩, hboxed.nonnull, hboxed.fresh, hboxed.heap⟩

end

section
variable {crates : Crates Spec} {mem : Allocators Scan} {Library : Type} {env : Env Library}
variable {b : BuilderHandle}

theorem supply_eq (call : Supply) : BatchBuilder.supply crates p call =
    (Abi.update .builder p (-1) fun h => call.run crates.arrow h : Abi Scan ℤ) := by
  cases call <;> rfl

/-- A column that is refused leaves the builder as it was. -/
theorem follows_col {c : Values} {valid : List Bool} (hp : p ≠ 0)
    (hb : s.heap.lookup p = some (.builder b)) (hvalid : valid = [] ∨ c.length ≤ valid.length)
    (name : String) :
    (BatchBuilder.col crates p name c (some valid)).Follows s (c.call crates.arrow b name valid)
      (fun _ b t => ∀ q, t.heap.lookup q = (s.heap.insert p (.builder b)).lookup q) (Still s) := by
  obtain ⟨call, hcall⟩ : ∃ call, c.supply name valid = .ok call := by
    rcases supply_cases c name valid with ⟨hne, hlt, -⟩ | ⟨-, call, hcall, -⟩
    · rcases hvalid with h | h
      · exact absurd h hne
      · omega
    · exact ⟨call, hcall⟩
  rw [Values.call_eq, hcall, Outcome.ok_bind, BatchBuilder.col, Option.getD_some, hcall]
  cases hrun : call.run crates.arrow b with
  | err m => exact absurd hrun (by rw [Supply.run_eq]; exact supplyColumn_ne_err)
  | panic m =>
    have hsupply : BatchBuilder.supply crates p call s = .lost m := by
      rw [supply_eq, update_lost (k := .builder) hp hb hrun]
    exact ⟨m, by simp only [status, checked, bind, Program.bind, hsupply]⟩
  | ok r =>
    have hsupply : BatchBuilder.supply crates p call s =
        .value r.ret { recorded s r with heap := s.heap.insert p (.builder r.state) } := by
      rw [supply_eq, update_eq (k := .builder) hp hb hrun]
      rfl
    rcases Supply.run_cases hrun with ⟨nm, col, -, -, rfl⟩ | ⟨m, rfl⟩
    · refine ⟨⟨⟩, { s with heap := s.heap.insert p (.builder (b.store nm col)) }, ?_, fun _ => rfl⟩
      simp only [status, checked, bind, Program.bind, hsupply]
      rfl
    · let r : Reply BuilderHandle ℤ := .fail b (-1) m
      let t : Process Scan := { recorded s r with heap := s.heap.insert p (.builder b) }
      have hspeaks : r.Speaks (· ≠ 0) := Reply.speaks_fail
      have ht : t.lastError = r.lastError.getD s.lastError := rfl
      have hraise : (raiseLast c.what : Abi Scan ℤ) t = _ :=
        raiseLast_eq hspeaks (show (-1 : ℤ) ≠ 0 by decide) ht
      have hsupply : BatchBuilder.supply crates p call s = .value (-1) t := hsupply
      refine ⟨t, ?_, still_put hb r⟩
      simp only [status, checked, bind, Program.bind, hsupply]
      rw [if_pos (by decide), hraise]

theorem ibScanNew_speaks {api : DatumApi} {ops : PredicateOps}
    {parseJson : String → Except String Json}
    {build : IcebergRs.Table → ScanRequest → Except String Scan} {h : TableHandle}
    {columnsCsv filterJson : CString} {snapshotId : ℤ}
    {r : Reply TableHandle (Option (ScanHandle Scan))}
    (hr : ibScanNew api ops parseJson build h columnsCsv snapshotId filterJson = .ok r) :
    r.Speaks (· = none) := by
  unfold ibScanNew at hr
  split at hr
  · cases hr
  · cases hr
    simp
  · split at hr <;> cases hr <;> simp

theorem makes_scan {h : TableHandle} {inner : ℕ} (hp : p ≠ 0)
    (hh : s.heap.lookup p = some (.table inner h)) (henv : spill env = 0)
    (build : IcebergRs.Table → ScanRequest → Except String Scan) (columns : String)
    (snapshotId : Int64) (filter : String) :
    Makes s (Table.scan crates mem env p build columns snapshotId filter)
      (scanNew crates.datum crates.ops crates.parseJson build h columns snapshotId filter)
      fun h b => b = .scan h := by
  have hcall : Abi.ibScanNew mem crates.datum crates.ops crates.parseJson build p
      (optArg columns) snapshotId.toInt (optArg filter) s = _ :=
    onHandle_eq (k := .table) (y := (inner, h)) hp hh
  cases hreply : ibScanNew crates.datum crates.ops crates.parseJson build h (optArg columns)
      snapshotId.toInt (optArg filter) with
  | err m => exact absurd hreply ibScanNew_ne_err
  | panic m =>
    rw [hreply] at hcall
    have heq : scanNew crates.datum crates.ops crates.parseJson build h columns snapshotId filter =
        .panic m := by
      unfold scanNew
      rw [hreply]
      rfl
    rw [heq]
    exact ⟨m, by simp only [Table.scan, wrapped, bind, Program.bind, hcall]; rfl⟩
  | ok r =>
    rw [hreply] at hcall
    have heq : scanNew crates.datum crates.ops crates.parseJson build h columns snapshotId filter =
        handed "Table.scan" r := by
      unfold scanNew
      rw [hreply]
      dsimp only [handed, Outcome.ok_bind]
      cases r.ret <;> rfl
    refine makes_wrapped henv heq hcall (ibScanNew_speaks hreply) fun h => ?_
    obtain ⟨q, t, hq, hb⟩ := boxed_allocate mem (recorded s r) (.scan h)
    exact ⟨q, t, _, hq, rfl, hb.nonnull, hb.fresh, hb.heap⟩

theorem ibBatchBuilderBuild_speaks {A : Arrow} :
    (ibBatchBuilderBuild A b).Speaks (· = none) := by
  unfold ibBatchBuilderBuild
  dsimp only
  split
  · simp
  · split
    · simp
    · split <;> simp

/-- `build` makes a batch and leaves the builder alone. -/
theorem makes_batch (hp : p ≠ 0) (hb : s.heap.lookup p = some (.builder b))
    (henv : spill env = 0) :
    Makes s (BatchBuilder.build crates mem env p) (build crates.arrow b)
      fun x o => o = .batch x := by
  have hcall : Abi.ibBatchBuilderBuild mem crates.arrow p s = _ :=
    onHandle_eq (k := .builder) hp hb
  refine makes_wrapped henv (build_eq ..) hcall ibBatchBuilderBuild_speaks fun x => ?_
  obtain ⟨q, t, hq, hboxed⟩ := boxed_allocate mem (recorded s (ibBatchBuilderBuild crates.arrow b))
    (.batch x)
  exact ⟨q, t, _, hq, rfl, hboxed.nonnull, hboxed.fresh, hboxed.heap⟩

end

end Mojo
end IcebergRs
