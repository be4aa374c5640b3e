import IcebergRs.Shim.Handles

/-! What the entry points do to the boxes of the process: which ones they use, and which new ones
they hand out. The strong count of a catalog is the number of boxes that share it. -/
namespace IcebergRs

inductive BoxClass where
  | catalog
  | table
  | scan
  | batch
  | builder
  | text
  deriving DecidableEq

namespace Object
variable {Scan : Type}

def cls : Object Scan → BoxClass
  | .catalog _ => .catalog
  | .table .. => .table
  | .scan _ => .scan
  | .batch _ => .batch
  | .builder _ => .builder
  | .text _ => .text

/-- The catalog that the box shares. -/
def inner : Object Scan → Option ℕ
  | .catalog c | .table c _ => some c
  | _ => none

def tag (o : Object Scan) : BoxClass × Option ℕ := (o.cls, o.inner)

end Object

/-- Boxes by their addresses, each with its class and the catalog it shares. -/
abbrev Boxes := List (ℕ × BoxClass × Option ℕ)

/-- A box as those know it who have to free it. -/
structure Owned where
  cls : BoxClass
  ptr : ℕ
  deriving DecidableEq

def Boxes.owned (C : Boxes) : List Owned := C.map fun e => ⟨e.2.1, e.1⟩

/-- The number of boxes that share a catalog. -/
def Boxes.refs (C : Boxes) (c : ℕ) : ℕ := C.countP fun e => e.2.2 = some c

/-- The process has exactly these boxes, and every catalog has the count that they give it. -/
structure Owns {Scan : Type} (s : Process Scan) (C : Boxes) : Prop where
  census : (s.heap.census Object.tag).Perm C
  nonnull : ∀ e ∈ C, e.1 ≠ 0
  counts : s.catalogs.Counts C.refs

/-- From one state to the next the boxes become `C`, and those that are not used keep what they
hold. -/
structure Leaves {Scan : Type} (U : List ℕ) (s : Process Scan) (C : Boxes) (t : Process Scan) :
    Prop where
  owns : Owns t C
  keeps : s.heap.Keeps U t.heap

/-- In a state with the boxes `C` the program uses some of them and adds new ones to them. It
does not raise. -/
def RunsAt {Scan α : Type} (U : List ℕ) (s : Process Scan) (C : Boxes) (x : Abi Scan α)
    (new : α → List Owned) : Prop :=
  x.Ends s (fun a t => ∃ N : Boxes, N.owned = new a ∧ Leaves U s (N ++ C) t) fun _ _ => False

/-- The same in all states with these boxes. -/
def Runs {Scan α : Type} (U : List ℕ) (C : Boxes) (x : Abi Scan α) (new : α → List Owned) : Prop :=
  ∀ s, Owns s C → RunsAt U s C x new

/-- The box behind a pointer that was handed out, if it is not null. -/
def handedOut (cls : BoxClass) (q : ℕ) : List Owned := if q = 0 then [] else [⟨cls, q⟩]

/-- The program frees one box and returns. -/
def Frees {Scan : Type} (x : Abi Scan PUnit) (cls : BoxClass) (p : ℕ) : Prop :=
  ∀ s C, Owns s C → ⟨cls, p⟩ ∈ C.owned → ∃ t e C', x s = .value ⟨⟩ t ∧ C.Perm (e :: C') ∧
    (e.1 = p ∧ e.2.1 = cls) ∧ Leaves [p] s C' t

variable {Scan α β σ ρ τ : Type} {s t u : Process Scan} {C C' N : Boxes} {U : List ℕ}
variable {p q c : ℕ} {cls : BoxClass} {o o' : Object Scan}

@[simp] theorem Boxes.owned_append (N C : Boxes) : (N ++ C).owned = N.owned ++ C.owned :=
  List.map_append

theorem Boxes.length_owned (N : Boxes) : N.owned.length = N.length := List.length_map _

theorem Boxes.refs_cons (e : ℕ × BoxClass × Option ℕ) (C : Boxes) (c : ℕ) :
    refs (e :: C) c = refs C c + if e.2.2 = some c then 1 else 0 := by
  simp [refs, List.countP_cons]

theorem Boxes.refs_perm (h : C.Perm C') (c : ℕ) : refs C c = refs C' c := h.countP_eq _

theorem Owns.perm (hs : Owns s C) (h : C.Perm C') : Owns s C' where
  census := hs.census.trans h
  nonnull e he := hs.nonnull e (h.mem_iff.mpr he)
  counts := hs.counts.congr fun c => (Boxes.refs_perm h c).symm

theorem Leaves.perm (hs : Leaves U s C t) (h : C.Perm C') : Leaves U s C' t :=
  ⟨hs.owns.perm h, hs.keeps⟩

theorem Leaves.refl (hs : Owns s C) : Leaves U s C s := ⟨hs, .refl U _⟩

theorem Leaves.trans (h : Leaves U s C t) (h' : Leaves U t C' u) : Leaves U s C' u :=
  ⟨h'.owns, h.keeps.trans h'.keeps⟩

theorem Owns.lookup (hs : Owns s C) (hp : ⟨cls, p⟩ ∈ C.owned) :
    p ≠ 0 ∧ ∃ o, s.heap.lookup p = some o ∧ o.cls = cls := by
  obtain ⟨⟨q, cls', inner⟩, he, hq⟩ := List.mem_map.mp hp
  obtain ⟨rfl, rfl⟩ := Owned.mk.inj hq
  obtain ⟨o, ho, htag⟩ := Heap.mem_census.mp (hs.census.mem_iff.mpr he)
  exact ⟨hs.nonnull _ he, o, ho, (Prod.mk.inj htag).1⟩

/-- The boxes have different addresses. -/
theorem Owns.nodup (hs : Owns s C) : (C.map Prod.fst).Nodup :=
  (hs.census.map _).nodup_iff.mp Heap.census_nodup

theorem Frees.box {x : Abi Scan PUnit} {e : ℕ × BoxClass × Option ℕ} (hx : Frees x e.2.1 e.1)
    (hs : Owns s (e :: C)) : ∃ t, x s = .value ⟨⟩ t ∧ Leaves [e.1] s C t := by
  obtain ⟨t, e', C', ht, hperm, ⟨hp, -⟩, hl⟩ := hx s _ hs List.mem_cons_self
  obtain rfl : e' = e := List.inj_on_of_nodup_map hs.nodup (hperm.mem_iff.mpr List.mem_cons_self)
    List.mem_cons_self hp
  exact ⟨t, ht, hl.perm hperm.cons_inv.symm⟩

/-- A new box that is freed again was not there before. -/
theorem Frees.away {x : Abi Scan PUnit} {e : ℕ × BoxClass × Option ℕ} {M : Boxes}
    (hx : Frees x e.2.1 e.1) (hs : Owns s C) (hl : Leaves U s (e :: (M ++ C)) t) :
    x.Ends t (fun _ u => Leaves U s (M ++ C) u) fun _ _ => False := by
  obtain ⟨u, hu, hl'⟩ := hx.box hl.owns
  rw [Program.Ends, hu]
  refine ⟨hl'.owns, fun p v hpU hv => hl'.keeps p v ?_ (hl.keeps p v hpU hv)⟩
  have hC : p ∈ C.map Prod.fst :=
    List.mem_map_of_mem (hs.census.mem_iff.mp (Heap.mem_census.mpr ⟨v, hv, rfl⟩))
  have hnodup := hl.owns.nodup
  rw [List.map_cons, List.map_append, List.nodup_cons] at hnodup
  intro hpe
  rw [List.mem_singleton.mp hpe] at hC
  exact hnodup.1 (List.mem_append_right _ hC)

theorem Owns.mem (hs : Owns s C) (hp : s.heap.lookup p = some o) : (p, o.tag) ∈ C :=
  hs.census.mem_iff.mp (Heap.mem_census.mpr ⟨o, hp, rfl⟩)

/-- After a box was freed there is nothing at its address. -/
theorem Frees.gone {x : Abi Scan PUnit} (hx : Frees x cls p) (hs : Owns s C)
    (hp : ⟨cls, p⟩ ∈ C.owned) : ∃ t, x s = .value ⟨⟩ t ∧ t.heap.lookup p = none := by
  obtain ⟨t, e, C', ht, hperm, ⟨rfl, -⟩, hl⟩ := hx s C hs hp
  refine ⟨t, ht, Option.eq_none_iff_forall_ne_some.mpr fun o ho => ?_⟩
  have hnodup := (hs.perm hperm).nodup
  rw [List.map_cons, List.nodup_cons] at hnodup
  exact hnodup.1 (List.mem_map.mpr ⟨_, hl.owns.mem ho, rfl⟩)

/-- A box that shares a catalog keeps it alive. -/
theorem Owns.refs_ne_zero (hs : Owns s C) (hp : s.heap.lookup p = some o) (hc : o.inner = some c) :
    C.refs c ≠ 0 := by
  intro h0
  exact List.countP_eq_zero.mp h0 _ (hs.mem hp) (decide_eq_true hc)

theorem Owns.store (hs : Owns s C) (hp : s.heap.lookup p = some o) (htag : o'.tag = o.tag)
    (hU : p ∈ U) : Leaves U s C { s with heap := s.heap.insert p o' } where
  owns := ⟨(Heap.census_store hp htag).trans hs.census, hs.nonnull, hs.counts⟩
  keeps := Heap.keeps_insert hU

/-- A new box, whose catalog has been counted already. -/
theorem Owns.alloc (hs : Owns s C) (hp : p ∉ s.heap) (hp0 : p ≠ 0) {counts : Heap ℕ}
    (hc : counts.Counts (Boxes.refs ((p, o.tag) :: C))) :
    Leaves U s ((p, o.tag) :: C) { s with heap := s.heap.insert p o, catalogs := counts } where
  owns := {
    census := by
      rw [Heap.census_insert hp]
      exact hs.census.cons _
    nonnull := by simpa [hp0] using hs.nonnull
    counts := hc }
  keeps := Heap.keeps_alloc hp

/-- A box that is gone, with its catalog counted down. -/
theorem Owns.free (hs : Owns s ((p, o.tag) :: C)) (hp : s.heap.lookup p = some o) (hU : p ∈ U)
    {counts : Heap ℕ} (hc : counts.Counts (Boxes.refs C)) :
    Leaves U s C { s with heap := s.heap.erase p, catalogs := counts } where
  owns := {
    census := ((Heap.census_erase hp).symm.trans hs.census).cons_inv
    nonnull e he := hs.nonnull e (List.mem_cons_of_mem _ he)
    counts := hc }
  keeps := Heap.keeps_erase hU

section
variable {x : Abi Scan α} {f : α → Abi Scan β} {new : α → List Owned} {new' : β → List Owned}

theorem runsAt_of_eq {a : α} (hx : x s = .value a t) (hl : Leaves U s (N ++ C) t)
    (hN : N.owned = new a) : RunsAt U s C x new := by
  unfold RunsAt Program.Ends
  rw [hx]
  exact ⟨N, hN, hl⟩

theorem runs_pure {a : α} (h : new a = []) : Runs U C (pure a : Abi Scan α) new :=
  fun _ hs => runsAt_of_eq (N := []) rfl (.refl hs) h.symm

/-- A program that adds nothing, and then another. -/
theorem RunsAt.seq (hx : RunsAt U s C x fun _ => []) (hf : ∀ a, Runs U C (f a) new') :
    RunsAt U s C (x >>= f) new' := by
  refine hx.bind ?_
  rintro a t ⟨N, hN, hl⟩
  obtain rfl := List.map_eq_nil_iff.mp hN
  refine (hf a t hl.owns).mono ?_ fun _ _ h => h
  rintro b u ⟨N', hN', hl'⟩
  exact ⟨N', hN', hl.trans hl'⟩

theorem Runs.seq (hx : Runs U C x fun _ => []) (hf : ∀ a, Runs U C (f a) new') :
    Runs U C (x >>= f) new' := fun s hs => (hx s hs).seq hf

theorem Runs.map {g : α → β} (hx : Runs U C x new) (hg : ∀ a, new' (g a) = new a) :
    Runs U C (do pure (g (← x))) new' := by
  intro s hs
  refine (hx s hs).bind ?_
  rintro a t ⟨N, hN, hl⟩
  exact ⟨N, hN.trans (hg a).symm, hl⟩

end

/-- A pull that returns has a batch exactly with the code 1. -/
theorem ibScanNext_ret {toArrow : Except String (ℕ → Poll String RecordBatch)}
    {h : ScanHandle Scan} {outBatch : Bool} {r : Reply (ScanHandle Scan) Pull}
    (hr : ibScanNext toArrow h outBatch = .ok r) :
    r.ret = ⟨-1, none⟩ ∨ r.ret = ⟨0, none⟩ ∨ ∃ b, r.ret = ⟨1, some b⟩ := by
  unfold ibScanNext at hr
  split at hr
  · cases hr
    exact .inl rfl
  · obtain ⟨next, -, hr⟩ := Outcome.bind_eq_ok.mp hr
    split at hr <;> cases hr
    · exact .inr (.inl rfl)
    · exact .inr (.inr ⟨_, rfl⟩)
    · exact .inl rfl

namespace Abi

theorem runs_record (m : Option String) : Runs U C (record m : Abi Scan _) fun _ => [] :=
  fun _ hs => runsAt_of_eq (N := []) rfl ⟨⟨hs.census, hs.nonnull, hs.counts⟩, .refl U _⟩ rfl

theorem runs_answer (r : Reply τ ρ) : Runs U C (answer r : Abi Scan _) fun _ => [] :=
  (runs_record _).seq fun _ => runs_pure rfl

theorem runs_answerInto (r : Reply τ ρ) : Runs U C (answerInto r : Abi Scan _) fun _ => [] :=
  (runs_record _).seq fun _ => runs_pure rfl

variable (mem : Allocators Scan)

theorem runs_allocate (ho : o.inner = none) :
    Runs U C (allocate mem o) fun q => [⟨o.cls, q⟩] := by
  intro s hs
  refine runsAt_of_eq (N := [(_, o.tag)]) rfl
    (hs.alloc (mem.object.unused _) (mem.object.nonnull _) (hs.counts.congr fun c => ?_)) rfl
  rw [Boxes.refs_cons]
  simp [Object.tag, ho]

/-- What a box is put at is not null. -/
theorem runs_pointer {γ : Type} {box : γ → Abi Scan ℕ}
    (h : ∀ g, Runs U C (box g) fun q => [⟨cls, q⟩]) (r : Option γ) :
    Runs U C (pointer box r) (handedOut cls) := by
  cases r with
  | none => exact runs_pure rfl
  | some g =>
    intro s hs
    refine (h g s hs).mono ?_ fun _ _ h => h
    rintro q t ⟨N, hN, hl⟩
    have hq : ⟨cls, q⟩ ∈ (N ++ C).owned := by
      rw [Boxes.owned_append, hN]
      exact List.mem_cons_self
    exact ⟨N, by rw [hN, handedOut, if_neg (hl.owns.lookup hq).1], hl⟩

theorem runs_text (r : Option String) : Runs U C (text mem r) (handedOut .text) :=
  runs_pointer (fun s => runs_allocate (o := .text s) mem rfl) r

theorem read_eq {k : Kind Scan σ} {x : σ} (hx : s.heap.lookup p = some (k.make x)) :
    k.read p s = .value x s := by
  rw [Kind.read, hx, Option.bind_some, (k.view_eq_some _ x).mpr rfl]

/-- A call on a handle goes on with its object. -/
theorem onHandle_ends {k : Kind Scan σ} (hk : ∀ o : Object Scan, o.cls = cls → ∃ x, k.make x = o)
    (hs : Owns s C) (hp : ⟨cls, p⟩ ∈ C.owned) {failure : ρ} {call : σ → Abi Scan ρ}
    {Q : ρ → Process Scan → Prop} {E : String → Process Scan → Prop}
    (hcall : ∀ x, s.heap.lookup p = some (k.make x) → (call x).Ends s Q E) :
    (onHandle k p failure call).Ends s Q E := by
  obtain ⟨hp0, o, ho, hcls⟩ := hs.lookup hp
  obtain ⟨x, rfl⟩ := hk o hcls
  rw [onHandle, if_neg hp0]
  refine Program.Ends.bind (R := fun a t => a = x ∧ t = s) ?_ ?_
  · rw [Program.Ends, read_eq ho]
    exact ⟨rfl, rfl⟩
  · rintro y t ⟨rfl, rfl⟩
    exact hcall y ho

theorem runs_onHandle {k : Kind Scan σ} (hk : ∀ o : Object Scan, o.cls = cls → ∃ x, k.make x = o)
    (hp : ⟨cls, p⟩ ∈ C.owned) {failure : ρ} {call : σ → Abi Scan ρ} {new : ρ → List Owned}
    (hcall : ∀ x s, Owns s C → s.heap.lookup p = some (k.make x) → RunsAt U s C (call x) new) :
    Runs U C (onHandle k p failure call) new :=
  fun s hs => onHandle_ends hk hs hp fun x hx => hcall x s hs hx

/-- A call may change the object of its handle, but not the catalog that it shares. -/
theorem runsAt_write {k : Kind Scan σ} {x y : σ} (hs : Owns s C)
    (hp : s.heap.lookup p = some (k.make x)) (htag : (k.make y).tag = (k.make x).tag)
    (hU : p ∈ U) : RunsAt U s C (k.write p y) fun _ => [] :=
  runsAt_of_eq (N := []) rfl (hs.store hp htag hU) rfl

/-- What a call returns is what it answers for some object. -/
theorem update_ends {k : Kind Scan σ} (hk : ∀ o : Object Scan, o.cls = cls → ∃ x, k.make x = o)
    (htag : ∀ x y, (k.make y).tag = (k.make x).tag) (hs : Owns s C) (hp : ⟨cls, p⟩ ∈ C.owned)
    (hU : p ∈ U) {failure : ρ} {call : σ → Outcome (Reply σ ρ)} :
    (update k p failure call).Ends s
      (fun a t => (∃ x r, call x = .ok r ∧ r.ret = a) ∧ Leaves U s C t) fun _ _ => False := by
  refine onHandle_ends hk hs hp fun x hx => ?_
  cases hcall : call x with
  | ok r =>
    refine (runsAt_write hs hx (htag x r.state) hU).bind ?_
    rintro _ t ⟨N, hN, hl⟩
    refine (runs_record (U := U) r.lastError t hl.owns).bind ?_
    rintro _ u ⟨N', hN', hl'⟩
    obtain rfl := List.map_eq_nil_iff.mp hN
    obtain rfl := List.map_eq_nil_iff.mp hN'
    exact ⟨⟨x, r, hcall, rfl⟩, hl.trans hl'⟩
  | err w => exact Program.ends_lose
  | panic w => exact Program.ends_lose

theorem runs_update {k : Kind Scan σ} (hk : ∀ o : Object Scan, o.cls = cls → ∃ x, k.make x = o)
    (htag : ∀ x y, (k.make y).tag = (k.make x).tag) (hp : ⟨cls, p⟩ ∈ C.owned) (hU : p ∈ U)
    {failure : ρ} {call : σ → Outcome (Reply σ ρ)} :
    Runs U C (update k p failure call) fun _ => [] :=
  fun _ hs => (update_ends hk htag hs hp hU).mono (fun _ _ h => ⟨[], rfl, h.2⟩) fun _ _ h => h

theorem catalog_make (o : Object Scan) (h : o.cls = .catalog) : ∃ x, Kind.catalog.make x = o := by
  cases o <;> simp_all [Object.cls, Kind.catalog]

theorem table_make (o : Object Scan) (h : o.cls = .table) : ∃ x, Kind.table.make x = o := by
  cases o <;> simp_all [Object.cls, Kind.table]

theorem scan_make (o : Object Scan) (h : o.cls = .scan) : ∃ x, Kind.scan.make x = o := by
  cases o <;> simp_all [Object.cls, Kind.scan]

theorem batch_make (o : Object Scan) (h : o.cls = .batch) : ∃ x, Kind.batch.make x = o := by
  cases o <;> simp_all [Object.cls, Kind.batch]

theorem builder_make (o : Object Scan) (h : o.cls = .builder) : ∃ x, Kind.builder.make x = o := by
  cases o <;> simp_all [Object.cls, Kind.builder]

theorem text_make (o : Object Scan) (h : o.cls = .text) : ∃ x, Kind.text.make x = o := by
  cases o <;> simp_all [Object.cls, Kind.text]

/-- A catalog that some box shares can be worked with. -/
theorem useCatalog_eq (hs : Owns s C) (hp : s.heap.lookup p = some o) (hc : o.inner = some c) :
    useCatalog c s = .value ⟨⟩ s := by
  have hlive : c ∈ s.catalogs :=
    AList.lookup_isSome.mp (by rw [hs.counts.lookup (hs.refs_ne_zero hp hc)]; rfl)
  rw [useCatalog, if_pos hlive]

theorem runsAt_useCatalog {f : PUnit → Abi Scan β} {new : β → List Owned} (hs : Owns s C)
    (hp : s.heap.lookup p = some o) (hc : o.inner = some c) (hf : RunsAt U s C (f ⟨⟩) new) :
    RunsAt U s C (useCatalog c >>= f) new := by
  refine Program.Ends.bind (R := fun _ t => t = s) ?_ fun _ t ht => ht ▸ hf
  rw [Program.Ends, useCatalog_eq hs hp hc]

theorem runsAt_putTable {x : ℕ × TableHandle} {r : Reply TableHandle ρ} (hs : Owns s C)
    (hp : s.heap.lookup p = some (Kind.table.make x)) (hU : p ∈ U) :
    RunsAt U s C (putTable p x.1 r) fun _ => [] :=
  (runsAt_write (y := (x.1, r.state)) hs hp rfl hU).seq fun _ => runs_answer r

/-- A table gets a reference of its own to the catalog that it came from. -/
theorem runs_boxedTable (hc : C.refs c ≠ 0) (h : TableHandle) :
    Runs U C (boxedTable mem c h) fun q => [⟨.table, q⟩] := by
  intro s hs
  let q := mem.object.place s.heap
  have hrefs : ∀ d, Boxes.refs ((q, (Object.table c h : Object Scan).tag) :: C) d =
      Boxes.refs C d + if d = c then 1 else 0 := by
    intro d
    rw [Boxes.refs_cons]
    simp [Object.tag, Object.inner, eq_comm]
  obtain ⟨counts, hretain, hcounts⟩ := hs.counts.retain hc hrefs
  have hclone : cloneCatalog c s = .value ⟨⟩ { s with catalogs := counts } := by
    rw [cloneCatalog, hretain]
  refine Program.Ends.bind (R := fun _ t => t = { s with catalogs := counts }) ?_ ?_
  · rw [Program.Ends, hclone]
  · rintro _ _ rfl
    exact ⟨[(q, (Object.table c h : Object Scan).tag)], rfl,
      hs.alloc (mem.object.unused _) (mem.object.nonnull _) hcounts⟩

/-- The handle of a new catalog has the first reference to it. -/
theorem runs_boxedCatalog : Runs U C (boxedCatalog mem) fun q => [⟨.catalog, q⟩] := by
  intro s hs
  let c := mem.inner.place s.catalogs
  let q := mem.object.place s.heap
  have hrefs : ∀ d, Boxes.refs ((q, (Object.catalog c : Object Scan).tag) :: C) d =
      Boxes.refs C d + if d = c then 1 else 0 := by
    intro d
    rw [Boxes.refs_cons]
    simp [Object.tag, Object.inner, eq_comm]
  exact runsAt_of_eq (N := [(q, (Object.catalog c : Object Scan).tag)]) rfl
    (hs.alloc (mem.object.unused _) (mem.object.nonnull _)
      (hs.counts.share (mem.inner.unused _) hrefs)) rfl

theorem runs_onCatalog (hp : ⟨.catalog, p⟩ ∈ C.owned) {failure : ρ} {call : ℕ → Abi Scan ρ}
    {new : ρ → List Owned} (hcall : ∀ inner s, Owns s C →
      s.heap.lookup p = some (Kind.catalog.make inner) → RunsAt U s C (call inner) new) :
    Runs U C (onCatalog p failure call) new :=
  runs_onHandle catalog_make hp fun inner s hs hx =>
    runsAt_useCatalog hs hx rfl (hcall inner s hs hx)

theorem runs_onTable (hp : ⟨.table, p⟩ ∈ C.owned) (hU : p ∈ U) {failure : ρ}
    {call : TableHandle → Reply TableHandle ρ} :
    Runs U C (onTable p failure call : Abi Scan _) fun _ => [] :=
  runs_onHandle table_make hp fun _ _ hs hx => runsAt_putTable hs hx hU

/-- The calls that hand out a text of a table. -/
theorem runs_tableText (hp : ⟨.table, p⟩ ∈ C.owned) (hU : p ∈ U)
    {call : TableHandle → Reply TableHandle (Option String)} :
    Runs U C (do text mem (← onTable p none call)) (handedOut .text) :=
  (runs_onTable hp hU).seq fun r => runs_text mem r

theorem runs_catalogText (hp : ⟨.catalog, p⟩ ∈ C.owned) (r : Reply τ (Option String)) :
    Runs U C (onCatalog p 0 fun _ => do text mem (← answer r)) (handedOut .text) :=
  runs_onCatalog hp fun _ _ hs _ => ((runs_answer r).seq fun a => runs_text mem a) _ hs

theorem runs_catalogTable (hp : ⟨.catalog, p⟩ ∈ C.owned) (r : Reply τ (Option TableHandle)) :
    Runs U C (onCatalog p 0 fun inner => do pointer (boxedTable mem inner) (← answer r))
      (handedOut .table) :=
  runs_onCatalog hp fun _ _ hs hx => ((runs_answer r).seq fun a =>
    runs_pointer (runs_boxedTable mem (hs.refs_ne_zero hx rfl)) a) _ hs

theorem runs_catalogCode (hp : ⟨.catalog, p⟩ ∈ C.owned) {failure : ℤ} (r : Reply τ ℤ) :
    Runs U C (onCatalog p failure fun _ => answer r : Abi Scan _) fun _ => [] :=
  runs_onCatalog hp fun _ _ hs _ => runs_answer r _ hs

theorem runs_newCatalog {γ : Type} (r : Reply τ (Option γ)) :
    Runs U C (do pointer (fun _ => boxedCatalog mem) (← answer r)) (handedOut .catalog) :=
  (runs_answer r).seq fun c => runs_pointer (fun _ => runs_boxedCatalog mem) c

theorem runs_ibTableRefresh (hp : ⟨.table, p⟩ ∈ C.owned) (hU : p ∈ U)
    (load : TableIdent → Except String Table) :
    Runs U C (ibTableRefresh p load : Abi Scan _) fun _ => [] :=
  runs_onHandle table_make hp fun _ _ hs hx =>
    runsAt_useCatalog hs hx rfl (runsAt_putTable hs hx hU)

theorem runs_ibTableCommit (hp : ⟨.table, p⟩ ∈ C.owned) (hU : p ∈ U) (api : CommitApi)
    (catalog : Table) : Runs U C (ibTableCommit p api catalog : Abi Scan _) fun _ => [] := by
  refine runs_onHandle table_make hp fun x s hs hx => ?_
  split
  · exact runsAt_useCatalog hs hx rfl (runsAt_putTable hs hx hU)
  · exact runsAt_putTable hs hx hU

theorem runs_ibScanNew (datum : DatumApi) (ops : PredicateOps)
    (parseJson : String → Except String Json) (build : Table → ScanRequest → Except String Scan)
    (hp : ⟨.table, p⟩ ∈ C.owned) (columnsCsv : CString) (snapshotId : ℤ) (filterJson : CString) :
    Runs U C (ibScanNew mem datum ops parseJson build p columnsCsv snapshotId filterJson)
      (handedOut .scan) := by
  refine runs_onHandle table_make hp fun x s hs _ => ?_
  split
  next r _ =>
    exact ((runs_answer r).seq fun a =>
      runs_pointer (fun h => runs_allocate (o := .scan h) mem rfl) a) s hs
  all_goals exact Program.ends_lose

/-- The batch that comes with the code of a pull. -/
def pulled (r : ℤ × Option ℕ) : List Owned := if r.1 ≤ 0 then [] else [⟨.batch, r.2.getD 0⟩]

theorem runs_ibScanNext (hp : ⟨.scan, p⟩ ∈ C.owned) (hU : p ∈ U)
    (toArrow : Except String (ℕ → Poll String RecordBatch)) (outBatch : Bool) :
    Runs U C (ibScanNext mem p toArrow outBatch) pulled := by
  intro s hs
  refine (update_ends scan_make (fun _ _ => rfl) hs hp hU).bind ?_
  rintro _ t ⟨⟨x, r, hr, rfl⟩, hl⟩
  rcases ibScanNext_ret hr with hret | hret | ⟨b, hret⟩ <;> rw [hret]
  · exact ⟨[], rfl, hl⟩
  · exact ⟨[], rfl, hl⟩
  · refine (runs_allocate (U := U) (o := .batch b) mem rfl t hl.owns).bind ?_
    rintro q u ⟨N, hN, hl'⟩
    exact ⟨N, hN, hl.trans hl'⟩

theorem runs_ibBatchBuilderNew (toArrow : SchemaToArrow) (hp : ⟨.table, p⟩ ∈ C.owned) :
    Runs U C (ibBatchBuilderNew mem toArrow p : Abi Scan _) (handedOut .builder) :=
  runs_onHandle table_make hp fun _ s hs _ => ((runs_answer _).seq fun a =>
    runs_pointer (fun h => runs_allocate (o := .builder h) mem rfl) a) s hs

theorem runs_ibBatchBuilderBuild (A : Arrow) (hp : ⟨.builder, p⟩ ∈ C.owned) :
    Runs U C (ibBatchBuilderBuild mem A p : Abi Scan _) (handedOut .batch) :=
  runs_onHandle builder_make hp fun _ s hs _ => ((runs_answer _).seq fun a =>
    runs_pointer (fun h => runs_allocate (o := .batch h) mem rfl) a) s hs

theorem runs_ibBatchSchemaJson (A : Arrow) (fmt : Float → String) (hp : ⟨.batch, p⟩ ∈ C.owned) :
    Runs U C (ibBatchSchemaJson mem A p fmt : Abi Scan _) (handedOut .text) :=
  runs_onHandle batch_make hp fun _ s hs _ => ((runs_answer _).seq fun a => runs_text mem a) s hs

/-- The calls that read a batch. -/
theorem runs_onBatch (hp : ⟨.batch, p⟩ ∈ C.owned) {failure : ρ} {call : RecordBatch → Reply τ ρ} :
    Runs U C (onHandle .batch p failure fun x => answer (call x) : Abi Scan _) fun _ => [] :=
  runs_onHandle batch_make hp fun _ s hs _ => runs_answer _ s hs

theorem runs_onBatchInto (hp : ⟨.batch, p⟩ ∈ C.owned) {failure : ρ × τ}
    {call : RecordBatch → Reply τ ρ} :
    Runs U C (onHandle .batch p failure fun x => answerInto (call x) : Abi Scan _)
      fun _ => [] :=
  runs_onHandle batch_make hp fun _ s hs _ => runs_answerInto _ s hs

theorem runs_ibTableAppend (A : Arrow) (toArrow : SchemaToArrow) (io : WriterApi)
    (hp : ⟨.table, p⟩ ∈ C.owned) (hU : p ∈ U) (hq : ⟨.batch, q⟩ ∈ C.owned) :
    Runs U C (ibTableAppend A toArrow io q p : Abi Scan _) fun _ => [] :=
  runs_onHandle table_make hp fun _ _ hs hx =>
    onHandle_ends batch_make hs hq fun _ _ => runsAt_putTable hs hx hU

theorem runs_ibTableAppendBatch (A : Arrow) (toArrow : SchemaToArrow) (io : WriterApi)
    (answer : Except String FfiData) (pair : Option FfiPair) (hp : ⟨.table, p⟩ ∈ C.owned)
    (hU : p ∈ U) :
    Runs U C (ibTableAppendBatch A toArrow io p answer pair : Abi Scan _) fun _ => [] := by
  refine runs_onHandle table_make hp fun x s hs hx => ?_
  let r := Memory.ibTableAppendBatch A toArrow io answer (some x.2) pair
  refine (runsAt_write (y := (x.1, r.state.1.getD x.2)) hs hx rfl hU).seq fun _ => ?_
  exact (runs_record r.lastError).seq fun _ => runs_pure rfl

/-- The calls that free a box drop its object when the box is gone. -/
theorem frees_takeBox {k : Kind Scan σ} (hk : ∀ o : Object Scan, o.cls = cls → ∃ x, k.make x = o)
    (drop : σ → Abi Scan PUnit) (hdrop : ∀ x (s : Process Scan) C,
      s.catalogs.Counts (Boxes.refs ((p, (k.make x).tag) :: C)) →
        ∃ counts, drop x s = .value ⟨⟩ { s with catalogs := counts } ∧
          counts.Counts (Boxes.refs C)) :
    Frees (if p = 0 then pure ⟨⟩ else takeBox k p >>= drop) cls p := by
  intro s C hs hp
  obtain ⟨hp0, o, ho, hcls⟩ := hs.lookup hp
  obtain ⟨x, rfl⟩ := hk o hcls
  obtain ⟨before, after, rfl⟩ := List.append_of_mem (hs.mem ho)
  let C' := before ++ after
  have hperm : (before ++ (p, (k.make x).tag) :: after).Perm ((p, (k.make x).tag) :: C') :=
    List.perm_middle
  have hs' := hs.perm hperm
  obtain ⟨counts, hx, hcounts⟩ := hdrop x { s with heap := s.heap.erase p } C' hs'.counts
  refine ⟨_, _, C', ?_, hperm, ⟨rfl, hcls⟩, hs'.free ho List.mem_cons_self hcounts⟩
  rw [if_neg hp0]
  simp only [takeBox, bind, Program.bind, read_eq ho, Program.modify, pure, hx]

/-- With a box that shares a catalog one reference to the catalog goes. -/
theorem dropCatalog_counts (o : Object Scan) (hc : o.inner = some c)
    (h : s.catalogs.Counts (Boxes.refs ((p, o.tag) :: C))) :
    ∃ counts, dropCatalog c s = .value ⟨⟩ { s with catalogs := counts } ∧
      counts.Counts (Boxes.refs C) := by
  have hrefs : ∀ d, Boxes.refs ((p, o.tag) :: C) d = Boxes.refs C d + if d = c then 1 else 0 := by
    intro d
    rw [Boxes.refs_cons]
    simp [Object.tag, hc, eq_comm]
  obtain ⟨counts, hrelease, hcounts⟩ := h.release hrefs
  exact ⟨counts, by rw [dropCatalog, hrelease], hcounts⟩

theorem ibCatalogFree_frees : Frees (ibCatalogFree p : Abi Scan _) .catalog p :=
  frees_takeBox catalog_make dropCatalog fun c _ _ h => dropCatalog_counts (.catalog c) rfl h

theorem ibTableFree_frees : Frees (ibTableFree p : Abi Scan _) .table p :=
  frees_takeBox table_make (fun x => dropCatalog x.1) fun x _ _ h =>
    dropCatalog_counts (.table x.1 x.2) rfl h

/-- Nothing else goes with a box that shares no catalog. -/
theorem frees_plain {k : Kind Scan σ} (hk : ∀ o : Object Scan, o.cls = cls → ∃ x, k.make x = o)
    (hinner : ∀ x, (k.make x).inner = none) :
    Frees (if p = 0 then pure ⟨⟩ else do let _ ← takeBox k p) cls p := by
  refine frees_takeBox hk (fun _ => pure ⟨⟩) fun x s C h => ⟨_, rfl, h.congr fun c => ?_⟩
  rw [Boxes.refs_cons]
  simp [Object.tag, hinner]

theorem ibScanFree_frees : Frees (ibScanFree p : Abi Scan _) .scan p :=
  frees_plain scan_make fun _ => rfl

theorem ibBatchFree_frees : Frees (ibBatchFree p : Abi Scan _) .batch p :=
  frees_plain batch_make fun _ => rfl

theorem ibBatchBuilderFree_frees : Frees (ibBatchBuilderFree p : Abi Scan _) .builder p :=
  frees_plain builder_make fun _ => rfl

theorem ibStringFree_frees : Frees (ibStringFree p : Abi Scan _) .text p :=
  frees_plain text_make fun _ => rfl

end Abi
end IcebergRs
