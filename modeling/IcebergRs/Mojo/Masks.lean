import IcebergRs.Mojo.Binding
import IcebergRs.Shim.NullPreservation

/-! Masks of column calls. The length that crosses the boundary is that of the values, so the
shim reads as many entries of the mask as there are values, and a mask without entries is
passed as none. -/
namespace IcebergRs.Mojo

/-- The values of one column call of the binding. -/
inductive Values where
  | ints (values : List Int64)
  | floats (values : List Float)
  | bools (values : List Bool)
  | strs (values : List String)

namespace Values

def length : Values → ℕ
  | ints values => values.length
  | floats values => values.length
  | bools values => values.length
  | strs values => values.length

def what : Values → String
  | ints _ => "BatchBuilder.int_col"
  | floats _ => "BatchBuilder.float_col"
  | bools _ => "BatchBuilder.bool_col"
  | strs _ => "BatchBuilder.str_col"

/-- `BatchBuilder.int_col`, `float_col`, `bool_col` and `str_col` with a mask. -/
def call (A : Arrow) (b : BuilderHandle) (name : String) (valid : List Bool) :
    Values → Outcome BuilderHandle
  | ints values => builderIntCol A b name values (some valid)
  | floats values => builderFloatCol A b name values (some valid)
  | bools values => builderBoolCol A b name values (some valid)
  | strs values => builderStrCol A b name values (some valid)

/-- The call that arrives at the shim, with what it reads behind the pointers. -/
def supply (name : String) (valid : List Bool) (c : Values) : Outcome Supply := do
  match c with
  | ints values =>
    let vals ← slice (unsafePtr values) values.length
    let valid ← slice (maskPtr (validBytes valid)) values.length
    pure (.int (arg name) vals valid)
  | floats values =>
    let vals ← slice (unsafePtr values) values.length
    let valid ← slice (maskPtr (validBytes valid)) values.length
    pure (.float (arg name) vals valid)
  | bools values =>
    let vals ← slice (unsafePtr (validBytes values)) values.length
    let valid ← slice (maskPtr (validBytes valid)) values.length
    pure (.bool (arg name) vals valid)
  | strs values =>
    let offs ← slice (unsafePtr (packStrings values).1) (values.length + 1)
    let valid ← slice (maskPtr (validBytes valid)) values.length
    pure (.str (arg name) offs (unsafePtr ((packStrings values).2 ++ [0])) valid)

end Values

variable {A : Arrow} {b : BuilderHandle} {name : String} {valid : List Bool} {c : Values}

theorem Values.call_eq : c.call A b name valid =
    c.supply name valid >>= fun s => s.run A b >>= finish c.what := by
  cases c with
  | ints values => simp only [call, builderIntCol, builderInt, supply, bind_assoc, pure_bind]; rfl
  | floats values => simp only [call, builderFloatCol, builderFloat, supply, bind_assoc]; rfl
  | bools values => simp only [call, builderBoolCol, builderBool, supply, bind_assoc]; rfl
  | strs values => simp only [call, builderStrCol, builderStr, supply, bind_assoc]; rfl

theorem slice_isOk {α : Type} {xs : List α} {n : ℕ} (h : n ≤ xs.length) :
    ∃ v, slice (unsafePtr xs) n = .ok v := by
  unfold unsafePtr
  split
  · exact ⟨none, rfl⟩
  · exact ⟨_, dif_pos h⟩

/-- The mask for `n` rows as the shim reads it. -/
def readMask (valid : List Bool) (n : ℕ) : List Bool :=
  if valid = [] then List.replicate n true else valid.take n

/-- A mask that is read inside its bounds is read as it is exactly when the lengths agree. -/
theorem readMask_eq_self_iff {valid : List Bool} {n : ℕ} (hor : valid = [] ∨ n ≤ valid.length) :
    readMask valid n = valid ↔ valid.length = n := by
  rw [readMask]
  split
  next hv =>
    subst hv
    rw [List.replicate_eq_nil_iff, List.length_nil, eq_comm]
  next hv =>
    have hle := hor.resolve_left hv
    constructor
    · intro h
      have hlen := congrArg List.length h
      rw [List.length_take] at hlen
      omega
    · intro h
      rw [← h, List.take_length]

/-- A mask that is not empty but too short is read past its end. Any other leaves present
the rows that its first entries do, and an empty one leaves all of them. -/
theorem slice_mask_cases (valid : List Bool) (n : ℕ) :
    (valid ≠ [] ∧ valid.length < n ∧
      slice (maskPtr (validBytes valid)) n = .panic "read past the end of the list") ∨
    ((valid = [] ∨ n ≤ valid.length) ∧ ∃ v, slice (maskPtr (validBytes valid)) n = .ok v ∧
      (List.finRange n).map (fun i => !absent v i) = readMask valid n) := by
  by_cases hv : valid = []
  · subst hv
    refine .inr ⟨.inl rfl, none, rfl, ?_⟩
    simp [absent, readMask, List.map_const']
  · have hne : validBytes valid ≠ [] := by simpa [validBytes] using hv
    have hptr : maskPtr (validBytes valid) = unsafePtr (validBytes valid) := by
      simp [maskPtr, hne]
    have hbytes : (validBytes valid).length = valid.length := List.length_map _
    rw [hptr]
    by_cases hn : n ≤ valid.length
    · obtain ⟨v, hslice, hlist⟩ := slice_take hne (hbytes ▸ hn)
      refine .inr ⟨.inr hn, some v, hslice, ?_⟩
      rw [readMask, if_neg hv]
      exact present_validBytes (hlist.trans List.map_take.symm)
    · refine .inl ⟨hv, Nat.lt_of_not_le hn, ?_⟩
      rw [unsafePtr_of_ne _ hne, slice, dif_neg (hbytes ▸ hn)]

theorem slice_covered {n : ℕ} (hvalid : valid = [] ∨ n ≤ valid.length) :
    ∃ v, slice (maskPtr (validBytes valid)) n = .ok v ∧
      (List.finRange n).map (fun i => !absent v i) = readMask valid n := by
  rcases slice_mask_cases valid n with ⟨hne, hlt, -⟩ | ⟨-, h⟩
  · rcases hvalid with h | h
    · exact absurd h hne
    · omega
  · exact h

theorem readMask_length {n : ℕ} (hvalid : valid = [] ∨ n ≤ valid.length) :
    (readMask valid n).length = n := by
  obtain ⟨v, -, hv⟩ := slice_covered hvalid
  rw [← hv, List.length_map, List.length_finRange]

theorem supply_of_slices {α : Type} {xs : List α} {m n : ℕ} (hm : m ≤ xs.length)
    (make : Option (Vector α m) → Option (Vector UInt8 n) → Supply)
    (hmake : ∀ vals v, (make vals v).name = arg name ∧
      (make vals v).present = (List.finRange n).map fun i => !absent v i) {r : Outcome Supply}
    (hr : r = do
      let vals ← slice (unsafePtr xs) m
      let v ← slice (maskPtr (validBytes valid)) n
      pure (make vals v)) :
    (valid ≠ [] ∧ valid.length < n ∧ r = .panic "read past the end of the list") ∨
    ((valid = [] ∨ n ≤ valid.length) ∧ ∃ s, r = .ok s ∧ s.name = arg name ∧
      s.present = readMask valid n) := by
  obtain ⟨vals, hvals⟩ := slice_isOk hm
  rw [hvals, Outcome.ok_bind] at hr
  rcases slice_mask_cases valid n with ⟨hv, hlen, hpanic⟩ | ⟨hor, v, hv, hread⟩
  · rw [hpanic] at hr
    exact .inl ⟨hv, hlen, hr⟩
  · rw [hv] at hr
    exact .inr ⟨hor, _, hr, (hmake vals v).1, (hmake vals v).2.trans hread⟩

/-- The shim gets the call with the mask as it reads it, or it reads past the end. -/
theorem supply_cases (c : Values) (name : String) (valid : List Bool) :
    (valid ≠ [] ∧ valid.length < c.length ∧
      c.supply name valid = .panic "read past the end of the list") ∨
    ((valid = [] ∨ c.length ≤ valid.length) ∧ ∃ s, c.supply name valid = .ok s ∧
      s.name = arg name ∧ s.present = readMask valid c.length) := by
  cases c with
  | ints values =>
    exact supply_of_slices (Nat.le_refl _) (.int (arg name)) (fun _ _ => ⟨rfl, rfl⟩) rfl
  | floats values =>
    exact supply_of_slices (Nat.le_refl _) (.float (arg name)) (fun _ _ => ⟨rfl, rfl⟩) rfl
  | bools values =>
    have hlen : values.length ≤ (validBytes values).length := by simp [validBytes]
    exact supply_of_slices hlen (.bool (arg name)) (fun _ _ => ⟨rfl, rfl⟩) rfl
  | strs values =>
    have hlen : values.length + 1 ≤ (packStrings values).1.length := by simp [packStrings_eq]
    exact supply_of_slices hlen
      (fun offs => .str (arg name) offs (unsafePtr ((packStrings values).2 ++ [0])))
      (fun _ _ => ⟨rfl, rfl⟩) rfl

/-- The call offers a column for the schema, with as many rows as the builder has. -/
def Fits (A : Arrow) (b : BuilderHandle) (s : Supply) : Prop :=
  ∃ nm col, s.offer A b.schema = some (nm, col) ∧ ∀ rows ∈ b.rows, rows = col.len

/-- A stored column is marked by the mask: it has a row for each entry, a row that the mask has
false is null, and any other has a value that the call passed, cast to the declared type. -/
structure Marked (A : Arrow) (s : Supply) (valid : List Bool) (col : ArrayRef) : Prop where
  covers : col.len = valid.length
  absent : ∀ i : ℕ, valid[i]? = some false → col.cells[i]? = some none
  present : ∀ i : ℕ, valid[i]? = some true → ∃ a v, s.array = .ok a ∧
    a.cells[i]? = some (some v) ∧ col.cells[i]? = some (A.convTo a.dataType col.dataType v)

/-- The call raises, or the shim stays inside the mask and the column that it stores, if it
accepts the call, is marked by the mask. -/
def MaskHonoured (A : Arrow) (b : BuilderHandle) (name : String) (c : Values)
    (valid : List Bool) : Prop :=
  (∃ m, c.call A b name valid = .err m) ∨
    ∃ s, c.supply name valid = .ok s ∧ ∀ b', c.call A b name valid = .ok b' →
      ∃ col, b'.columns.lookup (uptoNul name) = some col ∧ Marked A s valid col

/-- The column that a call offers is marked by the mask exactly when the shim read as many
entries as the mask has. -/
theorem marked_iff {s : Supply} {nm : String} {col : ArrayRef} {n : ℕ}
    (hoffer : s.offer A b.schema = some (nm, col)) (hread : s.present = readMask valid n)
    (hor : valid = [] ∨ n ≤ valid.length) : Marked A s valid col ↔ valid.length = n := by
  obtain ⟨-, a, field, cells, ha, -, hcast, rfl⟩ := Supply.offer_eq_some.mp hoffer
  have hvalidity : a.validity = readMask valid n := (Supply.array_validity ha).trans hread
  have hcells := Arrow.castTo_cells hcast
  constructor
  · intro h
    have hlen : cells.length = n := by
      rw [Arrow.castTo_length hcast, ← a.validity_length, hvalidity, readMask_length hor]
    exact h.covers.symm.trans hlen
  · intro hn
    rw [(readMask_eq_self_iff hor).mpr hn] at hvalidity
    have hrow (i : ℕ) : valid[i]? = a.cells[i]?.map Option.isSome := by
      rw [← hvalidity, ArrayRef.validity, List.getElem?_map]
    refine ⟨?_, fun i hi => ?_, fun i hi => ?_⟩
    · rw [ArrayRef.len, Arrow.castTo_length hcast, ← a.validity_length, hvalidity]
    · obtain ⟨cell, hcell, habsent⟩ := Option.map_eq_some_iff.mp ((hrow i).symm.trans hi)
      obtain rfl : cell = none := by simpa using habsent
      simp [hcells, hcell]
    · obtain ⟨cell, hcell, hpresent⟩ := Option.map_eq_some_iff.mp ((hrow i).symm.trans hi)
      obtain ⟨v, rfl⟩ := Option.isSome_iff_exists.mp hpresent
      refine ⟨a, v, ha, hcell, ?_⟩
      simp [hcells, hcell]

/-- A call that is accepted stores what it offers, under its name up to a NUL. -/
theorem accepted_cases {s : Supply} (hs : s.name = arg name) {what : String} :
    (∃ col, s.offer A b.schema = some (uptoNul name, col) ∧ Fits A b s ∧
      (s.run A b >>= finish what) = .ok (b.store (uptoNul name) col)) ∨
    ¬ Fits A b s ∧ ∀ b', (s.run A b >>= finish what) ≠ .ok b' := by
  by_cases hfit : Fits A b s
  · obtain ⟨nm, col, hoffer, hrows⟩ := hfit
    have hnm := (Supply.offer_eq_some.mp hoffer).1
    rw [hs, cstr_arg] at hnm
    obtain rfl := Except.ok.inj hnm
    refine .inl ⟨col, hoffer, ⟨_, col, hoffer, hrows⟩, ?_⟩
    rw [Supply.run_of_offer hoffer hrows]
    rfl
  · refine .inr ⟨hfit, fun b' hb' => ?_⟩
    obtain ⟨r, hr, hfinish⟩ := Outcome.bind_eq_ok.mp hb'
    rcases Supply.run_cases hr with ⟨nm, col, hoffer, hrows, -⟩ | ⟨m, rfl⟩
    · exact hfit ⟨nm, col, hoffer, hrows⟩
    · cases hfinish

/-- A mask is honoured exactly when it has one entry for each value, or is empty or longer
and the call is not accepted for another reason. -/
theorem mask_honoured_iff (A : Arrow) (b : BuilderHandle) (name : String) (c : Values)
    (valid : List Bool) : MaskHonoured A b name c valid ↔
      valid.length = c.length ∨ (valid = [] ∨ c.length < valid.length) ∧
        ∀ s, c.supply name valid = .ok s → ¬ Fits A b s := by
  rcases supply_cases c name valid with ⟨hv, hlen, hpanic⟩ | ⟨hor, s, hs, hname, hread⟩
  · have hraise : c.call A b name valid = .panic "read past the end of the list" := by
      rw [Values.call_eq, hpanic, Outcome.panic_bind]
    refine iff_of_false ?_ ?_
    · rintro (⟨m, hm⟩ | ⟨s, hs, -⟩)
      · rw [hraise] at hm
        cases hm
      · rw [hpanic] at hs
        cases hs
    · rintro (h | ⟨h | h, -⟩)
      · omega
      · exact hv h
      · omega
  · have hcall : c.call A b name valid = s.run A b >>= finish c.what := by
      rw [Values.call_eq, hs, Outcome.ok_bind]
    simp only [MaskHonoured, hs, Outcome.ok.injEq, exists_eq_left', forall_eq', hcall]
    rcases accepted_cases hname with ⟨col, hoffer, hfit, hstore⟩ | ⟨hfit, hnot⟩
    · -- the call is accepted, so only the stored column counts
      rw [hstore]
      simp only [reduceCtorEq, exists_false, false_or, Outcome.ok.injEq, forall_eq',
        BuilderHandle.store, AList.lookup_insert, Option.some.injEq, exists_eq_left',
        marked_iff hoffer hread hor, hfit, not_true_eq_false, and_false, or_false]
    · refine iff_of_true (.inr fun b' hb' => absurd hb' (hnot b')) ?_
      by_cases hlen : valid.length = c.length
      · exact .inl hlen
      · refine .inr ⟨hor.imp id fun hle => ?_, hfit⟩
        omega

/-- Five values with a mask of one entry make the shim read past the end of the mask, and
two values with an empty mask are stored as if it covered them. -/
theorem mask_not_honoured :
    (Values.ints [1, 2, 3, 4, 5]).call .basic ⟨SchemaToArrow.fieldwise .orders, ∅, none⟩ "id"
      [false] = .panic "read past the end of the list" ∧
    ∃ b, (Values.ints [1, 2]).call .basic ⟨SchemaToArrow.fieldwise .orders, ∅, none⟩ "id" [] =
        .ok b ∧ b.columns.lookup "id" = some ⟨.int64, [some (1 : Int64), some (2 : Int64)]⟩ :=
  ⟨rfl, _, rfl, rfl⟩

end IcebergRs.Mojo
