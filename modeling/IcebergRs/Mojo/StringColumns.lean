import IcebergRs.Mojo.Binding
import IcebergRs.Shim.StringPacking

/-! String columns through the packers and the readers of both sides. Either side hands over
the texts of the rows packed one behind the other, and the other side cuts them out again. -/
namespace IcebergRs
open Mojo

variable {A : Arrow} {batch : RecordBatch} {b : BuilderHandle}

/-- The rows of a column with a mask, absent rows as nulls. -/
def maskedCells (values : List String) : Option (List Bool) → List (Option String)
  | some valid => List.zipWith (fun value v => if v then some value else none) values valid
  | none => values.map some

theorem collect_none (values : List String) : collect none values.get = values.map some := by
  conv_rhs => rw [← List.map_get_finRange values, List.map_map]
  rfl

theorem collect_some {values : List String} {valid : List Bool}
    (v : Vector UInt8 values.length) (h : v.toList = validBytes valid) :
    collect (some v) values.get = maskedCells values (some valid) := by
  have hcells : maskedCells ((List.finRange values.length).map values.get)
      (some ((List.finRange values.length).map fun i => !absent (some v) i)) =
        collect (some v) values.get := by
    rw [maskedCells, List.zipWith_map, List.zipWith_self]
    apply List.map_congr_left
    intro i _
    cases absent (some v) i <;> rfl
  rw [List.map_get_finRange, present_validBytes h] at hcells
  exact hcells.symm

/-- The pointer that is passed for a mask leaves present the rows that the mask does. -/
theorem slice_mask {values : List String} {valid : Option (List Bool)}
    (h : ∀ m ∈ valid, m.length = values.length) :
    ∃ v, slice (maskPtr ((valid.map validBytes).getD [])) values.length = .ok v ∧
      collect v values.get = maskedCells values valid := by
  cases valid with
  | none => exact ⟨none, rfl, collect_none values⟩
  | some m =>
    have hm : (validBytes m).length = values.length := by
      rw [validBytes, List.length_map]
      exact h m rfl
    by_cases hne : validBytes m = []
    · obtain rfl : m = [] := by simpa [validBytes] using hne
      obtain rfl : values = [] := List.length_eq_zero_iff.mp (h [] rfl).symm
      exact ⟨none, rfl, rfl⟩
    · obtain ⟨v, hv, hlist⟩ := slice_unsafePtr _ hne hm
      refine ⟨some v, ?_, collect_some v hlist⟩
      rwa [Option.map_some, Option.getD_some, maskPtr, if_neg (by simpa using hne)]

/-- `BatchBuilder.str_col` makes a call that offers its rows for the string column that its
name addresses. -/
theorem builderStrCol_eq {name : String} {f : Field} {values : List String}
    {valid : Option (List Bool)} (hf : b.schema.find (uptoNul name) = some f)
    (hty : f.dataType = .utf8) (hmask : ∀ m ∈ valid, m.length = values.length)
    (hlen : (values.map utf8).flatten.length < 2 ^ 31) :
    ∃ s : Supply, s.offer A b.schema = some (uptoNul name, .texts (maskedCells values valid)) ∧
      builderStrCol A b name values valid = s.run A b >>= finish "BatchBuilder.str_col" := by
  obtain ⟨offs, hoffs, hlist⟩ := slice_unsafePtr (n := values.length + 1)
    (offsets (values.map utf8)) (offsets_ne_nil _) (by simp)
  obtain ⟨v, hv, hcells⟩ := slice_mask hmask
  have hoffer := offer_packed (A := A) v hlist (cstr_arg name _) hf hty hlen [0]
  rw [hcells] at hoffer
  refine ⟨_, hoffer, ?_⟩
  have hblob := unsafePtr_of_ne ((values.map utf8).flatten ++ [0]) (by simp)
  rw [builderStrCol, builderStr, packStrings_eq]
  dsimp only
  rw [hoffs, Outcome.ok_bind, hv, Outcome.ok_bind, hblob]
  rfl

/-- The binding cuts out of the buffers the texts that the shim packed into them. -/
theorem cutStrings_packed {cells : List (Option String)} (hlen : (utf8Bytes cells).length < 2 ^ 63)
    (offs : List Int64) (blob : List UInt8) :
    cutStrings (overwrite offs (offsets (cells.map cellBytes)))
        (overwrite blob (utf8Bytes cells)) cells.length = cells.map (·.getD "") := by
  have hflat : utf8Bytes cells = (cells.map cellBytes).flatten := rfl
  have hpos : ∀ i ≤ cells.length,
      asUsize ((overwrite offs (offsets (cells.map cellBytes))).getD i 0) =
        offset (cells.map cellBytes) i := by
    intro i hi
    have hi' : i ≤ (cells.map cellBytes).length := by simpa using hi
    have hlt : i < (offsets (cells.map cellBytes)).length := by
      rw [offsets_length]
      omega
    have hfits : offset (cells.map cellBytes) i < 2 ^ 63 := (offset_le _ _).trans_lt hlen
    rw [overwrite, List.getD_eq_getElem?_getD, List.getElem?_append_left hlt,
      offsets_getElem? hi', Option.getD_some, asUsize_ofNat hfits]
  apply List.ext_getElem (by simp [cutStrings])
  intro i hi hi'
  have hn : i < cells.length := by simpa using hi'
  have hwin := window_eq (cells.map cellBytes) (by simpa using hn)
    (blob.drop (cells.map cellBytes).flatten.length)
  simp only [cutStrings, List.getElem_map, List.getElem_range, hpos i hn.le, hpos (i + 1) hn]
  rw [hflat, overwrite, hwin, List.getElem_map, cellBytes_eq, bytesToString_utf8]

/-- `Batch.str_col` returns the texts of the column after the cast to text, nulls as empty. -/
theorem strCol_eq {name : String} {col : ArrayRef} {cells : List (Option String)}
    (hcol : batch.columnByName (uptoNul name) = some col) (hcast : A.castTo col .utf8 = .ok cells)
    (hlen : (utf8Bytes cells).length < 2 ^ 63) :
    strCol A batch name = .ok (cells.map (·.getD "")) := by
  have hrows : cells.length = batch.numRows :=
    (Arrow.castTo_length hcast).trans (RecordBatch.columnByName_len hcol)
  have htake : cells.take batch.numRows = cells := List.take_of_length_le (Nat.le_of_eq hrows)
  have hroom : (utf8Bytes (cells.take batch.numRows)).length ≤ (utf8Bytes cells).length := by
    rw [htake]
  have hget := ibBatchGetStr_eq (cstr_arg name _) hcol hcast hroom
    (List.replicate (batch.numRows + 1) 0) (List.replicate ((utf8Bytes cells).length + 1) 0) none
  rw [htake] at hget
  rw [strCol, getStr, ibBatchUtf8Size_eq (cstr_arg name _) hcol hcast]
  simp only [Reply.done_ret, Int.toNat_natCast, if_neg (Int.not_lt.mpr (Int.natCast_nonneg _)),
    unsafePtr_of_ne (List.replicate (_ + 1) _) (by simp), hget]
  exact congrArg Outcome.ok (cutStrings_packed hlen _ _)

theorem build_eq_ok : build A b = .ok batch ↔ (ibBatchBuilderBuild A b).ret = some batch := by
  unfold build
  dsimp only
  split
  next batch' h => simp [h]
  next h => simp [h, fail]

/-- The texts of a column with a mask, absent rows as empty texts. -/
def maskedTexts (values : List String) : Option (List Bool) → List String
  | some valid => List.zipWith (fun value v => if v then value else "") values valid
  | none => values

theorem maskedCells_getD (values : List String) (valid : Option (List Bool)) :
    (maskedCells values valid).map (·.getD "") = maskedTexts values valid := by
  cases valid with
  | none => simp [maskedCells, maskedTexts]
  | some m =>
    rw [maskedCells, maskedTexts, List.map_zipWith]
    congr
    funext value v
    cases v <;> rfl

theorem maskedCells_length {values : List String} {valid : Option (List Bool)}
    (h : ∀ m ∈ valid, m.length = values.length) :
    (maskedCells values valid).length = values.length := by
  cases valid with
  | none => simp [maskedCells]
  | some m => simp [maskedCells, h m rfl]

theorem utf8Bytes_maskedCells_le {values : List String} {valid : Option (List Bool)}
    (h : ∀ m ∈ valid, m.length = values.length) :
    (utf8Bytes (maskedCells values valid)).length ≤ (values.map utf8).flatten.length := by
  obtain ⟨v, -, hv⟩ := slice_mask h
  exact hv ▸ utf8Bytes_collect_le v

/-- A column written by `BatchBuilder.str_col` is read back from the batch that any later
`build` returns, as long as no other call stored a column under its name. -/
theorem strCol_of_builderStrCol {schema : ArrowSchema} {calls later : List BuilderCall}
    {s : Supply} {b'' : BuilderHandle} (h : Holds A schema (calls ++ [.supply s 0] ++ later) b'')
    (hn : (schema.fields.map Field.name).Nodup) {name : String} {cells : List (Option String)}
    (hs : s.offer A schema = some (uptoNul name, .texts cells))
    (hlater : ∀ c ∈ later, c.column A schema (uptoNul name) = none)
    (hlen : (utf8Bytes cells).length < 2 ^ 31) (hb : build A b'' = .ok batch) :
    strCol A batch name = .ok (cells.map (·.getD "")) := by
  have hheld : b''.columns.lookup (uptoNul name) = some (.texts cells) := by
    rw [h.lookup, lastColumn_append hlater, lastColumn_snoc]
    simp [BuilderCall.column, hs]
  have hcol := columnByName_of_held h hn (build_eq_ok.mp hb) hheld
  exact strCol_eq hcol (Arrow.castTo_self _) (hlen.trans (by decide))

theorem collect_validBytes {cells : List (Option String)}
    (v : Vector UInt8 (cells.map (·.getD "")).length) (h : v.toList = cells.map validByte) :
    collect (some v) (cells.map (·.getD "")).get = cells := by
  have hbytes : cells.map validByte = validBytes (cells.map Option.isSome) := by
    rw [validBytes, List.map_map]
    apply List.map_congr_left
    intro c _
    cases c <;> rfl
  rw [collect_some v (h.trans hbytes), maskedCells, List.zipWith_map, List.zipWith_self]
  conv_rhs => rw [← List.map_id cells]
  apply List.map_congr_left
  intro c _
  cases c <;> rfl

/-- The buffers that the string getter fills make a call that offers the same cells. -/
theorem offer_filled {cells : List (Option String)} {n : ℕ} (hn : cells.length = n)
    (hlen : (utf8Bytes cells).length < 2 ^ 31) :
    ∃ (offs : Vector Int64 (n + 1)) (valid : Vector UInt8 n),
      offs.toList = offsets (cells.map cellBytes) ∧
      valid.toList = cells.map validByte ∧
      ∀ (schema : ArrowSchema) (name : CString) (nm : String) (f : Field),
        cstr name "ib_batch_builder_str" = .ok nm → schema.find nm = some f → f.dataType = .utf8 →
          (Supply.str name (some offs) (some (utf8Bytes cells)) (some valid)).offer A schema =
            some (nm, .texts cells) := by
  obtain rfl : (cells.map (·.getD "")).length = n := by rw [List.length_map, hn]
  have hrows : cells.map cellBytes = (cells.map (·.getD "")).map utf8 := by
    rw [List.map_map]
    exact List.map_congr_left fun c _ => cellBytes_eq c
  have hflat : utf8Bytes cells = ((cells.map (·.getD "")).map utf8).flatten :=
    congrArg List.flatten hrows
  rw [hflat] at hlen
  let offs : Vector Int64 ((cells.map (·.getD "")).length + 1) :=
    ⟨(offsets (cells.map cellBytes)).toArray, by simp⟩
  let valid : Vector UInt8 (cells.map (·.getD "")).length :=
    ⟨(cells.map validByte).toArray, by simp⟩
  refine ⟨offs, valid, rfl, rfl, ?_⟩
  intro schema name nm f hname hf hty
  have hoffs : offs.toList = offsets ((cells.map (·.getD "")).map utf8) := hrows ▸ rfl
  have h := offer_packed (A := A) (some valid) hoffs hname hf hty hlen []
  rwa [collect_validBytes valid rfl, List.append_nil, ← hflat] at h

/-- However the builder goes on without storing another column under the name, it builds a
batch once its required columns are held without nulls, and the batch reads back as the texts. -/
def ReadsBack (A : Arrow) (schema : ArrowSchema) (name : String) (b : BuilderHandle)
    (texts : List String) : Prop :=
  ∀ later b', Trace (BuilderStep A) b later b' →
    (∀ c ∈ later, c.column A schema (uptoNul name) = none) →
    ((∀ g ∈ schema.fields, g.nullable = false →
        ∃ c, b'.columns.lookup g.name = some c ∧ c.nullCount = 0) →
      ∃ batch, build A b' = .ok batch) ∧
    ∀ batch, build A b' = .ok batch → strCol A batch name = .ok texts

/-- Passing the buffers to `ib_batch_builder_str` for any string column stores the cells. -/
def Rebuilds (A : Arrow) {n : ℕ} (offs : Vector Int64 (n + 1)) (bytes : List UInt8)
    (valid : Vector UInt8 n) (cells : List (Option String)) : Prop :=
  ∀ (b : BuilderHandle) (name : CString) (nm : String) (f : Field),
    cstr name "ib_batch_builder_str" = .ok nm → b.schema.find nm = some f →
    f.dataType = .utf8 → (∀ rows ∈ b.rows, rows = n) →
    ibBatchBuilderStr A b name (some offs) (some bytes) (some valid) =
      .ok (.done (b.store nm (.texts cells)) 0)

theorem readsBack_of_offer {schema : ArrowSchema} {calls : List BuilderCall} {s : Supply}
    {b' : BuilderHandle}
    (run : Trace (BuilderStep A) ⟨schema, ∅, none⟩ (calls ++ [.supply s 0]) b')
    (hn : (schema.fields.map Field.name).Nodup) {name : String} {cells : List (Option String)}
    (hs : s.offer A schema = some (uptoNul name, .texts cells))
    (hlen : (utf8Bytes cells).length < 2 ^ 31) :
    ReadsBack A schema name b' (cells.map (·.getD "")) := by
  intro later b'' run' hlater
  have h := holds_of_trace ⟨rfl, rfl⟩ (run.append run')
  constructor
  · intro hreq
    have hsome := (build_isSome_iff h hn).mpr ⟨⟨s, by simp⟩, hreq⟩
    obtain ⟨batch, hb⟩ := Option.isSome_iff_exists.mp hsome
    exact ⟨batch, build_eq_ok.mpr hb⟩
  · intro batch hb
    exact strCol_of_builderStrCol h hn hs hlater hlen hb

/-- Texts survive `str_col`, `build` and `str_col`, and the buffers that `ib_batch_get_str`
fills rebuild the cells they were filled from. A column that is text already is read without
a cast, so its cells are its own. -/
theorem string_columns_survive (A : Arrow) :
    (∀ (toArrow : SchemaToArrow) (t : TableHandle) (b₀ b : BuilderHandle)
        (calls : List BuilderCall) (name : String) (f : Field) (values : List String)
        (valid : Option (List Bool)),
      toArrow.Lawful → (ibBatchBuilderNew toArrow t).ret = some b₀ →
      Trace (BuilderStep A) b₀ calls b →
      b₀.schema.find (uptoNul name) = some f → f.dataType = .utf8 →
      (∀ m ∈ valid, m.length = values.length) → (values.flatMap utf8).length < 2 ^ 31 →
      (∀ rows ∈ b.rows, rows = values.length) →
      ∃ s b', BuilderStep A b (.supply s 0) b' ∧
        b' = b.store (uptoNul name) (.texts (maskedCells values valid)) ∧
        builderStrCol A b name values valid = .ok b' ∧
        ReadsBack A b₀.schema name b' (maskedTexts values valid)) ∧
    ∀ (batch : RecordBatch) (name : CString) (nm : String) (col : ArrayRef)
        (cells : List (Option String)),
      (∀ what, cstr name what = .ok nm) → batch.columnByName nm = some col →
      A.castTo col .utf8 = .ok cells → (utf8Bytes cells).length < 2 ^ 31 →
      ∀ (offs : List Int64) (bytes valid : List UInt8), offs.length = batch.numRows + 1 →
        (bytes.length : ℤ) = (ibBatchUtf8Size A batch name).ret → valid.length = batch.numRows →
        ∃ (offs' : Vector Int64 (batch.numRows + 1)) (bytes' : List UInt8)
            (valid' : Vector UInt8 batch.numRows),
          ibBatchGetStr A batch name ⟨some offs, some bytes, some valid⟩ bytes.length
              batch.numRows =
            .done ⟨some offs'.toList, some bytes', some valid'.toList⟩ batch.numRows ∧
          Rebuilds A offs' bytes' valid' cells := by
  constructor
  · intro toArrow t b₀ b calls name f values valid hto hnew run hf hty hmask hlen hrows
    obtain ⟨schema, hschema, rfl⟩ := ibBatchBuilderNew_eq_some hnew
    have hsame := (holds_of_trace ⟨rfl, rfl⟩ run).same
    obtain ⟨s, hs, hcall⟩ := builderStrCol_eq (A := A) (b := b) (by rwa [hsame]) hty hmask hlen
    have hrun := Supply.run_of_offer hs fun rows hr =>
      (hrows rows hr).trans (maskedCells_length hmask).symm
    have step := BuilderStep.supply hrun
    refine ⟨s, _, step, rfl, by rw [hcall, hrun]; rfl, ?_⟩
    rw [hsame] at hs
    rw [← maskedCells_getD]
    exact readsBack_of_offer (run.snoc step) (hto.names_nodup hschema) hs
      ((utf8Bytes_maskedCells_le hmask).trans_lt hlen)
  · intro batch name nm col cells hname hcol hcast hlen offs bytes valid hoffs hbytes hvalid
    have hrows : cells.length = batch.numRows :=
      (Arrow.castTo_length hcast).trans (RecordBatch.columnByName_len hcol)
    have htake : cells.take batch.numRows = cells := List.take_of_length_le (Nat.le_of_eq hrows)
    rw [ibBatchUtf8Size_eq (hname _) hcol hcast, Reply.done_ret, Int.natCast_inj] at hbytes
    obtain ⟨offs', valid', hoffs', hvalid', hoffer⟩ := offer_filled (A := A) hrows hlen
    have hroom : (utf8Bytes (cells.take batch.numRows)).length ≤ bytes.length := by
      rw [htake, hbytes]
    have hget := ibBatchGetStr_eq (hname _) hcol hcast hroom offs bytes (some valid)
    rw [htake, overwrite_all (by simp [hoffs, hrows]), overwrite_all hbytes, writeValidity,
      Option.map_some, overwrite_all (by simp [hvalid, hrows]), ← hoffs', ← hvalid', hrows] at hget
    refine ⟨offs', _, valid', hget, ?_⟩
    intro b name' nm' f hname' hf hty hfit
    exact Supply.run_of_offer (hoffer b.schema name' nm' f hname' hf hty)
      fun rows hr => (hfit rows hr).trans hrows.symm

/-- Two texts beyond ASCII and one masked row, with `id` supplied afterwards. -/
theorem string_columns_survive_orders : ∃ (b' b'' : BuilderHandle) (batch : RecordBatch),
    builderStrCol .basic ⟨SchemaToArrow.fieldwise .orders, ∅, none⟩ "region"
      ["é", "x", "😀"] (some [true, false, true]) = .ok b' ∧
    (Supply.int (cName "id") (some #v[1, 2, 3]) none).run .basic b' = .ok (.done b'' 0) ∧
    build .basic b'' = .ok batch ∧
    strCol .basic batch "region" = .ok ["é", "", "😀"] := by
  have hname : uptoNul "region" = "region" := uptoNul_eq (by decide)
  obtain ⟨s, b', -, rfl, hcall, hlater⟩ := (string_columns_survive .basic).1 .direct ⟨.orders, []⟩
    ⟨SchemaToArrow.fieldwise .orders, ∅, none⟩ _ [] "region" ⟨"region", .utf8, true, some 2⟩
    ["é", "x", "😀"] (some [true, false, true]) SchemaToArrow.direct_lawful rfl .nil
    (by rw [hname]; rfl) rfl (by simp) (by decide) (by simp)
  rw [hname] at hcall hlater
  have hoffer : (Supply.int (cName "id") (some #v[1, 2, 3]) none).offer .basic
      (SchemaToArrow.fieldwise .orders) =
        some ("id", ⟨.int64, [some (1 : Int64), some (2 : Int64), some (3 : Int64)]⟩) :=
    Supply.offer_eq_some.mpr ⟨cstr_cName (by decide) _, _, _, _, rfl, rfl, rfl, rfl⟩
  have hrun := Supply.run_of_offer
    (b := BuilderHandle.store ⟨SchemaToArrow.fieldwise .orders, ∅, none⟩ "region"
      (.texts [some "é", none, some "😀"])) hoffer fun rows hr => (Option.some.inj hr).symm
  have hreq : ∀ f ∈ (SchemaToArrow.fieldwise .orders).fields, f.nullable = false →
      f.name = "id" := by decide
  obtain ⟨hbuild, hread⟩ := hlater _ _ (Trace.nil.snoc (.supply hrun))
    (by simp [BuilderCall.column, hoffer, hname])
  obtain ⟨batch, hb⟩ := hbuild fun g hg hnull => ⟨_, by
    rw [hreq g hg hnull]
    exact AList.lookup_insert _, rfl⟩
  exact ⟨_, _, batch, hcall, hrun, hb, hread batch hb⟩

end IcebergRs
