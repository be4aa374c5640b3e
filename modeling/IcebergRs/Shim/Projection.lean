import IcebergRs.Shim.Scan
import IcebergRs.Support.Separated

/-! The projection text of a scan. It names the columns between its commas; what is left to
decide is when it names none. -/
namespace IcebergRs

/-- The scan is built of the columns, in that order, and of all columns for none. -/
def Selects (p : CString) (columns : Option (List String)) : Prop :=
  ∀ (Scan : Type) (api : DatumApi) (ops : PredicateOps) (parseJson : String → Except String Json)
      (build : Table → ScanRequest → Except String Scan) (h : TableHandle) (snapshotId : ℤ)
      (filterJson : CString),
    ibScanNew api ops parseJson build h p snapshotId filterJson =
      ibScanNew api ops parseJson (fun t r => build t { r with columns := columns }) h none
        snapshotId filterJson

/-- The text is the column names joined with commas, with whitespace around them and with blank
segments anywhere. -/
def Spells (names : List String) (text : String) : Prop :=
  Separated.Spells isWhitespace ',' (names.map String.toList) text.toList

/-- The text is whitespace and commas. -/
def NamesNone (text : String) : Prop := ∀ c ∈ text.toList, isWhitespace c ∨ c = ','

instance (text : String) : Decidable (NamesNone text) := List.decidableBAll _ text.toList

/-- The names that a text spells are selected, and all columns where it names none. -/
structure ParsedExactly (p : CString) (text : Option String) : Prop where
  named : ∀ names s, names ≠ [] → text = some s → Spells names s → Selects p (some names)
  all : (∀ s ∈ text, NamesNone s) → Selects p none

theorem comma_not_whitespace : ¬ isWhitespace ',' := by decide

theorem trim_toList (s : String) : (trim s).toList = Separated.strip isWhitespace s.toList :=
  String.toList_ofList

theorem trim_eq_empty_iff {s : String} : trim s = "" ↔ Separated.Blank isWhitespace s.toList := by
  rw [← Separated.strip_eq_nil_iff, ← trim_toList, String.toList_eq_nil_iff]

theorem trimmed_segments (s : String) : ((split ',' s).map trim).filter (· ≠ "") =
    (Separated.segments isWhitespace ',' s.toList).map String.ofList := by
  have htrim : trim ∘ String.ofList = String.ofList ∘ Separated.strip isWhitespace := by
    funext cs
    simp [trim, Separated.strip]
  have hblank : (fun s : String => decide (s ≠ "")) ∘ String.ofList = (decide <| · ≠ []) := by
    funext cs
    simp
  rw [split, List.map_map, htrim, ← List.map_map, List.filter_map, hblank]
  rfl

/-- The columns are the segments of the text, unless it is blank. -/
theorem projection_some (s : String) : projection (some s) = if trim s = "" then none
    else some ((Separated.segments isWhitespace ',' s.toList).map String.ofList) := by
  rw [← Separated.segments_strip comma_not_whitespace, ← trim_toList, ← trimmed_segments]
  by_cases h : trim s = "" <;> simp [projection, Option.filter, h]

theorem Spells.segments_eq {names : List String} {s : String} (h : Spells names s) :
    (Separated.segments isWhitespace ',' s.toList).map String.ofList = names := by
  rw [Separated.Spells.segments_eq comma_not_whitespace h, List.map_map]
  simp [Function.comp_def]

theorem Spells.projection_eq {names : List String} {s : String} (h : Spells names s)
    (hne : names ≠ []) : projection (some s) = some names := by
  have hblank : trim s ≠ "" := fun hs => by
    have hsegs := h.segments_eq
    rw [← Separated.segments_strip comma_not_whitespace, ← trim_toList, hs] at hsegs
    exact hne hsegs.symm
  rw [projection_some, if_neg hblank, h.segments_eq]

/-- A text that names no column asks for no column, except where it is blank. -/
theorem NamesNone.projection_eq {s : String} (h : NamesNone s) :
    projection (some s) = if ',' ∈ s.toList then some [] else none := by
  have hblank : trim s = "" ↔ ',' ∉ s.toList := by
    rw [trim_eq_empty_iff]
    constructor
    · exact fun hs => hs.sep_not_mem comma_not_whitespace
    · exact fun hs c hc => (h c hc).resolve_right fun hcomma => hs (hcomma ▸ hc)
  rw [projection_some, Separated.segments_eq_nil h]
  by_cases hs : ',' ∈ s.toList
  · rw [if_neg (by simpa [hblank] using hs), if_pos hs]
    rfl
  · rw [if_pos (hblank.mpr hs), if_neg hs]

section
variable {p : CString} {text : Option String}

theorem selects_projection (h : cstrOpt p "ib_scan_new: columns_csv" = .ok text) :
    Selects p (projection text) := by
  intro Scan api ops parseJson build th snapshotId filterJson
  have hrequest : scanRequest api ops parseJson th p snapshotId filterJson =
      (scanRequest api ops parseJson th none snapshotId filterJson >>= fun r =>
        pure { r with columns := projection text }) := by
    have hnull : cstrOpt none "ib_scan_new: columns_csv" = .ok none := rfl
    simp only [scanRequest, h, hnull, Outcome.ofExcept, Outcome.ok_bind]
    cases cstrOpt filterJson "ib_scan_new: filter_json" with
    | error m => rfl
    | ok f =>
      simp only [Outcome.ok_bind]
      split
      · cases Filter.parseFilter api ops th.table.currentSchema parseJson _ <;> rfl
      · rfl
  simp only [ibScanNew, hrequest]
  cases scanRequest api ops parseJson th none snapshotId filterJson <;> rfl

/-- A text selects only one list of columns. -/
theorem Selects.unique {columns columns' : Option (List String)} (h : Selects p columns)
    (h' : Selects p columns') : columns = columns' := by
  -- a builder whose scans are their columns
  let build : Table → ScanRequest → Except String (Option (List String)) :=
    fun _ r => .ok r.columns
  have hscan := (h _ .basic .simplifying (fun _ => .ok .null) build ⟨.orders, []⟩ 0 none).symm.trans
    (h' _ .basic .simplifying (fun _ => .ok .null) build ⟨.orders, []⟩ 0 none)
  have hret := congrArg Reply.ret (Outcome.ok.inj hscan)
  exact congrArg ScanHandle.scan (Option.some.inj hret)

/-- The projection is parsed as its text says except where that is whitespace and at least one
comma, which selects no column at all. -/
theorem projection_exact_iff (h : cstrOpt p "ib_scan_new: columns_csv" = .ok text) :
    ParsedExactly p text ↔ ¬ ∃ s ∈ text, NamesNone s ∧ ',' ∈ s.toList := by
  have hsel := selects_projection h
  constructor
  · rintro hexact ⟨s, rfl, hnone, hcomma⟩
    have hall := hexact.all fun s' hs' => Option.some.inj hs' ▸ hnone
    have heq := hsel.unique hall
    rw [hnone.projection_eq, if_pos hcomma] at heq
    cases heq
  · intro hcond
    constructor
    · rintro names s hne rfl hs
      exact hs.projection_eq hne ▸ hsel
    · intro hnone
      cases text with
      | none => exact hsel
      | some s =>
        have hs : NamesNone s := hnone s rfl
        have hcomma : ',' ∉ s.toList := fun hc => hcond ⟨s, rfl, hs, hc⟩
        rw [hs.projection_eq, if_neg hcomma] at hsel
        exact hsel

end

/-- Names with whitespace around them and a blank segment. -/
theorem projection_exact_iff_two :
    ParsedExactly (cName "id , ,\tregion") (some "id , ,\tregion") ↔
      ¬ ∃ s ∈ some "id , ,\tregion", NamesNone s ∧ ',' ∈ s.toList :=
  projection_exact_iff (cstrOpt_cName_eq _ _)

/-- A lone comma selects no column. -/
theorem comma_selects_none :
    NamesNone "," ∧ Selects (cName ",") (some []) ∧ ¬ Selects (cName ",") none := by
  have hnone : NamesNone "," := by decide
  have hsel : Selects (cName ",") (some []) := by
    have h := selects_projection (cstrOpt_cName_eq "," "ib_scan_new: columns_csv")
    rwa [uptoNul_eq (by decide), hnone.projection_eq, if_pos (by decide)] at h
  exact ⟨hnone, hsel, fun hall => Option.some_ne_none _ (hsel.unique hall)⟩

end IcebergRs
