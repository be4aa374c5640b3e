import IcebergRs.Shim.Catalog
import IcebergRs.Support.Separated

/-! Namespaces as texts. The listing joins the levels of a namespace with dots and every other
entry point splits at them, so a listed name stands for its namespace unless a level has a dot
of its own. -/
namespace IcebergRs

namespace NamespaceIdent

/-- The name that `ib_list_namespaces` prints. -/
def listed (n : NamespaceIdent) : String := String.intercalate "." n.parts

/-- No level has a dot in its name. -/
def Undotted (n : NamespaceIdent) : Prop := ∀ level ∈ n.parts, '.' ∉ level.toList

instance (n : NamespaceIdent) : Decidable n.Undotted := List.decidableBAll _ n.parts

theorem listed_toList (n : NamespaceIdent) :
    n.listed.toList = ['.'].intercalate (n.parts.map String.toList) := by
  rw [listed, String.toList_intercalate]
  rfl

end NamespaceIdent

theorem nsIdent_eq_ok {s what : String} {n : NamespaceIdent} :
    nsIdent s what = .ok n ↔ split '.' s = n.parts := by
  obtain ⟨parts, hne⟩ := n
  have h : split '.' s ≠ [] := by simp [split, List.splitOn_ne_nil]
  rw [nsIdent, mapErr_eq_ok, NamespaceIdent.fromVec, dif_pos h]
  simp

/-- A listed name is read as its own namespace exactly when no level has a dot. -/
theorem nsIdent_listed_iff {n : NamespaceIdent} {what : String} :
    nsIdent n.listed what = .ok n ↔ n.Undotted := by
  rw [nsIdent_eq_ok, split, n.listed_toList]
  constructor
  · intro h level hlevel
    rw [← h] at hlevel
    obtain ⟨cs, hcs, rfl⟩ := List.mem_map.mp hlevel
    rw [String.toList_ofList]
    have hnodot := Separated.forall_mem_splitOn.mpr (fun c _ => ne_or_eq c '.') cs hcs
    exact fun hdot => hnodot '.' hdot rfl
  · intro h
    rw [List.splitOn_intercalate]
    · simp [Function.comp_def]
    · intro cs hcs
      obtain ⟨level, hlevel, rfl⟩ := List.mem_map.mp hcs
      exact h level hlevel
    · simpa using n.nonempty

/-- The listed name acts on the namespace, in every catalog. -/
structure Usable (n : NamespaceIdent) : Prop where
  dropNamespace : ∀ {Spec : Type} (cat : CatalogApi Spec),
    ibDropNamespace cat (cName n.listed) =
      .status () (mapErr "ib_drop_namespace" (cat.dropNamespace n))
  listTables : ∀ {Spec : Type} (fmt : Float → String) (cat : CatalogApi Spec),
    ibListTables fmt cat (cName n.listed) = .pointer () do
      let ts ← mapErr "ib_list_tables" (cat.listTables n)
      outString (namesJson fmt (ts.map TableIdent.name))
  tableLoad : ∀ {Spec : Type} (cat : CatalogApi Spec) (name : CString) (nm : String),
    cstr name "ib_table_load: name" = .ok nm →
    ibTableLoad cat (cName n.listed) name = .pointer () do
      let t ← mapErr "ib_table_load" (cat.loadTable ⟨n, nm⟩)
      pure ⟨t, []⟩
  tableDrop : ∀ {Spec : Type} (cat : CatalogApi Spec) (name : CString) (nm : String),
    cstr name "ib_table_drop: name" = .ok nm →
    ibTableDrop cat (cName n.listed) name =
      .status () (mapErr "ib_table_drop" (cat.dropTable ⟨n, nm⟩))

section
variable {n : NamespaceIdent} (hdot : n.Undotted) (hnul : NulFree n.listed)

include hnul in
theorem cstr_listed (what : String) : cstr (cName n.listed) what = .ok n.listed := by
  rw [cstr_cName_eq, uptoNul_eq_self_iff.mpr hnul]

include hdot hnul in
theorem tableIdent_listed (what : String) {name : CString} {nm : String}
    (hnm : cstr name s!"{what}: name" = .ok nm) :
    tableIdent (cName n.listed) name what = .ok ⟨n, nm⟩ := by
  have hident : nsIdent n.listed what = .ok n := nsIdent_listed_iff.mpr hdot
  simp only [tableIdent, cstr_listed hnul, hnm, except_ok_bind, hident]
  rfl

include hdot hnul in
theorem usable_of_undotted : Usable n := by
  have hident : ∀ what, nsIdent n.listed what = .ok n := fun what => nsIdent_listed_iff.mpr hdot
  constructor
  · intro Spec cat
    simp only [ibDropNamespace, cstr_listed hnul, except_ok_bind, hident]
  · intro Spec fmt cat
    simp only [ibListTables, cstr_listed hnul, except_ok_bind, hident]
  · intro Spec cat name nm hnm
    have hread := tableIdent_listed hdot hnul "ib_table_load" hnm
    simp only [ibTableLoad, hread, except_ok_bind]
  · intro Spec cat name nm hnm
    have hread := tableIdent_listed hdot hnul "ib_table_drop" hnm
    simp only [ibTableDrop, hread, except_ok_bind]

end

/-- A listing is the JSON of the names of what the catalog lists. -/
theorem ibListNamespaces_ret {Spec : Type} {fmt : Float → String} {cat : CatalogApi Spec}
    {parent : CString} {out : String} (h : (ibListNamespaces fmt cat parent).ret = some out) :
    ∃ ident ns, cat.listNamespaces ident = .ok ns ∧
      out = namesJson fmt (ns.map NamespaceIdent.listed) := by
  obtain ⟨text, -, h⟩ := except_bind_eq_ok.mp (Reply.pointer_ret.mp h)
  obtain ⟨ident, -, h⟩ := except_bind_eq_ok.mp h
  obtain ⟨ns, hns, h⟩ := except_bind_eq_ok.mp h
  exact ⟨ident, ns, mapErr_eq_ok.mp hns, (outString_eq_ok.mp h).2.symm⟩

/-- The names that the listing prints are read as the namespaces that were listed, as long as
no level has a dot: no two of these have the same name, and each name acts on its own. -/
theorem listed_namespaces_usable {n : NamespaceIdent} (h : n.Undotted) :
    (∀ {Spec : Type} (fmt : Float → String) (cat : CatalogApi Spec) (parent : CString)
        (out : String), (ibListNamespaces fmt cat parent).ret = some out →
      ∃ ident ns, cat.listNamespaces ident = .ok ns ∧
        out = namesJson fmt (ns.map NamespaceIdent.listed)) ∧
      (∀ what, nsIdent n.listed what = .ok n) ∧
      (∀ m : NamespaceIdent, m.Undotted → m.listed = n.listed → m = n) ∧
      (NulFree n.listed → Usable n) := by
  refine ⟨fun fmt cat parent out => ibListNamespaces_ret, fun what => nsIdent_listed_iff.mpr h,
    fun m hm heq => ?_, usable_of_undotted h⟩
  have hread : nsIdent m.listed "" = .ok m := nsIdent_listed_iff.mpr hm
  rw [heq, nsIdent_listed_iff.mpr h] at hread
  exact (Except.ok.inj hread).symm

theorem listed_namespaces_usable_two :
    (∀ {Spec : Type} (fmt : Float → String) (cat : CatalogApi Spec) (parent : CString)
        (out : String), (ibListNamespaces fmt cat parent).ret = some out →
      ∃ ident ns, cat.listNamespaces ident = .ok ns ∧
        out = namesJson fmt (ns.map NamespaceIdent.listed)) ∧
      (∀ what, nsIdent "db.raw" what = .ok ⟨["db", "raw"], by decide⟩) ∧
      (∀ m : NamespaceIdent, m.Undotted → m.listed = "db.raw" → m = ⟨["db", "raw"], by decide⟩) ∧
      (NulFree "db.raw" → Usable ⟨["db", "raw"], by decide⟩) :=
  listed_namespaces_usable (n := ⟨["db", "raw"], by decide⟩) (by decide)

/-- A namespace of one level with a dot is listed as the namespace of two levels, and its name
drops that one. -/
theorem dotted_level_listed_as_two :
    let one : NamespaceIdent := ⟨["a.b"], by decide⟩
    let two : NamespaceIdent := ⟨["a", "b"], by decide⟩
    one ≠ two ∧ one.listed = two.listed ∧ nsIdent one.listed "ib_drop_namespace" = .ok two ∧
      ∀ {Spec : Type} (cat : CatalogApi Spec), ibDropNamespace cat (cName one.listed) =
        .status () (mapErr "ib_drop_namespace" (cat.dropNamespace two)) := by
  intro one two
  have hlisted : one.listed = two.listed := by decide
  have htwo : two.Undotted := by decide
  refine ⟨by simp [one, two], hlisted, ?_, fun cat => ?_⟩
  · rw [hlisted, nsIdent_listed_iff]
    exact htwo
  · rw [hlisted]
    exact (usable_of_undotted htwo (by decide)).dropNamespace cat

end IcebergRs
