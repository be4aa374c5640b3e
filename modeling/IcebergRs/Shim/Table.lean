import IcebergRs.Iceberg.Table
import IcebergRs.Shim.Lib

/-! The table handle of `table.rs`: the table as it was last loaded, and the data files
that were written through the handle but are not committed. -/
namespace IcebergRs

structure TableHandle where
  table : Table
  /-- Data files written by `ib_table_append*` and waiting for `ib_table_commit`. -/
  pending : List DataFile

/-- `load` is the catalog's answer for the identifier. -/
def ibTableRefresh (load : TableIdent → Except String Table) (h : TableHandle) :
    Reply TableHandle ℤ :=
  match load h.table.identifier with
  | .ok t => .done { h with table := t } 0
  | .error e => .fail h (-1) s!"ib_table_refresh: {e}"

@[simp] theorem ibTableRefresh_pending (load : TableIdent → Except String Table) (h : TableHandle) :
    (ibTableRefresh load h).state.pending = h.pending := by
  unfold ibTableRefresh
  split <;> rfl

def tableArrowSchema (toArrow : SchemaToArrow) (t : Table) : Except String ArrowSchema :=
  match toArrow t.currentSchema with
  | .ok s => .ok s
  | .error e => .error s!"converting the table schema to Arrow: {e}"

theorem tableArrowSchema_eq_ok {toArrow : SchemaToArrow} {t : Table} {s : ArrowSchema} :
    tableArrowSchema toArrow t = .ok s ↔ toArrow t.currentSchema = .ok s := by
  unfold tableArrowSchema
  cases toArrow t.currentSchema <;> simp

end IcebergRs
