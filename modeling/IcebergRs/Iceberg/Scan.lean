import IcebergRs.Arrow.Batch
import IcebergRs.Iceberg.Predicate
import IcebergRs.Support.Polled

/-! Scans of the `iceberg` crate: what a scan builder has been told, the stream of
record batches that a scan opens, and the files it plans to read. -/
namespace IcebergRs

/-- A `TableScanBuilder` before `build`. -/
structure ScanRequest where
  /-- The columns of `select`; none after `select_all`. -/
  columns : Option (List String)
  snapshotId : Option ℤ
  filter : Option Predicate

/-- `ArrowRecordBatchStream`, which yields record batches and read errors. -/
abbrev ArrowRecordBatchStream := Polled String RecordBatch

inductive DataContentType where
  | data
  | positionDeletes
  | equalityDeletes
  deriving DecidableEq, Repr

/-- The `Debug` text. -/
def DataContentType.debug : DataContentType → String
  | data => "Data"
  | positionDeletes => "PositionDeletes"
  | equalityDeletes => "EqualityDeletes"

structure FileScanTaskDeleteFile where
  filePath : String
  fileSizeInBytes : UInt64
  fileType : DataContentType
  partitionSpecId : Int32
  equalityIds : Option (List Int32)

/-- One file, or a part of it, that a scan reads. -/
structure FileScanTask where
  dataFilePath : String
  /-- The `Display` text of the file format. -/
  dataFileFormat : String
  recordCount : Option UInt64
  fileSizeInBytes : UInt64
  start : UInt64
  length : UInt64
  projectFieldIds : List Int32
  deletes : List FileScanTaskDeleteFile

end IcebergRs
