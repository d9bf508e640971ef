import Meterly.Model.Repositories

/-! # `prepare_export` and `stream_export_csv`

The export is two transactions: one counts the matching rows and may refuse the request, the other
streams them after the response has begun. The body is kept as the chunks handed to the server,
each a list of rows of cells; `csv.writer` renders a row.
-/

namespace Meterly

/-- `MAX_EXPORT_ROWS` -/
def maxExportRows : ℕ := 100000

/-- `_ROWS_PER_CHUNK` -/
def rowsPerChunk : ℕ := 1000

/-- `EXPORT_HEADER` -/
def exportHeader : List String := ["customer_id", "metric", "window_start", "total_quantity"]

/-- `_FORMULA_TRIGGER_CHARS` -/
def formulaTriggerChars : List Char := ['=', '+', '-', '@', '\t', '\r']

/-- `_SAFE_WHITESPACE` -/
def safeWhitespace : List Char := ['\t', '\r', '\n']

/-- Whether `_CONTROL_STRIP_TABLE` keeps a character. -/
def keptByStripTable (c : Char) : Bool := ¬ (c.toNat < 0x20 ∧ c ∉ safeWhitespace ∨ c.toNat = 0x7F)

/-- `escape_csv_text_cell` -/
def escapeCsvTextCell (value : String) : String :=
  let cleaned := value.toList.filter keptByStripTable
  match cleaned with
  | [] => ""
  | first :: _ =>
    if first ∈ formulaTriggerChars then String.ofList ('\'' :: cleaned) else String.ofList cleaned

/-- The cells of one exported record, with `format_window_start` and `format_total_quantity`. -/
def exportCells (record : UsageRollupExportRecord) : List String :=
  [escapeCsvTextCell record.customerId, escapeCsvTextCell record.metric, isoformatUtc record.windowStart,
    record.totalQuantity.str]

/-- The 422 of `prepare_export`. -/
def exportTooLarge : ServiceError :=
  .http ⟨422, none, "result exceeds " ++ toString maxExportRows ++
    " rows; narrow with customer_id, metric, from, and/or to", []⟩

/-- The locals of `stream_export_csv` while it writes rows, with the chunks yielded so far. -/
structure ExportStream where
  rowCount : ℕ
  buffer : List (List String)
  chunks : List (List (List String))
deriving DecidableEq, Repr

namespace ExportStream

/-- `yield _drain(buffer)` -/
def drain (stream : ExportStream) : ExportStream :=
  { stream with buffer := [], chunks := stream.chunks ++ [stream.buffer] }

/-- `writer.writerow` -/
def writeRow (stream : ExportStream) (cells : List String) : ExportStream :=
  { stream with buffer := stream.buffer ++ [cells] }

/-- The state in which the rows are first asked for: the header has gone out as its own chunk. -/
def opened : ExportStream := ((⟨0, [], []⟩ : ExportStream).writeRow exportHeader).drain

/-- The loop body: write one record, and hand out a chunk after every `_ROWS_PER_CHUNK` of them. -/
def writeRecord (stream : ExportStream) (record : UsageRollupExportRecord) : ExportStream :=
  let stream := stream.writeRow (exportCells record)
  let stream := { stream with rowCount := stream.rowCount + 1 }
  if stream.rowCount % rowsPerChunk = 0 then stream.drain else stream

/-- The trailing partial batch. -/
def flush (stream : ExportStream) : ExportStream := if stream.buffer = [] then stream else stream.drain

end ExportStream

/-- A body that was streamed to its end, with the fields of its `usage.export` line. -/
structure ExportBody where
  chunks : List (List (List String))
  rowCount : ℕ
  capped : Bool
  completed : Bool
deriving DecidableEq, Repr

/-- `stream_export_csv` on the records its statement returned. -/
def streamExportCsv (records : List UsageRollupExportRecord) : ExportBody :=
  let stream := (records.foldl ExportStream.writeRecord ExportStream.opened).flush
  ⟨stream.chunks, stream.rowCount, maxExportRows ≤ stream.rowCount, true⟩

namespace ExportUsage

inductive Phase where
  | received
  | begun
  | counted (rowCount : ℕ)
  | prepared
  | headerSent
  | streamBegun
  | streaming (records : List UsageRollupExportRecord)
  | answered (outcome : Except ServiceError ExportBody)

/-- One step of `prepare_export` and then of `stream_export_csv`. -/
def advance (txn : CallId) (params : UsageExportQueryParams) : Phase → Database → Option (Phase × Database)
  | .received, db => some (.begun, db)
  | .begun, db => some (.counted (db.countUsageRollups txn.apiKeyId params), db)
  | .counted rowCount, db =>
    if maxExportRows < rowCount then some (.answered (.error exportTooLarge), db.commit txn)
    else some (.prepared, db.commit txn)
  | .prepared, db => some (.headerSent, db)
  | .headerSent, db => some (.streamBegun, db)
  | .streamBegun, db => some (.streaming (db.streamUsageRollups txn.apiKeyId params maxExportRows), db)
  | .streaming records, db => some (.answered (.ok (streamExportCsv records)), db.commit txn)
  | .answered _, _ => none

/-- Everything that one step of an export can do. -/
inductive Advanced (txn : CallId) (params : UsageExportQueryParams) (db : Database) : Phase → Phase → Database → Prop
  | opens : Advanced txn params db .received .begun db
  | counts : Advanced txn params db .begun (.counted (db.countUsageRollups txn.apiKeyId params)) db
  | refuses {rowCount : ℕ} (large : maxExportRows < rowCount) :
      Advanced txn params db (.counted rowCount) (.answered (.error exportTooLarge)) (db.commit txn)
  | prepares {rowCount : ℕ} (small : rowCount ≤ maxExportRows) :
      Advanced txn params db (.counted rowCount) .prepared (db.commit txn)
  | sendsHeader : Advanced txn params db .prepared .headerSent db
  | opensStream : Advanced txn params db .headerSent .streamBegun db
  | streams :
      Advanced txn params db .streamBegun (.streaming (db.streamUsageRollups txn.apiKeyId params maxExportRows)) db
  | completes {records : List UsageRollupExportRecord} :
      Advanced txn params db (.streaming records) (.answered (.ok (streamExportCsv records))) (db.commit txn)

theorem advanced_of_advance {txn : CallId} {params : UsageExportQueryParams} {phase after : Phase}
    {db next : Database} (moves : advance txn params phase db = some (after, next)) :
    Advanced txn params db phase after next := by
  cases phase with
  | received =>
    obtain ⟨rfl, rfl⟩ := moves
    exact .opens
  | begun =>
    obtain ⟨rfl, rfl⟩ := moves
    exact .counts
  | counted rowCount =>
    simp only [advance] at moves
    split_ifs at moves with large
    · obtain ⟨rfl, rfl⟩ := moves
      exact .refuses large
    · obtain ⟨rfl, rfl⟩ := moves
      exact .prepares (not_lt.mp large)
  | prepared =>
    obtain ⟨rfl, rfl⟩ := moves
    exact .sendsHeader
  | headerSent =>
    obtain ⟨rfl, rfl⟩ := moves
    exact .opensStream
  | streamBegun =>
    obtain ⟨rfl, rfl⟩ := moves
    exact .streams
  | streaming records =>
    obtain ⟨rfl, rfl⟩ := moves
    exact .completes
  | answered outcome => contradiction

end ExportUsage

end Meterly
