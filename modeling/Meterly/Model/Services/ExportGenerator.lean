import Meterly.Model.Services.UsageExport
import Meterly.Text.Rfc4180

/-! # The body of an export as its server pulls it

`stream_export_csv` is a generator: it runs when a chunk is asked for, stands at a `yield` until the
next one is, and ends when its rows are used up, when their source raises, or when it is closed. Its
buffer holds text and its chunks are bytes.
-/

namespace Meterly

/-- The arguments of `stream_export_csv`, and what `stream_usage_rollups` and its transaction do: the
records that are handed out and whether something is raised behind them, as when the statement, the
transaction or the task that waits for a row fails. -/
structure ExportCall where
  apiKeyId : ℕ
  params : UsageExportQueryParams
  records : List UsageRollupExportRecord
  raises : Bool
deriving DecidableEq, Repr

/-- The `usage.export` line. -/
structure UsageExportLine where
  userId : ℕ
  action : String
  resource : String
  rowCount : ℕ
  capped : Bool
  completed : Bool
  filteredByCustomer : Bool
  filteredByMetric : Bool
  boundedFrom : Bool
  boundedTo : Bool
deriving DecidableEq, Repr

/-- `str.encode("utf-8")` -/
def encodeUtf8 (text : List Char) : ByteArray := (String.ofList text).toUTF8

/-- What `csv.writer` writes for some rows. -/
def rowsText (rows : List (List String)) : List Char := Rfc4180.write (rows.map (List.map String.toList))

/-- The chunk that holds some rows. -/
def rowsBytes (rows : List (List String)) : ByteArray := encodeUtf8 (rowsText rows)

/-- Where `stream_export_csv` stands: before its first line, at the `yield` of the header, of a full
batch with the records behind it, or of the trailing batch, or behind its end. -/
inductive ExportPlace where
  | unstarted
  | header
  | batch (remaining : List UsageRollupExportRecord)
  | trailing
  | finished
deriving DecidableEq, Repr

/-- The locals of `stream_export_csv`, where it stands, and what it has handed out and logged. -/
structure ExportGenerator where
  rowCount : ℕ
  capped : Bool
  completed : Bool
  buffer : StringIO
  place : ExportPlace
  yielded : List ByteArray
  logged : List UsageExportLine

namespace ExportGenerator

/-- The generator that `stream_export_csv(...)` returns; no line of it has run. -/
def created : ExportGenerator := ⟨0, false, false, ⟨[], 0⟩, .unstarted, [], []⟩

/-- `writer.writerow` -/
def writerow (generator : ExportGenerator) (cells : List String) : ExportGenerator :=
  { generator with buffer := generator.buffer.write (rowsText [cells]) }

/-- `yield _drain(buffer)` -/
def yieldDrained (generator : ExportGenerator) (place : ExportPlace) : ExportGenerator :=
  { generator with
    yielded := generator.yielded ++ [encodeUtf8 generator.buffer.getvalue]
    buffer := (generator.buffer.seek 0).truncate 0
    place }

/-- The `finally` block, by which the generator ends. -/
def finish (call : ExportCall) (generator : ExportGenerator) : ExportGenerator :=
  { generator with
    place := .finished
    logged := generator.logged ++ [⟨call.apiKeyId, "read", "usage_rollup", generator.rowCount, generator.capped,
      generator.completed, call.params.customerId.isSome, call.params.metric.isSome, call.params.windowFrom.isSome,
      call.params.windowTo.isSome⟩] }

/-- The end of the `try` block. -/
def complete (call : ExportCall) (generator : ExportGenerator) : ExportGenerator :=
  { generator with capped := maxExportRows ≤ generator.rowCount, completed := true }.finish call

/-- Behind the last record: the source raises, or the trailing batch is handed out if there is one. -/
def exhaust (call : ExportCall) (generator : ExportGenerator) : ExportGenerator :=
  if call.raises then generator.finish call
  else if generator.buffer.tell ≠ 0 then generator.yieldDrained .trailing
  else generator.complete call

/-- The loop over the records that remain, up to the next `yield`. -/
def writeRows (call : ExportCall) : List UsageRollupExportRecord → ExportGenerator → ExportGenerator
  | [], generator => generator.exhaust call
  | record :: remaining, generator =>
    let written := generator.writerow (exportCells record)
    let counted := { written with rowCount := written.rowCount + 1 }
    if counted.rowCount % rowsPerChunk = 0 then counted.yieldDrained (.batch remaining)
    else writeRows call remaining counted

/-- Run to the next `yield` or to the end. -/
def next (call : ExportCall) (generator : ExportGenerator) : ExportGenerator :=
  match generator.place with
  | .unstarted => (generator.writerow exportHeader).yieldDrained .header
  | .header => writeRows call call.records generator
  | .batch remaining => writeRows call remaining generator
  | .trailing => generator.complete call
  | .finished => generator

/-- `aclose`, as when the client is gone: what is behind the `yield` is not run, except for `finally`. -/
def close (call : ExportCall) (generator : ExportGenerator) : ExportGenerator :=
  match generator.place with
  | .unstarted => { generator with place := .finished }
  | .finished => generator
  | _ => generator.finish call

end ExportGenerator

/-- What the server does with the generator. -/
inductive ExportPull where
  | next
  | close
deriving DecidableEq, Repr

namespace ExportCall

variable (call : ExportCall)

def pull (generator : ExportGenerator) : ExportPull → ExportGenerator
  | .next => generator.next call
  | .close => generator.close call

/-- The generator after some pulls. -/
def pulled (pulls : List ExportPull) : ExportGenerator := pulls.foldl call.pull .created

end ExportCall

end Meterly
