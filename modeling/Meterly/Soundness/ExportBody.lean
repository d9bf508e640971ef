import Mathlib.Algebra.Order.Floor.Div
import Meterly.Num.PlainDecimal
import Meterly.Model.IsoFormat
import Meterly.Soundness.EscapedCells
import Meterly.Soundness.ExportChunks

/-! # What a client reads in an export

The chunks joined are the header and all rows written at once. Decoded and parsed they give back one
row of cells for each record. The timestamp and the total of a row determine the instant and the
decimal, and its text cells the identifiers, as far as these are identifiers that can be ingested.
-/

namespace Meterly

/-- The bytes a client receives. -/
def joined (chunks : List ByteArray) : ByteArray := chunks.foldr (· ++ ·) .empty

/-- The rows of cells in a body. -/
def readBody (body : ByteArray) : Option (List (List String)) :=
  (String.fromUTF8? body).bind fun text => (Rfc4180.read text.toList).map (List.map (List.map String.ofList))

theorem encodeUtf8_eq (text : List Char) : encodeUtf8 text = text.utf8Encode := String.toByteArray_ofList

theorem fromUTF8?_encodeUtf8 (text : List Char) : String.fromUTF8? (encodeUtf8 text) = some (String.ofList text) := by
  rw [String.fromUTF8?, encodeUtf8, String.toUTF8_eq_toByteArray, dif_pos (String.ofList text).isValidUTF8]
  rfl

theorem rowsBytes_append (first second : List (List String)) :
    rowsBytes (first ++ second) = rowsBytes first ++ rowsBytes second := by
  simp only [rowsBytes, encodeUtf8_eq, rowsText_append, List.utf8Encode_append]

theorem rowsBytes_eq_empty {rows : List (List String)} : rowsBytes rows = .empty ↔ rows = [] := by
  rw [rowsBytes, encodeUtf8_eq, List.utf8Encode_eq_empty, rowsText_eq_nil]

/-- No row is cut, so that joining chunks joins their rows. -/
theorem joined_map_rowsBytes (chunks : List (List (List String))) :
    joined (chunks.map rowsBytes) = rowsBytes chunks.flatten := by
  induction chunks with
  | nil => exact (rowsBytes_eq_empty.mpr rfl).symm
  | cons rows chunks ih =>
    rw [List.flatten_cons, rowsBytes_append, ← ih]
    rfl

theorem readBody_rowsBytes {rows : List (List String)} (cells : ∀ row ∈ rows, row ≠ []) :
    readBody (rowsBytes rows) = some rows := by
  have fields : ∀ record ∈ rows.map (List.map String.toList), record ≠ [] := by
    intro record member
    obtain ⟨row, present, rfl⟩ := List.mem_map.mp member
    exact fun empty => cells row present (List.map_eq_nil_iff.mp empty)
  rw [readBody, rowsBytes, fromUTF8?_encodeUtf8, Option.bind_some, String.toList_ofList, rowsText,
    Rfc4180.read_write fields, Option.map_some, List.map_map]
  refine congrArg some (List.map_id'' (fun row => ?_) rows)
  rw [Function.comp_apply, List.map_map]
  exact List.map_id'' (fun cell => String.ofList_toList) row

theorem exportCells_ne_nil {records : List UsageRollupExportRecord} :
    ∀ row ∈ exportHeader :: records.map exportCells, row ≠ [] := by
  intro row member
  rcases List.mem_cons.mp member with rfl | record
  · exact List.cons_ne_nil _ _
  · obtain ⟨record, -, rfl⟩ := List.mem_map.mp record
    exact List.cons_ne_nil _ _

/-- A total as the driver returns it from its `NUMERIC(38, 6)` column. -/
def IsNumeric (total : Decimal) : Prop := ∃ coefficient < 10 ^ 38, total = ⟨(coefficient : ℕ), -6⟩

/-- The window is a `datetime` and the total a non-negative number of its column. -/
structure UsageRollupExportRecord.Stored (record : UsageRollupExportRecord) : Prop where
  windowStart : IsDatetime record.windowStart
  totalQuantity : IsNumeric record.totalQuantity

namespace UsageRollupExportRecord

/-- The cells are the escaped identifiers, the timestamp of the window and the total as a plain decimal. -/
def IsWritten (record : UsageRollupExportRecord) (cells : List String) : Prop :=
  ∃ windowStart total,
    cells = [escapeCsvTextCell record.customerId, escapeCsvTextCell record.metric, windowStart, total] ∧
      readIsoformatUtc windowStart.toList = record.windowStart ∧
      Decimal.ofPlain total.toList = some record.totalQuantity

theorem Stored.isWritten {record : UsageRollupExportRecord} (stored : record.Stored) :
    record.IsWritten (exportCells record) := by
  obtain ⟨valid, coefficient, -, total⟩ := stored
  have plain := Decimal.ofPlain_str coefficient (show 1 ≤ 6 by decide) le_rfl
  exact ⟨_, _, rfl, readIsoformatUtc_isoformatUtc valid, total ▸ plain⟩

end UsageRollupExportRecord

/-- The record that a row of cells was written for. -/
def readRecord : List String → Option UsageRollupExportRecord
  | [customerId, metric, windowStart, total] =>
    (Decimal.ofPlain total.toList).map fun totalQuantity =>
      ⟨unescapeCsvTextCell customerId, unescapeCsvTextCell metric, readIsoformatUtc windowStart.toList, totalQuantity⟩
  | _ => none

theorem readRecord_of_isWritten {record : UsageRollupExportRecord} {cells : List String}
    (written : record.IsWritten cells) (customerId : IsCustomerId record.customerId) (metric : IsMetric record.metric) :
    readRecord cells = some record := by
  obtain ⟨windowStart, total, rfl, instant, plain⟩ := written
  rw [readRecord, plain, Option.map_some, unescape_escapeCsvTextCell customerId, unescape_escapeCsvTextCell metric,
    instant]

/-- The batches of records between the header and the end. -/
theorem ExportCall.chunks_records (call : ExportCall) : call.chunks =
    [exportHeader] :: (cursorBatches rowsPerChunk call.records).map (List.map exportCells) := by
  rw [ExportCall.chunks, ExportCall.rows, cursorBatches_map]

theorem ExportCall.flatten_chunks (call : ExportCall) : call.chunks.flatten = exportHeader :: call.rows := by
  rw [ExportCall.chunks, List.flatten_cons, flatten_cursorBatches rowsPerChunk_pos]
  rfl

/-- The chunks of an export whose rows are all delivered are the one-shot encoding cut between rows, and
the body decodes to its records. -/
theorem export_body_decodes {call : ExportCall} (delivers : call.raises = false)
    (stored : ∀ record ∈ call.records, record.Stored) :
    ∃ chunks : List ByteArray,
      (∀ count, (call.asked count).yielded = chunks.take count) ∧
      (∀ count, chunks.length < count → (call.asked count).place = .finished) ∧
      joined chunks = rowsBytes (exportHeader :: call.records.map exportCells) ∧
      (∃ batches : List (List UsageRollupExportRecord),
        chunks = rowsBytes [exportHeader] :: batches.map (fun batch => rowsBytes (batch.map exportCells)) ∧
        batches.flatten = call.records ∧ ∀ batch ∈ batches, batch.length ≤ rowsPerChunk) ∧
      .empty ∉ chunks ∧
      chunks.length = 1 + call.records.length ⌈/⌉ rowsPerChunk ∧
      ∃ rows, readBody (joined chunks) = some (exportHeader :: rows) ∧
        List.Forall₂ UsageRollupExportRecord.IsWritten call.records rows ∧
        ((∀ record ∈ call.records, IsCustomerId record.customerId ∧ IsMetric record.metric) →
          rows.map readRecord = call.records.map some) := by
  have all : ¬ call.raises := by rw [delivers]; exact Bool.false_ne_true
  have body : joined (call.chunks.map rowsBytes) = rowsBytes (exportHeader :: call.rows) := by
    rw [joined_map_rowsBytes, call.flatten_chunks]
  refine ⟨call.chunks.map rowsBytes, fun count => ?_, fun count behind => ?_, body, ?_, ?_, ?_, call.rows, ?_, ?_,
    fun allowed => ?_⟩
  · rw [ExportCall.yielded_asked all, List.map_take]
  · rw [List.length_map] at behind
    rw [ExportCall.asked_complete all behind]
    rfl
  · refine ⟨cursorBatches rowsPerChunk call.records, ?_, flatten_cursorBatches rowsPerChunk_pos _,
      fun batch fetched => length_le_of_mem_cursorBatches fetched⟩
    rw [call.chunks_records, List.map_cons, List.map_map]
    rfl
  · intro member
    obtain ⟨rows, chunk, empty⟩ := List.mem_map.mp member
    obtain rfl := rowsBytes_eq_empty.mp empty
    rw [ExportCall.chunks] at chunk
    rcases List.mem_cons.mp chunk with header | fetched
    · contradiction
    · exact ne_nil_of_mem_cursorBatches fetched rfl
  · rw [List.length_map, ExportCall.chunks, List.length_cons, length_cursorBatches, ExportCall.length_rows,
      Nat.ceilDiv_eq_add_pred_div, Nat.add_comm]
  · rw [body]
    exact readBody_rowsBytes exportCells_ne_nil
  · rw [ExportCall.rows, List.forall₂_map_right_iff, List.forall₂_same]
    exact fun record member => (stored record member).isWritten
  · rw [ExportCall.rows, List.map_map]
    apply List.map_congr_left
    intro record member
    exact readRecord_of_isWritten (stored record member).isWritten (allowed record member).1 (allowed record member).2

/-- A dash in front of an identifier and a millionth of a unit survive the export. -/
theorem export_body_decodes_dash :
    let call : ExportCall := ⟨7, ⟨none, none, none, none⟩, [⟨"-a:1", "m", 1700000000000001, ⟨1, -6⟩⟩], false⟩
    ∃ rows, readBody (joined (call.asked 3).yielded) = some (exportHeader :: rows) ∧
      rows.map readRecord = call.records.map some := by
  intro call
  have stored : ∀ record ∈ call.records, record.Stored := by
    intro record member
    obtain rfl := List.mem_singleton.mp member
    exact ⟨by decide +kernel, 1, by decide, rfl⟩
  obtain ⟨chunks, yields, -, -, -, -, count, rows, reads, -, recovers⟩ := @export_body_decodes call rfl stored
  have two : chunks.length ≤ 3 := by
    rw [count]
    decide
  rw [yields, List.take_of_length_le two]
  refine ⟨rows, reads, recovers fun record member => ?_⟩
  obtain rfl := List.mem_singleton.mp member
  decide

end Meterly
