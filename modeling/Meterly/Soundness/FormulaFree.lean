import Meterly.Soundness.ExportAudit
import Meterly.Soundness.RollupLog

/-! # No cell of an export starts a formula

The text cells are escaped. The timestamp and the total are not: they start with a digit, the total
because what a bucket stores is a sum of positive quantities. Quoting a cell for the file does not undo
this, since a reader takes the quotes off again.
-/

namespace Meterly

variable {call : ExportCall} {record : UsageRollupExportRecord}

theorem not_startsWithTrigger_of_digit {text : List Char} (starts : ∃ c rest, text = c :: rest ∧ c.isDigit) :
    ¬ StartsWithTrigger (text.map codePoint) := by
  obtain ⟨c, rest, rfl, digit⟩ := starts
  intro trigger
  have listed := (List.mem_map_of_injective codePoint_injective).mp (startsWithTrigger_cons.mp trigger)
  have triggers : formulaTriggerChars.all fun c => ¬ c.isDigit := by decide
  exact of_decide_eq_true (List.all_eq_true.mp triggers c listed) digit

/-- A bucket stores the sum of positive quantities. -/
def StoresPositive (total : Decimal) : Prop := ∃ micros : ℕ, 0 < micros ∧ total = numericScale6 micros

theorem exportCells_formulaFree (positive : StoresPositive record.totalQuantity) :
    ∀ cell ∈ exportCells record, ¬ StartsWithTrigger (cell.toList.map codePoint) := by
  obtain ⟨micros, -, total⟩ := positive
  have escaped (value : String) : ¬ StartsWithTrigger ((escapeCsvTextCell value).toList.map codePoint) := by
    rw [escapeCsvTextCell_codePoints]
    exact not_startsWithTrigger_escape _
  have number : ¬ StartsWithTrigger (record.totalQuantity.str.toList.map codePoint) := by
    obtain ⟨whole, fraction, printed, digits, -, nonempty, -⟩ := Decimal.exists_str micros (show 1 ≤ 6 by decide) le_rfl
    obtain ⟨c, others, rfl⟩ := List.exists_cons_of_ne_nil nonempty
    rw [total]
    exact not_startsWithTrigger_of_digit ⟨c, _, printed, digits c List.mem_cons_self⟩
  intro cell member
  simp only [exportCells, List.mem_cons, List.not_mem_nil, or_false] at member
  rcases member with rfl | rfl | rfl | rfl
  · exact escaped _
  · exact escaped _
  · exact not_startsWithTrigger_of_digit (isoformatUtc_head _)
  · exact number

/-- Whatever was asked for, the body is some of the rows of the export, each of them whole. -/
theorem readBody_pulled (call : ExportCall) (pulls : List ExportPull) : ∃ rows,
    readBody (joined (call.pulled pulls).yielded) = some rows ∧ rows ⊆ exportHeader :: call.rows := by
  have closed (generator : ExportGenerator) : (generator.close call).yielded = generator.yielded := by
    cases place : generator.place <;> simp only [ExportGenerator.close, place] <;> rfl
  suffices asked : ∃ chunks : List (List (List String)), (call.asked (requested pulls)).yielded = chunks.map rowsBytes ∧
      chunks.flatten ⊆ exportHeader :: call.rows by
    obtain ⟨chunks, yielded, within⟩ := asked
    have same : (call.pulled pulls).yielded = chunks.map rowsBytes := by
      rcases @pulled_cases call pulls with same | same
      · rw [same, yielded]
      · rw [same, closed, yielded]
    refine ⟨chunks.flatten, ?_, within⟩
    rw [same, joined_map_rowsBytes]
    exact readBody_rowsBytes fun row member => exportCells_ne_nil row (within member)
  have upTo (count : ℕ) : (call.chunksTo count).flatten ⊆ exportHeader :: call.rows :=
    List.cons_subset_cons _ (flatten_batches_subset call count)
  have all : call.chunks.flatten ⊆ exportHeader :: call.rows := (call.flatten_chunks ▸ List.Subset.refl _)
  rcases Nat.eq_zero_or_pos (requested pulls) with none_ | positive
  · rw [none_]
    exact ⟨[], rfl, List.nil_subset _⟩
  · rcases asked_cases call positive with ⟨batches, -, -, same⟩ | ⟨-, -, same⟩ | ⟨-, same | same⟩ <;> rw [same]
    · exact ⟨_, rfl, upTo _⟩
    · exact ⟨_, rfl, upTo _⟩
    · exact ⟨_, rfl, all⟩
    · exact ⟨_, rfl, all⟩

/-- In a reachable state every bucket has a positive total. -/
theorem row_totalQuantity_pos {collation : Collation} {now : Instant} {nextEventId : ℕ}
    {events : Rows EventKey EventRow} {quotas : Rows QuotaKey QuotaRow} {schedule : List Action} {final : State}
    (reached : Machine.run step (.init (.atRest collation now nextEventId (.afterMigration events quotas)))
      schedule = some final) {bucket : RollupKey} {row : RollupRow} (found : final.db.usageRollup.find bucket = some row) :
    0 < row.totalQuantity := by
  have isLog := (RollupIsLog.of_run reached bucket).symm.trans found
  rw [lookup_backfill] at isLog
  split_ifs at isLog with none_
  obtain rfl := Option.some.inj isLog
  exact Nat.pos_of_ne_zero fun zero => none_ (totalMicros_eq_zero.mp zero)

/-- What is streamed from tables with positive totals has positive totals. -/
theorem storesPositive_of_streamed {db : Database} {apiKeyId limit : ℕ} {params : UsageExportQueryParams}
    (positive : ∀ bucket row, db.usageRollup.find bucket = some row → 0 < row.totalQuantity)
    (streamed : record ∈ db.streamUsageRollups apiKeyId params limit) : StoresPositive record.totalQuantity := by
  have listed := mem_orderBy.mp (List.mem_of_mem_take streamed)
  obtain ⟨⟨bucket, row⟩, selected, rfl⟩ := List.mem_map.mp listed
  have stored : db.usageRollup.find bucket = some row := AList.mem_lookup_iff.mpr (List.mem_of_mem_filter selected)
  exact ⟨_, positive bucket row stored, rfl⟩

/-- Escaping deletes the control characters, keeps the others in order and neutralises what is then in
front; doing it twice changes nothing. Stored totals are positive, and no cell of what is handed out of an
export starts with a trigger, whatever the stored identifiers are and wherever the export ends. -/
theorem escape_csv_text_cell_neutralises :
    (∀ value : List CodePoint,
      let kept := value.filter fun c => ¬ IsControl c
      ¬ StartsWithTrigger (escapeCodePoints value) ∧
      (∀ c ∈ escapeCodePoints value, ¬ IsControl c) ∧
      escapeCodePoints (escapeCodePoints value) = escapeCodePoints value ∧
      translate controlStripTable value = kept ∧
      escapeCodePoints value = if StartsWithTrigger kept then codePoint '\'' :: kept else kept) ∧
    (∀ value : String, (escapeCsvTextCell value).toList.map codePoint = escapeCodePoints (value.toList.map codePoint)) ∧
    ∀ (collation : Collation) (now : Instant) (nextEventId : ℕ) (events : Rows EventKey EventRow)
      (quotas : Rows QuotaKey QuotaRow) (schedule : List Action) (final : State),
      Machine.run step (.init (.atRest collation now nextEventId (.afterMigration events quotas))) schedule = some final →
      (∀ bucket row, final.db.usageRollup.find bucket = some row → 0 < row.totalQuantity) ∧
      ∀ (call : ExportCall) (pulls : List ExportPull),
        call.records ⊆ final.db.streamUsageRollups call.apiKeyId call.params maxExportRows →
        ∃ rows, readBody (joined (call.pulled pulls).yielded) = some rows ∧
          ∀ row ∈ rows, ∀ cell ∈ row, ¬ StartsWithTrigger (cell.toList.map codePoint) := by
  refine ⟨fun value => ?_, escapeCsvTextCell_codePoints, ?_⟩
  · have kept := translate_controlStripTable value
    refine ⟨not_startsWithTrigger_escape value, fun c member => not_isControl_of_mem_escape member, escape_escape value,
      kept, ?_⟩
    rw [escapeCodePoints_eq, kept]
  · intro collation now nextEventId events quotas schedule final reached
    have positive (bucket : RollupKey) (row : RollupRow) (found : final.db.usageRollup.find bucket = some row) :
        0 < row.totalQuantity := row_totalQuantity_pos reached found
    refine ⟨positive, fun call pulls streamed => ?_⟩
    obtain ⟨rows, read, within⟩ := readBody_pulled call pulls
    refine ⟨rows, read, fun row member => ?_⟩
    rcases List.mem_cons.mp (within member) with rfl | data
    · decide
    · obtain ⟨record, delivered, rfl⟩ := List.mem_map.mp data
      exact exportCells_formulaFree (storesPositive_of_streamed positive (streamed delivered))

/-- An identifier that is a formula, in an export whose client leaves after the header. -/
theorem escape_csv_text_cell_neutralises_formula :
    let events : Rows EventKey EventRow :=
      AList.singleton ⟨7, "a"⟩ ⟨1, "=HYPERLINK(1)", "m", ⟨1500000, by decide, by decide⟩, 0, 0⟩
    let start : State := .init (.atRest .codePoint 0 2 (.afterMigration events ∅))
    let params : UsageExportQueryParams := ⟨none, none, none, none⟩
    let call : ExportCall := ⟨7, params, start.db.streamUsageRollups 7 params maxExportRows, false⟩
    ∃ rows, readBody (joined (call.pulled [.next, .next, .close]).yielded) = some rows ∧
      ∀ row ∈ rows, ∀ cell ∈ row, ¬ StartsWithTrigger (cell.toList.map codePoint) := by
  intro events start params call
  exact (escape_csv_text_cell_neutralises.2.2 .codePoint 0 2 events ∅ [] start rfl).2 call _ (List.Subset.refl _)

end Meterly
