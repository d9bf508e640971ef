import Meterly.Model.Services.ExportGenerator

/-! # The chunks that an export hands out

Between two `yield`s the generator writes rows until their number is a multiple of the batch size, so
what it holds when it is asked for a chunk is decided by how often it has been asked: after the header
come the full batches, then the rest. The rows leave in these batches whatever their source does
behind them.
-/

namespace Meterly

@[simp] theorem rowsText_append (first second : List (List String)) :
    rowsText (first ++ second) = rowsText first ++ rowsText second := by
  rw [rowsText, List.map_append, Rfc4180.write_append]
  rfl

theorem rowsText_eq_nil {rows : List (List String)} : rowsText rows = [] ↔ rows = [] :=
  Rfc4180.write_eq_nil.trans List.map_eq_nil_iff

theorem rowsPerChunk_pos : 0 < rowsPerChunk := by decide

namespace ExportGenerator

variable (call : ExportCall)

/-- A generator inside its `try` block: the records counted, the rows in its buffer, the `yield` it
stands at and the rows of the chunks it has handed out. -/
def holding (rowCount : ℕ) (pending : List (List String)) (place : ExportPlace) (chunks : List (List (List String))) :
    ExportGenerator :=
  ⟨rowCount, false, false, .filled (rowsText pending), place, chunks.map rowsBytes, []⟩

variable {call} {rowCount : ℕ} {pending : List (List String)} {place after : ExportPlace}
  {chunks : List (List (List String))}

theorem writerow_holding (cells : List String) :
    (holding rowCount pending place chunks).writerow cells = holding rowCount (pending ++ [cells]) place chunks := by
  simp only [holding, writerow, StringIO.write_filled, rowsText_append]

theorem yieldDrained_holding : (holding rowCount pending place chunks).yieldDrained after =
    holding rowCount [] after (chunks ++ [pending]) := by
  simp only [holding, yieldDrained, StringIO.truncate_seek, StringIO.getvalue_filled, List.map_append]
  rfl

theorem exhaust_holding : (holding rowCount pending place chunks).exhaust call =
    if call.raises then (holding rowCount pending place chunks).finish call
    else if pending ≠ [] then holding rowCount [] .trailing (chunks ++ [pending])
    else (holding rowCount [] place chunks).complete call := by
  rw [exhaust]
  split_ifs with fails held some_ some_
  · rfl
  · exact yieldDrained_holding
  · exact absurd (congrArg List.length (rowsText_eq_nil.mpr (not_ne_iff.mp some_))) held
  · exact absurd (rowsText_eq_nil.mp (List.length_eq_zero_iff.mp (not_ne_iff.mp held))) some_
  · rw [not_ne_iff.mp some_]

/-- One turn of the loop. -/
theorem writeRows_cons_holding (record : UsageRollupExportRecord) (remaining : List UsageRollupExportRecord) :
    writeRows call (record :: remaining) (holding rowCount pending place chunks) =
      if (rowCount + 1) % rowsPerChunk = 0 then
        holding (rowCount + 1) [] (.batch remaining) (chunks ++ [pending ++ [exportCells record]])
      else writeRows call remaining (holding (rowCount + 1) (pending ++ [exportCells record]) place chunks) := by
  have counted : ({ (holding rowCount pending place chunks).writerow (exportCells record) with
      rowCount := ((holding rowCount pending place chunks).writerow (exportCells record)).rowCount + 1 } :
        ExportGenerator) = holding (rowCount + 1) (pending ++ [exportCells record]) place chunks := by
    rw [writerow_holding]
    rfl
  rw [writeRows, counted, yieldDrained_holding]
  rfl

/-- The loop ends at the next multiple of the batch size, or where the rows are used up before it. -/
theorem writeRows_holding {remaining : List UsageRollupExportRecord} (partly : rowCount % rowsPerChunk = pending.length) :
    writeRows call remaining (holding rowCount pending place chunks) =
      if rowsPerChunk ≤ pending.length + remaining.length then
        holding (rowCount + (rowsPerChunk - pending.length)) [] (.batch (remaining.drop (rowsPerChunk - pending.length)))
          (chunks ++ [pending ++ (remaining.take (rowsPerChunk - pending.length)).map exportCells])
      else (holding (rowCount + remaining.length) (pending ++ remaining.map exportCells) place chunks).exhaust call := by
  have room : pending.length < rowsPerChunk := partly ▸ Nat.mod_lt _ rowsPerChunk_pos
  induction remaining generalizing rowCount pending with
  | nil =>
    rw [if_neg (by rw [List.length_nil]; omega), List.map_nil, List.append_nil]
    rfl
  | cons record remaining ih =>
    have counted : (rowCount + 1) % rowsPerChunk = (pending.length + 1) % rowsPerChunk := by
      rw [← partly, Nat.mod_add_mod]
    have rows : (pending ++ [exportCells record]).length = pending.length + 1 := List.length_append
    rw [writeRows_cons_holding, List.length_cons]
    by_cases full : pending.length + 1 = rowsPerChunk
    · have single : rowsPerChunk - pending.length = 1 := by omega
      rw [if_pos (by rw [counted, full, Nat.mod_self]), if_pos (by omega), single]
      rfl
    · have more : (rowCount + 1) % rowsPerChunk = pending.length + 1 := by
        rw [counted, Nat.mod_eq_of_lt (by omega)]
      have left : rowsPerChunk - pending.length = rowsPerChunk - (pending.length + 1) + 1 := by omega
      have behind : pending.length + 1 + remaining.length = pending.length + (remaining.length + 1) := by omega
      rw [if_neg (by omega), ih (by rw [rows, more]) (by omega), rows, behind, left, List.take_succ_cons,
        List.drop_succ_cons, List.map_cons, List.map_cons, List.append_assoc, List.append_assoc, Nat.add_assoc,
        Nat.add_assoc, Nat.add_comm 1, Nat.add_comm 1]
      rfl

/-- A generator that ended stays as it is. -/
theorem next_of_finished {generator : ExportGenerator} (ended : generator.place = .finished) :
    generator.next call = generator := by
  rw [next, ended]

theorem close_of_finished {generator : ExportGenerator} (ended : generator.place = .finished) :
    generator.close call = generator := by
  rw [close, ended]

end ExportGenerator

namespace ExportCall

open ExportGenerator

variable (call : ExportCall)

/-- The rows of the records, in their order. -/
def rows : List (List String) := call.records.map exportCells

/-- The rows of a full batch. -/
def batch (number : ℕ) : List (List String) := (call.rows.drop (number * rowsPerChunk)).take rowsPerChunk

/-- The number of full batches. -/
def fullBatches : ℕ := call.records.length / rowsPerChunk

/-- The rows behind the full batches. -/
def trailing : List (List String) := call.rows.drop (call.fullBatches * rowsPerChunk)

/-- The rows of the chunks up to a full batch; the first chunk is the header. -/
def chunksTo (count : ℕ) : List (List (List String)) := [exportHeader] :: (List.range count).map call.batch

/-- The rows of all chunks. -/
def chunks : List (List (List String)) := [exportHeader] :: cursorBatches rowsPerChunk call.rows

/-- The generator at the `yield` of the header or of a full batch. -/
def suspended (count : ℕ) : ExportGenerator :=
  holding (count * rowsPerChunk) []
    (if count = 0 then .header else .batch (call.records.drop (count * rowsPerChunk))) (call.chunksTo count)

/-- The generator after some chunks have been asked for. -/
def asked (count : ℕ) : ExportGenerator := call.pulled (List.replicate count .next)

variable {call}

theorem length_rows : call.rows.length = call.records.length := List.length_map ..

theorem fullBatches_le : call.fullBatches * rowsPerChunk ≤ call.records.length := Nat.div_mul_le_self ..

theorem length_trailing : call.trailing.length = call.records.length % rowsPerChunk := by
  rw [trailing, List.length_drop, length_rows, fullBatches, Nat.mod_eq_sub_div_mul]

theorem chunks_eq :
    call.chunks = call.chunksTo call.fullBatches ++ if call.trailing = [] then [] else [call.trailing] := by
  rw [chunks, cursorBatches_eq rowsPerChunk_pos, length_rows]
  rfl

theorem chunksTo_succ (count : ℕ) : call.chunksTo (count + 1) = call.chunksTo count ++ [call.batch count] := by
  rw [chunksTo, List.range_succ, List.map_append]
  rfl

theorem asked_succ (count : ℕ) : call.asked (count + 1) = (call.asked count).next call := by
  rw [asked, List.replicate_succ', pulled, List.foldl_append]
  rfl

theorem next_suspended (count : ℕ) : (call.suspended count).next call =
    writeRows call (call.records.drop (count * rowsPerChunk)) (call.suspended count) := by
  by_cases header : count = 0
  · subst header
    rfl
  · simp only [suspended, if_neg header]
    rfl

/-- From one full batch to the next. -/
theorem next_suspended_full {count : ℕ} (inside : count < call.fullBatches) :
    (call.suspended count).next call = call.suspended (count + 1) := by
  have room : (count + 1) * rowsPerChunk ≤ call.records.length :=
    (Nat.mul_le_mul_right _ inside).trans call.fullBatches_le
  rw [Nat.succ_mul] at room
  rw [next_suspended, suspended, writeRows_holding (Nat.mul_mod_left ..),
    if_pos (by rw [List.length_nil, List.length_drop]; omega), suspended, if_neg (Nat.succ_ne_zero count), chunksTo_succ,
    Nat.succ_mul, List.length_nil, Nat.sub_zero, List.drop_drop, List.nil_append, batch, rows, List.map_take,
    List.map_drop]

/-- Behind the last full batch the rows are used up. -/
theorem next_suspended_last : ∃ place, (call.suspended call.fullBatches).next call =
    (holding call.records.length call.trailing place (call.chunksTo call.fullBatches)).exhaust call := by
  have short := Nat.mod_lt call.records.length rowsPerChunk_pos
  have split : call.records.length - call.fullBatches * rowsPerChunk = call.records.length % rowsPerChunk := by
    rw [fullBatches, Nat.mod_eq_sub_div_mul]
  have all := call.fullBatches_le
  refine ⟨(call.suspended call.fullBatches).place, ?_⟩
  rw [next_suspended, suspended, writeRows_holding (Nat.mul_mod_left ..),
    if_neg (by rw [List.length_nil, List.length_drop]; omega), List.length_drop, List.nil_append, trailing, rows,
    List.map_drop, Nat.add_sub_cancel' all]
  rfl

theorem asked_suspended {count : ℕ} (inside : count ≤ call.fullBatches) :
    call.asked (count + 1) = call.suspended count := by
  induction count with
  | zero =>
    change ((holding 0 [] .unstarted []).writerow exportHeader).yieldDrained .header = _
    rw [writerow_holding, yieldDrained_holding, suspended, Nat.zero_mul]
    rfl
  | succ count ih => rw [asked_succ, ih (Nat.le_of_succ_le inside), next_suspended_full inside]

theorem asked_of_finished {count later : ℕ} (ended : (call.asked count).place = .finished) (le : count ≤ later) :
    call.asked later = call.asked count := by
  induction later, le using Nat.le_induction with
  | base => rfl
  | succ later _ ih => rw [asked_succ, ih, next_of_finished ended]

theorem length_chunksTo (count : ℕ) : (call.chunksTo count).length = count + 1 := by
  rw [chunksTo, List.length_cons, List.length_map, List.length_range]

/-- A chunk behind the full batches is the trailing one. -/
theorem trailing_of_lt {count : ℕ} (behind : call.fullBatches < count) (inside : count + 1 ≤ call.chunks.length) :
    count = call.fullBatches + 1 ∧ call.trailing ≠ [] := by
  rw [chunks_eq, List.length_append, length_chunksTo] at inside
  split_ifs at inside with none_
  · rw [List.length_nil] at inside
    omega
  · rw [List.length_singleton] at inside
    exact ⟨by omega, none_⟩

/-- A source that raises ends the generator behind the last full batch. -/
theorem asked_of_raises (raises : call.raises) {count : ℕ} (behind : call.fullBatches + 2 ≤ count) :
    call.asked count =
      (holding call.records.length call.trailing .finished (call.chunksTo call.fullBatches)).finish call := by
  obtain ⟨place, last⟩ := call.next_suspended_last
  have fails : call.asked (call.fullBatches + 2) =
      (holding call.records.length call.trailing .finished (call.chunksTo call.fullBatches)).finish call := by
    rw [asked_succ, asked_suspended le_rfl, last, exhaust_holding, if_pos raises]
    rfl
  rw [asked_of_finished (fails ▸ rfl) behind, fails]

/-- What is left behind the last full batch is handed out as a chunk. -/
theorem asked_trailing (delivers : ¬ call.raises) (rest : call.trailing ≠ []) :
    call.asked (call.fullBatches + 2) = holding call.records.length [] .trailing call.chunks := by
  obtain ⟨place, last⟩ := call.next_suspended_last
  rw [asked_succ, asked_suspended le_rfl, last, exhaust_holding, if_neg delivers, if_pos rest, chunks_eq, if_neg rest]

/-- When all chunks are out the generator completes. -/
theorem asked_complete (delivers : ¬ call.raises) {count : ℕ} (behind : call.chunks.length < count) :
    call.asked count = (holding call.records.length [] .finished call.chunks).complete call := by
  have all : call.asked (call.chunks.length + 1) =
      (holding call.records.length [] .finished call.chunks).complete call := by
    by_cases rest : call.trailing = []
    · obtain ⟨place, last⟩ := call.next_suspended_last
      have chunks : call.chunks = call.chunksTo call.fullBatches := by
        rw [chunks_eq, if_pos rest, List.append_nil]
      have length : call.chunks.length = call.fullBatches + 1 := by rw [chunks, length_chunksTo]
      rw [length, asked_succ, asked_suspended le_rfl, last, exhaust_holding, if_neg delivers,
        if_neg (not_ne_iff.mpr rest), chunks]
      rfl
    · have length : call.chunks.length = call.fullBatches + 2 := by
        rw [chunks_eq, if_neg rest, List.length_append, length_chunksTo]
        rfl
      rw [length, asked_succ, asked_trailing delivers rest]
      rfl
  rw [asked_of_finished (all ▸ rfl) behind, all]

/-- A source that delivers its records hands out the chunks one by one. -/
theorem yielded_asked (delivers : ¬ call.raises) (count : ℕ) :
    (call.asked count).yielded = (call.chunks.take count).map rowsBytes := by
  rcases Nat.lt_or_ge call.chunks.length count with behind | inside
  · rw [asked_complete delivers behind, List.take_of_length_le behind.le]
    rfl
  · cases count with
    | zero => rfl
    | succ count =>
      rcases Nat.lt_or_ge call.fullBatches count with last | full
      · obtain ⟨rfl, rest⟩ := trailing_of_lt last inside
        rw [asked_trailing delivers rest, List.take_of_length_le]
        · rfl
        · rw [chunks_eq, if_neg rest, List.length_append, length_chunksTo]
          rfl
      · have taken : call.chunks.take (count + 1) = call.chunksTo count := by
          rw [chunks_eq, List.take_append_of_le_length (by rw [length_chunksTo]; omega), chunksTo, List.take_succ_cons, ← List.map_take,
            List.take_range, Nat.min_eq_left full]
          rfl
        rw [asked_suspended full, taken]
        rfl

/-! ## The rows of the chunks -/

theorem asked_add (count more : ℕ) : call.asked (count + more) = (next call)^[more] (call.asked count) := by
  induction more with
  | zero => rfl
  | succ more ih => rw [← Nat.add_assoc, asked_succ, ih, Function.iterate_succ_apply']

/-- However its rows are cut into chunks, the generator does to its text what the stream of rows does. -/
theorem iterate_next_writeRows (delivers : ¬ call.raises) (remaining : List UsageRollupExportRecord) (rowCount : ℕ)
    (pending : List (List String)) (place : ExportPlace) (chunks : List (List (List String))) :
    ∃ more, (next call)^[more] (writeRows call remaining (holding rowCount pending place chunks)) =
      (holding (remaining.foldl ExportStream.writeRecord ⟨rowCount, pending, chunks⟩).rowCount [] .finished
        (remaining.foldl ExportStream.writeRecord ⟨rowCount, pending, chunks⟩).flush.chunks).complete call := by
  induction remaining generalizing rowCount pending place chunks with
  | nil =>
    rw [writeRows, exhaust_holding, if_neg delivers, List.foldl_nil, ExportStream.flush]
    by_cases empty : pending = []
    · rw [if_neg (not_ne_iff.mpr empty), if_pos empty]
      exact ⟨0, rfl⟩
    · rw [if_pos empty, if_neg empty]
      exact ⟨1, rfl⟩
  | cons record remaining ih =>
    have turn : ExportStream.writeRecord ⟨rowCount, pending, chunks⟩ record =
        if (rowCount + 1) % rowsPerChunk = 0 then ⟨rowCount + 1, [], chunks ++ [pending ++ [exportCells record]]⟩
        else ⟨rowCount + 1, pending ++ [exportCells record], chunks⟩ := rfl
    rw [writeRows_cons_holding, List.foldl_cons, turn]
    split_ifs with full
    · obtain ⟨more, reaches⟩ := ih (rowCount + 1) [] (.batch remaining) (chunks ++ [pending ++ [exportCells record]])
      exact ⟨more + 1, reaches⟩
    · exact ih (rowCount + 1) (pending ++ [exportCells record]) place chunks

/-- What is handed out are the chunks of the stream of rows, and the line has its counts. -/
theorem asked_eq_streamExportCsv (delivers : ¬ call.raises) {count : ℕ} (behind : call.chunks.length < count) :
    call.asked count = (holding (streamExportCsv call.records).rowCount [] .finished
      (streamExportCsv call.records).chunks).complete call := by
  obtain ⟨more, reaches⟩ := iterate_next_writeRows delivers call.records 0 [] .header [[exportHeader]]
  have opened : call.asked (2 + more) = (next call)^[more] (writeRows call call.records (call.suspended 0)) := by
    rw [asked_add, asked_succ, asked_suspended (Nat.zero_le _), next_suspended, Nat.zero_mul, List.drop_zero]
  have streamed : call.asked (2 + more) = (holding (streamExportCsv call.records).rowCount [] .finished
      (streamExportCsv call.records).chunks).complete call := by
    have flushed (stream : ExportStream) : stream.flush.rowCount = stream.rowCount := by
      rw [ExportStream.flush]
      split_ifs <;> rfl
    rw [opened, streamExportCsv, flushed]
    exact reaches
  rcases Nat.le_total count (2 + more) with le | le
  · have ended : (call.asked count).place = .finished := by
      rw [asked_complete delivers behind]
      rfl
    rw [← asked_of_finished ended le, streamed]
  · have ended : (call.asked (2 + more)).place = .finished := by
      rw [streamed]
      rfl
    rw [asked_of_finished ended le, streamed]

end ExportCall

end Meterly
