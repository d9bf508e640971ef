import Meterly.Soundness.ExportBody

/-! # When the line of an export counts what was sent

A row is counted when it enters the buffer and sent when the buffer is drained. At each `yield` the
buffer is empty and the two agree. Between two of them they do not: if the source raises there, the
line counts the rows of a batch that nobody received.
-/

namespace Meterly

open ExportGenerator

/-- How often a chunk is asked for before the generator is closed. -/
def requested (pulls : List ExportPull) : ℕ := (pulls.takeWhile fun pull => pull = .next).length

/-- There is one line; it counts the data rows of the chunks handed out, and says completed only if all
rows of the source are among them. -/
def ExportGenerator.Tells (call : ExportCall) (generator : ExportGenerator) : Prop :=
  ∃ line rows, generator.logged = [line] ∧ readBody (joined generator.yielded) = some (exportHeader :: rows) ∧
    line.rowCount = rows.length ∧ (line.completed → call.raises = false ∧ rows = call.rows)

/-- The generator logs nothing until it ends, and then what was sent. -/
def ExportGenerator.Reports (call : ExportCall) (generator : ExportGenerator) : Prop :=
  if generator.place = .finished then generator.Tells call else generator.logged = []

/-- Once a chunk has been asked for there is one line, and it tells what was sent. -/
def AuditTells (call : ExportCall) (pulls : List ExportPull) : Prop :=
  pulls.head? = some .next → (call.pulled pulls).Reports call

variable {call : ExportCall} {pulls : List ExportPull}

theorem pulled_of_finished {generator : ExportGenerator} (ended : generator.place = .finished) (pulls : List ExportPull) :
    pulls.foldl call.pull generator = generator := by
  induction pulls with
  | nil => rfl
  | cons pull pulls ih =>
    have stays : call.pull generator pull = generator := by
      cases pull with
      | next => exact next_of_finished ended
      | close => exact close_of_finished ended
    rw [List.foldl_cons, stays, ih]

theorem place_close (generator : ExportGenerator) : (generator.close call).place = .finished := by
  cases place : generator.place <;> simp only [close, place] <;> rfl

/-- Chunks are asked for until the generator is closed, if it is. -/
theorem requested_cases (pulls : List ExportPull) :
    pulls = List.replicate (requested pulls) .next ∨
      ∃ later, pulls = List.replicate (requested pulls) .next ++ .close :: later := by
  induction pulls with
  | nil => exact .inl rfl
  | cons pull pulls ih =>
    cases pull with
    | next =>
      have counted : requested (.next :: pulls) = requested pulls + 1 := rfl
      rw [counted, List.replicate_succ]
      rcases ih with same | ⟨later, same⟩
      · exact .inl (congrArg _ same)
      · exact .inr ⟨later, congrArg _ same⟩
    | close => exact .inr ⟨pulls, rfl⟩

/-- After a generator was closed nothing else happens to it. -/
theorem pulled_cases (pulls : List ExportPull) :
    call.pulled pulls = call.asked (requested pulls) ∨ call.pulled pulls = (call.asked (requested pulls)).close call := by
  rcases requested_cases pulls with same | ⟨later, same⟩
  · exact .inl (congrArg call.pulled same)
  · refine .inr ((congrArg call.pulled same).trans ?_)
    rw [ExportCall.pulled, List.foldl_append, List.foldl_cons]
    exact pulled_of_finished (place_close _) later

/-- The line of a generator that ends early is right if its count is that of the rows handed out. -/
theorem tells_finish_iff {rowCount : ℕ} {pending : List (List String)} {place : ExportPlace}
    {batches : List (List (List String))} (cells : ∀ row ∈ batches.flatten, row ≠ []) :
    ((holding rowCount pending place ([exportHeader] :: batches)).finish call).Tells call ↔
      rowCount = batches.flatten.length := by
  have body : readBody (joined (([exportHeader] :: batches).map rowsBytes)) = some (exportHeader :: batches.flatten) := by
    rw [joined_map_rowsBytes]
    apply readBody_rowsBytes
    intro row member
    rcases List.mem_cons.mp member with rfl | row
    · exact List.cons_ne_nil _ _
    · exact cells _ row
  constructor
  · rintro ⟨line, rows, logged, read, counted, -⟩
    obtain rfl := (List.cons.inj logged).1
    obtain rfl := (List.cons.inj (Option.some.inj (body.symm.trans read))).2
    exact counted
  · intro counted
    exact ⟨_, _, rfl, body, counted, fun completed => absurd completed Bool.false_ne_true⟩

/-- Full batches hold as many rows as were counted for them. -/
theorem length_flatten_batches {count : ℕ} (inside : count ≤ call.fullBatches) :
    ((List.range count).map call.batch).flatten.length = count * rowsPerChunk := by
  have room := (Nat.mul_le_mul_right rowsPerChunk inside).trans call.fullBatches_le
  have taken : ((List.range count).map call.batch).flatten = call.rows.take (count * rowsPerChunk) :=
    flatten_range_batches ..
  rw [taken, List.length_take, ExportCall.length_rows, Nat.min_eq_left room]

theorem row_ne_nil {rows : List (List String)} (sent : rows ⊆ call.rows) : ∀ row ∈ rows, row ≠ [] :=
  fun row member => exportCells_ne_nil row (List.mem_cons_of_mem _ (sent member))

theorem flatten_batches_subset (call : ExportCall) (count : ℕ) : ((List.range count).map call.batch).flatten ⊆ call.rows := by
  intro row member
  obtain ⟨batch, listed, within⟩ := List.mem_flatten.mp member
  obtain ⟨number, -, rfl⟩ := List.mem_map.mp listed
  exact List.mem_of_mem_drop (List.mem_of_mem_take within)

theorem reports_close {generator : ExportGenerator} (tells : (generator.close call).Tells call) :
    (generator.close call).Reports call := by
  rwa [Reports, if_pos (place_close _)]

/-- At the header and at a full batch the rows counted have been sent. -/
theorem reports_suspended {count : ℕ} (inside : count ≤ call.fullBatches) :
    (call.suspended count).Reports call ∧ ((call.suspended count).close call).Reports call := by
  have stands : (call.suspended count).place ≠ .finished := by
    rw [ExportCall.suspended]
    split_ifs <;> exact ExportPlace.noConfusion
  have closes : (call.suspended count).close call = (call.suspended count).finish call := by
    rw [ExportCall.suspended]
    split_ifs <;> rfl
  constructor
  · rw [Reports, if_neg stands]
    rfl
  · apply reports_close
    rw [closes]
    exact (tells_finish_iff (row_ne_nil (flatten_batches_subset call count))).mpr (length_flatten_batches inside).symm

/-- The batches of a whole export hold all its rows. -/
theorem length_flatten_cursorBatches : call.records.length = (cursorBatches rowsPerChunk call.rows).flatten.length := by
  rw [flatten_cursorBatches rowsPerChunk_pos, ExportCall.length_rows]

/-- At the trailing batch all rows have been sent. -/
theorem reports_trailing : (holding call.records.length [] .trailing call.chunks).Reports call ∧
    ((holding call.records.length [] .trailing call.chunks).close call).Reports call := by
  refine ⟨rfl, reports_close ?_⟩
  have rows : (cursorBatches rowsPerChunk call.rows).flatten = call.rows := flatten_cursorBatches rowsPerChunk_pos _
  exact (tells_finish_iff (row_ne_nil fun row member => rows ▸ member)).mpr length_flatten_cursorBatches

/-- A completed export has sent every row. -/
theorem reports_complete (delivers : ¬ call.raises) :
    ((holding call.records.length [] .finished call.chunks).complete call).Reports call := by
  have body : readBody (joined (call.chunks.map rowsBytes)) = some (exportHeader :: call.rows) := by
    rw [joined_map_rowsBytes, call.flatten_chunks]
    exact readBody_rowsBytes exportCells_ne_nil
  exact ⟨_, _, rfl, body, ExportCall.length_rows.symm, fun _ => ⟨Bool.eq_false_iff.mpr delivers, rfl⟩⟩

/-- Behind a source that raised, the rows of an unfinished batch are counted and lost. -/
theorem reports_failed_iff :
    ((holding call.records.length call.trailing .finished (call.chunksTo call.fullBatches)).finish call).Reports call ↔
      call.records.length % rowsPerChunk = 0 := by
  have split := Nat.div_add_mod call.records.length rowsPerChunk
  rw [Nat.mul_comm, ← ExportCall.fullBatches] at split
  apply (tells_finish_iff (row_ne_nil (flatten_batches_subset call call.fullBatches))).trans
  rw [length_flatten_batches le_rfl]
  omega

/-- Where a generator is that has been asked for a chunk: at the header or a full batch, at its end because
the source raised, at the trailing batch, or at its end because all is sent. -/
theorem asked_cases (call : ExportCall) {count : ℕ} (positive : 1 ≤ count) :
    (∃ batches ≤ call.fullBatches, count = batches + 1 ∧ call.asked count = call.suspended batches) ∨
      (call.raises ∧ call.fullBatches + 2 ≤ count ∧ call.asked count =
        (holding call.records.length call.trailing .finished (call.chunksTo call.fullBatches)).finish call) ∨
      (¬ call.raises ∧ (call.asked count = holding call.records.length [] .trailing call.chunks ∨
        call.asked count = (holding call.records.length [] .finished call.chunks).complete call)) := by
  obtain ⟨batches, rfl⟩ : ∃ batches, count = batches + 1 := ⟨count - 1, by omega⟩
  rcases Nat.lt_or_ge call.fullBatches batches with behind | inside
  · by_cases raises : call.raises
    · exact .inr (.inl ⟨raises, by omega, ExportCall.asked_of_raises raises (by omega)⟩)
    · refine .inr (.inr ⟨raises, ?_⟩)
      rcases Nat.lt_or_ge call.chunks.length (batches + 1) with done | rest
      · exact .inr (ExportCall.asked_complete raises done)
      · obtain ⟨rfl, trailing⟩ := ExportCall.trailing_of_lt behind rest
        exact .inl (ExportCall.asked_trailing raises trailing)
  · exact .inl ⟨batches, inside, rfl, ExportCall.asked_suspended inside⟩

theorem reports_asked_iff {count : ℕ} (positive : 1 ≤ count) {generator : ExportGenerator}
    (ended : generator = call.asked count ∨ generator = (call.asked count).close call) : generator.Reports call ↔
      ¬ (call.raises = true ∧ call.records.length % rowsPerChunk ≠ 0 ∧ call.fullBatches + 2 ≤ count) := by
  rcases asked_cases call positive with ⟨batches, inside, rfl, same⟩ | ⟨raises, behind, same⟩ | ⟨delivers, same | same⟩
  · refine iff_of_true ?_ fun fails => by omega
    rcases ended with rfl | rfl <;> rw [same]
    · exact (reports_suspended inside).1
    · exact (reports_suspended inside).2
  · have stays : generator = call.asked count := by
      rcases ended with rfl | rfl
      · rfl
      · exact close_of_finished (same ▸ rfl)
    rw [stays, same, reports_failed_iff]
    constructor
    · exact fun whole fails => fails.2.1 whole
    · intro spared
      by_contra rest
      exact spared ⟨raises, rest, behind⟩
  · refine iff_of_true ?_ fun fails => delivers fails.1
    rcases ended with rfl | rfl <;> rw [same]
    · exact reports_trailing.1
    · exact reports_trailing.2
  · have stays : generator = call.asked count := by
      rcases ended with rfl | rfl
      · rfl
      · exact close_of_finished (same ▸ rfl)
    refine iff_of_true ?_ fun fails => delivers fails.1
    rw [stays, same]
    exact reports_complete delivers

/-- The line of an export tells what was sent, unless the source raises inside a batch and the consumer has
asked for that batch. -/
theorem export_audit_tells_iff (call : ExportCall) (pulls : List ExportPull) : AuditTells call pulls ↔
    ¬ (call.raises = true ∧ call.records.length % rowsPerChunk ≠ 0 ∧
      call.records.length / rowsPerChunk + 2 ≤ requested pulls) := by
  by_cases asks : pulls.head? = some .next
  · obtain ⟨later, rfl⟩ := List.head?_eq_some_iff.mp asks
    have positive : 1 ≤ requested (.next :: later) := Nat.le_add_left ..
    exact Iff.trans ⟨fun tells => tells asks, fun tells _ => tells⟩ (reports_asked_iff positive (pulled_cases _))
  · have never : requested pulls = 0 := by
      cases pulls with
      | nil => rfl
      | cons pull pulls =>
        cases pull with
        | next => exact absurd rfl asks
        | close => rfl
    exact iff_of_true (fun asked => absurd asked asks) fun fails => absurd (never ▸ fails.2.2) (Nat.not_succ_le_zero _)

/-- One row was counted, and only the header was sent. -/
theorem export_audit_counts_unsent_row :
    let call : ExportCall := ⟨7, ⟨none, none, none, none⟩, [⟨"c", "m", 0, ⟨1500000, -6⟩⟩], true⟩
    let generator := call.pulled [.next, .next]
    generator.place = .finished ∧ generator.logged.map UsageExportLine.rowCount = [1] ∧
      readBody (joined generator.yielded) = some [exportHeader] ∧ ¬ AuditTells call [.next, .next] := by
  intro call generator
  have whole : call.fullBatches = 0 := by decide
  have header : call.chunksTo call.fullBatches = [[exportHeader]] := congrArg call.chunksTo whole
  have failed : generator =
      (holding call.records.length call.trailing .finished (call.chunksTo call.fullBatches)).finish call :=
    show call.asked 2 = _ from ExportCall.asked_of_raises rfl (by rw [whole])
  have body : readBody (joined generator.yielded) = some [exportHeader] := by
    rw [failed, header]
    exact (congrArg readBody (joined_map_rowsBytes [[exportHeader]])).trans
      (readBody_rowsBytes fun row member => List.mem_singleton.mp member ▸ List.cons_ne_nil _ _)
  refine ⟨by rw [failed]; rfl, by rw [failed]; rfl, body, fun tells => ?_⟩
  have reports : generator.Reports call := tells rfl
  rw [failed, reports_failed_iff] at reports
  contradiction

end Meterly
