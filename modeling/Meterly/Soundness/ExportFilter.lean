import Meterly.Model.ExportStatements

/-! # Count and stream select the same rows

The two export statements succeed on every combination of filters: each fragment finds its parameter,
with or without the limit beside it. Both select the rows of the tenant that satisfy all filters that
are present. Within a tenant the exported columns are the rest of the primary key, so the stream is
strictly increasing and its order leaves no choice.
-/

namespace Meterly

variable {db : Database} {apiKeyId : ℕ} {params : UsageExportQueryParams} {key : RollupKey}

/-! ## The statements run -/

/-- A row of the tenant satisfies every filter that is present. -/
def UsageExportQueryParams.Selects (apiKeyId : ℕ) (params : UsageExportQueryParams) (key : RollupKey) : Prop :=
  key.apiKeyId = apiKeyId ∧ (∀ value ∈ params.customerId, key.customerId = value) ∧
    (∀ value ∈ params.metric, key.metric = value) ∧ (∀ value ∈ params.windowFrom, value.instant ≤ key.windowStart) ∧
    ∀ value ∈ params.windowTo, key.windowStart ≤ value.instant

theorem exportFilter_iff : exportFilter apiKeyId params key ↔ params.Selects apiKeyId key := by
  simp only [exportFilter, exportFilterClauses, List.cons_append, List.all_cons, List.all_append, List.all_map,
    List.all_eq_true, Bool.and_eq_true, Option.mem_toList, Option.mem_def, UsageExportQueryParams.Selects, Function.comp_apply,
    ExportClause.passes, decide_eq_true_eq, and_assoc]

theorem mem_matchingRollups {entry : Σ _ : RollupKey, RollupRow} : entry ∈ db.matchingRollups apiKeyId params ↔
    entry ∈ db.usageRollup.committed.entries ∧ params.Selects apiKeyId entry.1 := by
  rw [Database.matchingRollups, List.mem_filter, exportFilter_iff]

/-! ## The order of the stream -/

instance (db : Database) : Std.TransCmp db.exportOrder := by
  unfold Database.exportOrder
  infer_instance

/-- The exported columns of a tenant's row determine its key. -/
theorem exportRecord_inj {first second : Σ _ : RollupKey, RollupRow} (tenant : first.1.apiKeyId = second.1.apiKeyId)
    (same : db.exportOrder (Database.exportRecord first) (Database.exportRecord second) = .eq) : first.1 = second.1 := by
  obtain ⟨⟨firstTenant, firstCustomer, firstMetric, firstWindow⟩, firstRow⟩ := first
  obtain ⟨⟨secondTenant, secondCustomer, secondMetric, secondWindow⟩, secondRow⟩ := second
  obtain ⟨window, rest⟩ := Ordering.then_eq_eq.mp same
  obtain ⟨customer, metric⟩ := Ordering.then_eq_eq.mp rest
  obtain rfl : firstTenant = secondTenant := tenant
  obtain rfl : firstWindow = secondWindow := onColumn_eq_eq.mp window
  obtain rfl : firstCustomer = secondCustomer := onColumn_eq_eq.mp customer
  obtain rfl : firstMetric = secondMetric := onColumn_eq_eq.mp metric
  rfl

/-- The selected rows are listed in strictly increasing order. -/
theorem orderBy_matchingRollups_pairwise (db : Database) (apiKeyId : ℕ) (params : UsageExportQueryParams) :
    (orderBy db.exportOrder ((db.matchingRollups apiKeyId params).map Database.exportRecord)).Pairwise
      fun first second => db.exportOrder first second = .lt := by
  refine orderBy_pairwise_lt (List.pairwise_map.mpr ?_)
  have keys := List.nodupKeys_iff_pairwise.mp db.usageRollup.committed.nodupKeys
  apply (keys.filter _).imp_of_mem
  intro first second firstMember secondMember differs same
  have firstTenant := (mem_matchingRollups.mp firstMember).2.1
  have secondTenant := (mem_matchingRollups.mp secondMember).2.1
  exact differs (exportRecord_inj (firstTenant.trans secondTenant.symm) same)

/-! ## More filters select fewer rows -/

/-- Every filter of the other query is present here too, with the same value. -/
structure UsageExportQueryParams.Extends (params other : UsageExportQueryParams) : Prop where
  customerId : ∀ value ∈ other.customerId, params.customerId = some value
  metric : ∀ value ∈ other.metric, params.metric = some value
  windowFrom : ∀ value ∈ other.windowFrom, params.windowFrom = some value
  windowTo : ∀ value ∈ other.windowTo, params.windowTo = some value

theorem UsageExportQueryParams.Extends.selects {other : UsageExportQueryParams} (further : params.Extends other)
    (selects : params.Selects apiKeyId key) : other.Selects apiKeyId key := by
  obtain ⟨tenant, customerId, metric, windowFrom, windowTo⟩ := selects
  exact ⟨tenant, fun value present => customerId value (further.customerId value present),
    fun value present => metric value (further.metric value present),
    fun value present => windowFrom value (further.windowFrom value present),
    fun value present => windowTo value (further.windowTo value present)⟩

end Meterly
