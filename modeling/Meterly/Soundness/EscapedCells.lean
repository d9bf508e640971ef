import Meterly.Model.Services.UsageExport

/-! # Escaped text cells

A string of the program is a sequence of code points, surrogates included; the text of an exported
row has none. Escaping deletes the control characters first and looks at what is then in front, so
that what it returns is left alone by escaping it again, and never starts a formula.
-/

namespace Meterly

/-- A code point; a character is one that is not a surrogate. -/
abbrev CodePoint := Fin 0x110000

theorem toNat_lt_codePoints (c : Char) : c.toNat < 0x110000 := by
  have valid := c.valid
  simp only [UInt32.isValidChar, Nat.isValidChar, Char.toNat_val] at valid
  omega

/-- `ord` -/
def codePoint (c : Char) : CodePoint := ⟨c.toNat, toNat_lt_codePoints c⟩

theorem codePoint_injective : Function.Injective codePoint := by
  intro c d same
  have values : c.toNat = d.toNat := congrArg (fun point : CodePoint => point.val) same
  exact Char.toNat_inj.mp values

/-- `_CONTROL_STRIP_TABLE` -/
def controlStripTable : List CodePoint :=
  ((List.range 0x20).map (Fin.ofNat 0x110000)).filter (fun c => c ∉ safeWhitespace.map codePoint) ++ [0x7F]

/-- `str.translate` with a table of deletions. -/
def translate (table value : List CodePoint) : List CodePoint := value.filter fun c => c ∉ table

/-- The text starts with a formula trigger. -/
def StartsWithTrigger (text : List CodePoint) : Prop := ∃ first ∈ text.head?, first ∈ formulaTriggerChars.map codePoint

theorem startsWithTrigger_cons {first : CodePoint} {rest : List CodePoint} :
    StartsWithTrigger (first :: rest) ↔ first ∈ formulaTriggerChars.map codePoint := by
  constructor
  · rintro ⟨c, member, trigger⟩
    rwa [Option.some.inj member]
  · exact fun trigger => ⟨first, rfl, trigger⟩

instance (text : List CodePoint) : Decidable (StartsWithTrigger text) :=
  match text with
  | [] => isFalse fun ⟨_, member, _⟩ => by contradiction
  | _ :: _ => decidable_of_iff _ startsWithTrigger_cons.symm

/-- `escape_csv_text_cell` on code points. -/
def escapeCodePoints (value : List CodePoint) : List CodePoint :=
  if value = [] then value
  else if StartsWithTrigger (translate controlStripTable value) then codePoint '\'' :: translate controlStripTable value
  else translate controlStripTable value

/-- A C0 control other than tab, LF and CR, or DEL. -/
def IsControl (c : CodePoint) : Prop := c.val < 0x20 ∧ c.val ≠ 0x09 ∧ c.val ≠ 0x0A ∧ c.val ≠ 0x0D ∨ c.val = 0x7F

instance (c : CodePoint) : Decidable (IsControl c) := inferInstanceAs (Decidable (_ ∨ _))

theorem mem_controlStripTable {c : CodePoint} : c ∈ controlStripTable ↔ IsControl c := by
  have table : controlStripTable.map Fin.val = [0, 1, 2, 3, 4, 5, 6, 7, 8, 11, 12, 14, 15, 16, 17, 18, 19, 20, 21, 22,
      23, 24, 25, 26, 27, 28, 29, 30, 31, 0x7F] := by decide
  have values : c ∈ controlStripTable ↔ c.val ∈ controlStripTable.map Fin.val :=
    (List.mem_map_of_injective Fin.val_injective).symm
  rw [values, table, IsControl]
  simp only [List.mem_cons, List.not_mem_nil, or_false]
  omega

/-- The table deletes what the filter by character deletes. -/
theorem translate_controlStripTable (value : List CodePoint) :
    translate controlStripTable value = value.filter fun c => ¬ IsControl c := by
  simp only [translate, mem_controlStripTable]

theorem escapeCodePoints_eq (value : List CodePoint) : escapeCodePoints value =
    if StartsWithTrigger (translate controlStripTable value) then codePoint '\'' :: translate controlStripTable value
    else translate controlStripTable value := by
  rw [escapeCodePoints]
  split_ifs with empty starts starts
  · subst empty
    obtain ⟨first, member, -⟩ := starts
    contradiction
  · subst empty
    rfl
  · rfl
  · rfl

theorem not_startsWithTrigger_apostrophe (text : List CodePoint) : ¬ StartsWithTrigger (codePoint '\'' :: text) := by
  rw [startsWithTrigger_cons]
  decide

theorem not_startsWithTrigger_escape (value : List CodePoint) : ¬ StartsWithTrigger (escapeCodePoints value) := by
  rw [escapeCodePoints_eq]
  split_ifs with starts
  · exact not_startsWithTrigger_apostrophe _
  · exact starts

theorem not_isControl_of_mem_escape {value : List CodePoint} {c : CodePoint} (member : c ∈ escapeCodePoints value) :
    ¬ IsControl c := by
  have kept : c ∈ translate controlStripTable value → ¬ IsControl c := by
    intro member
    rw [translate_controlStripTable] at member
    exact of_decide_eq_true (List.mem_filter.mp member).2
  rw [escapeCodePoints_eq] at member
  split_ifs at member with starts
  · rcases List.mem_cons.mp member with rfl | rest
    · decide
    · exact kept rest
  · exact kept member

/-- Escaping leaves alone what it returned. -/
theorem escape_escape (value : List CodePoint) : escapeCodePoints (escapeCodePoints value) = escapeCodePoints value := by
  have clean : translate controlStripTable (escapeCodePoints value) = escapeCodePoints value := by
    rw [translate_controlStripTable]
    exact List.filter_eq_self.mpr fun c member => decide_eq_true (not_isControl_of_mem_escape member)
  rw [escapeCodePoints_eq (escapeCodePoints value), clean, if_neg (not_startsWithTrigger_escape value)]

/-! ## Cells of text -/

theorem keptByStripTable_iff (c : Char) : keptByStripTable c ↔ codePoint c ∉ controlStripTable := by
  have safe : c ∈ safeWhitespace ↔ c.toNat = 0x09 ∨ c.toNat = 0x0D ∨ c.toNat = 0x0A := by
    simp only [safeWhitespace, List.mem_cons, List.not_mem_nil, or_false, ← Char.toNat_inj]
    rfl
  rw [mem_controlStripTable, IsControl, keptByStripTable, decide_eq_true_iff, safe]
  change ¬ (c.toNat < 0x20 ∧ _ ∨ c.toNat = 0x7F) ↔ ¬ (c.toNat < 0x20 ∧ c.toNat ≠ 0x09 ∧ c.toNat ≠ 0x0A ∧ c.toNat ≠ 0x0D ∨
    c.toNat = 0x7F)
  omega

/-- The code points of an escaped cell. -/
theorem escapeCsvTextCell_codePoints (value : String) :
    (escapeCsvTextCell value).toList.map codePoint = escapeCodePoints (value.toList.map codePoint) := by
  have cleaned : translate controlStripTable (value.toList.map codePoint) =
      (value.toList.filter keptByStripTable).map codePoint := by
    rw [translate, List.filter_map]
    refine congrArg (List.map codePoint) (List.filter_congr fun c _ => ?_)
    rw [Bool.eq_iff_iff, keptByStripTable_iff]
    exact decide_eq_true_iff
  rw [escapeCodePoints_eq, cleaned, escapeCsvTextCell]
  cases value.toList.filter keptByStripTable with
  | nil => rfl
  | cons first rest =>
    have trigger : StartsWithTrigger ((first :: rest).map codePoint) ↔ first ∈ formulaTriggerChars :=
      startsWithTrigger_cons.trans (List.mem_map_of_injective codePoint_injective)
    by_cases starts : first ∈ formulaTriggerChars
    · rw [if_pos (trigger.mpr starts)]
      simp only [if_pos starts, String.toList_ofList, List.map_cons]
    · rw [if_neg (starts ∘ trigger.mp)]
      simp only [if_neg starts, String.toList_ofList]

/-! ## Identifiers -/

/-- `[A-Za-z0-9_.:-]` -/
def allowedInIdentifier (c : Char) : Bool := c.isAlphanum || c = '_' || c = '.' || c = ':' || c = '-'

/-- `^[A-Za-z0-9_.:-]{1,limit}$` -/
def MatchesAllowlist (limit : ℕ) (value : String) : Prop :=
  1 ≤ value.length ∧ value.length ≤ limit ∧ value.toList.all allowedInIdentifier

instance (limit : ℕ) (value : String) : Decidable (MatchesAllowlist limit value) :=
  inferInstanceAs (Decidable (_ ∧ _ ∧ _))

/-- `CustomerId` -/
def IsCustomerId (value : String) : Prop := MatchesAllowlist 128 value

instance (value : String) : Decidable (IsCustomerId value) := inferInstanceAs (Decidable (MatchesAllowlist ..))

/-- `Metric` -/
def IsMetric (value : String) : Prop := MatchesAllowlist 64 value

instance (value : String) : Decidable (IsMetric value) := inferInstanceAs (Decidable (MatchesAllowlist ..))

/-- The cell without the apostrophe that escaping puts in front. -/
def unescapeCsvTextCell (cell : String) : String :=
  match cell.toList with
  | '\'' :: text => String.ofList text
  | _ => cell

theorem keptByStripTable_of_allowed {c : Char} (allowed : allowedInIdentifier c) : keptByStripTable c := by
  have ascii : ∀ n < 0x80, allowedInIdentifier (Char.ofNat n) → keptByStripTable (Char.ofNat n) := by decide
  rcases Nat.lt_or_ge c.toNat 0x80 with small | large
  · have kept := ascii c.toNat small
    rw [Char.ofNat_toNat] at kept
    exact kept allowed
  · rw [keptByStripTable, decide_eq_true_iff]
    omega

/-- No identifier starts with an apostrophe, so one in front comes from escaping. -/
theorem unescape_escapeCsvTextCell {limit : ℕ} {value : String} (allowed : MatchesAllowlist limit value) :
    unescapeCsvTextCell (escapeCsvTextCell value) = value := by
  have characters := List.all_eq_true.mp allowed.2.2
  have kept : value.toList.filter keptByStripTable = value.toList :=
    List.filter_eq_self.mpr fun c member => keptByStripTable_of_allowed (characters c member)
  have first : ∀ c rest, value.toList = c :: rest → c ≠ '\'' := by
    rintro c rest written rfl
    exact absurd (characters '\'' (written ▸ List.mem_cons_self)) (by decide)
  rw [escapeCsvTextCell, kept]
  cases written : value.toList with
  | nil =>
    rw [String.toList_eq_nil_iff.mp written]
    rfl
  | cons c rest =>
    have whole : String.ofList (c :: rest) = value := by rw [← written, String.ofList_toList]
    by_cases trigger : c ∈ formulaTriggerChars
    · simp only [if_pos trigger, unescapeCsvTextCell, String.toList_ofList, whole]
    · simp only [if_neg trigger, whole, unescapeCsvTextCell, written]
      split
      · next text same => exact absurd (List.cons.inj same).1 (first c rest written)
      · rfl

end Meterly
