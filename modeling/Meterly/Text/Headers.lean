import Mathlib.Data.List.Basic

/-! # Header lists

A list of named values in which a name may stand several times; the first one counts. An assignment takes
the place of the first value under its name and drops the others, or comes last where there is none.
-/

/-- Named values, in their order. -/
abbrev Headers (Name Value : Type) := List (Name × Value)

namespace Headers

variable {Name Value : Type} [DecidableEq Name]

/-- The value under a name. -/
def get : Headers Name Value → Name → Option Value
  | [], _ => none
  | (other, value) :: rest, name => if other = name then some value else get rest name

/-- `headers[name] = value` -/
def set : Headers Name Value → Name → Value → Headers Name Value
  | [], name, value => [(name, value)]
  | entry :: rest, name, value =>
    if entry.1 = name then (name, value) :: rest.filter fun other => other.1 ≠ name else entry :: set rest name value

/-- One assignment after the other. -/
def setAll (headers entries : Headers Name Value) : Headers Name Value :=
  entries.foldl (fun headers entry => headers.set entry.1 entry.2) headers

variable {headers entries : Headers Name Value} {name other : Name} {value : Value}

theorem get_filter_of_ne (different : other ≠ name) :
    get (headers.filter fun entry => entry.1 ≠ name) other = headers.get other := by
  induction headers with
  | nil => rfl
  | cons entry rest ih =>
    obtain ⟨key, held⟩ := entry
    by_cases dropped : key = name
    · subst dropped
      rw [List.filter_cons_of_neg (by simp), ih, get, if_neg different.symm]
    · rw [List.filter_cons_of_pos (by simpa using dropped), get, get, ih]

theorem get_set_self (headers : Headers Name Value) (name : Name) (value : Value) :
    (headers.set name value).get name = some value := by
  induction headers with
  | nil => exact if_pos rfl
  | cons entry rest ih =>
    rw [set]
    split
    · exact if_pos rfl
    · next different => rwa [get, if_neg different]

theorem get_set_of_ne (different : other ≠ name) : (headers.set name value).get other = headers.get other := by
  induction headers with
  | nil => exact if_neg different.symm
  | cons entry rest ih =>
    obtain ⟨key, held⟩ := entry
    rw [set]
    split
    · next same =>
      obtain rfl : key = name := same
      rw [get, get, if_neg different.symm, if_neg different.symm, get_filter_of_ne different]
    · rw [get, get, ih]

theorem get_setAll_of_notMem (absent : name ∉ entries.map Prod.fst) :
    (headers.setAll entries).get name = headers.get name := by
  induction entries generalizing headers with
  | nil => rfl
  | cons entry rest ih =>
    rw [List.map_cons, List.mem_cons, not_or] at absent
    obtain ⟨different, behind⟩ := absent
    exact (ih behind).trans (get_set_of_ne different)

/-- After the assignments every name has the value it was assigned. -/
theorem get_setAll_of_mem (distinct : (entries.map Prod.fst).Nodup) {entry : Name × Value} (member : entry ∈ entries) :
    (headers.setAll entries).get entry.1 = some entry.2 := by
  induction entries generalizing headers with
  | nil => contradiction
  | cons first rest ih =>
    obtain ⟨once, distinct⟩ := List.nodup_cons.mp distinct
    rcases List.mem_cons.mp member with rfl | behind
    · exact (get_setAll_of_notMem once).trans (get_set_self ..)
    · exact ih distinct behind

end Headers
