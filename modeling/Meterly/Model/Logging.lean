import Meterly.Model.LogCalls

/-! # The logging facade

`_configure_structlog`: a call of the logger becomes a dictionary of the bound values, its keyword
arguments and its event; the processors then work on it in their order, and the last one renders a line.
Redaction looks at the names of the keys only, and the traceback of an exception is put in behind it.
-/

namespace Meterly

/-- `_REDACTED` -/
def redacted : String := "***redacted***"

/-- `_SENSITIVE_KEYS` -/
def sensitiveKeys : List String :=
  ["authorization", "api_key", "api_key_secret", "secret", "secret_hash", "password", "customer_id", "token"]

/-- The lower case of a character, as far as it is an ASCII letter: those of the capital letters and of the
Kelvin sign. -/
def lowerChar (c : Char) : Char :=
  if 'A' ≤ c ∧ c ≤ 'Z' then Char.ofNat (c.toNat + 32) else if c = '\u212a' then 'k' else c

/-- `str.lower`, as far as a comparison with an ASCII name can see it. -/
def lower (text : String) : String := String.ofList (text.toList.map lowerChar)

/-- A dictionary, in the order in which its keys came in. -/
abbrev EventDict := List (String × LogValue)

/-- `event_dict[key] = value` -/
def assign (dict : EventDict) (entry : String × LogValue) : EventDict :=
  if dict.any fun other => other.1 = entry.1 then
    dict.map fun other => if other.1 = entry.1 then entry else other
  else dict ++ [entry]

/-- `event_dict.setdefault(key, value)` -/
def setDefault (dict : EventDict) (entry : String × LogValue) : EventDict :=
  if dict.any fun other => other.1 = entry.1 then dict else dict ++ [entry]

/-- What the bound logger of `get_logger(service="meterly")` makes of a call. -/
def LogCall.eventDict (call : LogCall) : EventDict :=
  assign (call.fields.foldl assign [("service", .text "meterly")]) ("event", .text call.event)

/-- `merge_contextvars` -/
def mergeContextvars (bound dict : EventDict) : EventDict := bound.foldl setDefault dict

def LogMethod.name : LogMethod → String
  | info => "info"
  | warning => "warning"
  | error => "error"

/-- `_redact_sensitive_fields`, on one entry. -/
def redactEntry (entry : String × LogValue) : String × LogValue :=
  if lower entry.1 ∈ sensitiveKeys then (entry.1, .text redacted) else entry

/-- `_redact_sensitive_fields` -/
def redactSensitiveFields (dict : EventDict) : EventDict := dict.map redactEntry

/-- `replace("\r", "\\r").replace("\n", "\\n")`, on one character. -/
def neutralise (c : Char) : List Char :=
  if c = '\r' then ['\\', 'r'] else if c = '\n' then ['\\', 'n'] else [c]

/-- `_strip_control_characters`, on one value. -/
def stripValue : LogValue → LogValue
  | .text value => .text (String.ofList (value.toList.flatMap neutralise))
  | value => value

/-- `_strip_control_characters` -/
def stripControlCharacters (dict : EventDict) : EventDict := dict.map fun entry => (entry.1, stripValue entry.2)

/-- `format_exc_info` -/
def formatExcInfo (excInfo : Option String) (dict : EventDict) : EventDict :=
  excInfo.elim dict fun traceback => assign dict ("exception", .text traceback)

/-- `merge_contextvars`, `add_log_level` and `TimeStamper` -/
def gathered (bound : EventDict) (timestamp : String) (call : LogCall) : EventDict :=
  assign (assign (mergeContextvars bound call.eventDict) ("level", .text call.method.name)) ("timestamp", .text timestamp)

/-- The processors up to the renderer; no call passes `stack_info`. -/
def processed (bound : EventDict) (timestamp : String) (call : LogCall) : EventDict :=
  formatExcInfo call.excInfo (stripControlCharacters (redactSensitiveFields (gathered bound timestamp call)))

/-- The line of a call. -/
def rendered (bound : EventDict) (timestamp : String) (call : LogCall) : List Char :=
  Json.dumps (processed bound timestamp call)

/-- A call as it is after redaction. -/
def LogCall.redact (call : LogCall) : LogCall := { call with fields := call.fields.map redactEntry }

section Redaction

@[simp] theorem redactEntry_fst (entry : String × LogValue) : (redactEntry entry).1 = entry.1 := by
  unfold redactEntry
  split <;> rfl

@[simp] theorem redactEntry_redactEntry (entry : String × LogValue) :
    redactEntry (redactEntry entry) = redactEntry entry := by
  by_cases sensitive : lower entry.1 ∈ sensitiveKeys
  · simp only [redactEntry, if_pos sensitive]
  · simp only [redactEntry, if_neg sensitive]

theorem any_redactSensitiveFields (dict : EventDict) (key : String) :
    ((redactSensitiveFields dict).any fun other => other.1 = key) = dict.any fun other => other.1 = key := by
  simp only [redactSensitiveFields, List.any_map, Function.comp_def, redactEntry_fst]

theorem redactSensitiveFields_assign (dict : EventDict) (entry : String × LogValue) :
    redactSensitiveFields (assign dict entry) = assign (redactSensitiveFields dict) (redactEntry entry) := by
  rw [assign, assign, redactEntry_fst, any_redactSensitiveFields]
  split
  · simp only [redactSensitiveFields, List.map_map]
    apply List.map_congr_left
    intro other _
    simp only [Function.comp_apply, redactEntry_fst, apply_ite redactEntry]
  · simp only [redactSensitiveFields, List.map_append, List.map_singleton]

theorem redactSensitiveFields_setDefault (dict : EventDict) (entry : String × LogValue) :
    redactSensitiveFields (setDefault dict entry) = setDefault (redactSensitiveFields dict) (redactEntry entry) := by
  rw [setDefault, setDefault, redactEntry_fst, any_redactSensitiveFields]
  split
  · rfl
  · simp only [redactSensitiveFields, List.map_append, List.map_singleton]

theorem redactSensitiveFields_foldl_assign (fields dict : EventDict) :
    redactSensitiveFields (fields.foldl assign dict) =
      (redactSensitiveFields fields).foldl assign (redactSensitiveFields dict) := by
  induction fields generalizing dict with
  | nil => rfl
  | cons entry rest ih =>
    rw [List.foldl_cons, ih, redactSensitiveFields_assign]
    rfl

theorem redactSensitiveFields_mergeContextvars (bound dict : EventDict) :
    redactSensitiveFields (mergeContextvars bound dict) =
      mergeContextvars (redactSensitiveFields bound) (redactSensitiveFields dict) := by
  induction bound generalizing dict with
  | nil => rfl
  | cons entry rest ih =>
    simp only [mergeContextvars, List.foldl_cons] at ih ⊢
    rw [ih, redactSensitiveFields_setDefault]
    rfl

/-- A line shows of a call only what redaction leaves of it. -/
theorem processed_redact (bound : EventDict) (timestamp : String) (call : LogCall) :
    processed bound timestamp call.redact = processed bound timestamp call := by
  have fields : redactSensitiveFields (call.fields.map redactEntry) = redactSensitiveFields call.fields := by
    simp only [redactSensitiveFields, List.map_map, Function.comp_def, redactEntry_redactEntry]
  have dict : redactSensitiveFields call.redact.eventDict = redactSensitiveFields call.eventDict := by
    simp only [LogCall.eventDict, LogCall.redact, redactSensitiveFields_assign, redactSensitiveFields_foldl_assign,
      fields]
  simp only [processed, gathered, redactSensitiveFields_assign, redactSensitiveFields_mergeContextvars, dict]
  rfl

end Redaction

section Lookup

variable {dict bound : EventDict} {entry : String × LogValue} {key : String}

end Lookup

end Meterly
