import Mathlib
import Meterly.Text.Json

/-! # Reading JSON text back

A reader for flat objects in the layout of `json.dumps`, one object on each line. It is strict about what can
be misread: a control character inside a string, an unknown escape and a lone surrogate are refused.
What `dumps` writes is read back as it was, and holds printable ASCII only, so that a line break in a
text is a line break between two objects.
-/

namespace Json

/-- Where the reader of a string stands. -/
inductive Place where
  | text
  | escape
  | unit (high : Option ℕ) (left value : ℕ)
  | pair (high : ℕ)
  | pairEscape (high : ℕ)

def hexValue (c : Char) : Option ℕ :=
  if '0' ≤ c ∧ c ≤ '9' then some (c.toNat - 48)
  else if 'a' ≤ c ∧ c ≤ 'f' then some (c.toNat - 87)
  else if 'A' ≤ c ∧ c ≤ 'F' then some (c.toNat - 55)
  else none

/-- The character that a short escape stands for. -/
def unescape : Char → Option Char
  | '"' => some '"'
  | '\\' => some '\\'
  | '/' => some '/'
  | 'b' => some '\x08'
  | 'f' => some '\x0c'
  | 'n' => some '\n'
  | 'r' => some '\r'
  | 't' => some '\t'
  | _ => none

/-- Put a character in front of what is read behind it. -/
def push (c : Char) (read : Option (List Char × List Char)) : Option (List Char × List Char) :=
  read.map (Prod.map (List.cons c) id)

/-- The characters of a string up to the quote that closes it, and what stands behind it. -/
def readText : Place → List Char → Option (List Char × List Char)
  | _, [] => none
  | .text, c :: rest =>
    if c = '"' then some ([], rest)
    else if c = '\\' then readText .escape rest
    else if c.toNat < 0x20 then none
    else push c (readText .text rest)
  | .escape, c :: rest =>
    if c = 'u' then readText (.unit none 4 0) rest
    else (unescape c).bind fun meant => push meant (readText .text rest)
  | .unit high left value, c :: rest =>
    match hexValue c with
    | none => none
    | some digit =>
      let value := 16 * value + digit
      if 1 < left then readText (.unit high (left - 1) value) rest
      else
        match high with
        | none =>
          if 0xd800 ≤ value ∧ value < 0xdc00 then readText (.pair value) rest
          else if 0xdc00 ≤ value ∧ value < 0xe000 then none
          else push (Char.ofNat value) (readText .text rest)
        | some high =>
          if 0xdc00 ≤ value ∧ value < 0xe000 then
            push (Char.ofNat (0x10000 + (high - 0xd800) * 1024 + (value - 0xdc00))) (readText .text rest)
          else none
  | .pair high, c :: rest => if c = '\\' then readText (.pairEscape high) rest else none
  | .pairEscape high, c :: rest => if c = 'u' then readText (.unit (some high) 4 0) rest else none

/-- The digits of a float: no integer looks like them. -/
def isFloatText (digits : List Char) : Bool :=
  digits.all (fun c => c.isDigit || c = '+' || c = '-' || c = '.' || c = 'e') && digits.any fun c => c = '.' || c = 'e'

/-- A value that is written without quotes. -/
def readScalar (word : List Char) : Option Value :=
  if word = "null".toList then some .null
  else if word = "true".toList then some (.bool true)
  else if word = "false".toList then some (.bool false)
  else if isFloatText word then some (.float (String.ofList word))
  else (String.ofList word).toInt?.map .int

/-- No value without quotes goes on here. -/
def endsScalar (c : Char) : Bool := c = ',' || c = '}'

def readValue : List Char → Option (Value × List Char)
  | '"' :: rest => (readText .text rest).map (Prod.map (fun text => .text (String.ofList text)) id)
  | text => (readScalar (text.takeWhile fun c => !endsScalar c)).map fun value =>
    (value, text.dropWhile fun c => !endsScalar c)

def readEntry : List Char → Option ((String × Value) × List Char)
  | '"' :: rest =>
    match readText .text rest with
    | some (key, ':' :: ' ' :: rest) => (readValue rest).map (Prod.map (Prod.mk (String.ofList key)) id)
    | _ => none
  | _ => none

/-- The entries of an object, no more of them than given. -/
def readEntries : ℕ → List Char → Option (List (String × Value) × List Char)
  | 0, _ => none
  | most + 1, text =>
    match readEntry text with
    | some (entry, '}' :: rest) => some ([entry], rest)
    | some (entry, ',' :: ' ' :: rest) => (readEntries most rest).map (Prod.map (List.cons entry) id)
    | _ => none

/-- A text that is one object. -/
def readObject : List Char → Option (List (String × Value))
  | ['{', '}'] => some []
  | '{' :: rest =>
    match readEntries rest.length rest with
    | some (entries, []) => some entries
    | _ => none
  | _ => none

/-- The lines of a text that ends each with a line break. -/
def readLines : List Char → Option (List (List Char))
  | [] => some []
  | c :: rest =>
    if c = '\n' then (readLines rest).map (List.cons [])
    else
      match readLines rest with
      | some (line :: lines) => some ((c :: line) :: lines)
      | _ => none

/-- A text of objects, one on each line. -/
def readStream (text : List Char) : Option (List (List (String × Value))) := (readLines text).bind (List.mapM readObject)

/-- A float is kept by digits that are those of a float. -/
def Value.IsWritten : Value → Prop
  | float digits => isFloatText digits.toList
  | _ => True

instance (value : Value) : Decidable value.IsWritten := by
  cases value <;> unfold Value.IsWritten <;> infer_instance

/-! ## Strings -/

theorem hexValue_hexDigit {n : ℕ} (small : n < 16) : hexValue (hexDigit n) = some n := by
  revert n
  decide

variable {rest : List Char}

/-- The four digits of a code unit are read as the unit. -/
theorem readText_unit (high : Option ℕ) {n : ℕ} (small : n < 0x10000) :
    readText (.unit high 4 0) (hexDigit (n / 4096 % 16) :: hexDigit (n / 256 % 16) :: hexDigit (n / 16 % 16) ::
      hexDigit (n % 16) :: rest) =
        match high with
        | none =>
          if 0xd800 ≤ n ∧ n < 0xdc00 then readText (.pair n) rest
          else if 0xdc00 ≤ n ∧ n < 0xe000 then none
          else push (Char.ofNat n) (readText .text rest)
        | some high =>
          if 0xdc00 ≤ n ∧ n < 0xe000 then
            push (Char.ofNat (0x10000 + (high - 0xd800) * 1024 + (n - 0xdc00))) (readText .text rest)
          else none := by
  have digits (m : ℕ) : hexValue (hexDigit (m % 16)) = some (m % 16) := hexValue_hexDigit (Nat.mod_lt _ (by decide))
  have value : 16 * (16 * (16 * (16 * 0 + n / 4096 % 16) + n / 256 % 16) + n / 16 % 16) + n % 16 = n := by omega
  simp only [readText, digits, value]
  rfl

theorem readText_unicodeEscape {n : ℕ} (small : n < 0x10000) :
    readText .text (unicodeEscape n ++ rest) =
      if 0xd800 ≤ n ∧ n < 0xdc00 then readText (.pair n) rest
      else if 0xdc00 ≤ n ∧ n < 0xe000 then none
      else push (Char.ofNat n) (readText .text rest) := by
  rw [unicodeEscape, List.cons_append, List.cons_append, readText, if_neg (by decide), if_pos rfl, readText, if_pos rfl]
  exact readText_unit none small

theorem readText_pair (high : ℕ) {n : ℕ} (low : 0xdc00 ≤ n ∧ n < 0xe000) :
    readText (.pair high) (unicodeEscape n ++ rest) =
      push (Char.ofNat (0x10000 + (high - 0xd800) * 1024 + (n - 0xdc00))) (readText .text rest) := by
  rw [unicodeEscape, List.cons_append, List.cons_append, readText, if_pos rfl, readText, if_pos rfl]
  exact (readText_unit (some high) (by omega)).trans (if_pos low)

/-- What is written for a character is read as the character. -/
theorem readText_escapeChar (c : Char) : readText .text (escapeChar c ++ rest) = push c (readText .text rest) := by
  unfold escapeChar
  split
  · rfl
  · rfl
  · rfl
  · rfl
  · rfl
  · rfl
  · rfl
  · next quote backslash _ _ _ _ _ =>
    split_ifs with printable basic
    · have visible : ¬ c.toNat < 0x20 := by omega
      rw [List.singleton_append, readText, if_neg quote, if_neg backslash, if_neg visible]
    · -- A character is no surrogate.
      have valid : c.toNat < 0xd800 ∨ 0xdfff < c.toNat ∧ c.toNat < 0x110000 := c.valid
      rw [readText_unicodeEscape basic, if_neg (by omega), if_neg (by omega), Char.ofNat_toNat]
    · have valid : c.toNat < 0xd800 ∨ 0xdfff < c.toNat ∧ c.toNat < 0x110000 := c.valid
      have whole : 0x10000 + (0xd800 + (c.toNat - 0x10000) / 1024 - 0xd800) * 1024 +
          (0xdc00 + (c.toNat - 0x10000) % 1024 - 0xdc00) = c.toNat := by omega
      rw [List.append_assoc, readText_unicodeEscape (by omega), if_pos (by omega), readText_pair _ (by omega), whole,
        Char.ofNat_toNat]

/-- A string is read back up to its closing quote. -/
theorem readText_flatMap (text : List Char) :
    readText .text (text.flatMap escapeChar ++ '"' :: rest) = some (text, rest) := by
  induction text with
  | nil => rfl
  | cons c text ih => rw [List.flatMap_cons, List.append_assoc, readText_escapeChar, ih]; rfl

/-! ## Values and objects -/

/-- Nothing in a value that is written without quotes looks like its end. -/
theorem readScalar_span {word : List Char} (inside : ∀ c ∈ word, endsScalar c = false) {ending : Char}
    (ends : endsScalar ending) : (word ++ ending :: rest).takeWhile (fun c => !endsScalar c) = word ∧
      (word ++ ending :: rest).dropWhile (fun c => !endsScalar c) = ending :: rest := by
  have keeps : ∀ c ∈ word, (!endsScalar c) = true := fun c member => by rw [inside c member]; rfl
  constructor
  · rw [List.takeWhile_append_of_pos keeps, List.takeWhile_cons_of_neg (by rw [ends]; decide), List.append_nil]
  · rw [List.dropWhile_append_of_pos keeps, List.dropWhile_cons_of_neg (by rw [ends]; decide)]

theorem mem_toString_int {value : ℤ} {c : Char} (member : c ∈ (toString value).toList) : c.isDigit ∨ c = '-' := by
  have natural : ∀ n : ℕ, c ∈ n.repr.toList → c.isDigit := by
    intro n member
    rw [Nat.toList_repr] at member
    exact Nat.isDigit_of_mem_toDigits (by decide) (by decide) member
  cases value with
  | ofNat n => exact .inl (natural n member)
  | negSucc n =>
    have written : (toString (Int.negSucc n)).toList = '-' :: (n + 1).repr.toList := by
      simp [Int.toString_eq_repr, Int.repr]
    rw [written] at member
    rcases List.mem_cons.mp member with minus | digit
    · exact .inr minus
    · exact .inl (natural (n + 1) digit)

/-- A character of a number. -/
def IsNumeric (c : Char) : Prop := c.isDigit ∨ c = '+' ∨ c = '-' ∨ c = '.' ∨ c = 'e'

instance (c : Char) : Decidable (IsNumeric c) := inferInstanceAs (Decidable (_ ∨ _))

theorem IsNumeric.range {c : Char} (numeric : IsNumeric c) : 0x20 ≤ c.toNat ∧ c.toNat ≤ 0x7e := by
  rcases numeric with digit | rfl | rfl | rfl | rfl
  · obtain ⟨low, high⟩ : 48 ≤ c.toNat ∧ c.toNat ≤ 57 := Char.isDigit_iff_toNat.mp digit
    omega
  all_goals decide

/-- No character of a number is a delimiter, a quote or a letter of a constant that starts with one. -/
theorem IsNumeric.ne {c : Char} (numeric : IsNumeric c) :
    c ≠ '"' ∧ endsScalar c = false ∧ c ≠ 'n' ∧ c ≠ 't' ∧ c ≠ 'f' := by
  have other : ∀ d : Char, ¬ IsNumeric d → c ≠ d := by
    rintro d letter rfl
    exact letter numeric
  have comma := other ',' (by decide)
  have brace := other '}' (by decide)
  refine ⟨other '"' (by decide), ?_, other 'n' (by decide), other 't' (by decide), other 'f' (by decide)⟩
  simp only [endsScalar, comma, brace, decide_false, Bool.or_self]

theorem readScalar_of_isNumeric {word : List Char} (numeric : ∀ c ∈ word, IsNumeric c) : readScalar word =
    if isFloatText word then some (.float (String.ofList word)) else (String.ofList word).toInt?.map .int := by
  have differs : ∀ {c : Char} {rest : List Char}, ¬ IsNumeric c → word ≠ c :: rest := by
    rintro c rest letter rfl
    exact letter (numeric c (List.mem_cons_self ..))
  have null : word ≠ "null".toList := differs (by decide)
  have yes : word ≠ "true".toList := differs (by decide)
  have no : word ≠ "false".toList := differs (by decide)
  rw [readScalar, if_neg null, if_neg yes, if_neg no]

theorem isNumeric_of_isFloatText {word : List Char} (float : isFloatText word) : ∀ c ∈ word, IsNumeric c := by
  intro c member
  rw [isFloatText, Bool.and_eq_true, List.all_eq_true] at float
  have allowed := float.1 c member
  simp only [Bool.or_eq_true, decide_eq_true_eq] at allowed
  unfold IsNumeric
  tauto

theorem isNumeric_of_mem_toString_int {value : ℤ} {c : Char} (member : c ∈ (toString value).toList) : IsNumeric c := by
  rcases mem_toString_int member with digit | minus
  · exact .inl digit
  · exact .inr (.inr (.inl minus))

theorem readScalar_int (value : ℤ) : readScalar (toString value).toList = some (.int value) := by
  have whole : isFloatText (toString value).toList = false := by
    rw [isFloatText, Bool.and_eq_false_iff]
    right
    rw [List.any_eq_false]
    intro c member
    rcases mem_toString_int member with digit | rfl
    · have point : c ≠ '.' := by rintro rfl; exact absurd digit (by decide)
      have exponent : c ≠ 'e' := by rintro rfl; exact absurd digit (by decide)
      simp [point, exponent]
    · decide
  rw [readScalar_of_isNumeric fun c => isNumeric_of_mem_toString_int, whole, String.ofList_toList]
  exact congrArg (Option.map Value.int) (Int.toInt?_repr value)

/-- A value that is written without quotes is read up to the delimiter behind it. -/
theorem readValue_scalar {word : List Char} {value : Value} (quoteless : ∀ c ∈ word, c ≠ '"')
    (inside : ∀ c ∈ word, endsScalar c = false) (read : readScalar word = some value) {ending : Char}
    (ends : endsScalar ending) : readValue (word ++ ending :: rest) = some (value, ending :: rest) := by
  obtain ⟨taken, left⟩ : (word ++ ending :: rest).takeWhile (fun c => !endsScalar c) = word ∧
      (word ++ ending :: rest).dropWhile (fun c => !endsScalar c) = ending :: rest := readScalar_span inside ends
  have unquoted : ∀ tail, word ++ ending :: rest ≠ '"' :: tail := by
    intro tail same
    cases word with
    | nil =>
      obtain rfl := (List.cons.inj same).1
      exact absurd ends (by decide)
    | cons c word => exact quoteless c (List.mem_cons_self ..) (List.cons.inj same).1
  unfold readValue
  split
  · next same => exact absurd same (unquoted _)
  · rw [taken, left, read]
    rfl

theorem readValue_dumpValue {value : Value} (written : value.IsWritten) {ending : Char} (ends : endsScalar ending) :
    readValue (dumpValue value ++ ending :: rest) = some (value, ending :: rest) := by
  cases value with
  | null =>
    have word : dumpValue .null = ['n', 'u', 'l', 'l'] := rfl
    rw [word]
    exact readValue_scalar (by simp) (by simp [endsScalar]) rfl ends
  | bool value =>
    cases value with
    | true =>
      have word : dumpValue (.bool true) = ['t', 'r', 'u', 'e'] := rfl
      rw [word]
      exact readValue_scalar (by simp) (by simp [endsScalar]) rfl ends
    | false =>
      have word : dumpValue (.bool false) = ['f', 'a', 'l', 's', 'e'] := rfl
      rw [word]
      exact readValue_scalar (by simp) (by simp [endsScalar]) rfl ends
  | int value =>
    exact readValue_scalar (fun c member => (isNumeric_of_mem_toString_int member).ne.1)
      (fun c member => (isNumeric_of_mem_toString_int member).ne.2.1) (readScalar_int value) ends
  | float digits =>
    have numeric := isNumeric_of_isFloatText written
    refine readValue_scalar (fun c member => (numeric c member).ne.1) (fun c member => (numeric c member).ne.2.1) ?_ ends
    rw [readScalar_of_isNumeric numeric, String.ofList_toList]
    exact if_pos written
  | text value =>
    have body : dumpValue (.text value) ++ ending :: rest =
        '"' :: (value.toList.flatMap escapeChar ++ '"' :: ending :: rest) := by simp [dumpValue, dumpText]
    rw [body, readValue, readText_flatMap]
    simp only [Option.map_some, Prod.map_apply, String.ofList_toList, id]

theorem readEntry_dumpEntry {entry : String × Value} (written : entry.2.IsWritten) {ending : Char}
    (ends : endsScalar ending) : readEntry (dumpEntry entry ++ ending :: rest) = some (entry, ending :: rest) := by
  obtain ⟨key, value⟩ := entry
  have body : dumpEntry (key, value) ++ ending :: rest =
      '"' :: (key.toList.flatMap escapeChar ++ '"' :: ':' :: ' ' :: (dumpValue value ++ ending :: rest)) := by
    simp [dumpEntry, dumpText]
  rw [body, readEntry, readText_flatMap]
  simp only [readValue_dumpValue written ends, Option.map_some, Prod.map_apply, String.ofList_toList, id]

theorem readEntries_intercalate {entries : List (String × Value)} (nonempty : entries ≠ [])
    (written : ∀ entry ∈ entries, entry.2.IsWritten) {most : ℕ} (enough : entries.length ≤ most) :
    readEntries most ([',', ' '].intercalate (entries.map dumpEntry) ++ '}' :: rest) = some (entries, rest) := by
  induction entries generalizing most with
  | nil => contradiction
  | cons entry others ih =>
    obtain ⟨most, rfl⟩ : ∃ fewer, most = fewer + 1 := Nat.exists_eq_add_one.mpr (Nat.lt_of_lt_of_le Nat.succ_pos' enough)
    have first := written entry (List.mem_cons_self ..)
    cases others with
    | nil =>
      rw [List.map_singleton, List.intercalate_singleton, readEntries, readEntry_dumpEntry first rfl]
      rfl
    | cons next others =>
      have later := ih (List.cons_ne_nil _ _) (fun other member => written other (List.mem_cons_of_mem entry member))
        (Nat.le_of_succ_le_succ enough)
      rw [List.map_cons] at later
      rw [List.map_cons, List.map_cons, List.intercalate_cons_cons, List.append_assoc, List.append_assoc, readEntries,
        List.cons_append, List.cons_append, List.nil_append, readEntry_dumpEntry first rfl]
      simp only [later, Option.map_some, Prod.map_apply, id]

theorem length_le_intercalate (entries : List (String × Value)) :
    entries.length ≤ ([',', ' '].intercalate (entries.map dumpEntry)).length := by
  induction entries with
  | nil => exact Nat.le_refl 0
  | cons entry others ih =>
    have first : 0 < (dumpEntry entry).length := Nat.succ_pos _
    cases others with
    | nil =>
      rw [List.map_singleton, List.intercalate_singleton]
      exact first
    | cons next others =>
      rw [List.map_cons, List.map_cons, List.intercalate_cons_cons, List.length_append, List.length_append,
        List.length_cons]
      rw [List.map_cons] at ih
      omega

/-- What `dumps` writes of an object is read back as the object. -/
theorem readObject_dumps {entries : List (String × Value)} (written : ∀ entry ∈ entries, entry.2.IsWritten) :
    readObject (dumps entries) = some entries := by
  cases entries with
  | nil => rfl
  | cons entry others =>
    have enough := length_le_intercalate (entry :: others)
    have nonempty : [',', ' '].intercalate ((entry :: others).map dumpEntry) ≠ [] :=
      List.ne_nil_of_length_pos (Nat.lt_of_lt_of_le (Nat.succ_pos _) enough)
    have read : ∀ most, ([',', ' '].intercalate ((entry :: others).map dumpEntry)).length ≤ most →
        readEntries most ([',', ' '].intercalate ((entry :: others).map dumpEntry) ++ ['}']) =
          some (entry :: others, []) := fun most more =>
      readEntries_intercalate (List.cons_ne_nil entry others) written (Nat.le_trans enough more)
    rw [dumps, List.cons_append]
    generalize [',', ' '].intercalate ((entry :: others).map dumpEntry) = body at nonempty read
    unfold readObject
    split
    · next same =>
      have short := congrArg List.length same
      simp only [List.length_cons, List.length_append, List.length_nil] at short
      exact absurd (List.length_eq_zero_iff.mp (by omega)) nonempty
    · next tail _ same =>
      obtain rfl := (List.cons.inj same).2
      rw [read _ (by rw [List.length_append]; omega)]
    · next other => exact absurd rfl (other _)

/-! ## Lines -/

/-- Printable ASCII. -/
def IsPrintable (c : Char) : Prop := 0x20 ≤ c.toNat ∧ c.toNat ≤ 0x7e

instance (c : Char) : Decidable (IsPrintable c) := inferInstanceAs (Decidable (_ ∧ _))

theorem isPrintable_hexDigit {n : ℕ} (small : n < 16) : IsPrintable (hexDigit n) := by
  revert n
  decide

theorem isPrintable_unicodeEscape {n : ℕ} {c : Char} (member : c ∈ unicodeEscape n) : IsPrintable c := by
  simp only [unicodeEscape, List.mem_cons, List.not_mem_nil, or_false] at member
  rcases member with rfl | rfl | rfl | rfl | rfl | rfl
  · decide
  · decide
  all_goals exact isPrintable_hexDigit (Nat.mod_lt _ (by decide))

theorem isPrintable_escapeChar {d c : Char} (member : c ∈ escapeChar d) : IsPrintable c := by
  unfold escapeChar at member
  split at member
  all_goals try
    simp only [List.mem_cons, List.not_mem_nil, or_false] at member
    rcases member with rfl | rfl <;> decide
  split_ifs at member with printable basic
  · obtain rfl := List.mem_singleton.mp member
    exact printable
  · exact isPrintable_unicodeEscape member
  · exact (List.mem_append.mp member).elim isPrintable_unicodeEscape isPrintable_unicodeEscape

theorem isPrintable_dumpText {text : String} {c : Char} (member : c ∈ dumpText text) : IsPrintable c := by
  simp only [dumpText, List.cons_append, List.mem_cons, List.mem_append, List.mem_flatMap, List.not_mem_nil,
    or_false] at member
  rcases member with rfl | ⟨d, -, escaped⟩ | rfl
  · decide
  · exact isPrintable_escapeChar escaped
  · decide

theorem isPrintable_dumpValue {value : Value} (written : value.IsWritten) {c : Char} (member : c ∈ dumpValue value) :
    IsPrintable c := by
  cases value with
  | null =>
    have word : dumpValue .null = ['n', 'u', 'l', 'l'] := rfl
    simp only [word, List.mem_cons, List.not_mem_nil, or_false] at member
    rcases member with rfl | rfl | rfl | rfl <;> decide
  | bool value =>
    cases value with
    | true =>
      have word : dumpValue (.bool true) = ['t', 'r', 'u', 'e'] := rfl
      simp only [word, List.mem_cons, List.not_mem_nil, or_false] at member
      rcases member with rfl | rfl | rfl | rfl <;> decide
    | false =>
      have word : dumpValue (.bool false) = ['f', 'a', 'l', 's', 'e'] := rfl
      simp only [word, List.mem_cons, List.not_mem_nil, or_false] at member
      rcases member with rfl | rfl | rfl | rfl | rfl <;> decide
  | int value => exact (isNumeric_of_mem_toString_int member).range
  | float digits => exact (isNumeric_of_isFloatText written c member).range
  | text value => exact isPrintable_dumpText member

/-- An object is written in printable ASCII. -/
theorem isPrintable_dumps {entries : List (String × Value)} (written : ∀ entry ∈ entries, entry.2.IsWritten) {c : Char}
    (member : c ∈ dumps entries) : IsPrintable c := by
  have entryPrintable : ∀ entry ∈ entries, ∀ c ∈ dumpEntry entry, IsPrintable c := by
    intro entry present c member
    simp only [dumpEntry, List.mem_append, List.mem_cons] at member
    rcases member with key | rfl | rfl | value
    · exact isPrintable_dumpText key
    · decide
    · decide
    · exact isPrintable_dumpValue (written entry present) value
  cases entries with
  | nil =>
    simp only [dumps, List.map_nil, List.intercalate_nil, List.cons_append, List.nil_append, List.mem_cons,
      List.not_mem_nil, or_false] at member
    rcases member with rfl | rfl <;> decide
  | cons entry others =>
    rw [← List.nil_append (entry :: others), dumps_append_cons] at member
    simp only [List.flatMap_nil, List.cons_append, List.nil_append, List.mem_cons, List.mem_append, List.mem_flatMap,
      List.not_mem_nil, or_false] at member
    rcases member with rfl | (first | ⟨other, present, rfl | rfl | later⟩) | rfl
    · decide
    · exact entryPrintable entry (List.mem_cons_self ..) c first
    · decide
    · decide
    · exact entryPrintable other (List.mem_cons_of_mem entry present) c later
    · decide

/-- Lines without line breaks in them are told apart. -/
theorem readLines_flatMap {lines : List (List Char)} (whole : ∀ line ∈ lines, '\n' ∉ line) :
    readLines (lines.flatMap fun line => line ++ ['\n']) = some lines := by
  induction lines with
  | nil => rfl
  | cons line lines ih =>
    obtain ⟨first, later⟩ := List.forall_mem_cons.mp whole
    rw [List.flatMap_cons, List.append_assoc, List.singleton_append]
    induction line with
    | nil => rw [List.nil_append, readLines, if_pos rfl, ih later]; rfl
    | cons c line inner =>
      rw [List.mem_cons, not_or] at first
      obtain ⟨differs, rest⟩ := first
      rw [List.cons_append, readLines, if_neg (Ne.symm differs), inner (List.forall_mem_cons.mpr ⟨rest, later⟩) rest]

/-- A stream of objects, one on each line, is read back as these objects. -/
theorem readStream_flatMap_dumps {objects : List (List (String × Value))}
    (written : ∀ entries ∈ objects, ∀ entry ∈ entries, entry.2.IsWritten) :
    readStream (objects.flatMap fun entries => dumps entries ++ ['\n']) = some objects := by
  have whole : ∀ line ∈ objects.map dumps, '\n' ∉ line := by
    intro line member breaks
    obtain ⟨entries, present, rfl⟩ := List.mem_map.mp member
    exact absurd (isPrintable_dumps (written entries present) breaks) (by decide)
  have lines := readLines_flatMap whole
  rw [List.flatMap_map] at lines
  rw [readStream, lines, Option.bind_some]
  clear lines whole
  induction objects with
  | nil => rfl
  | cons entries objects ih =>
    obtain ⟨first, later⟩ := List.forall_mem_cons.mp written
    rw [List.map_cons, List.mapM_cons, readObject_dumps first, ih later]
    rfl

end Json
