import Mathlib.Data.List.Basic

/-! # Comma-separated values

The grammar of RFC 4180 read as a parser, and a writer that quotes a field only where it must: where
the field holds a comma, a quote or a line break. Records end in CRLF; the last one may lack it. A
field is a list of characters of any kind. What the writer writes is read back as it was, field by
field, whatever the fields hold. A writer writes into a text buffer.
-/

namespace Rfc4180

/-- A field of a record. -/
abbrev Field := List Char

/-! ## Writing -/

/-- A character that cannot stand in a field without quotes. -/
def special (c : Char) : Bool := c = ',' || c = '"' || c = '\r' || c = '\n'

/-- Double every quote. -/
def doubled (field : Field) : List Char := field.flatMap fun c => if c = '"' then ['"', '"'] else [c]

/-- A field with quotes around it where it needs them. -/
def writeField (field : Field) : List Char :=
  if field.any special then '"' :: (doubled field ++ ['"']) else field

/-- A record, with its line break. -/
def writeRecord (fields : List Field) : List Char := [','].intercalate (fields.map writeField) ++ ['\r', '\n']

/-- All records, one after the other. -/
def write (records : List (List Field)) : List Char := records.flatMap writeRecord

@[simp] theorem write_nil : write [] = [] := rfl

@[simp] theorem write_append (first second : List (List Field)) : write (first ++ second) = write first ++ write second :=
  List.flatMap_append

/-! ## Reading -/

/-- Where a reader stands within a record: in a field without quotes, between quotes, behind a quote
that ends the field unless another one follows, or in the line break. -/
inductive Place where
  | plain (field : Field)
  | quoted (field : Field)
  | closing (field : Field)
  | breaking

/-- Read a text from within a record. -/
def readFrom (fields : List Field) : Place → List Char → Option (List (List Field))
  | .plain field, [] => some [fields ++ [field]]
  | .plain field, c :: rest =>
    if c = ',' then readFrom (fields ++ [field]) (.plain []) rest
    else if c = '"' then (if field = [] then readFrom fields (.quoted []) rest else none)
    else if c = '\r' then readFrom (fields ++ [field]) .breaking rest
    else if c = '\n' then none
    else readFrom fields (.plain (field ++ [c])) rest
  | .quoted _, [] => none
  | .quoted field, c :: rest =>
    if c = '"' then readFrom fields (.closing field) rest else readFrom fields (.quoted (field ++ [c])) rest
  | .closing field, [] => some [fields ++ [field]]
  | .closing field, c :: rest =>
    if c = '"' then readFrom fields (.quoted (field ++ ['"'])) rest
    else if c = ',' then readFrom (fields ++ [field]) (.plain []) rest
    else if c = '\r' then readFrom (fields ++ [field]) .breaking rest
    else none
  | .breaking, [] => none
  | .breaking, c :: rest =>
    if c ≠ '\n' then none
    else if rest = [] then some [fields]
    else (readFrom [] (.plain []) rest).map (fields :: ·)

/-- The records of a text; an ill-formed text has none. -/
def read (text : List Char) : Option (List (List Field)) :=
  if text = [] then some [] else readFrom [] (.plain []) text

/-! ## What is written is read back -/

/-- The reader stands behind a field, whether it was quoted or not. -/
def Place.Behind (field : Field) (place : Place) : Prop := place = .plain field ∨ place = .closing field

variable {fields : List Field} {field : Field} {place : Place} {rest : List Char}

theorem readFrom_comma (behind : place.Behind field) :
    readFrom fields place (',' :: rest) = readFrom (fields ++ [field]) (.plain []) rest := by
  rcases behind with rfl | rfl
  · rw [readFrom, if_pos rfl]
  · rw [readFrom, if_neg (by decide), if_pos rfl]

theorem readFrom_lineBreak (behind : place.Behind field) : readFrom fields place ('\r' :: '\n' :: rest) =
    if rest = [] then some [fields ++ [field]]
    else (readFrom [] (.plain []) rest).map ((fields ++ [field]) :: ·) := by
  rcases behind with rfl | rfl
  · rw [readFrom, if_neg (by decide), if_neg (by decide), if_pos rfl, readFrom, if_neg (not_not_intro rfl)]
  · rw [readFrom, if_neg (by decide), if_neg (by decide), if_pos rfl, readFrom, if_neg (not_not_intro rfl)]

theorem readFrom_plain (seen : Field) (plain : ¬ field.any special) :
    readFrom fields (.plain seen) (field ++ rest) = readFrom fields (.plain (seen ++ field)) rest := by
  induction field generalizing seen with
  | nil => rw [List.nil_append, List.append_nil]
  | cons c field ih =>
    simp only [List.any_cons, Bool.or_eq_true, special, decide_eq_true_eq, not_or] at plain ih
    obtain ⟨⟨⟨⟨comma, quote⟩, return_⟩, feed⟩, others⟩ := plain
    rw [List.cons_append, readFrom, if_neg comma, if_neg quote, if_neg return_, if_neg feed, ih _ others,
      List.append_assoc]
    rfl

theorem readFrom_quoted (seen : Field) : readFrom fields (.quoted seen) (doubled field ++ '"' :: rest) =
    readFrom fields (.closing (seen ++ field)) rest := by
  induction field generalizing seen with
  | nil =>
    rw [List.append_nil]
    exact if_pos rfl
  | cons c field ih =>
    by_cases quote : c = '"'
    · subst c
      have split : doubled ('"' :: field) = '"' :: '"' :: doubled field := rfl
      rw [split, List.cons_append, List.cons_append, readFrom, if_pos rfl, readFrom, if_pos rfl, ih, List.append_assoc]
      rfl
    · have split : doubled (c :: field) = c :: doubled field := by
        rw [doubled, List.flatMap_cons, if_neg quote]
        rfl
      rw [split, List.cons_append, readFrom, if_neg quote, ih, List.append_assoc]
      rfl

/-- A written field is read as it was. -/
theorem readFrom_writeField (fields : List Field) (field : Field) (rest : List Char) : ∃ place : Place,
    place.Behind field ∧ readFrom fields (.plain []) (writeField field ++ rest) = readFrom fields place rest := by
  rw [writeField]
  split_ifs with quotes
  · refine ⟨.closing field, .inr rfl, ?_⟩
    rw [List.cons_append, List.append_assoc, readFrom, if_neg (by decide), if_pos rfl, if_pos rfl]
    exact readFrom_quoted []
  · exact ⟨.plain field, .inl rfl, readFrom_plain [] quotes⟩

/-- A written record is read as it was, and the reader goes on behind it. -/
theorem readFrom_writeRecord {record : List Field} (nonempty : record ≠ []) :
    readFrom fields (.plain []) (writeRecord record ++ rest) =
      if rest = [] then some [fields ++ record]
      else (readFrom [] (.plain []) rest).map ((fields ++ record) :: ·) := by
  induction record generalizing fields with
  | nil => contradiction
  | cons field others ih =>
    cases others with
    | nil =>
      obtain ⟨place, behind, reads⟩ := readFrom_writeField fields field ('\r' :: '\n' :: rest)
      have split : writeRecord [field] ++ rest = writeField field ++ '\r' :: '\n' :: rest := by
        simp [writeRecord]
      rw [split, reads, readFrom_lineBreak behind]
    | cons next others =>
      obtain ⟨place, behind, reads⟩ := readFrom_writeField fields field (',' :: (writeRecord (next :: others) ++ rest))
      have split : writeRecord (field :: next :: others) ++ rest =
          writeField field ++ ',' :: (writeRecord (next :: others) ++ rest) := by
        simp [writeRecord, List.intercalate]
      rw [split, reads, readFrom_comma behind, ih (List.cons_ne_nil _ _), List.append_assoc]
      rfl

theorem write_eq_nil {records : List (List Field)} : write records = [] ↔ records = [] := by
  cases records with
  | nil => exact iff_of_true rfl rfl
  | cons record records => simp [write, writeRecord]

/-- Reading inverts writing. -/
theorem read_write {records : List (List Field)} (nonempty : ∀ record ∈ records, record ≠ []) :
    read (write records) = some records := by
  induction records with
  | nil => rfl
  | cons record others ih =>
    have split : write (record :: others) = writeRecord record ++ write others := List.flatMap_cons ..
    have written : write (record :: others) ≠ [] := fun empty => List.cons_ne_nil _ _ (write_eq_nil.mp empty)
    rw [read, if_neg written, split, readFrom_writeRecord (nonempty record List.mem_cons_self), List.nil_append]
    split_ifs with last
    · rw [write_eq_nil.mp last]
    · have onward := ih fun other member => nonempty other (List.mem_cons_of_mem _ member)
      rw [read, if_neg last] at onward
      rw [onward]
      rfl

example : read (write [[['a', ','], ['"']], [[], ['\r', '\n']]]) = some [[['a', ','], ['"']], [[], ['\r', '\n']]] := by
  decide +kernel

end Rfc4180

/-! ## Text buffers

A text file in memory: what is written replaces the text from the position on, `seek` moves the
position alone and `truncate` cuts the text alone. A buffer that is only appended to, or emptied as a
whole, is its text.
-/

/-- A text and the position of the next character written. -/
structure StringIO where
  text : List Char
  position : ℕ
deriving DecidableEq, Repr

namespace StringIO

def getvalue (buffer : StringIO) : List Char := buffer.text

def tell (buffer : StringIO) : ℕ := buffer.position

def seek (buffer : StringIO) (position : ℕ) : StringIO := { buffer with position }

def truncate (buffer : StringIO) (size : ℕ) : StringIO := { buffer with text := buffer.text.take size }

/-- A gap behind the end of the text is filled with NUL. -/
def write (buffer : StringIO) (written : List Char) : StringIO :=
  if written = [] then buffer
  else ⟨buffer.text.take buffer.position ++ List.replicate (buffer.position - buffer.text.length) '\x00' ++ written ++
    buffer.text.drop (buffer.position + written.length), buffer.position + written.length⟩

/-- A buffer whose position is the end of its text. -/
def filled (text : List Char) : StringIO := ⟨text, text.length⟩

@[simp] theorem getvalue_filled (text : List Char) : (filled text).getvalue = text := rfl

@[simp] theorem tell_filled (text : List Char) : (filled text).tell = text.length := rfl

@[simp] theorem write_filled (text written : List Char) : (filled text).write written = filled (text ++ written) := by
  rw [write]
  split_ifs with empty
  · rw [empty, List.append_nil]
  · simp only [filled, List.take_length, Nat.sub_self, List.replicate_zero, List.append_nil, List.length_append,
      List.drop_eq_nil_of_le (Nat.le_add_right ..)]

@[simp] theorem truncate_seek (buffer : StringIO) : (buffer.seek 0).truncate 0 = filled [] := rfl

end StringIO
