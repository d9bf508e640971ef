import Mathlib.Data.Int.Notation
import Mathlib.Data.List.Basic

/-! # JSON text, as Python writes it

`json.dumps` with its defaults: ASCII only, one blank behind each comma and colon. Only flat objects
are written here, and a float is kept by the digits that are written for it. Characters are escaped one by
one, so the text of a string is that of its parts in a row, and plain characters stand for themselves.
-/

namespace Json

/-- A value of a flat object. -/
inductive Value where
  | null
  | bool (value : Bool)
  | int (value : ℤ)
  | float (digits : String)
  | text (value : String)
deriving DecidableEq, Repr

def hexDigit (n : ℕ) : Char := if n < 10 then Char.ofNat (48 + n) else Char.ofNat (87 + n)

/-- `\u` and four hexadecimal digits. -/
def unicodeEscape (n : ℕ) : List Char :=
  ['\\', 'u', hexDigit (n / 4096 % 16), hexDigit (n / 256 % 16), hexDigit (n / 16 % 16), hexDigit (n % 16)]

/-- What is written for one character of a string. -/
def escapeChar (c : Char) : List Char :=
  match c with
  | '"' => ['\\', '"']
  | '\\' => ['\\', '\\']
  | '\n' => ['\\', 'n']
  | '\r' => ['\\', 'r']
  | '\t' => ['\\', 't']
  | '\x08' => ['\\', 'b']
  | '\x0c' => ['\\', 'f']
  | c =>
    if 0x20 ≤ c.toNat ∧ c.toNat ≤ 0x7e then [c]
    else if c.toNat < 0x10000 then unicodeEscape c.toNat
    -- Beyond the basic plane a character is written as a surrogate pair.
    else unicodeEscape (0xd800 + (c.toNat - 0x10000) / 1024) ++ unicodeEscape (0xdc00 + (c.toNat - 0x10000) % 1024)

/-- A string in quotes. -/
def dumpText (value : String) : List Char := '"' :: value.toList.flatMap escapeChar ++ ['"']

def dumpValue : Value → List Char
  | .null => "null".toList
  | .bool true => "true".toList
  | .bool false => "false".toList
  | .int value => (toString value).toList
  | .float digits => digits.toList
  | .text value => dumpText value

def dumpEntry (entry : String × Value) : List Char := dumpText entry.1 ++ ':' :: ' ' :: dumpValue entry.2

/-- `json.dumps` of a flat object. -/
def dumps (entries : List (String × Value)) : List Char :=
  '{' :: [',', ' '].intercalate (entries.map dumpEntry) ++ ['}']

/-- Printable ASCII but the quote and the backslash. -/
def IsPlain (c : Char) : Prop := 0x20 ≤ c.toNat ∧ c.toNat ≤ 0x7e ∧ c ≠ '"' ∧ c ≠ '\\'

instance (c : Char) : Decidable (IsPlain c) := inferInstanceAs (Decidable (_ ∧ _ ∧ _ ∧ _))

theorem escapeChar_of_isPlain {c : Char} (plain : IsPlain c) : escapeChar c = [c] := by
  obtain ⟨low, high, quote, backslash⟩ := plain
  unfold escapeChar
  split
  · contradiction
  · contradiction
  · contradiction
  · contradiction
  · contradiction
  · contradiction
  · contradiction
  · exact if_pos ⟨low, high⟩

/-- Plain characters stand for themselves. -/
theorem flatMap_escapeChar_of_isPlain {text : List Char} (plain : ∀ c ∈ text, IsPlain c) :
    text.flatMap escapeChar = text := by
  induction text with
  | nil => rfl
  | cons c rest ih =>
    rw [List.flatMap_cons, escapeChar_of_isPlain (plain c (List.mem_cons_self ..)),
      ih fun other member => plain other (List.mem_cons_of_mem c member), List.singleton_append]

/-- The pieces around one of the pieces of a text with separators. -/
theorem intercalate_append_cons {α : Type} (separator piece : List α) (before after : List (List α)) :
    separator.intercalate (before ++ piece :: after) =
      (before.flatMap fun other => other ++ separator) ++ piece ++ after.flatMap fun other => separator ++ other := by
  induction before with
  | nil =>
    rw [List.nil_append, List.flatMap_nil, List.nil_append]
    induction after generalizing piece with
    | nil => rw [List.intercalate_singleton, List.flatMap_nil, List.append_nil]
    | cons next after ih =>
      rw [List.intercalate_cons_cons, ih, List.flatMap_cons]
      simp only [List.append_assoc]
  | cons first before ih =>
    rw [List.cons_append, List.intercalate_cons_of_ne_nil (List.append_ne_nil_of_right_ne_nil _ (List.cons_ne_nil _ _)),
      ih, List.flatMap_cons]
    simp only [List.append_assoc]

/-- The text of an object around one of its entries. -/
theorem dumps_append_cons (before after : List (String × Value)) (entry : String × Value) :
    dumps (before ++ entry :: after) = '{' :: (before.flatMap fun other => dumpEntry other ++ [',', ' ']) ++
      dumpEntry entry ++ (after.flatMap fun other => [',', ' '] ++ dumpEntry other) ++ ['}'] := by
  rw [dumps, List.map_append, List.map_cons, intercalate_append_cons, List.flatMap_map, List.flatMap_map]
  simp only [List.cons_append, List.append_assoc]

/-- The text of an object around two texts in it, the second of which stands last. -/
theorem exists_dumps_texts (before between : List (String × Value)) (key last : String) : ∃ head middle tail : List Char,
    ∀ text final : List Char, dumps (before ++ (key, .text (String.ofList text)) ::
      (between ++ [(last, .text (String.ofList final))])) =
        head ++ text.flatMap escapeChar ++ middle ++ final.flatMap escapeChar ++ tail := by
  refine ⟨'{' :: (before.flatMap fun other => dumpEntry other ++ [',', ' ']) ++ dumpText key ++ [':', ' ', '"'],
    '"' :: (between.flatMap fun other => [',', ' '] ++ dumpEntry other) ++ [',', ' '] ++ dumpText last ++ [':', ' ', '"'],
    ['"', '}'], fun text final => ?_⟩
  rw [dumps_append_cons, List.flatMap_append, List.flatMap_singleton]
  simp [dumpEntry, dumpValue, dumpText]

end Json
