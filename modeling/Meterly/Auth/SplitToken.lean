import Mathlib.Data.List.TakeWhile
import Meterly.Auth.ApiKey
import Meterly.Text.Pattern

/-! # Which strings are tokens

`parse_split_token` is a match of its pattern, whose two runs end where an underscore or the end anchor
stands, so that a match is found in one way only. The anchor leaves out a final newline: a token with a
newline behind it is read as the token.
-/

namespace Meterly

/-- `_TOKEN_PATTERN` -/
def tokenPattern : List (PatternPart Char) :=
  [.text "mtr_live_".toList, .run Char.isAlphanum 1 32, .text ['_'], .run Char.isAlphanum 1 64]

/-- The token of a key, as `generate_split_token` formats it. -/
def ParsedApiKey.presentedKey (parsed : ParsedApiKey) : String := "mtr_live_" ++ parsed.keyId ++ "_" ++ parsed.secret

/-- `bytes.hex` -/
def hexDigits (byte : BitVec 8) : List Char := [Nat.digitChar (byte.toNat / 16), Nat.digitChar (byte.toNat % 16)]

/-- `secrets.token_hex`, given the random bytes that it draws. -/
def tokenHex {n : ℕ} (bytes : Vector (BitVec 8) n) : String := String.ofList (bytes.toList.flatMap hexDigits)

/-- `generate_split_token` -/
def generateSplitToken (keyIdBytes : Vector (BitVec 8) 16) (secretBytes : Vector (BitVec 8) 32) :
    String × String × String :=
  let keyId := tokenHex keyIdBytes
  let secret := tokenHex secretBytes
  (keyId, secret, (⟨keyId, secret⟩ : ParsedApiKey).presentedKey)

/-- One to `most` ASCII letters and digits. -/
structure IsHandle (most : ℕ) (text : String) : Prop where
  nonempty : 1 ≤ text.length
  short : text.length ≤ most
  alphanumeric : ∀ c ∈ text.toList, c.isAlphanum

theorem isHandle_iff {most : ℕ} {text : String} : IsHandle most text ↔
    1 ≤ text.toList.length ∧ text.toList.length ≤ most ∧ ∀ c ∈ text.toList, c.isAlphanum := by
  rw [String.length_toList]
  constructor
  · rintro ⟨lower, upper, all⟩
    exact ⟨lower, upper, all⟩
  · rintro ⟨lower, upper, all⟩
    exact ⟨lower, upper, all⟩

structure ParsedApiKey.WellFormed (parsed : ParsedApiKey) : Prop where
  keyId : IsHandle 32 parsed.keyId
  secret : IsHandle 64 parsed.secret

/-- A token with a newline behind it. -/
def EndsInNewline (presentedKey : String) : Prop :=
  ∃ parsed : ParsedApiKey, parsed.WellFormed ∧ presentedKey = parsed.presentedKey ++ "\n"

/-! ## The pattern -/

theorem unambiguous_tokenPattern : Pattern.Unambiguous (Pattern.endAnchor '\n') tokenPattern :=
  ⟨.inr (Pattern.stops_text (by decide) _ _), .inr (Pattern.stops_end (by decide)), trivial⟩

theorem endAnchor_iff {rest : List Char} : Pattern.endAnchor '\n' rest ↔ rest = [] ∨ rest = ['\n'] := by
  simp [Pattern.endAnchor]

/-- The characters of a token, in front of what is left behind it. -/
theorem toList_presentedKey_append (parsed : ParsedApiKey) (rest : List Char) :
    parsed.presentedKey.toList ++ rest =
      "mtr_live_".toList ++ (parsed.keyId.toList ++ (['_'] ++ (parsed.secret.toList ++ rest))) := by
  simp only [ParsedApiKey.presentedKey, String.toList_append, List.append_assoc]
  rfl

theorem matches_tokenPattern_iff {presentedKey : String} {parsed : ParsedApiKey} :
    Pattern.Matches (Pattern.endAnchor '\n') tokenPattern [parsed.keyId.toList, parsed.secret.toList]
        presentedKey.toList ↔
      parsed.WellFormed ∧ (presentedKey = parsed.presentedKey ∨ presentedKey = parsed.presentedKey ++ "\n") := by
  constructor
  · intro matched
    generalize subject : presentedKey.toList = whole at matched
    obtain _ | ⟨_, _ | _ | ⟨_, keyLower, keyUpper, keyAll, _ | ⟨_, _ | _ | ⟨_, lower, upper, all, ⟨anchored⟩⟩⟩⟩⟩ :=
      matched
    rw [← toList_presentedKey_append] at subject
    refine ⟨⟨isHandle_iff.mpr ⟨keyLower, keyUpper, keyAll⟩, isHandle_iff.mpr ⟨lower, upper, all⟩⟩, ?_⟩
    rcases endAnchor_iff.mp anchored with rfl | rfl
    · exact .inl (String.ext (subject.trans (List.append_nil _)))
    · refine .inr (String.ext ?_)
      rw [subject, String.toList_append]
      rfl
  · rintro ⟨⟨keyId, secret⟩, written⟩
    obtain ⟨rest, anchored, subject⟩ : ∃ rest, Pattern.endAnchor '\n' rest ∧
        presentedKey.toList = parsed.presentedKey.toList ++ rest := by
      rcases written with rfl | rfl
      · exact ⟨[], rfl, (List.append_nil _).symm⟩
      · exact ⟨['\n'], rfl, String.toList_append⟩
    rw [subject, toList_presentedKey_append]
    obtain ⟨keyLower, keyUpper, keyAll⟩ := isHandle_iff.mp keyId
    obtain ⟨lower, upper, all⟩ := isHandle_iff.mp secret
    exact .text _ (.run _ keyLower keyUpper keyAll (.text _ (.run _ lower upper all (.done anchored))))

/-- A run ends where something stands that is not allowed in it. -/
theorem span_run {run : List Char} (rest : List Char) (all : ∀ c ∈ run, c.isAlphanum)
    (stops : ∀ c ∈ rest.head?, ¬ c.isAlphanum) :
    (run ++ rest).takeWhile Char.isAlphanum = run ∧ (run ++ rest).dropWhile Char.isAlphanum = rest := by
  rw [List.takeWhile_append_of_pos all, List.dropWhile_append_of_pos all]
  cases rest with
  | nil => exact ⟨List.append_nil run, rfl⟩
  | cons c rest =>
    have notAllowed := stops c rfl
    rw [List.takeWhile_cons_of_neg notAllowed, List.dropWhile_cons_of_neg notAllowed]
    exact ⟨List.append_nil run, rfl⟩

/-- What is read off the runs, one after the other, is a match. -/
theorem matches_of_parseSplitToken {presentedKey : String} {parsed : ParsedApiKey}
    (parses : parseSplitToken presentedKey = some parsed) :
    Pattern.Matches (Pattern.endAnchor '\n') tokenPattern [parsed.keyId.toList, parsed.secret.toList]
      presentedKey.toList := by
  unfold parseSplitToken at parses
  split at parses
  · next starts =>
    obtain ⟨rest, subject⟩ := List.isPrefixOf_iff_prefix.mp starts
    have dropped : presentedKey.toList.drop "mtr_live_".length = rest := by
      rw [← subject]
      exact List.drop_left
    simp only [dropped] at parses
    split at parses
    · next tail behind =>
      split at parses
      · next fits =>
        obtain rfl := Option.some.inj parses
        obtain ⟨⟨keyLower, keyUpper⟩, ⟨lower, upper⟩, remainder⟩ := fits
        have runs : rest.takeWhile Char.isAlphanum ++ (['_'] ++
            (tail.takeWhile Char.isAlphanum ++ tail.dropWhile Char.isAlphanum)) = rest := by
          rw [List.takeWhile_append_dropWhile, List.singleton_append, ← behind, List.takeWhile_append_dropWhile]
        have matched : Pattern.Matches (Pattern.endAnchor '\n') tokenPattern _ ("mtr_live_".toList ++ _) :=
          .text _ (.run _ keyLower keyUpper (fun _ => List.mem_takeWhile_imp) (.text _
            (.run _ lower upper (fun _ => List.mem_takeWhile_imp) (.done (endAnchor_iff.mpr remainder)))))
        rwa [runs, subject, ← @String.toList_ofList (rest.takeWhile _), ← @String.toList_ofList (tail.takeWhile _)]
          at matched
      · contradiction
    · contradiction
  · contradiction

/-- A token is read, with or without a newline behind it. -/
theorem parseSplitToken_of_wellFormed {presentedKey : String} {parsed : ParsedApiKey} (wellFormed : parsed.WellFormed)
    {rest : List Char} (anchored : rest = [] ∨ rest = ['\n'])
    (subject : presentedKey.toList = parsed.presentedKey.toList ++ rest) :
    parseSplitToken presentedKey = some parsed := by
  obtain ⟨keyLower, keyUpper, keyAll⟩ := isHandle_iff.mp wellFormed.keyId
  obtain ⟨lower, upper, all⟩ := isHandle_iff.mp wellFormed.secret
  rw [toList_presentedKey_append] at subject
  obtain ⟨keyTaken, keyDropped⟩ := span_run (['_'] ++ (parsed.secret.toList ++ rest)) keyAll (by simp)
  have stops : ∀ c ∈ rest.head?, ¬ c.isAlphanum := by
    rcases anchored with rfl | rfl <;> simp
  obtain ⟨taken, dropped⟩ := span_run rest all stops
  have starts : "mtr_live_".toList.isPrefixOf presentedKey.toList := by
    rw [subject]
    exact List.isPrefixOf_iff_prefix.mpr (List.prefix_append ..)
  have behind : presentedKey.toList.drop "mtr_live_".length =
      parsed.keyId.toList ++ (['_'] ++ (parsed.secret.toList ++ rest)) := by
    rw [subject]
    exact List.drop_left
  simp only [parseSplitToken, if_pos starts, behind, keyTaken, keyDropped]
  simp only [List.singleton_append, taken, dropped]
  rw [if_pos ⟨⟨keyLower, keyUpper⟩, ⟨lower, upper⟩, anchored⟩, String.ofList_toList, String.ofList_toList]

theorem parseSplitToken_eq_some_iff {presentedKey : String} {parsed : ParsedApiKey} :
    parseSplitToken presentedKey = some parsed ↔
      parsed.WellFormed ∧ (presentedKey = parsed.presentedKey ∨ presentedKey = parsed.presentedKey ++ "\n") := by
  constructor
  · intro parses
    exact matches_tokenPattern_iff.mp (matches_of_parseSplitToken parses)
  · rintro ⟨wellFormed, rfl | rfl⟩
    · exact parseSplitToken_of_wellFormed wellFormed (.inl rfl) (List.append_nil _).symm
    · exact parseSplitToken_of_wellFormed wellFormed (.inr rfl) String.toList_append

/-- A token is read as the search for its pattern reads it. -/
theorem parseSplitToken_eq_some_iff_firstMatch {presentedKey : String} {parsed : ParsedApiKey} :
    parseSplitToken presentedKey = some parsed ↔
      Pattern.firstMatch (Pattern.endAnchor '\n') tokenPattern presentedKey.toList =
        some [parsed.keyId.toList, parsed.secret.toList] := by
  rw [Pattern.firstMatch_eq_some_iff unambiguous_tokenPattern, matches_tokenPattern_iff, parseSplitToken_eq_some_iff]

/-! ## Tokens and their strings -/

/-- A string is read as a key exactly when it is the token of that key, and otherwise not at all. -/
structure ParsesExactly (presentedKey : String) : Prop where
  iff : ∀ parsed, parseSplitToken presentedKey = some parsed ↔ parsed.WellFormed ∧ presentedKey = parsed.presentedKey
  rerenders : ∀ parsed, parseSplitToken presentedKey = some parsed → parsed.presentedKey = presentedKey
  otherwise : (∀ parsed : ParsedApiKey, parsed.WellFormed → presentedKey ≠ parsed.presentedKey) →
    parseSplitToken presentedKey = none

/-- No token ends in a newline. -/
theorem presentedKey_ne_append_newline {parsed : ParsedApiKey} (wellFormed : parsed.WellFormed) (text : String) :
    parsed.presentedKey ≠ text ++ "\n" := by
  intro same
  have last : parsed.presentedKey.toList.getLast? = some '\n' := by
    rw [same, String.toList_append]
    exact List.getLast?_concat
  obtain ⟨lower, -, all⟩ := isHandle_iff.mp wellFormed.secret
  have nonempty : parsed.secret.toList ≠ [] := List.ne_nil_of_length_pos lower
  rw [ParsedApiKey.presentedKey, String.toList_append, List.getLast?_append_of_ne_nil _ nonempty] at last
  exact absurd (all '\n' (List.mem_of_getLast? last)) (by decide)

theorem parsesExactly_iff {presentedKey : String} : ParsesExactly presentedKey ↔ ¬ EndsInNewline presentedKey := by
  constructor
  · rintro ⟨exact, -, -⟩ ⟨parsed, wellFormed, rfl⟩
    have parses := parseSplitToken_eq_some_iff.mpr ⟨wellFormed, .inr rfl⟩
    exact presentedKey_ne_append_newline ((exact parsed).mp parses).1 _ ((exact parsed).mp parses).2.symm
  · intro without
    have exact (parsed : ParsedApiKey) : parseSplitToken presentedKey = some parsed ↔
        parsed.WellFormed ∧ presentedKey = parsed.presentedKey := by
      rw [parseSplitToken_eq_some_iff]
      constructor
      · rintro ⟨wellFormed, written | newline⟩
        · exact ⟨wellFormed, written⟩
        · exact absurd ⟨parsed, wellFormed, newline⟩ without
      · rintro ⟨wellFormed, written⟩
        exact ⟨wellFormed, .inl written⟩
    refine ⟨exact, fun parsed parses => ((exact parsed).mp parses).2.symm, fun noToken => ?_⟩
    by_contra parses
    obtain ⟨parsed, parses⟩ := Option.ne_none_iff_exists'.mp parses
    obtain ⟨wellFormed, written⟩ := (exact parsed).mp parses
    exact noToken parsed wellFormed written

theorem isHandle_tokenHex {n most : ℕ} (bytes : Vector (BitVec 8) n) (positive : 0 < n) (fits : 2 * n ≤ most) :
    IsHandle most (tokenHex bytes) := by
  have digit : ∀ m < 16, (Nat.digitChar m).isAlphanum := by decide
  have length : (bytes.toList.flatMap hexDigits).length = 2 * n := by
    rw [List.length_flatMap]
    simp [hexDigits, mul_comm]
  rw [isHandle_iff, tokenHex, String.toList_ofList, length]
  refine ⟨by omega, fits, fun c member => ?_⟩
  obtain ⟨byte, -, written⟩ := List.mem_flatMap.mp member
  have small := byte.isLt
  obtain rfl | rfl : c = Nat.digitChar (byte.toNat / 16) ∨ c = Nat.digitChar (byte.toNat % 16) := by
    simpa [hexDigits] using written
  · exact digit _ (by omega)
  · exact digit _ (by omega)

/-- What is generated is read back. -/
theorem parseSplitToken_generateSplitToken (keyIdBytes : Vector (BitVec 8) 16) (secretBytes : Vector (BitVec 8) 32) :
    parseSplitToken (generateSplitToken keyIdBytes secretBytes).2.2 =
      some ⟨(generateSplitToken keyIdBytes secretBytes).1, (generateSplitToken keyIdBytes secretBytes).2.1⟩ := by
  have wellFormed : (⟨tokenHex keyIdBytes, tokenHex secretBytes⟩ : ParsedApiKey).WellFormed :=
    ⟨isHandle_tokenHex _ (by decide) (by decide), isHandle_tokenHex _ (by decide) (by decide)⟩
  exact parseSplitToken_eq_some_iff.mpr ⟨wellFormed, .inl rfl⟩

/-- Parsing inverts formatting on two strings exactly when neither is a token with a newline behind it. -/
theorem token_parsing_inverts_formatting_iff (presentedKey other : String) :
    (ParsesExactly presentedKey ∧ ParsesExactly other ∧
        (parseSplitToken presentedKey ≠ none → parseSplitToken presentedKey = parseSplitToken other →
          presentedKey = other) ∧
        ∀ keyIdBytes secretBytes, parseSplitToken (generateSplitToken keyIdBytes secretBytes).2.2 =
          some ⟨(generateSplitToken keyIdBytes secretBytes).1, (generateSplitToken keyIdBytes secretBytes).2.1⟩) ↔
      ¬ EndsInNewline presentedKey ∧ ¬ EndsInNewline other := by
  rw [← parsesExactly_iff, ← parsesExactly_iff]
  constructor
  · rintro ⟨one, two, -, -⟩
    exact ⟨one, two⟩
  · rintro ⟨one, two⟩
    refine ⟨one, two, fun parses same => ?_, parseSplitToken_generateSplitToken⟩
    obtain ⟨parsed, parses⟩ := Option.ne_none_iff_exists'.mp parses
    exact (one.rerenders parsed parses).symm.trans (two.rerenders parsed (same.symm.trans parses))

/-- A newline behind a token does not keep it from being read. -/
theorem token_with_newline_parses :
    parseSplitToken "mtr_live_a_b\n" = some ⟨"a", "b"⟩ ∧ ¬ ParsesExactly "mtr_live_a_b\n" := by
  have wellFormed : (⟨"a", "b"⟩ : ParsedApiKey).WellFormed :=
    ⟨isHandle_iff.mpr ⟨by decide, by decide, List.all_eq_true.mp (by decide)⟩,
      isHandle_iff.mpr ⟨by decide, by decide, List.all_eq_true.mp (by decide)⟩⟩
  refine ⟨parseSplitToken_eq_some_iff.mpr ⟨wellFormed, .inr (by decide)⟩, fun exactly => ?_⟩
  exact parsesExactly_iff.mp exactly ⟨_, wellFormed, by decide⟩

end Meterly
