import Mathlib.Data.List.Basic

/-! # Anchored patterns of texts and runs

A pattern is a sequence of fixed texts and captured runs, each a class of characters with bounds on the
length, and an end anchor that decides what may be left behind it. A backtracking search tries the longest
run first and gives the first way to match. What a match is does not depend on that order, and where no two
ways match the same subject, the search finds exactly the match there is.
-/

/-- A fixed text, or a captured run of allowed characters. -/
inductive PatternPart (Symbol : Type) where
  | text (expected : List Symbol)
  | run (allowed : Symbol → Bool) (least most : ℕ)

namespace Pattern

variable {Symbol : Type} [DecidableEq Symbol] {atEnd : List Symbol → Bool}

/-- `$`: at the end, or before a newline there. -/
def endAnchor (newline : Symbol) (rest : List Symbol) : Bool := rest = [] || rest = [newline]

/-- The captures of all ways to match, in the order of the search. -/
def captures (atEnd : List Symbol → Bool) : List (PatternPart Symbol) → List Symbol → List (List (List Symbol))
  | [], rest => if atEnd rest then [[]] else []
  | .text expected :: parts, subject =>
    if expected <+: subject then captures atEnd parts (subject.drop expected.length) else []
  | .run allowed least most :: parts, subject =>
    (List.range (most + 1)).reverse.flatMap fun length =>
      if least ≤ length ∧ length ≤ subject.length ∧ (subject.take length).all allowed then
        (captures atEnd parts (subject.drop length)).map fun groups => subject.take length :: groups
      else []

/-- What the search finds first. -/
def firstMatch (atEnd : List Symbol → Bool) (parts : List (PatternPart Symbol)) (subject : List Symbol) :
    Option (List (List Symbol)) := (captures atEnd parts subject).head?

/-- A subject is what the parts stand for, one after the other, with something behind that the anchor allows. -/
inductive Matches (atEnd : List Symbol → Bool) :
    List (PatternPart Symbol) → List (List Symbol) → List Symbol → Prop where
  | done {rest} (allowed : atEnd rest) : Matches atEnd [] [] rest
  | text {parts groups rest} (expected : List Symbol) (behind : Matches atEnd parts groups rest) :
      Matches atEnd (.text expected :: parts) groups (expected ++ rest)
  | run {parts groups rest allowed least most} (group : List Symbol) (lower : least ≤ group.length)
      (upper : group.length ≤ most) (all : ∀ symbol ∈ group, allowed symbol)
      (behind : Matches atEnd parts groups rest) :
      Matches atEnd (.run allowed least most :: parts) (group :: groups) (group ++ rest)

/-- The search goes through the matches and nothing else. -/
theorem mem_captures_iff {parts : List (PatternPart Symbol)} {groups : List (List Symbol)} {subject : List Symbol} :
    groups ∈ captures atEnd parts subject ↔ Matches atEnd parts groups subject := by
  induction parts generalizing groups subject with
  | nil =>
    rw [captures]
    constructor
    · intro member
      split at member
      · next allowed =>
        obtain rfl := List.mem_singleton.mp member
        exact .done allowed
      · contradiction
    · rintro ⟨allowed⟩
      rw [if_pos allowed]
      exact List.mem_singleton_self _
  | cons part parts ih =>
    cases part with
    | text expected =>
      rw [captures]
      constructor
      · intro member
        split at member
        · next starts =>
          obtain ⟨rest, rfl⟩ := starts
          rw [List.drop_left, ih] at member
          exact .text expected member
        · contradiction
      · rintro (_ | ⟨_, behind⟩)
        rwa [if_pos (List.prefix_append ..), List.drop_left, ih]
    | run allowed least most =>
      rw [captures, List.mem_flatMap]
      constructor
      · rintro ⟨length, tried, member⟩
        rw [List.mem_reverse, List.mem_range] at tried
        split at member
        · next fits =>
          obtain ⟨lower, inside, all⟩ := fits
          obtain ⟨groups, found, rfl⟩ := List.mem_map.mp member
          have taken : (subject.take length).length = length := List.length_take_of_le inside
          have matched : Matches atEnd (.run allowed least most :: parts) (subject.take length :: groups)
              (subject.take length ++ subject.drop length) :=
            .run _ (by omega) (by omega) (List.all_eq_true.mp all) (ih.mp found)
          rwa [List.take_append_drop] at matched
        · contradiction
      · rintro (_ | _ | @⟨_, _, rest, _, _, _, group, lower, upper, all, behind⟩)
        refine ⟨group.length, List.mem_reverse.mpr (List.mem_range.mpr (by omega)), ?_⟩
        rw [List.take_left, List.drop_left, if_pos ⟨lower, by simp, List.all_eq_true.mpr all⟩]
        exact List.mem_map_of_mem (ih.mpr behind)

/-- The search finds something where there is a match. -/
theorem isSome_firstMatch_iff {parts : List (PatternPart Symbol)} {subject : List Symbol} :
    (firstMatch atEnd parts subject).isSome ↔ ∃ groups, Matches atEnd parts groups subject := by
  rw [firstMatch, List.isSome_head?, Ne, List.eq_nil_iff_forall_not_mem, not_forall_not]
  exact exists_congr fun groups => mem_captures_iff

/-- No match starts with a character of a class. -/
def Stops (atEnd : List Symbol → Bool) (allowed : Symbol → Bool) (parts : List (PatternPart Symbol)) : Prop :=
  ∀ groups symbol rest, Matches atEnd parts groups (symbol :: rest) → ¬ allowed symbol

omit [DecidableEq Symbol] in
theorem stops_text {allowed : Symbol → Bool} {symbol : Symbol} (notAllowed : ¬ allowed symbol) (expected : List Symbol)
    (parts : List (PatternPart Symbol)) : Stops atEnd allowed (.text (symbol :: expected) :: parts) := by
  rintro _ _ _ (_ | _)
  exact notAllowed

theorem stops_end {allowed : Symbol → Bool} {newline : Symbol} (notAllowed : ¬ allowed newline) :
    Stops (endAnchor newline) allowed [] := by
  rintro _ symbol rest ⟨allowedBehind⟩
  obtain ⟨rfl, -⟩ : symbol = newline ∧ rest = [] := by simpa [endAnchor] using allowedBehind
  exact notAllowed

/-- Every run has a fixed length, or what follows it cannot start with one of its characters. -/
def Unambiguous (atEnd : List Symbol → Bool) : List (PatternPart Symbol) → Prop
  | [] => True
  | .text _ :: parts => Unambiguous atEnd parts
  | .run allowed least most :: parts => (least = most ∨ Stops atEnd allowed parts) ∧ Unambiguous atEnd parts

omit [DecidableEq Symbol] in
/-- Two runs at the same place are one where neither can go on. -/
theorem run_unique {allowed : Symbol → Bool} {group other rest otherRest : List Symbol}
    (same : group ++ rest = other ++ otherRest) (all : ∀ symbol ∈ group, allowed symbol)
    (otherAll : ∀ symbol ∈ other, allowed symbol) (stops : ∀ symbol ∈ rest.head?, ¬ allowed symbol)
    (otherStops : ∀ symbol ∈ otherRest.head?, ¬ allowed symbol) : group = other := by
  rcases List.append_eq_append_iff.mp same with ⟨more, rfl, rfl⟩ | ⟨more, rfl, rfl⟩
  · cases more with
    | nil => exact (List.append_nil _).symm
    | cons symbol more => exact absurd (otherAll symbol (by simp)) (stops symbol rfl)
  · cases more with
    | nil => exact List.append_nil _
    | cons symbol more => exact absurd (all symbol (by simp)) (otherStops symbol rfl)

omit [DecidableEq Symbol] in
theorem Matches.unique {parts : List (PatternPart Symbol)} {groups others : List (List Symbol)} {subject : List Symbol}
    (unambiguous : Unambiguous atEnd parts) (one : Matches atEnd parts groups subject)
    (two : Matches atEnd parts others subject) : groups = others := by
  induction one generalizing others with
  | done => cases two; rfl
  | text expected _ ih =>
    generalize subject : expected ++ _ = whole at two
    rcases two with _ | ⟨_, behind⟩
    obtain rfl := List.append_cancel_left subject
    exact ih unambiguous behind
  | run group lower upper all behind ih =>
    generalize subject : group ++ _ = whole at two
    rcases two with _ | _ | ⟨other, otherLower, otherUpper, otherAll, otherBehind⟩
    obtain ⟨fixed | stops, unambiguous⟩ := unambiguous
    · obtain ⟨rfl, rfl⟩ := List.append_inj subject (by omega)
      rw [ih unambiguous otherBehind]
    · have same : group = other := by
        refine run_unique subject all otherAll (fun symbol head => ?_) fun symbol head => ?_
        · obtain ⟨rest, rfl⟩ := List.head?_eq_some_iff.mp head
          exact stops _ _ _ behind
        · obtain ⟨rest, rfl⟩ := List.head?_eq_some_iff.mp head
          exact stops _ _ _ otherBehind
      subst same
      obtain rfl := List.append_cancel_left subject
      rw [ih unambiguous otherBehind]

/-- The search finds the match of an unambiguous pattern, if there is one. -/
theorem firstMatch_eq_some_iff {parts : List (PatternPart Symbol)} (unambiguous : Unambiguous atEnd parts)
    {groups : List (List Symbol)} {subject : List Symbol} :
    firstMatch atEnd parts subject = some groups ↔ Matches atEnd parts groups subject := by
  rw [firstMatch]
  constructor
  · intro found
    exact mem_captures_iff.mp (List.mem_of_head? found)
  · intro matched
    obtain ⟨first, found⟩ := Option.isSome_iff_exists.mp (isSome_firstMatch_iff.mpr ⟨groups, matched⟩)
    rw [firstMatch] at found
    rw [found, matched.unique unambiguous (mem_captures_iff.mp (List.mem_of_head? found))]

end Pattern
