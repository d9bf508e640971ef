import Mathlib.Data.Finset.Basic

/-! # Documents of nested dictionaries and lists

A dictionary has each of its keys once, and its values are a family over them. Scrubbing puts a marker in
the place of every value under a sensitive key. What it leaves is told by two facts about paths, that no
sensitive key has another value than the marker and that nothing outside of the sensitive keys has changed,
and these determine it.
-/

/-- A value of nested dictionaries and lists. -/
inductive Document (Key Scalar : Type) where
  | scalar (value : Scalar)
  | list (length : ℕ) (items : Fin length → Document Key Scalar)
  | dict (keys : Finset Key) (values : {key // key ∈ keys} → Document Key Scalar)

namespace Document

/-- One step into a document. -/
inductive Step (Key : Type) where
  | item (index : ℕ)
  | key (key : Key)
deriving DecidableEq, Repr

/-- A document without its parts. -/
inductive Shape (Key Scalar : Type) where
  | scalar (value : Scalar)
  | list (length : ℕ)
  | dict (keys : Finset Key)

variable {Key Scalar : Type}

def shape : Document Key Scalar → Shape Key Scalar
  | scalar value => .scalar value
  | list length _ => .list length
  | dict keys _ => .dict keys

variable [DecidableEq Key]

/-- The part behind one step. -/
def child : Document Key Scalar → Step Key → Option (Document Key Scalar)
  | list length items, .item index => if inside : index < length then some (items ⟨index, inside⟩) else none
  | dict keys values, .key key => if present : key ∈ keys then some (values ⟨key, present⟩) else none
  | _, _ => none

/-- The part at the end of a path. -/
def get? (document : Document Key Scalar) (path : List (Step Key)) : Option (Document Key Scalar) :=
  path.foldlM child document

/-- Change the value under one key of a dictionary. -/
def update (key : Key) (change : Document Key Scalar → Document Key Scalar) : Document Key Scalar → Document Key Scalar
  | dict keys values => dict keys fun entry => if entry.val = key then change (values entry) else values entry
  | document => document

section Parts

variable {key other : Key} {step : Step Key} {document : Document Key Scalar}
  {change : Document Key Scalar → Document Key Scalar}

@[simp] theorem get?_nil (document : Document Key Scalar) : document.get? [] = some document := rfl

@[simp] theorem get?_cons (document : Document Key Scalar) (step : Step Key) (rest : List (Step Key)) :
    document.get? (step :: rest) = (document.child step).bind fun part => part.get? rest := rfl

theorem get?_snoc (document : Document Key Scalar) (path : List (Step Key)) (step : Step Key) :
    document.get? (path ++ [step]) = (document.get? path).bind fun part => part.child step := by
  rw [get?, List.foldlM_append]
  refine congrArg (Option.bind _) (funext fun part => ?_)
  rw [List.foldlM_cons]
  exact bind_pure _

theorem child_item {length : ℕ} (items : Fin length → Document Key Scalar) (index : Fin length) :
    (list length items).child (.item index) = some (items index) := dif_pos index.isLt

theorem child_key {keys : Finset Key} (values : {key // key ∈ keys} → Document Key Scalar)
    (entry : {key // key ∈ keys}) : (dict keys values).child (.key entry.val) = some (values entry) := dif_pos entry.property

theorem shape_update (key : Key) (change : Document Key Scalar → Document Key Scalar) (document : Document Key Scalar) :
    (document.update key change).shape = document.shape := by
  cases document <;> rfl

theorem child_update_self : (document.update key change).child (.key key) = (document.child (.key key)).map change := by
  cases document with
  | scalar value => rfl
  | list length items => rfl
  | dict keys values =>
    simp only [update, child, if_true]
    split <;> rfl

theorem child_update_of_ne (different : step ≠ .key key) :
    (document.update key change).child step = document.child step := by
  cases document with
  | scalar value => rfl
  | list length items => rfl
  | dict keys values =>
    cases step with
    | item index => rfl
    | key other =>
      have apart : other ≠ key := fun same => different (congrArg Step.key same)
      simp only [update, child, if_neg apart]

theorem update_update (first second : Document Key Scalar → Document Key Scalar) :
    (document.update key first).update key second = document.update key (second ∘ first) := by
  cases document with
  | scalar value => rfl
  | list length items => rfl
  | dict keys values =>
    refine congrArg (dict keys) (funext fun entry => ?_)
    by_cases same : entry.val = key
    · simp only [if_pos same, Function.comp_apply]
    · simp only [if_neg same]

/-- Changes under two keys do not depend on their order. -/
theorem update_comm (different : key ≠ other) (first second : Document Key Scalar → Document Key Scalar) :
    (document.update key first).update other second = (document.update other second).update key first := by
  cases document with
  | scalar value => rfl
  | list length items => rfl
  | dict keys values =>
    refine congrArg (dict keys) (funext fun entry => ?_)
    by_cases same : entry.val = key
    · have apart : entry.val ≠ other := same ▸ different
      simp only [if_pos same, if_neg apart]
    · simp only [if_neg same]

end Parts

/-! ## Scrubbing -/

section Scrub

variable (sensitive : Key → Prop) (marker : Scalar)

omit [DecidableEq Key] in
/-- Put the marker in the place of every value under a sensitive key. -/
def scrub [DecidablePred sensitive] : Document Key Scalar → Document Key Scalar
  | scalar value => scalar value
  | list length items => list length fun index => (items index).scrub
  | dict keys values => dict keys fun entry => if sensitive entry.val then scalar marker else (values entry).scrub

omit [DecidableEq Key] in
/-- A step that is not into the value of a sensitive key. -/
def Plain (step : Step Key) : Prop := ∀ key, step = .key key → ¬ sensitive key

omit [DecidableEq Key] in
/-- A path that leads through no sensitive key. -/
def Avoids (path : List (Step Key)) : Prop := ∀ step ∈ path, Plain sensitive step

/-- No dictionary at any depth maps a sensitive key to anything but the marker. -/
def Clean (document : Document Key Scalar) : Prop :=
  ∀ path key value, sensitive key → document.get? (path ++ [.key key]) = some value → value = scalar marker

/-- Two documents are the same wherever no sensitive key leads. -/
def AgreesOutside (before after : Document Key Scalar) : Prop :=
  ∀ path, Avoids sensitive path → (before.get? path).map shape = (after.get? path).map shape

variable {sensitive} {marker} {path : List (Step Key)} {step : Step Key} {key : Key}
  {before after document part : Document Key Scalar}

omit [DecidableEq Key] in
theorem plain_key : Plain sensitive (.key key) ↔ ¬ sensitive key :=
  ⟨fun plain => plain key rfl, fun outside _ same => Step.key.inj same ▸ outside⟩

omit [DecidableEq Key] in
theorem plain_item (index : ℕ) : Plain sensitive (.item index : Step Key) := nofun

omit [DecidableEq Key] in
theorem avoids_nil : Avoids sensitive ([] : List (Step Key)) := nofun

omit [DecidableEq Key] in
theorem avoids_cons : Avoids sensitive (step :: path) ↔ Plain sensitive step ∧ Avoids sensitive path :=
  List.forall_mem_cons

/-- A part of a clean document is clean. -/
theorem clean_child (clean : document.Clean sensitive marker) (found : document.child step = some part) :
    part.Clean sensitive marker := fun path key value hidden there =>
  clean (step :: path) key value hidden (by rwa [List.cons_append, get?_cons, found, Option.bind_some])

/-- A part that no sensitive key leads to agrees with the part in its place. -/
theorem agreesOutside_child {part' : Document Key Scalar} (agrees : AgreesOutside sensitive before after)
    (plain : Plain sensitive step) (found : before.child step = some part) (found' : after.child step = some part') :
    AgreesOutside sensitive part part' := by
  intro path avoids
  have same := agrees (step :: path) (avoids_cons.mpr ⟨plain, avoids⟩)
  rwa [get?_cons, get?_cons, found, found'] at same

/-- The first sensitive key of a path decides. -/
theorem clean_iff : document.Clean sensitive marker ↔ ∀ path key value, Avoids sensitive path → sensitive key →
    document.get? (path ++ [.key key]) = some value → value = scalar marker := by
  constructor
  · exact fun clean path key value _ => clean path key value
  · intro clean path
    induction path generalizing document with
    | nil => exact fun key value => clean [] key value avoids_nil
    | cons step path ih =>
      intro key value hidden there
      rw [List.cons_append, get?_cons] at there
      obtain ⟨part, found, there⟩ := Option.bind_eq_some_iff.mp there
      by_cases plain : Plain sensitive step
      · refine ih (fun path key value avoids hidden there => ?_) key value hidden there
        apply clean (step :: path) key value (avoids_cons.mpr ⟨plain, avoids⟩) hidden
        rwa [List.cons_append, get?_cons, found, Option.bind_some]
      · -- The part is the marker, and no path leads into it.
        unfold Plain at plain
        push Not at plain
        obtain ⟨first, rfl, covered⟩ := plain
        obtain rfl := clean [] first part avoids_nil covered (by rw [List.nil_append, get?_cons, found]; rfl)
        cases path <;> contradiction

variable (sensitive marker) [DecidablePred sensitive]

theorem child_scrub (document : Document Key Scalar) (plain : Plain sensitive step) :
    (document.scrub sensitive marker).child step = (document.child step).map (scrub sensitive marker) := by
  cases document with
  | scalar value => rfl
  | list length items =>
    cases step with
    | key key => rfl
    | item index =>
      simp only [scrub, child]
      split <;> rfl
  | dict keys values =>
    cases step with
    | item index => rfl
    | key key =>
      simp only [scrub, child, if_neg (plain_key.mp plain)]
      split <;> rfl

/-- Along a path through no sensitive key stand the scrubbed parts. -/
theorem get?_scrub (document : Document Key Scalar) (avoids : Avoids sensitive path) :
    (document.scrub sensitive marker).get? path = (document.get? path).map (scrub sensitive marker) := by
  induction path generalizing document with
  | nil => rfl
  | cons step path ih =>
    obtain ⟨plain, avoids⟩ := avoids_cons.mp avoids
    rw [get?_cons, get?_cons, child_scrub sensitive marker document plain]
    cases document.child step with
    | none => rfl
    | some part => exact ih part avoids

omit [DecidableEq Key] in
theorem shape_scrub (document : Document Key Scalar) : (document.scrub sensitive marker).shape = document.shape := by
  cases document <;> rfl

theorem clean_scrub (document : Document Key Scalar) : (document.scrub sensitive marker).Clean sensitive marker := by
  rw [clean_iff]
  intro path key value avoids hidden there
  rw [get?_snoc, get?_scrub sensitive marker document avoids] at there
  obtain ⟨scrubbed, found, there⟩ := Option.bind_eq_some_iff.mp there
  obtain ⟨part, -, rfl⟩ := Option.map_eq_some_iff.mp found
  cases part with
  | scalar | list => contradiction
  | dict keys values =>
    simp only [scrub, child, if_pos hidden] at there
    split at there
    · exact (Option.some.inj there).symm
    · contradiction

theorem agreesOutside_scrub (document : Document Key Scalar) :
    AgreesOutside sensitive document (document.scrub sensitive marker) := by
  intro path avoids
  rw [get?_scrub sensitive marker document avoids, Option.map_map]
  exact congrArg (Option.map · _) (funext fun part => (shape_scrub sensitive marker part).symm)

variable {sensitive marker}

/-- A document that is clean and has changed nowhere else is the scrubbed one. -/
theorem eq_scrub_iff : after = before.scrub sensitive marker ↔
    after.Clean sensitive marker ∧ AgreesOutside sensitive before after := by
  constructor
  · rintro rfl
    exact ⟨clean_scrub sensitive marker before, agreesOutside_scrub sensitive marker before⟩
  · rintro ⟨clean, agrees⟩
    have root : before.shape = after.shape := Option.some.inj (agrees [] avoids_nil)
    induction before generalizing after with
    | scalar value =>
      cases after <;> cases root
      rfl
    | list length items ih =>
      cases after <;> cases root
      next items' =>
      refine congrArg (list length) (funext fun index => ?_)
      have part := agreesOutside_child agrees (plain_item index) (child_item items index) (child_item items' index)
      exact ih index (clean_child clean (child_item items' index)) part (Option.some.inj (part [] avoids_nil))
    | dict keys values ih =>
      cases after <;> cases root
      next values' =>
      refine congrArg (dict keys) (funext fun entry => ?_)
      by_cases hidden : sensitive entry.val
      · rw [if_pos hidden]
        exact clean [] entry.val _ hidden (by rw [List.nil_append, get?_cons, child_key values' entry]; rfl)
      · rw [if_neg hidden]
        have part := agreesOutside_child agrees (plain_key.mpr hidden) (child_key values entry) (child_key values' entry)
        exact ih entry (clean_child clean (child_key values' entry)) part (Option.some.inj (part [] avoids_nil))

/-! ## Scrubbing some dictionaries -/

variable (sensitive marker) in
omit [DecidableEq Key] in
/-- Put the marker in the place of the values under the sensitive keys of one dictionary. -/
def maskKeys : Document Key Scalar → Document Key Scalar
  | dict keys values => dict keys fun entry => if sensitive entry.val then scalar marker else values entry
  | document => document

variable (sensitive marker) in
omit [DecidablePred sensitive] in
/-- A function that scrubs the dictionaries at some places, and no others. -/
structure ScrubsAt (change : Document Key Scalar → Document Key Scalar) (places : List (List (Step Key))) : Prop where
  hides : ∀ document path key, Avoids sensitive path → sensitive key →
    (change document).get? (path ++ [.key key]) =
      if path ∈ places then (document.get? (path ++ [.key key])).map fun _ => scalar marker
      else document.get? (path ++ [.key key])
  keeps : ∀ document, AgreesOutside sensitive document (change document)

variable {change first second : Document Key Scalar → Document Key Scalar} {places others : List (List (Step Key))}

omit [DecidableEq Key] in
theorem shape_maskKeys (document : Document Key Scalar) :
    (document.maskKeys sensitive marker).shape = document.shape := by
  cases document <;> rfl

omit [DecidableEq Key] in
theorem maskKeys_maskKeys (document : Document Key Scalar) :
    (document.maskKeys sensitive marker).maskKeys sensitive marker = document.maskKeys sensitive marker := by
  cases document with
  | scalar | list => rfl
  | dict keys values =>
    refine congrArg (dict keys) (funext fun entry => ?_)
    by_cases hidden : sensitive entry.val
    · simp only [if_pos hidden]
    · simp only [if_neg hidden]

theorem child_maskKeys_of_plain (plain : Plain sensitive step) :
    (document.maskKeys sensitive marker).child step = document.child step := by
  cases document with
  | scalar | list => rfl
  | dict keys values =>
    cases step with
    | item index => rfl
    | key key => simp only [maskKeys, child, if_neg (plain_key.mp plain)]

theorem child_maskKeys_of_sensitive (hidden : sensitive key) :
    (document.maskKeys sensitive marker).child (.key key) = (document.child (.key key)).map fun _ => scalar marker := by
  cases document with
  | scalar | list => rfl
  | dict keys values =>
    simp only [maskKeys, child, if_pos hidden]
    split <;> rfl

theorem scrubsAt_maskKeys : ScrubsAt sensitive marker (maskKeys sensitive marker) [[]] where
  hides document path key avoids hidden := by
    cases path with
    | nil =>
      rw [if_pos (List.mem_singleton_self []), List.nil_append, get?_cons, get?_cons, child_maskKeys_of_sensitive hidden]
      cases document.child (.key key) <;> rfl
    | cons step rest =>
      rw [if_neg (by simp), List.cons_append, get?_cons, get?_cons,
        child_maskKeys_of_plain (avoids_cons.mp avoids).1]
  keeps document path avoids := by
    cases path with
    | nil => exact congrArg some (shape_maskKeys document).symm
    | cons step rest => rw [get?_cons, get?_cons, child_maskKeys_of_plain (avoids_cons.mp avoids).1]

omit [DecidablePred sensitive] in
/-- What is done to the value under a key is done at the places behind that key. -/
theorem ScrubsAt.update (scrubs : ScrubsAt sensitive marker change places) {key : Key} (outside : ¬ sensitive key) :
    ScrubsAt sensitive marker (Document.update key change) (places.map (.key key :: ·)) where
  hides document path last avoids hidden := by
    cases path with
    | nil =>
      have apart : Step.key last ≠ .key key := fun same => outside (Step.key.inj same ▸ hidden)
      rw [if_neg (by simp), List.nil_append, get?_cons, get?_cons, child_update_of_ne apart]
    | cons step rest =>
      have behind := (avoids_cons.mp avoids).2
      rw [List.cons_append, get?_cons, get?_cons]
      by_cases same : step = .key key
      · subst same
        have places_iff : Step.key key :: rest ∈ places.map (.key key :: ·) ↔ rest ∈ places := by simp
        rw [child_update_self, if_congr places_iff rfl rfl]
        cases document.child (.key key) with
        | none => simp
        | some part => exact scrubs.hides part rest last behind hidden
      · have elsewhere : step :: rest ∉ places.map (.key key :: ·) := by simp [Ne.symm same]
        rw [if_neg elsewhere, child_update_of_ne same]
  keeps document path avoids := by
    cases path with
    | nil => exact congrArg some (shape_update key change document).symm
    | cons step rest =>
      have behind := (avoids_cons.mp avoids).2
      rw [get?_cons, get?_cons]
      by_cases same : step = .key key
      · subst same
        rw [child_update_self]
        cases document.child (.key key) with
        | none => rfl
        | some part => exact scrubs.keeps part rest behind
      · rw [child_update_of_ne same]

omit [DecidablePred sensitive] in
theorem ScrubsAt.comp (outer : ScrubsAt sensitive marker second others) (inner : ScrubsAt sensitive marker first places) :
    ScrubsAt sensitive marker (second ∘ first) (places ++ others) where
  hides document path key avoids hidden := by
    rw [Function.comp_apply, outer.hides _ path key avoids hidden, inner.hides _ path key avoids hidden]
    by_cases here : path ∈ places <;> by_cases there : path ∈ others <;>
      simp [here, there, Function.comp_def]
  keeps document path avoids := (inner.keeps document path avoids).trans (outer.keeps (first document) path avoids)

omit [DecidablePred sensitive] in
/-- A function that scrubs some places makes a document clean just where every sensitive value outside of them,
that is not under another one, is the marker already. -/
theorem ScrubsAt.clean_iff (scrubs : ScrubsAt sensitive marker change places) :
    (change document).Clean sensitive marker ↔ ∀ path key value, Avoids sensitive path → sensitive key →
      document.get? (path ++ [.key key]) = some value → value ≠ scalar marker → path ∈ places := by
  rw [Document.clean_iff]
  constructor
  · intro clean path key value avoids hidden there remains
    by_contra elsewhere
    refine remains (clean path key value avoids hidden ?_)
    rwa [scrubs.hides document path key avoids hidden, if_neg elsewhere]
  · intro covered path key value avoids hidden there
    rw [scrubs.hides document path key avoids hidden] at there
    split at there
    · obtain ⟨_, -, rfl⟩ := Option.map_eq_some_iff.mp there
      rfl
    · next elsewhere =>
      by_contra remains
      exact elsewhere (covered path key value avoids hidden there remains)

end Scrub

end Document
