import Lox.Files
import Mathlib.Data.List.Infix

/-! Writing a file changes nothing at any other place.
A way leads only through folders, so that all folders around a place that it ends at are there
already, and a new file adds none to them.
-/

namespace Lox

namespace Place

variable {place outer : Place}

theorem isWithin_iff
    : place.isWithin outer = true ↔ place.origin = outer.origin ∧ outer.steps <+: place.steps := by
  rw [isWithin, Bool.and_eq_true, decide_eq_true_iff, List.isPrefixOf_iff_prefix]

theorem step_of_ne {step : String} (h : step ≠ "..")
    : place.step step = ⟨place.origin, place.steps ++ [step]⟩ := by
  rw [Place.step, if_neg h]

/-- A step back leads to where nothing remains, or one step less far. -/
theorem step_back (place : Place)
    : (place.step "..").steps = []
      ∨ place.steps ≠ [] ∧ place.step ".." = ⟨place.origin, place.steps.dropLast⟩ := by
  rw [Place.step, if_pos rfl]
  split
  case h_1 none => exact .inl none
  case h_2 => exact .inl rfl
  case h_3 root working =>
    refine .inr ⟨fun none => ?_, rfl⟩
    cases origin : place.origin with
    | root => exact root origin none
    | working levels => exact working levels origin none

end Place

namespace Files

variable {files after : Files} {place other outer : Place} {entry : Entry}

/-- All folders around the place are there. -/
def Reached (files : Files) (place : Place) : Prop :=
  ∀ outer, place.isWithin outer = true → outer ≠ place → files.entryAt outer = some .folder

theorem entryAt_nil (h : place.steps = []) : files.entryAt place = some .folder := by
  rw [entryAt, if_pos h]

/-- A name is a way from the working folder. -/
theorem placeOf_name (files : Files) {name : String} (forth : name ≠ "..")
    : files.placeOf ⟨0, [name]⟩ = some ⟨.working 0, [name]⟩ := by
  have start : files.entryAt (.start ⟨0, [name]⟩) = some .folder := entryAt_nil rfl
  rw [placeOf, List.foldlM_cons, walk, if_pos start, Place.step_of_ne forth]
  rfl

/-- An entry that stands alone in the working folder is found by its name. -/
theorem find_single {name : String} (forth : name ≠ "..") (path : Path.ofString name = ⟨0, [name]⟩)
    (entry : Entry)
    : (⟨[(⟨.working 0, [name]⟩, entry)]⟩ : Files).find? (.ofString name) = some entry := by
  rw [path, find?, placeOf_name _ forth]
  simp [entryAt]

theorem reached_nil (h : place.steps = []) : Reached files place := by
  intro outer within _
  obtain ⟨-, before⟩ := Place.isWithin_iff.mp within
  rw [h, List.prefix_nil] at before
  exact entryAt_nil before

/-- One step less far there is a folder, and so are all folders around it. -/
theorem Reached.dropLast (reached : Reached files place) (some : place.steps ≠ [])
    (h : outer.isWithin other = true) (back : outer = ⟨place.origin, place.steps.dropLast⟩)
    : files.entryAt other = Option.some .folder := by
  obtain ⟨origin, before⟩ := Place.isWithin_iff.mp h
  subst back
  refine reached other ?_ ?_
  · exact Place.isWithin_iff.mpr ⟨origin, before.trans (List.dropLast_prefix place.steps)⟩
  · rintro rfl
    have short := before.length_le
    have positive := List.length_pos_iff.mpr some
    rw [List.length_dropLast] at short
    omega

theorem Reached.entryAt_back (reached : Reached files place)
    : files.entryAt (place.step "..") = some .folder := by
  rcases place.step_back with none | ⟨some, back⟩
  · exact entryAt_nil none
  · exact reached.dropLast some (Place.isWithin_iff.mpr ⟨rfl, List.prefix_refl _⟩) back

/-- A step from a folder leads to a place that all folders around it are there. -/
theorem Reached.step (reached : Reached files place) (folder : files.entryAt place = some .folder)
    (step : String)
    : Reached files (place.step step) := by
  by_cases back : step = ".."
  · subst back
    rcases place.step_back with none | ⟨some, back⟩
    · exact reached_nil none
    · exact fun outer within _ => reached.dropLast some within back
  · intro outer within different
    rw [Place.step_of_ne back] at within different
    obtain ⟨origin, before⟩ := Place.isWithin_iff.mp within
    rcases List.prefix_concat_iff.mp before with whole | before
    · refine (different ?_).elim
      cases outer
      cases origin
      cases whole
      rfl
    · by_cases same : outer = place
      · rw [same]
        exact folder
      · exact reached outer (Place.isWithin_iff.mpr ⟨origin, before⟩) same

theorem reached_of_foldlM {steps : List String} (reached : Reached files place)
    (h : steps.foldlM files.walk place = some other)
    : Reached files other := by
  induction steps generalizing place with
  | nil =>
      obtain rfl := Option.some.inj h
      exact reached
  | cons step rest ih =>
      obtain ⟨next, walked, led⟩ := Option.bind_eq_some_iff.mp h
      unfold walk at walked
      split at walked
      case isTrue folder =>
        obtain rfl := Option.some.inj walked
        exact ih (reached.step folder step) led
      case isFalse => cases walked

/-- A way leads only to places that all folders around them are there. -/
theorem reached_of_placeOf {path : Path} (h : files.placeOf path = some place)
    : Reached files place :=
  reached_of_foldlM (reached_nil rfl) h

theorem lookup_putEntry_self (entries : List (Place × Entry))
    : (putEntry place entry entries).lookup place = some entry := by
  induction entries with
  | nil => simp [putEntry]
  | cons first rest ih =>
      rw [putEntry]
      split
      case isTrue => simp
      case isFalse different =>
        rw [List.lookup_cons, beq_false_of_ne (Ne.symm different)]
        exact ih

theorem lookup_putEntry_of_ne (entries : List (Place × Entry)) (h : other ≠ place)
    : (putEntry place entry entries).lookup other = entries.lookup other := by
  induction entries with
  | nil =>
      rw [putEntry, List.lookup_cons, beq_false_of_ne h]
  | cons first rest ih =>
      rw [putEntry]
      split
      case isTrue same =>
        obtain ⟨key, old⟩ := first
        obtain rfl : key = place := same
        rw [List.lookup_cons, List.lookup_cons, beq_false_of_ne h]
      case isFalse =>
        rw [List.lookup_cons, List.lookup_cons, ih]

theorem any_putEntry (entries : List (Place × Entry)) (p : Place → Bool)
    : (putEntry place entry entries).any (p ·.1) = (p place || entries.any (p ·.1)) := by
  induction entries with
  | nil => simp [putEntry]
  | cons first rest ih =>
      rw [putEntry]
      split
      case isTrue same =>
        rw [List.any_cons, List.any_cons, same, ← Bool.or_assoc, Bool.or_self]
      case isFalse =>
        rw [List.any_cons, List.any_cons, ih, Bool.or_left_comm]

/-- A new entry changes nothing at another place. -/
theorem entryAt_putEntry_of_ne (reached : Reached files place) (h : other ≠ place)
    : entryAt ⟨putEntry place entry files.entries⟩ other = files.entryAt other := by
  have around := reached other
  unfold entryAt at around ⊢
  simp only [lookup_putEntry_of_ne files.entries h,
    any_putEntry files.entries (Place.isWithin · other)] at around ⊢
  split
  case isTrue => rfl
  case isFalse some =>
    rw [if_neg some] at around
    cases found : files.entries.lookup other with
    | some => rfl
    | none =>
        rw [found] at around
        cases within : place.isWithin other with
        | false => rw [Bool.false_or]
        | true =>
            -- The place is inside this one, which is therefore a folder already.
            rw [Bool.true_or, if_pos rfl]
            exact (around within h).symm

-----------------------------------------------------------------------------------------
-- Writing
-----------------------------------------------------------------------------------------

/-- The second files are the first with a file at a place. -/
structure Written (files after : Files) (place : Place) (bytes : List UInt8) : Prop where
  free : files.entryAt place ≠ some .folder
  self : after.entryAt place = some (.file bytes)
  other : ∀ other, other ≠ place → after.entryAt other = files.entryAt other

/-- Where no folder stands at the end of a way, a text can be written. -/
theorem exists_written {path : Path} (h : files.placeOf path = some place)
    (free : files.entryAt place ≠ some .folder) (text : String)
    : ∃ after, files.write? path text = some after
      ∧ Written files after place (Text.Utf8.encode text) := by
  refine ⟨⟨putEntry place (.file (Text.Utf8.encode text)) files.entries⟩, ?_, free, ?_,
    fun other => entryAt_putEntry_of_ne (reached_of_placeOf h)⟩
  · rw [write?, h]
    simp only
    rw [if_neg free]
  · have some : place.steps ≠ [] := fun none => free (entryAt_nil none)
    simp only [entryAt, if_neg some, lookup_putEntry_self]

variable {bytes : List UInt8} {path : Path}

theorem Written.walk (written : Written files after place bytes) : after.walk = files.walk := by
  funext other step
  have same : after.entryAt other = some .folder ↔ files.entryAt other = some .folder := by
    by_cases at_place : other = place
    · subst at_place
      rw [written.self]
      exact ⟨nofun, fun folder => (written.free folder).elim⟩
    · rw [written.other other at_place]
  simp only [Files.walk, same]

/-- Writing changes no way. -/
theorem Written.placeOf (written : Written files after place bytes) (path : Path)
    : after.placeOf path = files.placeOf path := by
  rw [Files.placeOf, Files.placeOf, written.walk]

theorem Written.find_self (written : Written files after place bytes)
    (h : files.placeOf path = some place)
    : after.find? path = some (.file bytes) := by
  rw [find?, written.placeOf, h]
  exact written.self

theorem Written.find_other (written : Written files after place bytes)
    (h : files.placeOf path ≠ some place)
    : after.find? path = files.find? path := by
  rw [find?, find?, written.placeOf]
  cases found : files.placeOf path with
  | none => rfl
  | some other =>
      refine written.other other ?_
      rintro rfl
      exact h found

/-- The last step of a way is a step from a folder. -/
theorem placeOf_concat {before : List String} {last : String}
    (steps : path.steps = before ++ [last]) (h : files.placeOf path = some place)
    : ∃ outer, before.foldlM files.walk (.start path) = some outer ∧ Reached files outer
      ∧ files.entryAt outer = some .folder ∧ place = outer.step last := by
  rw [placeOf, steps, List.foldlM_append] at h
  obtain ⟨outer, led, walked⟩ := Option.bind_eq_some_iff.mp h
  refine ⟨outer, led, reached_of_foldlM (reached_nil rfl) led, ?_⟩
  rw [List.foldlM_cons] at walked
  obtain ⟨next, walked, same⟩ := Option.bind_eq_some_iff.mp walked
  obtain rfl := Option.some.inj same
  unfold Files.walk at walked
  split at walked
  case isTrue folder => exact ⟨folder, (Option.some.inj walked).symm⟩
  case isFalse => cases walked

/-- A file stands at the end of a step from a folder, and the same path with a suffix leads from
that folder as well.
-/
theorem placeOf_addSuffix (h : files.find? path = some (.file bytes))
    : ∃ (outer : Place) (last : String),
      files.placeOf path = some ⟨outer.origin, outer.steps ++ [last]⟩
      ∧ ∀ suffix, last ++ suffix ≠ ".." →
        files.placeOf (path.addSuffix suffix)
          = some ⟨outer.origin, outer.steps ++ [last ++ suffix]⟩ := by
  obtain ⟨place, led, found⟩ := Option.bind_eq_some_iff.mp h
  rcases List.eq_nil_or_concat' path.steps with none | ⟨before, last, steps⟩
  · rw [placeOf, none] at led
    obtain rfl := Option.some.inj led
    cases found
  · obtain ⟨outer, led', reached, folder, rfl⟩ := placeOf_concat steps led
    by_cases back : last = ".."
    · rw [back, reached.entryAt_back] at found
      cases found
    · refine ⟨outer, last, ?_, fun suffix forth => ?_⟩
      · rw [led, Place.step_of_ne back]
      · have suffixed : path.addSuffix suffix = ⟨path.slashes, before ++ [last ++ suffix]⟩ := by
          rw [Path.addSuffix, steps, List.getLast?_append, List.dropLast_concat]
          rfl
        have start : Place.start ⟨path.slashes, before ++ [last ++ suffix]⟩ = .start path := rfl
        rw [suffixed, placeOf, List.foldlM_append, start, led']
        simp only [Option.bind_eq_bind, Option.bind_some, List.foldlM_cons, List.foldlM_nil,
          Files.walk, folder, if_true, Place.step_of_ne forth]
        rfl

end Files

end Lox
