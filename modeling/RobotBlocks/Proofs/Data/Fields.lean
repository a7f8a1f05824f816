import Mathlib.Data.List.Nodup
import RobotBlocks.Data

/-!
# Fields of records

A record keeps its fields in order and is looked up by their names. Setting a field changes what is
found under its name and nothing else (`Data.field?_setField`), and the names stay distinct if they
are (`Data.nodup_names_setField`). Fields with distinct names are known by their names and by what
is found under them (`Data.fields_ext`).
-/

namespace RobotBlocks

namespace Data

variable {α β : Type} {fields : List (Text × α)} {name other : Text} {value : α}

/-- The names of the fields, in order. -/
def names (fields : List (Text × α)) : List Text := fields.map Prod.fst

theorem any_name_iff : (fields.any fun f => f.1 == name) = true ↔ name ∈ names fields := by
  simp [names]

theorem field?_eq_none_iff : field? fields name = none ↔ name ∉ names fields := by
  rw [← any_name_iff, List.any_eq_true, field?, Option.map_eq_none_iff, List.find?_eq_none,
    not_exists]
  exact forall_congr' fun f => not_and.symm

theorem mem_names_of_field? (h : field? fields name = some value) : name ∈ names fields := by
  by_contra hnone
  rw [field?_eq_none_iff.2 hnone] at h
  cases h

/-- **What is found after a field has been set.** -/
theorem field?_setField : field? (setField fields name value) other =
    if other = name then some value else field? fields other := by
  by_cases hany : (fields.any fun f => f.1 == name) = true
  · have hsame : (fun f : Text × α => f.1 == other) ∘
        (fun f => if f.1 == name then (f.1, value) else f) = fun f => f.1 == other := by
      funext f
      simp only [Function.comp_apply]
      split <;> rfl
    rw [setField, if_pos hany, field?, field?, List.find?_map, hsame]
    cases hfind : fields.find? (fun f => f.1 == other) with
    | none =>
      have hne : other ≠ name := by
        rintro rfl
        obtain ⟨f, hf, hname⟩ := List.any_eq_true.1 hany
        exact List.find?_eq_none.1 hfind f hf hname
      rw [if_neg hne]
      rfl
    | some f =>
      have hf : f.1 = other := by simpa using List.find?_some hfind
      by_cases hname : other = name <;> simp [hf, hname]
  · have hnone := field?_eq_none_iff.2 fun hmem => hany (any_name_iff.2 hmem)
    rw [setField, if_neg hany, field?, List.find?_append, Option.map_or]
    by_cases hname : other = name
    · subst hname
      rw [if_pos rfl, ← field?, hnone]
      simp
    · rw [if_neg hname, ← field?]
      simp [Ne.symm hname]

theorem field?_setField_self : field? (setField fields name value) name = some value := by
  rw [field?_setField, if_pos rfl]

theorem field?_setField_of_ne (h : other ≠ name) :
    field? (setField fields name value) other = field? fields other := by
  rw [field?_setField, if_neg h]

/-- A new field is set at the end. -/
theorem setField_of_notMem (h : name ∉ names fields) :
    setField fields name value = fields ++ [(name, value)] :=
  if_neg fun hany => h (any_name_iff.1 hany)

/-- The names after a field has been set: a new one stands at the end. -/
theorem names_setField : names (setField fields name value) =
    if name ∈ names fields then names fields else names fields ++ [name] := by
  by_cases h : name ∈ names fields
  · rw [if_pos h, setField, if_pos (any_name_iff.2 h), names, List.map_map]
    refine List.map_congr_left fun f _ => ?_
    simp only [Function.comp_apply]
    split <;> rfl
  · rw [if_neg h, setField_of_notMem h, names, List.map_append]
    rfl

theorem names_setField_of_mem (h : name ∈ names fields) :
    names (setField fields name value) = names fields := by
  rw [names_setField, if_pos h]

/-- **Names stay distinct.** -/
theorem nodup_names_setField (h : (names fields).Nodup) :
    (names (setField fields name value)).Nodup := by
  rw [names_setField]
  split
  · exact h
  next hnew => simpa using h.concat hnew

theorem field?_cons_self (name : Text) (value : α) (fields : List (Text × α)) :
    field? ((name, value) :: fields) name = some value := by
  simp [field?]

theorem field?_cons_of_ne (h : other ≠ name) (value : α) (fields : List (Text × α)) :
    field? ((name, value) :: fields) other = field? fields other := by
  rw [field?, List.find?_cons_of_neg (by simpa using h.symm), field?]

/-- **Fields with distinct names are known by what is found under each name.** -/
theorem fields_ext {a b : List (Text × α)} (hnames : names a = names b) (hnodup : (names a).Nodup)
    (h : ∀ name ∈ names a, field? a name = field? b name) : a = b := by
  induction a generalizing b with
  | nil => exact (List.map_eq_nil_iff.1 hnames.symm).symm
  | cons f a ih =>
    obtain ⟨name, value⟩ := f
    obtain ⟨⟨name', value'⟩, b, rfl, rfl, hrests⟩ := List.map_eq_cons_iff.1 hnames.symm
    obtain ⟨hnew, hnodup⟩ := List.nodup_cons.1 hnodup
    have hvalue := h name' List.mem_cons_self
    rw [field?_cons_self, field?_cons_self, Option.some.injEq] at hvalue
    have hrest : ∀ name ∈ names a, field? a name = field? b name := by
      intro name hname
      have hne : name ≠ name' := by
        rintro rfl
        exact hnew hname
      have := h name (List.mem_cons_of_mem _ hname)
      rwa [field?_cons_of_ne hne, field?_cons_of_ne hne] at this
    rw [hvalue, ih hrests.symm hnodup hrest]

/-! ## Fields with other values -/

theorem names_map (g : α → β) (fields : List (Text × α)) :
    names (fields.map fun f => (f.1, g f.2)) = names fields := by
  simp [names, Function.comp_def]

theorem field?_map (g : α → β) (fields : List (Text × α)) (name : Text) :
    field? (fields.map fun f => (f.1, g f.2)) name = (field? fields name).map g := by
  simp [field?, List.find?_map, Function.comp_def]

end Data

end RobotBlocks
