import RobotBlocks.Config.File
import RobotBlocks.Proofs.Project.Folder

/-!
# Bad configuration files

Loading asks what a file holds for an agent size, makes a tuple of its parts and lays the fields over
the default settings. Each of these steps refuses what does not fit, and a refusal leaves the default
settings and not some of them replaced.

* `parts?_eq_some_iff`: a list, a text and a record have parts, and nothing else has.
* `ofData_record`, `ofData_eq_error`: a record of settings (`AreSettings`) is laid over the default
  settings, and every other value is refused.
* `load_falls_back`: loading fails only if the brackets in the file nest deeper than the reader
  goes; otherwise it gives the settings of the file over the default ones, or the default ones.
-/

namespace RobotBlocks

/-! ## Parts -/

/-- The raw values that have parts, and the parts that they have. -/
inductive Data.Parts : Data → List Data → Prop
  /-- The items of a list. -/
  | list (items : List Data) : Parts (.list items) items
  /-- The characters of a text, each as a text. -/
  | text (t : Text) : Parts (.text t) (t.map fun p => .text [p])
  /-- The names of a record. -/
  | record (fields : Fields) : Parts (.record fields) (fields.map fun f => .text f.1)

theorem Data.parts?_eq_some_iff {value : Data} {parts : List Data} :
    value.parts? = some parts ↔ value.Parts parts := by
  constructor
  · intro h
    cases value with
    | list items =>
      cases h
      exact .list _
    | text t =>
      cases h
      exact .text _
    | record fields =>
      cases h
      exact .record _
    | _ => cases h
  · rintro (_ | _ | _) <;> rfl

namespace Settings

open Data Outcome

/-! ## Settings over settings -/

section

variable {stated s : Settings}

theorem withSetting_of_mem {f : Text × Setting} (h : f.1 ∈ names s) :
    withSetting s f = .ok (setField s f.1 f.2) := if_pos (any_name_iff.2 h)

theorem withSetting_of_notMem {f : Text × Setting} (h : f.1 ∉ names s) :
    withSetting s f = .error (.unknown f.1) := if_neg fun hany => h (any_name_iff.1 hany)

/-- **Settings with the names of others replace these**, one after the other. -/
theorem foldlM_withSetting (hnodup : (names stated).Nodup)
    (hknown : ∀ name ∈ names stated, name ∈ names s) :
    ∃ t, stated.foldlM withSetting s = .ok t ∧ names t = names s ∧
      ∀ name, field? t name = (field? stated name).or (field? s name) := by
  induction stated generalizing s with
  | nil => exact ⟨s, rfl, rfl, fun name => rfl⟩
  | cons f stated ih =>
    obtain ⟨name, value⟩ := f
    obtain ⟨hnew, hnodup⟩ := List.nodup_cons.1 hnodup
    obtain ⟨hname, hknown⟩ := List.forall_mem_cons.1 hknown
    have hnames : names (setField s name value) = names s := names_setField_of_mem hname
    obtain ⟨t, ht, hsame, hvalue⟩ := ih (s := setField s name value) hnodup (hnames ▸ hknown)
    refine ⟨t, ?_, hsame.trans hnames, fun other => ?_⟩
    · rw [List.foldlM_cons, withSetting_of_mem hname]
      exact ht
    · rw [hvalue, field?_setField]
      by_cases hother : other = name
      · subst hother
        rw [field?_cons_self, field?_eq_none_iff.2 hnew, if_pos rfl]
        rfl
      · rw [field?_cons_of_ne hother, if_neg hother]

/-- Settings one of which has another name are refused. -/
theorem foldlM_withSetting_eq_error {name : Text} (hname : name ∈ names stated)
    (hunknown : name ∉ names s) : ∃ refusal, stated.foldlM withSetting s = .error refusal := by
  induction stated generalizing s with
  | nil => cases hname
  | cons f stated ih =>
    rw [List.foldlM_cons]
    by_cases hf : f.1 ∈ names s
    · rw [withSetting_of_mem hf]
      have hname : name ∈ names stated := by
        rcases List.mem_cons.1 hname with rfl | hname
        · exact absurd hf hunknown
        · exact hname
      exact ih hname (names_setField_of_mem hf ▸ hunknown)
    · exact ⟨_, by rw [withSetting_of_notMem hf]; rfl⟩

end

/-! ## Raw values -/

variable {fields : Fields} {s : Settings}

/-- The fields are settings: all have the names of settings, and an agent size is a list, a text or a
record. -/
structure AreSettings (fields : Fields) : Prop where
  known : ∀ name ∈ names fields, name ∈ names default
  sized : ∀ size, field? fields "agent_size" = some size → ∃ parts, size.Parts parts

/-- The settings are those that the fields state, and the default ones where they state none: the
agent size is the tuple of the parts that are stated for it, and every other setting is the raw value
that is stated. -/
structure Overlays (fields : Fields) (s : Settings) : Prop where
  names : names s = names default
  size : ∀ size, field? fields "agent_size" = some size →
    ∃ parts, size.Parts parts ∧ field? s "agent_size" = some (.tuple parts)
  stated : ∀ (name : Text) (value : Data), name ≠ "agent_size" → field? fields name = some value →
    field? s name = some (.raw value)
  kept : ∀ name : Text, field? fields name = none → field? s name = field? default name

/-! ## The tuple of an agent size -/

theorem names_ofRaw : names (ofRaw fields) = names fields := names_map _ _

theorem field?_ofRaw (fields : Fields) (name : Text) :
    field? (ofRaw fields) name = (field? fields name).map .raw := field?_map _ _ _

theorem withTuple_of_none (h : field? fields "agent_size" = none) :
    withTuple (.record fields) = .ok (ofRaw fields) := by
  have hany : (fields.any fun f => f.1 == Text.ofString "agent_size") = false :=
    Bool.eq_false_iff.2 fun hany => field?_eq_none_iff.1 h (any_name_iff.1 hany)
  have hholds : holds? "agent_size" (.record fields) = some false := congrArg some hany
  simp only [withTuple, hholds]

theorem withTuple_of_some {size : Data} (h : field? fields "agent_size" = some size) :
    withTuple (.record fields) = match size.parts? with
      | some parts => .ok (setField (ofRaw fields) "agent_size" (.tuple parts))
      | none => .error .noParts := by
  have hany : (fields.any fun f => f.1 == Text.ofString "agent_size") = true :=
    any_name_iff.2 (mem_names_of_field? h)
  have hholds : holds? "agent_size" (.record fields) = some true := congrArg some hany
  cases hparts : size.parts? <;>
    simp only [withTuple, hholds, field, h, Option.getD_some, hparts]

/-- **The settings of a record** whose agent size has parts: this is their tuple, and all else is as it
was. -/
theorem withTuple_record
    (hsized : ∀ size, field? fields "agent_size" = some size → ∃ parts, size.Parts parts) :
    ∃ stated, withTuple (.record fields) = .ok stated ∧ names stated = names fields ∧
      (∀ size, field? fields "agent_size" = some size →
        ∃ parts, size.Parts parts ∧ field? stated "agent_size" = some (.tuple parts)) ∧
      ∀ name : Text, name ≠ "agent_size" ∨ field? fields name = none →
        field? stated name = (field? fields name).map .raw := by
  cases hsize : field? fields "agent_size" with
  | none =>
    exact ⟨ofRaw fields, withTuple_of_none hsize, names_ofRaw, nofun, fun name _ =>
      field?_ofRaw fields name⟩
  | some size =>
    obtain ⟨parts, hparts⟩ := hsized size hsize
    have hmem : Text.ofString "agent_size" ∈ names (ofRaw fields) :=
      names_ofRaw ▸ mem_names_of_field? hsize
    refine ⟨setField (ofRaw fields) "agent_size" (.tuple parts), ?_,
      (names_setField_of_mem hmem).trans names_ofRaw, ?_, fun name hname => ?_⟩
    · rw [withTuple_of_some hsize, parts?_eq_some_iff.2 hparts]
    · rintro _ ⟨⟩
      exact ⟨parts, hparts, field?_setField_self⟩
    · have hne : name ≠ "agent_size" := by
        rcases hname with hne | hnone
        · exact hne
        · rintro rfl
          cases hsize.symm.trans hnone
      rw [field?_setField_of_ne hne, field?_ofRaw]

/-- What is no record has no settings, whether the name of the agent size is in it or not. -/
theorem withTuple_eq_error {value : Data} (h : ∀ fields, value ≠ .record fields) :
    ∃ refusal, withTuple value = .error refusal := by
  unfold withTuple
  split
  · exact ⟨_, rfl⟩
  · exact absurd rfl (h _)
  · exact ⟨_, rfl⟩
  · exact absurd rfl (h _)
  · exact ⟨_, rfl⟩

/-! ## Settings of raw values -/

/-- **A record of settings is laid over the default ones.** -/
theorem ofData_record (hnodup : (names fields).Nodup) (h : AreSettings fields) :
    ∃ s, ofData (.record fields) = .ok s ∧ Overlays fields s := by
  obtain ⟨stated, hstated, hnames, hsize, hraw⟩ := withTuple_record h.sized
  obtain ⟨s, hs, hsame, hvalue⟩ := foldlM_withSetting (hnames ▸ hnodup) (hnames ▸ h.known)
  refine ⟨s, ?_, hsame, fun size hfield => ?_, fun name value hne hfield => ?_,
    fun name hnone => ?_⟩
  · exact bind_eq_ok.2 ⟨stated, hstated, hs⟩
  · obtain ⟨parts, hparts, htuple⟩ := hsize size hfield
    exact ⟨parts, hparts, by rw [hvalue, htuple, Option.some_or]⟩
  · rw [hvalue, hraw name (.inl hne), hfield, Option.map_some, Option.some_or]
  · rw [hvalue, hraw name (.inr hnone), hnone, Option.map_none, Option.none_or]

/-- **Every other value is refused.** -/
theorem ofData_eq_error {value : Data}
    (h : ∀ fields, value = .record fields → ¬ AreSettings fields) :
    ∃ refusal, ofData value = .error refusal := by
  by_cases hrecord : ∃ fields, value = .record fields
  · obtain ⟨fields, rfl⟩ := hrecord
    by_cases hsized : ∀ size, field? fields "agent_size" = some size → ∃ parts, size.Parts parts
    · obtain ⟨stated, hstated, hnames, -⟩ := withTuple_record hsized
      have hknown : ¬ ∀ name ∈ names fields, name ∈ names default := fun hknown =>
        h fields rfl ⟨hknown, hsized⟩
      push Not at hknown
      obtain ⟨name, hname, hunknown⟩ := hknown
      obtain ⟨refusal, hrefusal⟩ := foldlM_withSetting_eq_error (hnames ▸ hname) hunknown
      exact ⟨refusal, bind_eq_error.2 (.inr ⟨stated, hstated, hrefusal⟩)⟩
    · push Not at hsized
      obtain ⟨size, hsize, hparts⟩ := hsized
      have hnone : size.parts? = none := Option.eq_none_iff_forall_ne_some.2 fun parts hsome =>
        hparts parts (parts?_eq_some_iff.1 hsome)
      have hrefused : withTuple (.record fields) = .error .noParts := by
        rw [withTuple_of_some hsize, hnone]
      exact ⟨.noParts, bind_eq_error.2 (.inl hrefused)⟩
  · obtain ⟨refusal, hrefusal⟩ := withTuple_eq_error fun fields hvalue => hrecord ⟨fields, hvalue⟩
    exact ⟨refusal, bind_eq_error.2 (.inl hrefusal)⟩

/-! ## Loading -/

/-- **Bad files fall back.** Loading fails only if the brackets of the file nest deeper than the
reader goes, and gives up. Otherwise it gives settings: if the file holds a record of settings,
those in the file over the default ones, and the default ones in every other case. -/
theorem load_falls_back (f : Folder) (path : String) :
    (∃ container bytes cs, f.read path = .ok bytes ∧ Utf8.decode bytes = .ok cs ∧
      Json.maxDepth < Json.nesting (plainNewlines cs) ∧
        f.readJson path = .error (.tooDeep container) ∧
          load f path = .error (.tooDeep container)) ∨
    (∃ fields s, f.readJson path = .ok (.ok (.record fields)) ∧ AreSettings fields ∧
      load f path = .ok s ∧ Overlays fields s) ∨
    ((¬ ∃ fields, f.readJson path = .ok (.ok (.record fields)) ∧ AreSettings fields) ∧
      load f path = .ok default) := by
  cases hread : f.readJson path with
  | error fault =>
    obtain ⟨container, bytes, cs, rfl, hbytes, hcs, hdeep⟩ := Folder.readJson_eq_error hread
    exact .inl ⟨container.name, bytes, cs, hbytes, hcs, hdeep, rfl, by rw [load, hread]; rfl⟩
  | ok content =>
    right
    by_cases hsettings : ∃ fields, content = .ok (.record fields) ∧ AreSettings fields
    · obtain ⟨fields, rfl, hfields⟩ := hsettings
      obtain ⟨s, hs, hoverlays⟩ := ofData_record (Folder.nodup_names_of_readJson hread) hfields
      exact .inl ⟨fields, s, rfl, hfields, by simp [load, hread, hs, Except.map], hoverlays⟩
    · refine .inr ⟨fun ⟨fields, hcontent, hfields⟩ =>
        hsettings ⟨fields, Except.ok.inj hcontent, hfields⟩, ?_⟩
      cases content with
      | error problem => simp [load, hread, Except.map]
      | ok value =>
        obtain ⟨refusal, hrefusal⟩ := ofData_eq_error fun fields hvalue hfields =>
          hsettings ⟨fields, congrArg _ hvalue, hfields⟩
        simp [load, hread, hrefusal, Except.map]

end Settings

end RobotBlocks
