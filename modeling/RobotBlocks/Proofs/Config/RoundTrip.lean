import RobotBlocks.Proofs.Config.Fallback
import RobotBlocks.Proofs.Json.Ascii
import RobotBlocks.Proofs.Json.RoundTrip
import RobotBlocks.Proofs.Text.Faithful
import RobotBlocks.Proofs.Text.Utf8

/-!
# Configuration files are read back

A configuration is written as a record of its settings, which is legible if its integers are not too
long and its doubles are read from their texts (`legible_settings`). The text is ASCII without
carriage returns, so its bytes are read as this text and the text as this record
(`readJson_of_save`). In the record the agent size is a list; reading makes a tuple of it
(`withTuple_settings`), and laid over the default settings, all settings of a configuration are what
they were (`ofData_settings`).

* `load_save`: what is loaded after a configuration has been saved at the same path are the settings
  of this configuration, with a tuple for the agent size, for which there is a list in the file. No
  other configuration has these settings.
-/

namespace RobotBlocks

open Data

namespace Config

variable {c : Config Float}

/-- The doubles of a configuration. -/
def doubles (c : Config Float) : List Float :=
  c.agentSize ++ [c.groundHeight, c.initialHeading, c.moveDuration, c.turnDuration,
    c.waitPerSecond, c.unitsPerStep, c.minSpeed, c.maxSpeed, c.defaultSpeed] ++
    c.defaultInputs.map Prod.snd

/-- The integers of a configuration. -/
def integers (c : Config Float) : List ℤ := [c.maxRepeat, c.maxVisits, c.tickInterval]

/-- Every quantity has one default, the texts of the integers are not too long, and the doubles are
read from their texts. -/
structure IsFaithful (c : Config Float) : Prop where
  inputs : (c.defaultInputs.map Prod.fst).Nodup
  integers : ∀ n ∈ c.integers, (digitChars n.natAbs).length ≤ Json.maxDigits
  doubles : ∀ x ∈ c.doubles, x.isFinite = true →
    Float.ofText? (Float.shortestText x) = some x

/-! ## The record of a configuration -/

/-- All configurations have the same settings, in the same order. -/
theorem names_settings (c c' : Config Float) : names c.settings = names c'.settings := rfl

theorem nodup_names_settings (c : Config Float) : (names c.settings).Nodup := by
  rw [names_settings c robot]
  decide +kernel

theorem ofInputs_injective : Function.Injective fun inputs : List (String × Float) =>
    inputs.map fun d => (Text.ofString d.1, Data.real d.2) := by
  refine List.map_injective_iff.2 fun d e h => ?_
  obtain ⟨hname, hvalue⟩ := Prod.mk.inj h
  exact Prod.ext (Text.ofString_injective hname) (Data.real.inj hvalue)

/-- **Configurations with the same settings are the same.** -/
theorem settings_inj {c c' : Config Float} (h : c.settings = c'.settings) : c = c' := by
  obtain ⟨name, size, ground, heading, move, turn, wait, units, least, greatest, speed, inputs,
    rounds, visits, tick⟩ := c
  obtain ⟨name', size', ground', heading', move', turn', wait', units', least', greatest', speed',
    inputs', rounds', visits', tick'⟩ := c'
  simp only [settings, List.cons.injEq, Prod.mk.injEq, Setting.raw.injEq, Setting.tuple.injEq,
    Data.text.injEq, Data.real.injEq, Data.record.injEq, Data.integer.injEq, true_and,
    and_true] at h
  obtain ⟨hname, hsize, rfl, rfl, rfl, rfl, rfl, rfl, rfl, rfl, rfl, hinputs, rfl, rfl, rfl⟩ := h
  rw [Text.ofString_injective hname, ofInputs_injective hinputs,
    List.map_injective_iff.2 (fun _ _ => Data.real.inj) hsize]

theorem legible_reals {xs : List Float}
    (h : ∀ x ∈ xs, x.isFinite = true → Float.ofText? (Float.shortestText x) = some x)
    (depth : ℕ) : Json.Legible (depth + 1) (.list (xs.map .real)) := by
  refine .list fun item hitem => ?_
  obtain ⟨x, hx, rfl⟩ := List.mem_map.1 hitem
  exact .real _ (h x hx)

theorem legible_inputs {inputs : List (String × Float)} (hnames : (inputs.map Prod.fst).Nodup)
    (h : ∀ x ∈ inputs.map Prod.snd,
      x.isFinite = true → Float.ofText? (Float.shortestText x) = some x) (depth : ℕ) :
    Json.Legible (depth + 1) (.record (inputs.map fun d => (Text.ofString d.1, .real d.2))) := by
  refine .record ?_ (fun f hf => ?_) fun f hf => ?_
  · have htexts := hnames.map Text.ofString_injective
    simpa [names, Function.comp_def] using htexts
  · obtain ⟨d, -, rfl⟩ := List.mem_map.1 hf
    exact ⟨_, rfl⟩
  · obtain ⟨d, hd, rfl⟩ := List.mem_map.1 hf
    exact .real _ (h d.2 (List.mem_map_of_mem hd))

/-- **The record of a configuration is legible.** -/
theorem legible_settings (h : c.IsFaithful) (depth : ℕ) :
    Json.Legible (depth + 2) (.record c.settings.written) := by
  have hinteger : ∀ n ∈ c.integers, Json.Legible (depth + 1) (.integer n) := fun n hn =>
    .integer _ (h.integers n hn)
  have hsize : Json.Legible (depth + 1) (.list (c.agentSize.map .real)) :=
    legible_reals (fun x hx => h.doubles x (by simp [doubles, hx])) depth
  have hinputs : Json.Legible (depth + 1)
      (.record (c.defaultInputs.map fun d => (Text.ofString d.1, .real d.2))) :=
    legible_inputs h.inputs
      (fun x hx => h.doubles x (by
        rw [doubles]
        exact List.mem_append_right _ hx)) depth
  have hwritten : (names c.settings.written).Nodup := by
    rw [Settings.written, names_map]
    exact nodup_names_settings c
  refine .record hwritten ?_ ?_
  · intro f hf
    simp only [Settings.written, settings, List.map_cons, List.map_nil, List.mem_cons,
      List.not_mem_nil, or_false] at hf
    rcases hf with rfl | rfl | rfl | rfl | rfl | rfl | rfl | rfl | rfl | rfl | rfl | rfl | rfl |
      rfl | rfl <;> exact ⟨_, rfl⟩
  · have hsingle : ∀ x ∈ [c.groundHeight, c.initialHeading, c.moveDuration, c.turnDuration,
        c.waitPerSecond, c.unitsPerStep, c.minSpeed, c.maxSpeed, c.defaultSpeed],
        Json.Legible (depth + 1) (.real x) := fun x hx => .real _ (h.doubles x (by
      rw [doubles]
      exact List.mem_append_left _ (List.mem_append_right _ hx)))
    simp only [List.forall_mem_cons, List.not_mem_nil, false_implies, implies_true] at hsingle
    obtain ⟨hground, hheading, hmove, hturn, hwait, hunits, hleast, hgreatest, hspeed, -⟩ := hsingle
    simp only [Settings.written, settings, List.map_cons, List.map_nil, Setting.written,
      List.forall_mem_cons]
    exact ⟨.text _ _, hsize, hground, hheading, hmove, hturn, hwait, hunits, hleast, hgreatest,
      hspeed, hinputs, hinteger _ (by simp [integers]), hinteger _ (by simp [integers]),
      hinteger _ (by simp [integers]), List.forall_mem_nil _⟩

end Config

namespace Settings

/-- The agent size is written as a list, as it would be without being made one. -/
theorem withList_settings (c : Config Float) :
    ∃ saved, c.settings.withList = .ok saved ∧ saved.written = c.settings.written :=
  ⟨_, rfl, rfl⟩

/-- **The list of the agent size is made a tuple again**, and nothing else is changed. -/
theorem withTuple_settings (c : Config Float) :
    withTuple (.record c.settings.written) = .ok c.settings := rfl

/-- **The settings of a configuration stay what they are over the default ones.** -/
theorem ofData_settings (c : Config Float) :
    ofData (.record c.settings.written) = .ok c.settings := by
  have hdefault : names c.settings = names default := Config.names_settings c .robot
  obtain ⟨s, hs, hnames, hvalue⟩ :=
    foldlM_withSetting (Config.nodup_names_settings c) fun name hname => hdefault ▸ hname
  have hsame : names s = names c.settings := hnames.trans hdefault.symm
  have hread : ofData (.record c.settings.written) = .ok s := by
    rw [ofData, Outcome.bind_eq_ok]
    exact ⟨_, withTuple_settings c, hs⟩
  rw [hread, fields_ext hsame (hsame ▸ Config.nodup_names_settings c) fun name hname => ?_]
  have hfound : (field? c.settings name).isSome = true := by
    rw [Option.isSome_iff_ne_none]
    exact fun hnone => field?_eq_none_iff.1 hnone (hsame ▸ hname)
  rw [hvalue, Option.or_of_isSome hfound]

/-- What saving writes is the text of the settings. -/
theorem write_of_save {f g : Folder} {path : String} {c : Config Float}
    (hsave : save f path c.settings = .ok g) :
    f.write path (text c.settings).toUTF8.toList = .ok g := by
  obtain ⟨saved, hsaved, hwritten⟩ := withList_settings c
  obtain ⟨saved', hsaved', hwrite⟩ := Outcome.bind_eq_ok.1 hsave
  cases hsaved.symm.trans hsaved'
  rw [text, hwritten, ← text] at hwrite
  split at hwrite
  next g' hwrite' =>
    cases hwrite
    exact hwrite'
  next => cases hwrite

theorem readJson_of_save {f g : Folder} {path : String} {c : Config Float} (h : c.IsFaithful)
    (hdevice : f.leadsToDevice path = false) (hsave : save f path c.settings = .ok g) :
    g.readJson path = .ok (.ok (.record c.settings.written)) := by
  have hplain : '\r' ∉ (text c.settings).toList := fun hreturn => by
    have hwritten := Json.areWritten_indented 0 (.record c.settings.written) _ hreturn
    exact absurd hwritten (by decide)
  rw [Folder.readJson, Folder.read_write (write_of_save hsave) hdevice]
  simp only [readJson, Utf8.decode_toUTF8, plainNewlines_eq hplain]
  rw [text, Json.read_indented (Config.legible_settings h 985)]

/-- **Configuration files are read back.** Let a configuration be saved at a path that does not lead
to a device. The file holds a record with a list for its agent size; what is loaded from there are
the settings of the configuration, in which the agent size is a tuple, and no other configuration
has these settings. -/
theorem load_save {f g : Folder} {path : String} {c : Config Float} (h : c.IsFaithful)
    (hdevice : f.leadsToDevice path = false) (hsave : save f path c.settings = .ok g) :
    (∃ fields, g.readJson path = .ok (.ok (.record fields)) ∧
      field? fields "agent_size" = some (.list (c.agentSize.map .real))) ∧
    (∃ s, load g path = .ok s ∧ s = c.settings ∧
      field? s "agent_size" = some (.tuple (c.agentSize.map .real))) ∧
    ∀ c' : Config Float, c'.settings = c.settings → c' = c := by
  have hread := readJson_of_save h hdevice hsave
  refine ⟨⟨_, hread, rfl⟩, ⟨c.settings, ?_, rfl, rfl⟩, fun c' => Config.settings_inj⟩
  simp [load, hread, ofData_settings, Except.map]

/-- A configuration that writing has to care about: its name has a quote, a backslash, a newline, a
control character and characters outside ASCII, some of its doubles are not finite or have no sign
to show, and an integer has more digits than a double. -/
def intricate : Config Float where
  name := "\"R\\\n\x01é🤖"
  agentSize := [0.1, 1e300, 5e-324]
  groundHeight := -0.0
  initialHeading := Float.undefined
  moveDuration := Float.infinity
  turnDuration := -Float.infinity
  waitPerSecond := 123456789012345678
  unitsPerStep := 0.0001
  minSpeed := -1.5
  maxSpeed := 9007199254740993
  defaultSpeed := 1e22
  defaultInputs := [("", 10.0), ("größe", 0.3333333333333333)]
  maxRepeat := 10 ^ 30
  maxVisits := -7
  tickInterval := 0

theorem isFaithful_intricate : intricate.IsFaithful where
  inputs := by decide
  integers := by decide
  doubles := by decide +kernel

/-- A short path, whose names can be told apart by computing. -/
theorem place_empty : Folder.empty.place "c" = .name .working "c" false := by
  have hparts : "c".splitOn "/" = ["c"] := by
    rw [String.splitOn, if_neg (by decide), String.splitOnAux, if_neg (by decide),
      if_neg (by decide), String.splitOnAux, if_pos (by decide)]
    decide
  rw [Folder.place, if_neg (by decide), if_neg (by decide),
    if_neg (by decide +kernel), hparts]
  decide

theorem load_save_intricate :
    intricate.IsFaithful ∧ Folder.empty.leadsToDevice "c" = false ∧
      ∃ g, save .empty "c" intricate.settings = .ok g ∧
        (∃ fields, g.readJson "c" = .ok (.ok (.record fields)) ∧
          field? fields "agent_size" = some (.list (intricate.agentSize.map .real))) ∧
        (∃ s, load g "c" = .ok s ∧ s = intricate.settings ∧
          field? s "agent_size" = some (.tuple (intricate.agentSize.map .real))) ∧
        ∀ c' : Config Float, c'.settings = intricate.settings → c' = intricate := by
  have hdevice : Folder.empty.leadsToDevice "c" = false := by
    rw [Folder.leadsToDevice, place_empty]
    decide +kernel
  obtain ⟨saved, hsaved, hwritten⟩ := withList_settings intricate
  have hsave : save .empty "c" intricate.settings =
      .ok (.single "c" (text saved).toUTF8.toList) := by
    rw [save, hsaved, Outcome.bind_eq_ok]
    refine ⟨saved, rfl, ?_⟩
    rw [Folder.write, if_neg (by decide +kernel), place_empty]
    rfl
  exact ⟨isFaithful_intricate, hdevice, _, hsave, load_save isFaithful_intricate hdevice hsave⟩

end Settings

end RobotBlocks
