import RobotBlocks.Project.Folder
import RobotBlocks.Proofs.Json.Nesting

/-!
# What files hold

Reading the raw value in a file fails altogether only by the nesting of the brackets in it
(`Folder.readJson_eq_error`), and the names of a record that is read differ.

What is written at a path is read there (`Folder.read_write`), unless the path leads to a device: a
file never changes where a path to it leads.
-/

namespace RobotBlocks

namespace Folder

variable {f : Folder} {path : String}

/-- A file makes the whole call fail only by the nesting of its brackets. -/
theorem readJson_eq_error {fault : Fault}
    (h : f.readJson path = .error fault) :
    ∃ (container : Json.Container) (bytes : List UInt8) (cs : List Char),
      fault = .tooDeep container.name ∧ f.read path = .ok bytes ∧ Utf8.decode bytes = .ok cs ∧
        Json.maxDepth < Json.nesting (plainNewlines cs) := by
  unfold readJson at h
  split at h
  · cases h
  next bytes hbytes =>
    unfold RobotBlocks.readJson at h
    split at h
    · cases h
    next cs hcs =>
      split at h
      next hread =>
        cases h
        obtain ⟨container, rfl, hdeep⟩ := Json.read_eq_error hread
        exact ⟨container, bytes, cs, rfl, hbytes, hcs, hdeep⟩
      · cases h
      · cases h

theorem nodup_names_of_readJson {fields : Fields}
    (h : f.readJson path = .ok (.ok (.record fields))) : (Data.names fields).Nodup := by
  unfold readJson at h
  split at h
  · cases h
  · unfold RobotBlocks.readJson at h
    split at h
    · cases h
    · split at h
      · cases h
      · cases h
      next hread =>
        cases h
        exact Json.nodup_names_of_read hread

/-! ## Writing and reading -/

/-- Whether a path leads to a device, which keeps nothing. -/
def leadsToDevice (f : Folder) (path : String) : Bool :=
  match f.place path with
  | .name d name _ => Directory.devices.contains (d.pathOf name)
  | _ => false

/-- Files do not change the way to a name. -/
theorem follow_eq_name {f g : Folder} {d place : Directory} {parts : List String} {name : String}
    {closed : Bool} (h : f.follow d parts = .name place name closed) :
    g.follow d parts = .name place name closed := by
  induction parts generalizing d with
  | nil => cases h
  | cons part rest ih =>
    rw [follow] at h ⊢
    split
    next hstay =>
      rw [if_pos hstay] at h
      exact ih h
    next hstay =>
      rw [if_neg hstay] at h
      split
      next hup =>
        rw [if_pos hup] at h
        exact ih h
      next hup =>
        rw [if_neg hup] at h
        cases hinner : d.enter? part with
        | some inner =>
          rw [hinner] at h
          exact ih h
        | none =>
          rw [hinner] at h
          dsimp only at h ⊢
          split at h
          next hlast =>
            rw [if_pos hlast]
            exact h
          next =>
            split at h
            · cases h
            · split at h <;> cases h

theorem place_eq_name {f g : Folder} {d : Directory} {name : String} {closed : Bool}
    (h : f.place path = .name d name closed) : g.place path = .name d name closed := by
  unfold place at h ⊢
  split
  next hempty =>
    rw [if_pos hempty] at h
    cases h
  next hempty =>
    rw [if_neg hempty] at h
    split
    next hlong =>
      rw [if_pos hlong] at h
      cases h
    next hlong =>
      rw [if_neg hlong] at h
      exact follow_eq_name h

/-- **What is written is read.** -/
theorem read_write {f g : Folder} {bytes : List UInt8} (hwrite : f.write path bytes = .ok g)
    (hdevice : f.leadsToDevice path = false) : g.read path = .ok bytes := by
  unfold write at hwrite
  split at hwrite
  · cases hwrite
  next hnull =>
    split at hwrite
    · cases hwrite
    · cases hwrite
    · cases hwrite
    · cases hwrite
    next d name closed hplace =>
      dsimp only at hwrite
      split at hwrite
      · cases hwrite
      next hclosed =>
        split at hwrite
        · cases hwrite
        next hshort =>
          split at hwrite
          · cases hwrite
          split at hwrite
          · cases hwrite
          cases hwrite
          rw [leadsToDevice, hplace] at hdevice
          dsimp only at hdevice
          rw [read, if_neg hnull, place_eq_name hplace]
          dsimp only
          rw [if_neg hshort, bytes?, if_neg (Bool.eq_false_iff.1 hdevice)]
          simp [hclosed]

end Folder

end RobotBlocks
