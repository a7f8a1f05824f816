import RobotBlocks.Program.Compilation

/-!
# Computations that only add diagnostics

What a program is compiled to does not depend on what has been recorded before, and neither does
what is recorded next. `Recording.of` is a computation with a given outcome that records given
diagnostics; `Logs P m` says that `m` is such a computation and records only diagnostics of which
`P` holds. It is closed under the operations from which compiling is built (`Logs.bind`), so every
part of it has an outcome of its own, `Recording.outcome`, whatever is there already
(`Logs.eq_of_outcome`).
-/

namespace RobotBlocks

namespace Diagnostics

/-- Records several diagnostics, one after the other. -/
def addAll (ds : Diagnostics) (found : List Diagnostic) : Diagnostics := found.foldl add ds

@[simp] theorem addAll_nil (ds : Diagnostics) : ds.addAll [] = ds := rfl

@[simp] theorem addAll_cons (ds : Diagnostics) (d : Diagnostic) (found : List Diagnostic) :
    ds.addAll (d :: found) = (ds.add d).addAll found := rfl

theorem addAll_append (ds : Diagnostics) (found more : List Diagnostic) :
    ds.addAll (found ++ more) = (ds.addAll found).addAll more := List.foldl_append

@[simp] theorem mem_addAll {ds : Diagnostics} {found : List Diagnostic} {d : Diagnostic} :
    d ∈ (ds.addAll found).entries ↔ d ∈ ds.entries ∨ d ∈ found := by
  induction found generalizing ds with
  | nil => simp
  | cons e found ih => rw [addAll_cons, ih, mem_add, List.mem_cons, or_assoc]

end Diagnostics

namespace Recording

variable {α β : Type}

/-- The computation with the given outcome that records the given diagnostics. -/
def of (outcome : Except Fault α) (found : List Diagnostic) : Recording α := fun ds =>
  match outcome with
  | .ok a => .ok a (ds.addAll found)
  | .error fault => .error fault (ds.addAll found)

/-- What a computation gives, or why it fails, if nothing has been recorded before. -/
def outcome (m : Recording α) : Except Fault α :=
  match m .empty with
  | .ok a _ => .ok a
  | .error fault _ => .error fault

theorem outcome_eq_ok {m : Recording α} {a : α} :
    m.outcome = .ok a ↔ ∃ ds, m .empty = .ok a ds := by
  unfold outcome
  rcases m .empty with ⟨a', ds⟩ | ⟨fault, ds⟩ <;> simp

theorem outcome_map (f : α → β) (m : Recording α) : (f <$> m).outcome = m.outcome.map f := by
  simp only [outcome, Functor.map, EStateM.map]
  rcases m .empty with ⟨a, ds⟩ | ⟨fault, ds⟩ <;> rfl

/-- What has been recorded when a computation ends, also if it fails. -/
def recorded (m : Recording α) (ds : Diagnostics) : Diagnostics :=
  match m ds with
  | .ok _ ds' => ds'
  | .error _ ds' => ds'

@[simp] theorem recorded_of (outcome : Except Fault α) (found : List Diagnostic)
    (ds : Diagnostics) : (of outcome found).recorded ds = ds.addAll found := by
  cases outcome <;> rfl

@[simp] theorem outcome_of (outcome : Except Fault α) (found : List Diagnostic) :
    (of outcome found).outcome = outcome := by
  cases outcome <;> rfl

theorem pure_eq_of (a : α) : (pure a : Recording α) = of (.ok a) [] := rfl

theorem throw_eq_of (fault : Fault) : (throw fault : Recording α) = of (.error fault) [] := rfl

theorem warn_eq_of (b : Block) (message : Text) (category : Diagnostic.Category) :
    warn b message category = of (.ok ()) [⟨some b.id, message, category, .warning⟩] := rfl

theorem get_bind (f : Diagnostics → Recording α) (ds : Diagnostics) :
    (get >>= f) ds = f ds ds := rfl

theorem of_ok_bind (a : α) (found : List Diagnostic) (f : α → Recording β) (ds : Diagnostics) :
    (of (.ok a) found >>= f) ds = f a (ds.addAll found) := rfl

/-- The computation has an outcome that does not depend on what has been recorded before, and it
records only diagnostics of which `P` holds. -/
def Logs (P : Diagnostic → Prop) (m : Recording α) : Prop :=
  ∃ outcome found, (∀ d ∈ found, P d) ∧ m = of outcome found

namespace Logs

variable {P : Diagnostic → Prop}

theorem pure (a : α) : Logs P (pure a : Recording α) := ⟨_, [], by simp, pure_eq_of a⟩

theorem throw (fault : Fault) : Logs P (throw fault : Recording α) :=
  ⟨_, [], by simp, throw_eq_of fault⟩

theorem warn {b : Block} {message : Text} {category : Diagnostic.Category}
    (h : P ⟨some b.id, message, category, .warning⟩) : Logs P (warn b message category) :=
  ⟨_, _, by simpa using h, warn_eq_of b message category⟩

theorem bind {m : Recording α} {f : α → Recording β} (hm : Logs P m) (hf : ∀ a, Logs P (f a)) :
    Logs P (m >>= f) := by
  obtain ⟨outcome, found, hfound, rfl⟩ := hm
  rcases outcome with fault | a
  · exact ⟨.error fault, found, hfound, rfl⟩
  · obtain ⟨outcome, more, hmore, hfa⟩ := hf a
    refine ⟨outcome, found ++ more, fun d hd => ?_, ?_⟩
    · exact (List.mem_append.1 hd).elim (hfound d) (hmore d)
    · funext ds
      rw [of_ok_bind, hfa]
      cases outcome <;> simp only [of, Diagnostics.addAll_append]

/-- What the computation records comes behind what is there, and its outcome is its own. -/
theorem eq_of_outcome {m : Recording α} (h : Logs P m) :
    ∃ found, (∀ d ∈ found, P d) ∧ m = of m.outcome found := by
  obtain ⟨outcome, found, hfound, rfl⟩ := h
  exact ⟨found, hfound, by rw [outcome_of]⟩

/-- Whatever is recorded in the end was there before or is one of the diagnostics told of. -/
theorem mem_recorded {m : Recording α} (h : Logs P m) {ds : Diagnostics} {d : Diagnostic}
    (hd : d ∈ (m.recorded ds).entries) : d ∈ ds.entries ∨ P d := by
  obtain ⟨outcome, found, hfound, rfl⟩ := h
  rw [recorded_of, Diagnostics.mem_addAll] at hd
  exact hd.imp_right (hfound d)

/-- Nothing that was recorded is taken back. -/
theorem mem_of_run {m : Recording α} (h : Logs P m) {ds ds' : Diagnostics} {a : α}
    (hrun : m ds = .ok a ds') {d : Diagnostic} (hd : d ∈ ds.entries) : d ∈ ds'.entries := by
  obtain ⟨outcome, found, -, rfl⟩ := h
  have hds' : (of outcome found).recorded ds = ds' := by rw [recorded, hrun]
  rw [recorded_of] at hds'
  exact hds' ▸ Diagnostics.mem_addAll.2 (.inl hd)

theorem mono {Q : Diagnostic → Prop} {m : Recording α} (h : Logs P m) (hPQ : ∀ d, P d → Q d) :
    Logs Q m := by
  obtain ⟨outcome, found, hfound, rfl⟩ := h
  exact ⟨outcome, found, fun d hd => hPQ d (hfound d hd), rfl⟩

/-- A run that succeeds gives the outcome of the computation. -/
theorem outcome_of_run {m : Recording α} (h : Logs P m) {ds ds' : Diagnostics} {a : α}
    (hrun : m ds = .ok a ds') : m.outcome = .ok a := by
  obtain ⟨found, -, heq⟩ := h.eq_of_outcome
  rw [heq] at hrun
  rcases houtcome : m.outcome with fault | a'
  · rw [houtcome] at hrun
    cases hrun
  · rw [houtcome] at hrun
    cases hrun
    rfl

end Logs

/-- A sequence succeeds by a success of its first part and one of its second part behind it. -/
theorem bind_eq_ok {m : Recording α} {f : α → Recording β} {ds ds' : Diagnostics} {b : β} :
    (m >>= f) ds = .ok b ds' ↔ ∃ a between, m ds = .ok a between ∧ f a between = .ok b ds' := by
  simp only [bind, EStateM.bind]
  rcases m ds with ⟨a, between⟩ | ⟨fault, between⟩
  · refine ⟨fun h => ⟨a, between, rfl, h⟩, ?_⟩
    rintro ⟨_, _, ⟨rfl, rfl⟩, h⟩
    exact h
  · simp

end Recording

end RobotBlocks
