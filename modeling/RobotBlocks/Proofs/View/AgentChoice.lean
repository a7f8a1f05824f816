import RobotBlocks.Proofs.Text.Faithful
import RobotBlocks.Proofs.View.Agreement

/-!
# The agent that is chosen and the one in use

A project names its agent by any text; the controller looks the name up in any letter case and with
white space at the ends, and takes the box robot if nobody has it. The list of agents on the window
follows a project only if it has that very text. A viewer, who chooses from the list, names agents by
the texts that it has.

`Told clock names h` tells by which texts agents have been named, the latest first. The controller has
the agent of the latest of them; the list is at the latest one that it has (`choice_follows_names`). The
two are the same if the latest name is one of the list, but not always (`not_choice_shows_agent`).
-/

namespace RobotBlocks

namespace Window

/-! ## Names on the list -/

/-- The text is on the list of agents; the empty one stands for no choice. -/
def isListed (name : Text) : Bool := name.isEmpty || (placeOf? name).isSome

theorem nameAt_of_placeOf? {name : Text} {n : ℕ} (h : placeOf? name = some n) :
    Text.ofString (nameAt (some n)) = name := by
  obtain ⟨hn, hname, -⟩ := List.findIdx?_eq_some_iff_getElem.1 h
  have hentry : nameAt (some n) = Config.agentNames[n] := by
    rw [nameAt, Option.bind_some, List.getElem?_eq_getElem hn, Option.getD_some]
  rw [hentry]
  exact eq_of_beq hname

theorem isListed_nameAt (index : Int) : isListed (nameAt (choiceAt index)) = true := by
  cases hchoice : choiceAt index with
  | none => rfl
  | some n =>
    have hn : n < Config.agentNames.length := by
      simpa using (Option.filter_eq_some_iff.1 hchoice).2
    have hall : ∀ n < Config.agentNames.length, isListed (nameAt (some n)) = true := by
      decide
    exact hall n hn

end Window

/-! ## The history of names -/

theorem Controller.isEmpty_of_agentNamed? {project : Data} {name : Text}
    (h : agentNamed? project = some name) : name.isEmpty = false := by
  unfold agentNamed? at h
  split at h
  · split at h
    next text _ =>
      by_cases hempty : text.isEmpty = true
      · rw [if_pos hempty] at h
        cases h
      · rw [if_neg hempty] at h
        cases h
        simpa using hempty
    · cases h
  · cases h

namespace WindowCall

/-- The text of a choice from the list, if the call makes one. -/
def choices (c : WindowCall Float) (selected : Option ℕ) : List Text :=
  match c with
  | .select index =>
    if Window.choiceAt index = selected then []
    else [Text.ofString (Window.nameAt (Window.choiceAt index))]
  | _ => []

/-- The texts by which a call names agents, at most one. -/
def names (c : WindowCall Float) (selected : Option ℕ) : List Text :=
  match c.project? with
  | some project => (Controller.agentNamed? project).toList
  | none => c.choices selected

end WindowCall

namespace Window

/-- The windows after calls that all succeeded, with the texts by which agents were named, the latest
first. The sample names the box robot. -/
inductive Told (clock : Float) : List Text → WindowHost Float → Prop
  | start {h : WindowHost Float} (hstart : Window.start clock = .ok h) : Told clock ["Robot"] h
  | call {names : List Text} {h h' : WindowHost Float} {c : WindowCall Float} {reply : WindowReply}
    (before : Told clock names h) (hrun : c.make h = .ok reply h') :
    Told clock (c.names h.memory.memory.selected ++ names) h'

/-- The fixtures answer to a history of names: the agent is that of the latest name, and the list of
agents is at the latest of those that it has. -/
structure Answers (names : List Text) (v : Fixtures Float) : Prop where
  agent : ∃ last, names.head? = some last ∧ v.agent = Config.ofName last
  selected : names.find? isListed = some (Text.ofString (nameAt v.selected))

namespace Answers

variable {names : List Text} {v v' : Fixtures Float}

/-- A call that names no agent keeps the agent and the choice. -/
theorem congr (h : Answers names v) (hagent : v'.agent = v.agent)
    (hselected : v'.selected = v.selected) : Answers names v' where
  agent := hagent ▸ h.agent
  selected := hselected ▸ h.selected

/-- A project that names an agent. -/
theorem named (h : Answers names v) {name : Text} (hname : name.isEmpty = false) :
    Answers (name :: names) (v.named name) where
  agent := ⟨name, rfl, rfl⟩
  selected := by
    show _ = some (Text.ofString (nameAt ((placeOf? name).or v.selected)))
    cases hplace : placeOf? name with
    | some n =>
      rw [List.find?_cons_of_pos (by simp [isListed, hplace]), Option.some_or,
        nameAt_of_placeOf? hplace]
    | none =>
      rw [List.find?_cons_of_neg (by simp [isListed, hplace, hname]), Option.none_or]
      exact h.selected

/-- A choice from the list. -/
theorem chosen (h : Answers names v) (index : Int) :
    Answers ((WindowCall.select index).choices v.selected ++ names) (v.chosen (choiceAt index)) := by
  unfold Fixtures.chosen WindowCall.choices
  dsimp only
  by_cases hsame : choiceAt index = v.selected
  · rw [if_pos hsame, if_pos hsame]
    exact h
  · rw [if_neg hsame, if_neg hsame]
    have hagent : ∀ (w : Fixtures Float) (preset : Config Float),
        (w.dressed preset).agent = preset := fun _ _ => rfl
    refine ⟨⟨_, rfl, hagent _ _⟩, ?_⟩
    show _ = some (Text.ofString (nameAt (choiceAt index)))
    rw [List.singleton_append, List.find?_cons_of_pos (isListed_nameAt index)]

theorem refit (h : Answers names v) (c : WindowCall Float) :
    Answers (c.choices v.selected ++ names) (c.refit v) := by
  cases c with
  | select index => exact h.chosen index
  | slide value => exact h.congr rfl rfl
  | reset => exact h.congr rfl rfl
  | _ => exact h

/-- **Calls answer** to the names that they give. -/
theorem alters (h : Answers names v) {c : WindowCall Float} (hc : c.Alters v v') :
    Answers (c.names v.selected ++ names) v' := by
  unfold WindowCall.Alters at hc
  unfold WindowCall.names
  rcases hproject : c.project? with _ | project
  · rw [hproject] at hc
    have hrefit : v' = c.refit v := hc
    rw [hrefit]
    exact h.refit c
  · rw [hproject] at hc
    obtain ⟨obstacles, rfl⟩ := hc
    dsimp only
    cases hname : Controller.agentNamed? project with
    | none => exact h.congr rfl rfl
    | some name => exact (h.named (Controller.isEmpty_of_agentNamed? hname)).congr rfl rfl

end Answers

/-! ## Windows in use -/

variable {clock : Float} {names : List Text} {h : WindowHost Float}

theorem Told.used (told : Told clock names h) : Used clock h := by
  induction told with
  | start hstart => exact .start hstart
  | call _ hrun ih => exact ih.call hrun

/-- Every window in use has a history of names. -/
theorem Used.exists_told (hused : Used clock h) : ∃ names, Told clock names h := by
  induction hused with
  | start hstart => exact ⟨_, .start hstart⟩
  | call _ hrun ih =>
    obtain ⟨names, told⟩ := ih
    exact ⟨_, told.call hrun⟩

theorem Told.answers (told : Told clock names h) : Answers names (fixtures h) := by
  induction told with
  | start hstart =>
    obtain ⟨obstacles, hh⟩ := fixtures_start hstart
    rw [hh]
    refine ⟨⟨"Robot", rfl, rfl⟩, ?_⟩
    show _ = some (Text.ofString (nameAt ((placeOf? "Robot").or (some 0))))
    decide
  | call before hrun ih => exact ih.alters ((alters_make before.used.agree _).ok rfl hrun)

/-- A name of the list is shown as it is, and is that of its agent. -/
theorem listed_agentNames {name : Text} (hname : name ∈ Config.agentNames.map Text.ofString) :
    isListed name = true ∧ Text.ofString (Config.ofName (R := Float) name).name = name := by
  have hall : ∀ name ∈ Config.agentNames.map Text.ofString,
      isListed name = true ∧ Text.ofString (Config.ofName (R := Float) name).name = name := by
    decide
  exact hall name hname

/-- **The choice follows the names on the list.** The agent is that of the latest name, and the list of
agents shows the latest name that it has. It shows the agent in use exactly if that one has this name; it
does if the latest name is on the list. -/
theorem choice_follows_names (told : Told clock names h) :
    ∃ last shown, names.head? = some last ∧ names.find? isListed = some shown ∧
      h.memory.config = Config.ofName last ∧ Text.ofString h.memory.memory.selectedAgent = shown ∧
      (h.memory.memory.selectedAgent = h.memory.config.name ↔
        shown = Text.ofString (Config.ofName (R := Float) last).name) ∧
      (last ∈ Config.agentNames.map Text.ofString →
        h.memory.memory.selectedAgent = h.memory.config.name) := by
  obtain ⟨⟨last, hlast, hagent⟩, hselected⟩ := told.answers
  have hconfig : h.memory.config = Config.ofName last := hagent
  have hiff : h.memory.memory.selectedAgent = h.memory.config.name ↔
      Text.ofString h.memory.memory.selectedAgent =
        Text.ofString (Config.ofName (R := Float) last).name := by
    rw [← hconfig, Text.ofString_injective.eq_iff]
  refine ⟨last, Text.ofString h.memory.memory.selectedAgent, hlast, hselected, hconfig, rfl, hiff,
    fun hname => ?_⟩
  obtain ⟨hlisted, hsame⟩ := listed_agentNames hname
  have hshown : names.find? isListed = some last := by
    obtain ⟨rest, rfl⟩ := List.head?_eq_some_iff.1 hlast
    exact List.find?_cons_of_pos hlisted
  rw [hiff, hsame]
  exact Option.some.inj (hselected.symm.trans hshown)

/-- A project that names the fish in small letters. -/
def smallFish : Data := .record [("agent", .text "fish")]

/-- After it the fish is in use, and the list is still at the box robot. -/
theorem used_smallFish :
    ∃ h : WindowHost Float, Used 0.0 h ∧ h.memory.config.name = "Fish" ∧
      h.memory.memory.selectedAgent = "Robot" := by
  have hfish : ((opened? (0.0 : Float) [.loadProject smallFish]).any fun h =>
      decide (h.memory.config.name = "Fish" ∧ h.memory.memory.selectedAgent = "Robot")) = true := by
    decide +kernel
  obtain ⟨h, hopened, hseen⟩ := (Option.any_eq_true _ _).1 hfish
  exact ⟨h, .of_opened hopened, of_decide_eq_true hseen⟩

theorem choice_follows_names_fish :
    ∃ names h, Told 0.0 names h ∧ h.memory.config.name = "Fish" ∧
      h.memory.memory.selectedAgent = "Robot" ∧
      ∃ last shown, names.head? = some last ∧ names.find? isListed = some shown ∧
        h.memory.config = Config.ofName last ∧ Text.ofString h.memory.memory.selectedAgent = shown ∧
        (h.memory.memory.selectedAgent = h.memory.config.name ↔
          shown = Text.ofString (Config.ofName (R := Float) last).name) ∧
        (last ∈ Config.agentNames.map Text.ofString →
          h.memory.memory.selectedAgent = h.memory.config.name) := by
  obtain ⟨h, hused, hname, hchoice⟩ := used_smallFish
  obtain ⟨names, told⟩ := hused.exists_told
  exact ⟨names, h, told, hname, hchoice, choice_follows_names told⟩

/-- The list of agents does not always show the agent in use. -/
theorem not_choice_shows_agent :
    ¬ ∀ (clock : Float) (h : WindowHost Float), Used clock h →
      h.memory.memory.selectedAgent = h.memory.config.name := by
  intro hall
  obtain ⟨h, hused, hname, hchoice⟩ := used_smallFish
  have hsame : "Robot" = "Fish" := hchoice.symm.trans ((hall 0.0 h hused).trans hname)
  exact absurd hsame (by decide)

end Window

end RobotBlocks
