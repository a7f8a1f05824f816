import Mathlib.Data.Nat.Notation
import RobotBlocks.Simulation.Script

/-!
# Requests and observers that make requests

A `Request` is a call of the interface of an executor. An observer that reacts to what it is told
makes requests from inside the request that told it, with observers of their own; `Calling` is the
class of operations that are built from requests of an allowed kind in this way, to any finite
depth, and of operations that leave the executor alone.

* `Triple P m Q E`: started where `P` holds, the operation `m` ends where `Q` holds if it succeeds
  and where `E` holds if it fails. The rules follow the structure of operations (`Triple.bind`,
  `Triple.change`, `Triple.seen` and so on).
* `Calling.keeps`: what all allowed requests keep if their observers do, every operation built from
  them keeps.
* `Served o start host`: `host` has control after a sequence of requests of its, made from `start`
  on; `Served.keeps` carries an invariant along the sequence.
-/

namespace RobotBlocks

variable {R μ α β : Type}

/-! ## Triples -/

/-- From where `P` holds the operation leads to where `Q` holds of its result, or fails where `E`
holds. -/
def Triple (P : Host R μ → Prop) (m : Operation R μ α) (Q : α → Host R μ → Prop)
    (E : Host R μ → Prop) : Prop :=
  ∀ h, P h →
    match m h with
    | .ok a h' => Q a h'
    | .error _ h' => E h'

/-- What holds of the executor of a host. -/
def On (P : Executor R → Prop) (h : Host R μ) : Prop := P h.executor

/-- The operation keeps an invariant of the executor, or fails where `F` holds. -/
abbrev Keeps (I F : Executor R → Prop) (m : Operation R μ α) : Prop :=
  Triple (On I) m (fun _ => On I) (On F)

namespace Triple

variable {P P' : Host R μ → Prop} {Q Q' : α → Host R μ → Prop} {E : Host R μ → Prop}

theorem ok {m : Operation R μ α} (h : Triple P m Q E) {x x' : Host R μ} {a : α} (hx : P x)
    (hm : m x = .ok a x') : Q a x' := by
  have := h x hx
  rwa [hm] at this

theorem error {m : Operation R μ α} (h : Triple P m Q E) {x x' : Host R μ} {fault : Fault}
    (hx : P x) (hm : m x = .error fault x') : E x' := by
  have := h x hx
  rwa [hm] at this

theorem of_cases {m : Operation R μ α} (hok : ∀ x a x', P x → m x = .ok a x' → Q a x')
    (herror : ∀ x fault x', P x → m x = .error fault x' → E x') : Triple P m Q E := by
  intro x hx
  split
  · exact hok x _ _ hx ‹_›
  · exact herror x _ _ hx ‹_›

theorem mono {m : Operation R μ α} (h : Triple P m Q E) (hP : ∀ x, P' x → P x)
    (hQ : ∀ a x, Q a x → Q' a x) : Triple P' m Q' E :=
  .of_cases (fun x _ _ hx hm => hQ _ _ (h.ok (hP x hx) hm)) fun x _ _ hx hm => h.error (hP x hx) hm

theorem mono_error {E' : Host R μ → Prop} {m : Operation R μ α} (h : Triple P m Q E)
    (hE : ∀ x, E x → E' x) : Triple P m Q E' :=
  .of_cases (fun _ _ _ hx hm => h.ok hx hm) fun _ _ _ hx hm => hE _ (h.error hx hm)

theorem pure {a : α} (h : ∀ x, P x → Q a x) : Triple P (pure a : Operation R μ α) Q E := h

theorem throw {fault : Fault} (h : ∀ x, P x → E x) :
    Triple P (throw fault : Operation R μ α) Q E := h

/-- Sequences meet in the middle. -/
theorem bind {m : Operation R μ α} {f : α → Operation R μ β} {S : β → Host R μ → Prop}
    (hm : Triple P m Q E) (hf : ∀ a, Triple (Q a) (f a) S E) : Triple P (m >>= f) S E := by
  intro x hx
  simp only [Bind.bind, EStateM.bind]
  rcases hrun : m x with ⟨a, x'⟩ | ⟨fault, x'⟩
  · exact hf a x' (hm.ok hx hrun)
  · exact hm.error hx hrun

theorem ite {c : Prop} [Decidable c] {m m' : Operation R μ α} (h : c → Triple P m Q E)
    (h' : ¬ c → Triple P m' Q E) : Triple P (if c then m else m') Q E := by
  split
  · exact h ‹_›
  · exact h' ‹_›

open Executor

theorem change {f : Executor R → Executor R} {Q : Unit → Host R μ → Prop}
    (h : ∀ x, P x → Q () { x with executor := f x.executor }) :
    Triple P (change f : Operation R μ Unit) Q E := h

theorem peek {I F : Executor R → Prop} : Keeps I F (Executor.look : Operation R μ (Executor R)) :=
  fun _ h => h

/-- The executor that is seen is the one that stands. -/
theorem seen {I : Executor R → Prop} :
    Triple (On I) (Executor.look : Operation R μ (Executor R)) (fun e => On fun e' => e' = e ∧ I e')
      E := fun _ h => ⟨rfl, h⟩

theorem done {I F : Executor R → Prop} {a : α} : Keeps I F (Pure.pure a : Operation R μ α) :=
  fun _ h => h

theorem note {I F : Executor R → Prop} (o : Observers R μ) (level : Log.Level) (message : Text) :
    Keeps I F (note o level message) := fun _ h => h

theorem now {I F : Executor R → Prop} (o : Observers R μ) : Keeps I F (now o) := fun _ h => h

theorem orFail {value : Except Fault α} (h : ∀ a, value = .ok a → ∀ x, P x → Q a x)
    (h' : ∀ x, P x → E x) : Triple P (orFail value : Operation R μ α) Q E := by
  rcases value with fault | a
  · exact .throw h'
  · exact .pure (h a rfl)

theorem emitState {I F : Executor R → Prop} {o : Observers R μ}
    (h : ∀ s, Keeps I F (o.stateChanged s)) : Keeps I F (emitState o) := fun x hx => h _ x hx

end Triple

/-! ## Runs from a known host -/

section Runs

open Executor

variable {m : Operation R μ α} {k : α → Operation R μ β} {h h' : Host R μ}

theorem run_bind_of_ok {a : α} (hm : m h = .ok a h') : (m >>= k) h = k a h' := by
  simp only [bind, EStateM.bind, hm]

theorem run_bind_of_error {fault : Fault} (hm : m h = .error fault h') :
    (m >>= k) h = .error fault h' := by
  simp only [bind, EStateM.bind, hm]

theorem run_look_bind (k : Executor R → Operation R μ β) (h : Host R μ) :
    (look >>= k) h = k h.executor h := rfl

theorem run_change_bind (f : Executor R → Executor R) (k : Unit → Operation R μ β) (h : Host R μ) :
    (change f >>= k) h = k () { h with executor := f h.executor } := rfl

theorem run_now_bind (o : Observers R μ) (k : R → Operation R μ β) (h : Host R μ) :
    (now o >>= k) h = k (o.clock h.memory) h := rfl

end Runs

/-! ## Requests -/

/-- A call of the interface of an executor. -/
inductive Request (R : Type)
  | execute (items : List (Submission R))
  | tick (time? : Option R)
  | pause
  | resume
  | stop
  | reset
  | setInitial (height heading : Option R)
  | setSpeed (value : R)
  | setSpeedData (value : Data)
  | setObstacles (obstacles : List (Obstacle R))
  | setAgentSize (size : Except Fault (AgentSize R))

/-- Makes a request with the given observers. The result is the speed in force, if one was to be
set. -/
def Request.make [Scalar R] (o : Observers R μ) : Request R → Operation R μ (Option R)
  | .execute items => do Executor.execute o items; return none
  | .tick time? => do Executor.tick o time?; return none
  | .pause => do Executor.pause o; return none
  | .resume => do Executor.resume o; return none
  | .stop => do Executor.stop o; return none
  | .reset => do Executor.reset o; return none
  | .setInitial height heading => do Executor.setInitial o height heading; return none
  | .setSpeed value => return some (← Executor.setSpeed o value)
  | .setSpeedData value => return some (← Executor.setSpeedData o value)
  | .setObstacles obstacles => do Executor.setObstacles obstacles; return none
  | .setAgentSize size => do Executor.setAgentSize size; return none

/-- The operation leaves the executor as it is. -/
def Quiet (m : Operation R μ α) : Prop :=
  ∀ e, Triple (On (· = e)) m (fun _ => On (· = e)) (On (· = e))

theorem Quiet.keeps {m : Operation R μ α} (h : Quiet m) {I F : Executor R → Prop}
    (hIF : ∀ e, I e → F e) : Keeps I F m := by
  refine .of_cases (fun x a x' hx hm => ?_) fun x fault x' hx hm => ?_
  · have hsame : x'.executor = x.executor := (h x.executor).ok rfl hm
    rwa [On, hsame]
  · have hsame : x'.executor = x.executor := (h x.executor).error rfl hm
    exact hIF _ (by rwa [hsame])

variable [Scalar R]

/-- The operation is built from requests that are allowed, whose observers are again of this kind,
and from operations that leave the executor as it is. -/
inductive Calling (allowed : Request R → Prop) : {α : Type} → Operation R μ α → Prop
  | quiet {α : Type} {m : Operation R μ α} (h : Quiet m) : Calling allowed m
  | bind {α β : Type} {m : Operation R μ α} {f : α → Operation R μ β} (hm : Calling allowed m)
    (hf : ∀ a, Calling allowed (f a)) : Calling allowed (m >>= f)
  | request {o : Observers R μ} {r : Request R} (hr : allowed r)
    (hstate : ∀ s, Calling allowed (o.stateChanged s))
    (hcompleted : ∀ c, Calling allowed (o.completed c)) : Calling allowed (r.make o)

/-- What observers do is built from allowed requests. -/
structure Observers.Reenter (o : Observers R μ) (allowed : Request R → Prop) : Prop where
  stateChanged : ∀ s, Calling allowed (o.stateChanged s)
  completed : ∀ c, Calling allowed (o.completed c)

omit [Scalar R] in
/-- What observers do keeps an invariant, or fails where `F` holds. -/
structure Observers.Keep (o : Observers R μ) (I F : Executor R → Prop) : Prop where
  stateChanged : ∀ s, Keeps I F (o.stateChanged s)
  completed : ∀ c, Keeps I F (o.completed c)

section Invariants

variable {allowed : Request R → Prop} {I F : Executor R → Prop}

/-- **An invariant that the allowed requests keep** if their observers keep it is kept by whatever
is built from such requests. -/
theorem Calling.keeps {m : Operation R μ α} (h : Calling allowed m) (hIF : ∀ e, I e → F e)
    (hrequest : ∀ (o : Observers R μ) (r : Request R), allowed r → o.Reenter allowed →
      o.Keep I F → Keeps I F (r.make o)) :
    Keeps I F m := by
  induction h with
  | quiet h => exact h.keeps hIF
  | bind _ _ ihm ihf => exact ihm.bind ihf
  | @request o r hr hstate hcompleted ihstate ihcompleted =>
    exact hrequest o r hr ⟨hstate, hcompleted⟩ ⟨ihstate, ihcompleted⟩

theorem Observers.Reenter.keep {o : Observers R μ} (h : o.Reenter allowed) (hIF : ∀ e, I e → F e)
    (hrequest : ∀ (o : Observers R μ) (r : Request R), allowed r → o.Reenter allowed →
      o.Keep I F → Keeps I F (r.make o)) : o.Keep I F :=
  ⟨fun s => (h.stateChanged s).keeps hIF hrequest, fun c => (h.completed c).keeps hIF hrequest⟩

end Invariants

/-! ## Sequences of requests -/

/-- The hosts that have control after requests of theirs, made with the given observers from a start
on. Between requests they may remember whatever they like; where `mayFail` holds, they go on after
requests that failed. -/
inductive Served (allowed : Request R → Prop) (mayFail : Prop) (o : Observers R μ)
    (start : Host R μ) : Host R μ → Prop
  | start : Served allowed mayFail o start start
  | request {h h' : Host R μ} {r : Request R} {a : Option R}
    (before : Served allowed mayFail o start h) (hr : allowed r) (hrun : r.make o h = .ok a h') :
    Served allowed mayFail o start h'
  | failure {h h' : Host R μ} {r : Request R} {fault : Fault}
    (before : Served allowed mayFail o start h) (hr : allowed r) (hfail : mayFail)
    (hrun : r.make o h = .error fault h') : Served allowed mayFail o start h'
  | remember {h : Host R μ} (before : Served allowed mayFail o start h) (memory : μ) :
    Served allowed mayFail o start { h with memory }

/-- An invariant that each allowed request keeps holds whenever the host has control. -/
theorem Served.keeps {allowed : Request R → Prop} {mayFail : Prop} {o : Observers R μ}
    {start host : Host R μ} {I F : Executor R → Prop} (h : Served allowed mayFail o start host)
    (hstart : I start.executor) (hFI : mayFail → ∀ e, F e → I e)
    (hrequest : ∀ r, allowed r → Keeps I F (r.make o)) :
    I host.executor := by
  induction h with
  | start => exact hstart
  | request _ hr hrun ih => exact (hrequest _ hr).ok ih hrun
  | failure _ hr hfail hrun ih => exact hFI hfail _ ((hrequest _ hr).error ih hrun)
  | remember _ _ ih => exact ih

/-- Makes the requests of a list one after the other. -/
def Request.makeAll (o : Observers R μ) : List (Request R) → Operation R μ Unit
  | [] => return ()
  | r :: requests => do
    let _ ← r.make o
    makeAll o requests

theorem Served.of_makeAll {allowed : Request R → Prop} {mayFail : Prop} {o : Observers R μ}
    {start h h' : Host R μ} {requests : List (Request R)}
    (before : Served allowed mayFail o start h)
    (hrequests : ∀ r ∈ requests, allowed r) (hrun : Request.makeAll o requests h = .ok () h') :
    Served allowed mayFail o start h' := by
  induction requests generalizing h with
  | nil =>
    cases hrun
    exact before
  | cons r requests ih =>
    obtain ⟨hr, hrequests⟩ := List.forall_mem_cons.1 hrequests
    simp only [Request.makeAll, Bind.bind, EStateM.bind] at hrun
    split at hrun
    next a h₁ hmake => exact ih (.request before hr hmake) hrequests hrun
    · cases hrun

/-! ## Scripted observers -/

section Scripted

variable {allowed : Request R → Prop}

theorem Calling.forM {γ : Type} {f : γ → Operation R μ PUnit} {l : List γ}
    (h : ∀ c, Calling allowed (f c)) : Calling allowed (l.forM f) := by
  induction l with
  | nil => exact .quiet fun _ _ hx => hx
  | cons c l ih => exact .bind (h c) fun _ => ih

/-- Observers that follow a script are built from the calls that the script can list. -/
theorem Journal.scripted_reenter {C : Type} (at' : JournalIn R μ) (clock : μ → R)
    {make : Observers R μ → C → Operation R μ Unit}
    (hmake : ∀ o c, o.Reenter allowed → Calling allowed (make o c)) (reactions : List (Reaction C))
    (depth : ℕ) : (Journal.scripted at' clock make reactions depth).Reenter allowed := by
  have hreceive : ∀ {C : Type} {make : C → Operation R μ Unit} (_ : ∀ c, Calling allowed (make c))
      (reactions : List (Reaction C)) (kind : Notice) (event : Event R),
      Calling allowed (Journal.receive at' make reactions kind event) :=
    fun hmake reactions kind event => .bind (.quiet fun _ _ hx => hx) fun _ =>
      .bind (.quiet fun _ _ hx => hx) fun _ => .forM fun _ => .forM hmake
  induction depth with
  | zero =>
    exact ⟨fun s => hreceive (fun _ => .quiet fun _ _ hx => hx) _ _ _,
      fun c => hreceive (fun _ => .quiet fun _ _ hx => hx) _ _ _⟩
  | succ depth ih =>
    exact ⟨fun s => hreceive (fun c => hmake _ c ih) _ _ _,
      fun c => hreceive (fun c => hmake _ c ih) _ _ _⟩

end Scripted

/-- The operation behind a request, if its result can be read off that of the request. -/
theorem Calling.of_make {allowed : Request R → Prop} {o : Observers R μ} (ho : o.Reenter allowed)
    {r : Request R} (hr : allowed r) {m : Operation R μ α} {f : α → Option R}
    (h : r.make o = m >>= fun a => pure (f a)) (g : Option R → α) (hg : ∀ a, g (f a) = a) :
    Calling allowed m := by
  have hm : m = r.make o >>= fun b => pure (g b) := by simp [h, hg]
  rw [hm]
  exact .bind (.request hr ho.stateChanged ho.completed) fun _ => .quiet fun _ _ hx => hx

/-- The calls that a script can list are built from requests. -/
theorem Call.makeQuietly_calling (o : Observers R (Journal R)) (c : Call R)
    (ho : o.Reenter fun _ => True) : Calling (fun _ => True) (Call.makeQuietly o c) := by
  have hunit : ∀ {r : Request R} {m : Operation R (Journal R) Unit},
      r.make o = (do m; return none) → Calling (fun _ => True) m := fun h =>
    .of_make ho trivial h (fun _ => ()) fun _ => rfl
  have hpure : ∀ {γ : Type} {a : γ}, Calling (fun _ => True) (pure a : Operation R (Journal R) γ) :=
    .quiet fun _ _ hx => hx
  have htick : ∀ time?, Calling (fun _ => True) (Executor.tick o time?) := fun time? =>
    hunit (r := .tick time?) rfl
  refine .bind ?_ fun _ => hpure
  cases c with
  | execute items => exact .bind (hunit (r := .execute items) rfl) fun _ => hpure
  | tick pass time =>
    refine .bind ?_ fun _ => .bind (htick time) fun _ => hpure
    cases pass <;> exact .quiet fun _ _ hx => hx
  | play pass most =>
    refine .bind ?_ fun _ => hpure
    induction most with
    | zero => exact hpure
    | succ most ih =>
      refine .bind (.quiet fun _ _ hx => hx) fun e => ?_
      split
      · exact .bind (.quiet fun _ _ hx => hx) fun _ => .bind (htick none) fun _ =>
          .bind ih fun _ => hpure
      · exact hpure
  | pause => exact .bind (hunit (r := .pause) rfl) fun _ => hpure
  | resume => exact .bind (hunit (r := .resume) rfl) fun _ => hpure
  | stop => exact .bind (hunit (r := .stop) rfl) fun _ => hpure
  | reset => exact .bind (hunit (r := .reset) rfl) fun _ => hpure
  | setInitial height heading =>
    exact .bind (hunit (r := .setInitial height heading) rfl) fun _ => hpure
  | setSpeed value =>
    exact .bind (.of_make ho (r := .setSpeedData value) trivial rfl (·.getD (Scalar.ofNat 0))
      fun _ => rfl) fun _ => hpure
  | setObstacles obstacles =>
    exact .bind (hunit (r := .setObstacles obstacles) rfl) fun _ => hpure
  | setAgentSize size =>
    exact .bind (hunit (r := .setAgentSize (AgentSize.ofData size)) rfl) fun _ => hpure
  | look => exact .bind (.quiet fun _ _ hx => hx) fun _ => hpure
  | fail fault => exact .quiet fun _ _ hx => hx

/-- **Scripted observers** only make requests. -/
theorem Call.observers_reenter (clock : Journal R → R) (reactions : List (Reaction (Call R))) :
    (Call.observers clock reactions).Reenter fun _ => True :=
  Journal.scripted_reenter _ _ Call.makeQuietly_calling reactions _

end RobotBlocks
