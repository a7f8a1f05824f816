import RobotBlocks.Proofs.Data.Fields
import RobotBlocks.Proofs.Graph.Claims
import RobotBlocks.Proofs.Program.PhysicalLines
import RobotBlocks.Proofs.Program.Renewal
import RobotBlocks.Proofs.Program.Repetition

/-!
# Spellings of type names

The kind of a block does not depend on how its type name is spelled: letter case, white space at the
ends, underscores and hyphens do not count. A block with its type name spelled anew
(`Block.Respelled`) takes the same place in the graph of the program, so programs with such blocks
go side by side.

* Their unrollings visit counterparts in one order (`Graph.Counterpart.unroll`), and a visit does
  the same at both (`Compilation.attend_respelled`): compiling is one and the same computation
  (`Compilation.ofBlocks_respelled`).
* They are printed as lines of the same sizes, and as the same lines if and only if the blocks that
  can be reached have the same texts (`Code.Prints.respelled`); lines of the same sizes can be told
  from their text (`Code.ofBlocks_respelled_iff`).

One line does depend on the spelling: that of a sensor query, which asks for the distance only if
its type name is spelled without underscores and hyphens (`Code.textFor_respelled_iff`).
`respelling` says for one block of a program what becomes of its commands, its diagnostics and its
code.
-/

namespace RobotBlocks

/-! ## Spellings -/

namespace Kind

variable {t t' : Text}

/-- The type name is spelled without underscores and hyphens. -/
def IsPlain (typeName : Text) : Prop := ∀ p ∈ typeName.trim, p ≠ .char '_' ∧ p ≠ .char '-'

instance (typeName : Text) : Decidable (IsPlain typeName) :=
  inferInstanceAs (Decidable (∀ p ∈ typeName.trim, p ≠ .char '_' ∧ p ≠ .char '-'))

theorem ofTypeName_congr (h : normalize t = normalize t') : ofTypeName t = ofTypeName t' := by
  rw [ofTypeName, ofTypeName, h]

/-- Lower case neither makes an underscore or a hyphen nor takes one away. -/
theorem lowerChar_eq_iff {c d : Char} (hd : d = '_' ∨ d = '-') : lowerChar c = d ↔ c = d := by
  have hcase : c.toLower = d ↔ c = d := by
    by_cases hc : c.isUpper = true
    · refine iff_of_false (fun h => ?_) fun h => ?_
      · have halpha := Char.isAlpha_toLower_eq_isAlpha c
        simp only [h, Char.isAlpha, hc, Bool.true_or] at halpha
        rcases hd with rfl | rfl <;> simp at halpha
      · rcases hd with rfl | rfl <;> simp [h] at hc
    · rw [Char.toLower_eq_of_not_isUpper hc]
  unfold lowerChar
  split
  next hkelvin =>
    refine iff_of_false ?_ ?_
    · rcases hd with rfl | rfl <;> decide
    · rintro rfl
      rcases hd with rfl | rfl <;> simp at hkelvin
  · exact hcase

/-- A type name is its normal spelling, but for letter case, if and only if it is plain. -/
theorem normalize_eq_lower_iff : normalize t = t.trim.lower ↔ IsPlain t := by
  rw [normalize, List.filter_eq_self, IsPlain, Text.lower, List.forall_mem_map]
  refine forall₂_congr fun p _ => ?_
  cases p with
  | char c => simp [lowerChar_eq_iff]
  | half index => simp

/-- **A comparison in lower case** finds a plain key only where the type name is plain, too. -/
theorem lower_trim_eq_iff {key : Text} (hkey : ∀ p ∈ key, p ≠ .char '_' ∧ p ≠ .char '-') :
    t.trim.lower = key ↔ normalize t = key ∧ IsPlain t := by
  rw [← normalize_eq_lower_iff]
  constructor
  · rintro rfl
    have hself : normalize t = t.trim.lower :=
      List.filter_eq_self.2 fun p hp => by simpa using hkey p hp
    exact ⟨hself, hself⟩
  · rintro ⟨rfl, h⟩
    exact h.symm

end Kind

/-- The block, or the block with its type name spelled anew; the kind is known. -/
inductive Block.Respelled : Block → Block → Prop
  | refl (b : Block) : Respelled b b
  | anew (b : Block) {t : Text} (hknown : b.kind ≠ .unknown)
    (hkey : Kind.normalize t = Kind.normalize b.type) : Respelled b { b with type := t }

namespace Block.Respelled

variable {a b : Block}

theorem shape (h : a.Respelled b) : a.SameShape b := by
  cases h with
  | refl => exact .refl a
  | anew _ hkey => exact ⟨rfl, (Kind.ofTypeName_congr hkey).symm, rfl, rfl, rfl, rfl⟩

theorem input? (h : a.Respelled b) : b.input? = a.input? := by
  cases h <;> rfl

end Block.Respelled

open Block (Respelled)

/-! ## Unrolling -/

namespace Graph.Counterpart

variable {R : Block → Block → Prop} {g g' : Graph} {times times' : Block → ℕ}

/-- **The visits from counterparts** are to counterparts in the same order, if these run their
bodies equally often. -/
theorem unrollWithin (hR : ∀ ⦃a b⦄, R a b → a.SameShape b) (h : g.Counterpart R g')
    (htimes : ∀ ⦃a b⦄, R a b → times a = times' b) (levels : ℕ) {a b : Block} (hab : R a b) :
    List.Forall₂ R (g.unrollWithin times levels a) (g'.unrollWithin times' levels b) := by
  induction levels generalizing a b with
  | zero => exact .nil
  | succ levels ih =>
    have hslot : ∀ slot, List.Forall₂ R ((g.inSlot a slot).flatMap (g.unrollWithin times levels))
        ((g'.inSlot b slot).flatMap (g'.unrollWithin times' levels)) := fun slot =>
      List.rel_flatMap (h.inSlot hR hab slot) fun _ _ hxy => ih hxy
    have hrounds : ∀ n, List.Forall₂ R
        (List.replicate n ((g.inSlot a .body).flatMap (g.unrollWithin times levels))).flatten
        (List.replicate n ((g'.inSlot b .body).flatMap
          (g'.unrollWithin times' levels))).flatten := by
      intro n
      induction n with
      | zero => exact .nil
      | succ n hn =>
        rw [List.replicate_succ, List.replicate_succ, List.flatten_cons, List.flatten_cons]
        exact List.rel_append (hslot .body) hn
    rw [Graph.unrollWithin, Graph.unrollWithin, ← htimes hab]
    exact List.rel_append (.cons hab (hrounds _)) (hslot .next)

theorem unroll (hR : ∀ ⦃a b⦄, R a b → a.SameShape b) (h : g.Counterpart R g')
    (htimes : ∀ ⦃a b⦄, R a b → times a = times' b) {bs bs' : List Block}
    (hbs : List.Forall₂ R bs bs') :
    List.Forall₂ R (bs.flatMap (g.unroll times)) (bs'.flatMap (g'.unroll times')) := by
  refine List.rel_flatMap hbs fun a b hab => ?_
  rw [Graph.unroll, Graph.unroll, ← h.blocks.length_eq]
  exact unrollWithin hR h htimes _ hab

/-- The blocks that can be reached are counterparts in the same order. -/
theorem preorder (hR : ∀ ⦃a b⦄, R a b → a.SameShape b) (h : g.Counterpart R g') :
    List.Forall₂ R g.preorder g'.preorder :=
  h.unroll hR (fun _ _ _ => rfl) (h.topLevel hR)

end Graph.Counterpart

/-! ## Compiling -/

namespace Compilation

variable {R : Type} [Scalar R] {c : Config R} {g g' : Graph} {a b : Block}

omit [Scalar R] in
theorem resolve_respelled (h : a.Respelled b) (q : Quantity) : resolve c b q = resolve c a q := by
  cases h <;> rfl

omit [Scalar R] in
theorem loopCount_respelled (h : a.Respelled b) : loopCount c b = loopCount c a := by
  cases h <;> rfl

theorem noteUnknown_respelled (h : a.Respelled b) : noteUnknown b = noteUnknown a := by
  have hkind := h.shape.kind
  cases h with
  | refl => rfl
  | anew hknown hkey => simp [noteUnknown, ← hkind, hknown]

omit [Scalar R] in
theorem timesFor_respelled (h : a.Respelled b) : timesFor c b = timesFor c a := by
  simp only [timesFor, ← h.shape.kind, ← h.shape.id, h.input?, loopCount_respelled h]

theorem commandFor_respelled (h : a.Respelled b) : commandFor c b = commandFor c a := by
  simp only [commandFor, ← h.shape.kind, ← h.shape.id, resolve_respelled h]

omit [Scalar R] in
theorem roundsIn_respelled (h : a.Respelled b) : roundsIn c a = roundsIn c b := by
  simp only [roundsIn, ← h.shape.kind, ← h.shape.id, h.input?, resolve_respelled h]

/-- **A visit does the same** however the type name is spelled. -/
theorem attend_respelled (h : a.Respelled b) : attend c b = attend c a := by
  rw [attend, attend, noteUnknown_respelled h, commandFor_respelled h, timesFor_respelled h]

/-- A walk along counterparts does the same in both graphs. -/
theorem walkAlong_respelled {bs bs' : List Block} (h : List.Forall₂ Respelled bs bs')
    (budget : ℕ) : walkAlong c g' budget bs' = walkAlong c g budget bs := by
  induction h generalizing budget with
  | nil => rw [walkAlong, walkAlong]
  | cons hab _ ih =>
    cases budget with
    | zero => rw [walkAlong, walkAlong, Recording.warn, Recording.warn, hab.shape.id]
    | succ budget =>
      rw [walkAlong, walkAlong, visit_eq_attend, visit_eq_attend, attend_respelled hab]
      simp only [bind_map_left, ih]

/-- **Compiling does not depend on how type names are spelled.** -/
theorem ofBlocks_respelled {blocks blocks' : List Block}
    (h : List.Forall₂ Respelled blocks blocks') : ofBlocks c blocks' = ofBlocks c blocks := by
  obtain ⟨hgraph, hds⟩ := Graph.counterpart_build (fun _ _ hab => hab.shape) h .empty
  have hvisits := hgraph.unroll (fun _ _ hab => hab.shape)
    (fun _ _ hab => roundsIn_respelled (c := c) hab) (hgraph.topLevel fun _ _ hab => hab.shape)
  funext ds
  rw [ofBlocks_eq_walkAlong, ofBlocks_eq_walkAlong, ← hds, walkAlong_respelled hvisits]

end Compilation

/-! ## Lines -/

namespace Code

variable {g g' : Graph} {a b : Block} {text text' : Option Text}

/-- The text of the line of a sensor query. -/
theorem textFor_of_sensorQuery (h : b.kind = .sensorQuery) :
    textFor b = .ok (some (call (queryName b) (objectText (b.input? ["object"])))) := by
  simp only [textFor, h]
  rfl

theorem textFor_respelled (h : a.Respelled b) (hkind : a.kind ≠ .sensorQuery) :
    textFor b = textFor a := by
  simp only [textFor, ← h.shape.kind, h.input?]
  cases hk : a.kind <;> first | rfl | exact absurd hk hkind

/-- The names of both functions that a sensor query can call are equally long. -/
theorem length_queryName (b : Block) : (queryName b).length = 17 := by
  unfold queryName
  split <;> rfl

/-- A respelled block has a line if the block has one, and the texts are equally long. -/
theorem length_textFor_respelled (h : a.Respelled b) (ha : textFor a = .ok text)
    (hb : textFor b = .ok text') : text'.map List.length = text.map List.length := by
  by_cases hkind : a.kind = .sensorQuery
  · rw [textFor_of_sensorQuery hkind] at ha
    rw [textFor_of_sensorQuery (h.shape.kind.symm.trans hkind), h.input?] at hb
    cases ha
    cases hb
    simp [call, length_queryName]
  · rw [textFor_respelled h hkind, ha] at hb
    cases hb
    rfl

theorem queryName_eq_iff (b : Block) : queryName b = "robot.distance_to" ↔
    Kind.normalize b.type = "distance" ∧ Kind.IsPlain b.type := by
  rw [← Kind.lower_trim_eq_iff (by decide), queryName]
  split
  next h => simpa using h
  next h => exact iff_of_false (by decide) (by simpa using h)

/-! ## Lines of the same sizes -/

/-- Two lines stand at one level, and their texts are equally long. -/
def Line.SameSize (l l' : Line) : Prop := l.level = l'.level ∧ l.text.length = l'.text.length

/-- The lines are pairwise of one size, and they are the same if and only if something holds. -/
def SideBySide (ls ls' : List Line) (P : Prop) : Prop :=
  List.Forall₂ Line.SameSize ls ls' ∧ (ls' = ls ↔ P)

namespace SideBySide

variable {ls ls' ms ms' : List Line} {P Q : Prop}

theorem congr (h : SideBySide ls ls' P) (hPQ : P ↔ Q) : SideBySide ls ls' Q :=
  ⟨h.1, h.2.trans hPQ⟩

theorem append (h : SideBySide ls ls' P) (hms : SideBySide ms ms' Q) :
    SideBySide (ls ++ ms) (ls' ++ ms') (P ∧ Q) := by
  refine ⟨List.rel_append h.1 hms.1, ?_⟩
  rw [List.append_eq_append_iff_of_size_eq_left h.1.length_eq.symm, h.2, hms.2]

theorem closed (level : ℕ) (h : SideBySide ls ls' P) :
    SideBySide (Code.closed level ls) (Code.closed level ls') P := by
  obtain ⟨hsize, heq⟩ := h
  cases hsize with
  | nil => exact ⟨.cons ⟨rfl, rfl⟩ .nil, iff_of_true rfl (heq.1 rfl)⟩
  | cons hl hls => exact ⟨.cons hl hls, heq⟩

/-- The lines of a block and of the respelled one. -/
theorem ownLines (hbody : SideBySide ls ls' P) (level : ℕ) (hab : a.Respelled b)
    (ha : textFor a = .ok text) (hb : textFor b = .ok text') (hP : a.isContainer = false → P) :
    SideBySide (Code.ownLines level a text ls) (Code.ownLines level b text' ls')
      (textFor b = textFor a ∧ P) := by
  have hlength := length_textFor_respelled hab ha hb
  have hline : SideBySide (text.map (Line.mk level)).toList (text'.map (Line.mk level)).toList
      (textFor b = textFor a) := by
    rw [ha, hb]
    cases text <;> cases text' <;> simp at hlength
    · exact ⟨.nil, iff_of_true rfl rfl⟩
    · exact ⟨.cons ⟨rfl, hlength.symm⟩ .nil, by simp⟩
  refine hline.append ?_
  rw [← hab.shape.isContainer]
  cases hcontainer : a.isContainer with
  | true => exact hbody.closed _
  | false => exact ⟨.nil, iff_of_true rfl (hP hcontainer)⟩

end SideBySide

/-- The texts of the lines of all blocks that the given ones lead to, as far as they can be made. -/
def texts (g : Graph) (bs : List Block) : List (Except Fault (Option Text)) :=
  (bs.flatMap (g.unroll fun _ => 1)).map textFor

theorem texts_cons (hg : g.Settled) {bs : List Block} (hb : g.Reachable b) :
    texts g (b :: bs) = textFor b :: (texts g (g.inSlot b .body) ++
      (texts g (g.inSlot b .next) ++ texts g bs)) := by
  simp [texts, Graph.unroll_one_eq hg hb]

theorem length_texts (hgraph : g.Counterpart Respelled g') {bs bs' : List Block}
    (hbs : List.Forall₂ Respelled bs bs') : (texts g' bs').length = (texts g bs).length := by
  have hvisits : List.Forall₂ Respelled (bs.flatMap (g.unroll fun _ => 1))
      (bs'.flatMap (g'.unroll fun _ => 1)) :=
    hgraph.unroll (fun _ _ hab => hab.shape) (fun _ _ _ => rfl) hbs
  simp only [texts, List.length_map, hvisits.length_eq]

/-- **Respelled blocks are printed as lines of the same sizes**, and as the same lines if and only
if the blocks that they lead to have the same texts. -/
theorem Prints.respelled (hg : g.Settled) (hg' : g'.Settled) (hgraph : g.Counterpart Respelled g')
    {level : ℕ} {bs bs' : List Block} {out out' : List Line} (h : Prints g level bs out)
    (h' : Prints g' level bs' out') (hbs : List.Forall₂ Respelled bs bs')
    (hlevel : AtLevel g level bs) (hlevel' : AtLevel g' level bs') :
    SideBySide out out' (texts g' bs' = texts g bs) := by
  induction h generalizing bs' out' with
  | nil =>
    cases hbs
    cases h'
    exact ⟨.nil, iff_of_true rfl rfl⟩
  | @cons level b bs text body following rest htext hprints _ _ ihbody ihnext ihrest =>
    cases hbs with
    | @cons _ b' _ bs' hab hbs =>
    cases h' with
    | cons htext' hbody' hnext' hrest' =>
    obtain ⟨hbody, hnext, hrest⟩ := hlevel.children hg
    obtain ⟨hbodyAt', hnextAt', hrestAt'⟩ := hlevel'.children hg'
    have hslot := hgraph.inSlot (fun _ _ hab => hab.shape) hab
    have hleaf : b.isContainer = false →
        texts g' (g'.inSlot b' .body) = texts g (g.inSlot b .body) := fun hb => by
      rw [Graph.inSlot_body_eq_nil hb,
        Graph.inSlot_body_eq_nil (hab.shape.isContainer.symm.trans hb)]
      rfl
    have hown := (ihbody hbody' (hslot .body) hbody hbodyAt').ownLines level hab htext htext' hleaf
    have hall := (hown.append (ihnext hnext' (hslot .next) hnext hnextAt')).append
      (ihrest hrest' hbs hrest hrestAt')
    refine hall.congr ?_
    rw [texts_cons hg (hlevel b List.mem_cons_self).1,
      texts_cons hg' (hlevel' b' List.mem_cons_self).1, List.cons.injEq,
      List.append_eq_append_iff_of_size_eq_left (length_texts hgraph (hslot .body)),
      List.append_eq_append_iff_of_size_eq_left (length_texts hgraph (hslot .next)), and_assoc,
      and_assoc]

/-! ## Text -/

theorem Line.SameSize.render_eq_iff {l l' : Line} (h : l.SameSize l') :
    l'.render = l.render ↔ l' = l := by
  obtain ⟨level, text⟩ := l
  obtain ⟨level', text'⟩ := l'
  obtain ⟨rfl, -⟩ : level = level' ∧ _ := h
  simp [Line.render]

theorem Line.SameSize.length_render {l l' : Line} (h : l.SameSize l') :
    l'.render.length = l.render.length := by
  simp [Line.render, h.1, h.2]

/-- Texts of the same sizes can be told from what they are joined to. -/
theorem intercalate_inj (sep : Text) {xs ys : List Text}
    (h : List.Forall₂ (fun x y => x.length = y.length) xs ys)
    (hjoin : sep.intercalate xs = sep.intercalate ys) : xs = ys := by
  induction h with
  | nil => rfl
  | cons hxy h ih =>
    cases h with
    | nil => simpa [List.intercalate] using hjoin
    | cons hnext hrest =>
      rw [List.intercalate_cons_cons, List.intercalate_cons_cons, List.append_assoc,
        List.append_assoc] at hjoin
      obtain ⟨hhead, htail⟩ := List.append_inj hjoin hxy
      rw [hhead, ih (List.append_cancel_left htail)]

/-- Lines of the same sizes can be told from the text of the program. -/
theorem join_eq_iff {ls ls' : List Line} (h : List.Forall₂ Line.SameSize ls ls') :
    ("\n" : Text).intercalate (opening ++ ls'.map Line.render ++ ending) =
      ("\n" : Text).intercalate (opening ++ ls.map Line.render ++ ending) ↔ ls' = ls := by
  refine ⟨fun hjoin => ?_, fun hls => by rw [hls]⟩
  have hself : ∀ xs : List Text, List.Forall₂ (fun x y => x.length = y.length) xs xs :=
    fun xs => List.forall₂_same.2 fun _ _ => rfl
  have hsizes : List.Forall₂ (fun x y : Text => x.length = y.length) (ls'.map Line.render)
      (ls.map Line.render) := by
    rw [List.forall₂_map_left_iff, List.forall₂_map_right_iff]
    exact (h.imp fun _ _ hl => hl.length_render).flip
  have hrender := intercalate_inj _ (List.rel_append (List.rel_append (hself opening) hsizes)
    (hself ending)) hjoin
  have hmap := List.append_cancel_left (List.append_cancel_right hrender)
  clear hrender hsizes hjoin
  induction h with
  | nil => rfl
  | cons hl _ ih =>
    rw [List.map_cons, List.map_cons, List.cons.injEq, hl.render_eq_iff] at hmap
    rw [hmap.1, ih hmap.2]

theorem excessive_respelled (h : a.Respelled b) :
    Compilation.Excessive b ↔ Compilation.Excessive a := by
  simp only [Compilation.Excessive, Compilation.Overstates, ← h.shape.kind, h.input?]

theorem exists_mem_congr {α β : Type} {R : α → β → Prop} {p : α → Prop} {q : β → Prop}
    {xs : List α} {ys : List β} (h : List.Forall₂ R xs ys) (hpq : ∀ x y, R x y → (q y ↔ p x)) :
    (∃ y ∈ ys, q y) ↔ ∃ x ∈ xs, p x := by
  induction h with
  | nil => simp
  | cons hxy _ ih => simp [hpq _ _ hxy, ih]

/-- **Programs with respelled blocks have the same code** if and only if it cannot be printed or the
blocks that can be reached have the same texts. -/
theorem ofBlocks_respelled_iff {blocks blocks' : List Block}
    (h : List.Forall₂ Respelled blocks blocks') :
    ofBlocks blocks' = ofBlocks blocks ↔ ((∃ code, ofBlocks blocks = .ok code) →
      (Graph.build blocks' .empty).1.preorder.map textFor =
        (Graph.build blocks .empty).1.preorder.map textFor) := by
  let g := (Graph.build blocks .empty).1
  let g' := (Graph.build blocks' .empty).1
  have hg : g.Settled := Graph.settled_build blocks .empty
  have hg' : g'.Settled := Graph.settled_build blocks' .empty
  have hgraph : g.Counterpart Respelled g' :=
    (Graph.counterpart_build (fun _ _ hab => hab.shape) h .empty).1
  have hroots := hgraph.topLevel fun _ _ hab => hab.shape
  have hlarge : (∃ b, g'.Reachable b ∧ Compilation.Excessive b) ↔
      ∃ b, g.Reachable b ∧ Compilation.Excessive b := by
    simp only [← Graph.mem_preorder hg, ← Graph.mem_preorder hg']
    exact exists_mem_congr (hgraph.preorder fun _ _ hab => hab.shape)
      fun _ _ hab => excessive_respelled hab
  rcases yields_ofBlocks blocks with ⟨hfails, hcode⟩ | ⟨hnot, code, hcode, -⟩
  · rcases yields_ofBlocks blocks' with ⟨-, hcode'⟩ | ⟨hnot', -⟩
    · exact iff_of_true (hcode'.trans hcode.symm) fun ⟨code, hok⟩ => by simp [hcode] at hok
    · exact absurd (hlarge.2 hfails) hnot'
  · rcases yields_ofBlocks blocks' with ⟨hfails', -⟩ | ⟨-, code', hcode', -⟩
    · exact absurd (hlarge.1 hfails') hnot
    · obtain ⟨ls, hls, hjoin⟩ := Outcome.bind_eq_ok.1 hcode
      obtain ⟨ls', hls', hjoin'⟩ := Outcome.bind_eq_ok.1 hcode'
      obtain ⟨out, hout, rfl⟩ := exists_prints hg hls
      obtain ⟨out', hout', rfl⟩ := exists_prints hg' hls'
      have hside := (hout.respelled hg hg' hgraph hout' hroots (Prints.atLevel_topLevel g)
        (Prints.atLevel_topLevel g')).closed 1
      rw [hcode', hcode, Except.ok.injEq, ← Except.ok.inj hjoin', ← Except.ok.inj hjoin,
        join_eq_iff hside.1, hside.2, texts, texts]
      exact ⟨fun h _ => h, fun h => h ⟨_, rfl⟩⟩

/-! ## The line of a sensor query -/

theorem call_left_inj {name name' argument : Text} :
    call name argument = call name' argument ↔ name = name' := by
  simp [call]

theorem queryName_eq_queryName_iff : queryName b = queryName a ↔
    (queryName b = "robot.distance_to" ↔ queryName a = "robot.distance_to") := by
  have htwo : ∀ b, queryName b = "robot.distance_to" ∨ queryName b = "robot.is_touching" := by
    intro b
    unfold queryName
    split
    · exact .inl rfl
    · exact .inr rfl
  have hne : Text.ofString "robot.distance_to" ≠ Text.ofString "robot.is_touching" := by decide
  rcases htwo a with ha | ha <;> rcases htwo b with hb | hb <;> simp [ha, hb, hne, hne.symm]

/-- **The text of a line depends on the spelling** of the type name only where it asks for a
distance, and then by the question whether there are underscores or hyphens. -/
theorem textFor_respelled_iff {t : Text} (hknown : b.kind ≠ .unknown)
    (hkey : Kind.normalize t = Kind.normalize b.type) :
    textFor { b with type := t } = textFor b ↔
      (Kind.normalize b.type = "distance" → (Kind.IsPlain t ↔ Kind.IsPlain b.type)) := by
  have h : b.Respelled { b with type := t } := .anew b hknown hkey
  by_cases hkind : b.kind = .sensorQuery
  · rw [textFor_of_sensorQuery hkind, textFor_of_sensorQuery (h.shape.kind.symm.trans hkind),
      h.input?, Except.ok.injEq, Option.some.injEq, call_left_inj, queryName_eq_queryName_iff,
      queryName_eq_iff, queryName_eq_iff, hkey]
    exact ⟨fun h hdistance => by simpa [hdistance] using h, fun h => and_congr_right h⟩
  · refine iff_of_true (textFor_respelled h hkind) fun hdistance => absurd ?_ hkind
    rw [Block.kind, Kind.ofTypeName, hdistance]
    decide

end Code

/-! ## One block of a program -/

namespace Block

/-- A record with another type name describes the block with the other type name. -/
theorem ofFields_setField (fields : Fields) (t : Text) (place : Int) :
    ofFields (Data.setField fields "type" (.text t)) place =
      (fun b => { b with type := t }) <$> ofFields fields place := by
  have hother : ∀ other : Text, other ≠ "type" →
      Data.field? (Data.setField fields "type" (.text t)) other = Data.field? fields other :=
    fun other hne => Data.field?_setField_of_ne hne
  have hfield : ∀ other : Text, other ≠ "type" →
      Data.field (Data.setField fields "type" (.text t)) other = Data.field fields other :=
    fun other hne => by rw [Data.field, Data.field, hother other hne]
  rw [ofFields, ofFields, hfield "position" (by decide), Data.field?_setField_self]
  -- The coordinates stand in the record itself or in one of its own.
  cases Data.field fields "position" <;>
    simp (disch := decide) only [hfield, hother, map_bind, map_pure, Option.getD_some, Data.shown]

/-- Reading a list of records reads the first of them and then the others. -/
theorem ofItems_append (index : ℕ) (before items : List Data) :
    ofItems index (before ++ items) = ofItems index before >>= fun first =>
      (first ++ ·) <$> ofItems (index + before.length) items := by
  induction before generalizing index with
  | nil =>
    rw [List.nil_append, List.length_nil, Nat.add_zero]
    change _ = ([] ++ ·) <$> ofItems index items
    cases ofItems index items <;> rfl
  | cons item before ih =>
    have hplace : index + 1 + before.length = index + (before.length + 1) := by omega
    cases item <;>
      simp only [List.cons_append, ofItems, ih, hplace, List.length_cons, bind_assoc, pure_bind,
        map_eq_pure_bind]

/-- **Another type name in a record of a program** gives the blocks of the program, one of them with
the other type name. -/
theorem ofItems_setField (before after : List Data) (fields : Fields) (t : Text)
    {blocks : List Block} (h : ofItems 0 (before ++ .record fields :: after) = .ok blocks) :
    ∃ first b rest, blocks = first ++ b :: rest ∧ ofItems 0 before = .ok first ∧
      ofFields fields before.length = .ok b ∧
      ofItems 0 (before ++ .record (Data.setField fields "type" (.text t)) :: after) =
        .ok (first ++ { b with type := t } :: rest) := by
  rw [ofItems_append, Nat.zero_add] at h
  obtain ⟨first, hfirst, h⟩ := Outcome.bind_eq_ok.1 h
  obtain ⟨others, h, hblocks⟩ := Outcome.map_eq_ok.1 h
  obtain ⟨b, hb, h⟩ := Outcome.bind_eq_ok.1 h
  obtain ⟨rest, hrest, h⟩ := Outcome.bind_eq_ok.1 h
  cases h
  refine ⟨first, b, rest, hblocks.symm, hfirst, hb, ?_⟩
  rw [ofItems_append, hfirst, Nat.zero_add, ofItems, ofFields_setField, hb, hrest]
  rfl

end Block

namespace Graph

variable {blocks before after : List Block} {b b' x y : Block} {ds : Diagnostics}

/-- The blocks that can be reached are found by their names in the program. -/
theorem find?_of_mem_preorder (h : x ∈ (build blocks ds).1.preorder) :
    Block.find? blocks x.id = some x := by
  have hg := settled_build blocks ds
  have hmem := ((reachable_iff hg).1 ((mem_preorder hg).1 h)).1
  rw [(build_of_distinct blocks ds).1, mem_distinct_iff] at hmem
  obtain ⟨before, after, rfl, hfirst⟩ := hmem
  have hnone : before.find? (fun k => k.id == x.id) = none :=
    List.find?_eq_none.2 fun k hk => by simpa using hfirst k hk
  simp [Block.find?, hnone]

/-- If one block of a program is replaced by one of its name, then the blocks that are found by a
name are the two, provided that no earlier block has the name, or the same block is found. -/
theorem find?_replaced (hid : b'.id = b.id) {id : Text}
    (hx : Block.find? (before ++ b :: after) id = some x)
    (hy : Block.find? (before ++ b' :: after) id = some y) :
    (b.id ∉ before.map Block.id ∧ x = b ∧ y = b') ∨
      ((x = b → b.id ∈ before.map Block.id) ∧ y = x) := by
  rw [Block.find?, List.find?_append, List.find?_cons] at hx hy
  rw [hid] at hy
  rcases hbefore : before.find? (fun k => k.id == id) with _ | z
  · rw [hbefore, Option.none_or] at hx hy
    by_cases hb : b.id = id
    · refine .inl ⟨fun hmem => ?_, ?_⟩
      · obtain ⟨k, hk, hkid⟩ := List.mem_map.1 hmem
        exact List.find?_eq_none.1 hbefore k hk (by simp [hkid, hb])
      · simp only [hb, beq_self_eq_true, Option.some.injEq] at hx hy
        exact ⟨hx.symm, hy.symm⟩
    · have hbeq : (b.id == id) = false := by simpa using hb
      rw [hbeq] at hx hy
      refine .inr ⟨?_, Option.some.inj (hy.symm.trans hx)⟩
      rintro rfl
      exact absurd (by simpa using List.find?_some hx) hb
  · rw [hbefore, Option.some_or, Option.some.injEq] at hx hy
    subst hx hy
    refine .inr ⟨?_, rfl⟩
    rintro rfl
    exact List.mem_map_of_mem (List.mem_of_find?_eq_some hbefore)

end Graph

namespace Code

/-- Where blocks are found by their names in a program, and their counterparts in one with one block
respelled, the texts are the same if and only if those of the two blocks are or these are not among
the blocks found. -/
theorem map_textFor_eq_iff (before after : List Block) {b b' : Block} (hid : b'.id = b.id)
    {xs ys : List Block} (h : List.Forall₂ Respelled xs ys)
    (hxs : ∀ x ∈ xs, Block.find? (before ++ b :: after) x.id = some x)
    (hys : ∀ y ∈ ys, Block.find? (before ++ b' :: after) y.id = some y) :
    ys.map textFor = xs.map textFor ↔
      (b ∈ xs → b.id ∉ before.map Block.id → textFor b' = textFor b) := by
  induction h with
  | nil => simp
  | @cons x y xs ys hxy _ ih =>
    rw [List.forall_mem_cons] at hxs hys
    have hy := hys.1
    rw [← hxy.shape.id] at hy
    rw [List.map_cons, List.map_cons, List.cons.injEq, ih hxs.2 hys.2, List.mem_cons]
    rcases Graph.find?_replaced hid hxs.1 hy with ⟨hfirst, rfl, rfl⟩ | ⟨hlater, rfl⟩
    · tauto
    · constructor
      · rintro ⟨-, h⟩ (rfl | hmem) hfirst
        · exact absurd (hlater rfl) hfirst
        · exact h hmem hfirst
      · exact fun h => ⟨rfl, fun hmem => h (.inr hmem)⟩

end Code

/-- **How a type name is spelled does not matter, but for a distance query.** If the type name of a
block of known kind is spelled in another way with the same normal spelling, compiling the program
gives the same commands and the same diagnostics, or fails in the same way. The code is another one
if and only if it can be printed and the block is a distance query that the program comes to, under
its name, and that one of the two spellings has underscores or hyphens and the other one has not. -/
theorem respelling {R : Type} [Scalar R] (c : Config R) (before after : List Block) {b : Block}
    {t : Text} (hknown : b.kind ≠ .unknown) (hkey : Kind.normalize t = Kind.normalize b.type) :
    let blocks := before ++ b :: after
    let blocks' := before ++ { b with type := t } :: after
    (∀ ds, (Compilation.ofBlocks c blocks').run ds = (Compilation.ofBlocks c blocks).run ds) ∧
      (Code.ofBlocks blocks' ≠ Code.ofBlocks blocks ↔
        (∃ code, Code.ofBlocks blocks = .ok code) ∧
          (Graph.build blocks .empty).1.Reachable b ∧ b.id ∉ before.map Block.id ∧
          Kind.normalize b.type = "distance" ∧ ¬ (Kind.IsPlain t ↔ Kind.IsPlain b.type)) := by
  intro blocks blocks'
  have hself : ∀ bs : List Block, List.Forall₂ Respelled bs bs := fun bs =>
    List.forall₂_same.2 fun b _ => .refl b
  have hblocks : List.Forall₂ Respelled blocks blocks' :=
    List.rel_append (hself before) (.cons (.anew b hknown hkey) (hself after))
  refine ⟨fun ds => by rw [Compilation.ofBlocks_respelled hblocks], ?_⟩
  have hgraph := (Graph.counterpart_build (fun _ _ hab => Respelled.shape hab) hblocks .empty).1
  have hid : { b with type := t }.id = b.id := rfl
  have htexts := Code.map_textFor_eq_iff before after hid
    (hgraph.preorder fun _ _ hab => hab.shape) (fun _ => Graph.find?_of_mem_preorder)
    fun _ => Graph.find?_of_mem_preorder
  rw [ne_eq, Code.ofBlocks_respelled_iff hblocks, htexts, Code.textFor_respelled_iff hknown hkey,
    Graph.mem_preorder (Graph.settled_build blocks .empty)]
  simp only [Classical.not_imp]

/-- A distance query, spelled in some way, in a loop around it and a turn. -/
def sonar (type : String) : Data :=
  .list
    [Sample.block "ask" type "sensing" 40 20 [("object", .text "tree")] [],
     Sample.block "loop" "repeat" "control" 0 0 [("times", .integer 2)] ["ask", "turn"],
     Sample.block "turn" "turnRight" "motion" 40 40 [] []]

theorem respelling_sonar :
    ∃ code commands ds, Code.ofData (sonar "distance") = .ok code ∧
      Code.ofData (sonar "\tDistance ") = .ok code ∧
      (Compilation.ofData (Config.robot : Config Float) (sonar "distance")).run .empty =
        .ok commands ds ∧
      (Compilation.ofData (Config.robot : Config Float) (sonar "\tDistance ")).run .empty =
        .ok commands ds := by
  have hok : ((Block.load (sonar "distance")).toOption.any fun blocks => blocks.head?.any fun b =>
      (Code.ofBlocks blocks).toOption.any fun _ =>
        (Compilation.ofBlocks (Config.robot : Config Float) blocks).outcome.toOption.any fun _ =>
          decide (b.kind ≠ .unknown ∧ Kind.normalize "\tDistance " = Kind.normalize b.type ∧
            Kind.IsPlain "\tDistance " ∧ Kind.IsPlain b.type)) = true := by
    decide +kernel
  obtain ⟨blocks, hload, hok⟩ := Outcome.any_toOption.1 hok
  obtain ⟨first, b, rest, rfl, hfirst, -, hload'⟩ :=
    Block.ofItems_setField [] _ _ "\tDistance " hload
  obtain rfl : [] = first := Except.ok.inj hfirst
  obtain ⟨code, hcode, hok⟩ := Outcome.any_toOption.1 (Option.any_some ▸ hok)
  obtain ⟨commands, hrun, hok⟩ := Outcome.any_toOption.1 hok
  obtain ⟨hknown, hkey, hplain, hplain'⟩ := of_decide_eq_true hok
  obtain ⟨hcommands, hdiffers⟩ := respelling (Config.robot : Config Float) [] rest hknown hkey
  have hload' : Block.load (sonar "\tDistance ") =
      .ok ([] ++ { b with type := "\tDistance " } :: rest) := hload'
  have hcompile : ∀ (spelling : String) (blocks : List Block),
      Block.load (sonar spelling) = .ok blocks → ∀ ds,
        (Compilation.ofData (Config.robot : Config Float) (sonar spelling)).run ds =
          (Compilation.ofBlocks (Config.robot : Config Float) blocks).run .empty := by
    intro spelling blocks hload ds
    simp only [Compilation.ofData, hload]
    rfl
  have hcode' : Code.ofBlocks ([] ++ { b with type := "\tDistance " } :: rest) = .ok code := by
    by_contra hne
    have hspelled := (hdiffers.1 fun heq => hne (heq.trans hcode)).2.2.2.2
    exact hspelled (iff_of_true hplain hplain')
  have hcompiled := Recording.run_eq_of_outcome hrun
  refine ⟨code, commands, _, ?_, ?_, (hcompile _ _ hload .empty).trans hcompiled,
    (hcompile _ _ hload' .empty).trans ((hcommands .empty).trans hcompiled)⟩
  · rw [Code.ofData, hload]
    exact hcode
  · rw [Code.ofData, hload']
    exact hcode'

/-- The code of a program can change with the spelling of a type name. -/
theorem not_respelling : ¬ ∀ (before after : List Block) (b : Block) (t : Text),
    b.kind ≠ .unknown → Kind.normalize t = Kind.normalize b.type →
      Code.ofBlocks (before ++ { b with type := t } :: after) =
        Code.ofBlocks (before ++ b :: after) := by
  intro h
  let ask (type : Text) : Block := ⟨"d", type, "", .at 0.0, .at 0.0, [], [], []⟩
  have hfails : ((Code.ofBlocks [ask "distance"]).toOption.any fun code =>
      (Code.ofBlocks [ask "dis_tance"]).toOption.any fun code' =>
        decide (code' ≠ code)) = true := by
    decide +kernel
  obtain ⟨code, hcode, hfails⟩ := Outcome.any_toOption.1 hfails
  obtain ⟨code', hcode', hfails⟩ := Outcome.any_toOption.1 hfails
  have hsame := h [] [] (ask "distance") "dis_tance" (by decide) (by decide)
  rw [List.nil_append, List.nil_append, hcode] at hsame
  exact of_decide_eq_true hfails (Except.ok.inj (hcode'.symm.trans hsame))

end RobotBlocks
