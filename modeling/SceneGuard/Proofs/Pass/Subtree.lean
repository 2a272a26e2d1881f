import SceneGuard.Proofs.Pass.Execution

/-!
# Removing an entity removes its subtree

The cascade removes the children of an entity when its own turn is over, so that a subtree goes
level by level (`Felled`), while the scene hands the children of each removed entity to its parent.
Main statements:

* `Felled.halfway` — in between, the parent of the root lists those that are next in line;
* `Validator.felling_step?` — each turn approves its removal and puts those of the children in line;
* `Validator.removes_subtree` — of the subtree nothing is left, and the rest of the scene is as it
  was.
-/

namespace SceneGuard

variable {α μ : Type}

/-!
## A subtree on its way out

`Felled` goes along with the pass: level by level, entities are removed and their children come in
line. The scene hands these upwards, so that whatever waits hangs where the root did.
-/

/--
From the subtree of `root`, the entities removed so far and those next in line, level by level, and
what is left of the scene.
-/
inductive Felled (scene : Scene α) (root : EntityId) :
    List EntityId → List EntityId → Scene α → Prop where
  | start : Felled scene root [] [root] scene
  | next {R P : List EntityId} {x : EntityId} {t : Scene α} {q : Entity α}
      (h : Felled scene root R (x :: P) t) (hq : t.get? x = some q) :
      Felled scene root (R ++ [x]) (P ++ scene.listed x) (t.removed x q)

/--
The scene `t` when the entity `e` at `root` is gone and not all that is below it: those in `R` are
not there any more, and those in `P` hang under the parent that `e` had, as the last of its
children.
-/
structure Scene.Halfway (scene : Scene α) (root : EntityId) (e : Entity α) (R P : List EntityId)
    (t : Scene α) : Prop where
  gone : root ∈ R
  get?_eq : ∀ x, t.get? x =
    if x ∈ R then none
    else (scene.get? x).map fun q =>
      let q := if e.parent = some x then Scene.adopt root P q else q
      if x ∈ P then { q with parent := e.parent } else q
  activeZone : t.activeZone = if ∃ z ∈ R, scene.activeZone = some z then none else scene.activeZone

variable {scene t : Scene α} {root x y : EntityId} {R P : List EntityId} {e : Entity α}

/-- Within an entity is the entity itself, and what is within one of its children. -/
theorem Scene.within_iff (hlinks : scene.LinksAgree) :
    scene.Within y x ↔ y = x ∨ ∃ c ∈ scene.listed x, scene.Within y c := by
  constructor
  · rintro (rfl | hbelow)
    · exact .inl rfl
    · -- the last link of the way down comes from `x`, and `x` lists its child
      obtain ⟨c, hyc, hlink⟩ := Relation.TransGen.tail'_iff.1 hbelow
      obtain ⟨q, hq, hcount⟩ := hlinks.listed hlink
      have hc : c ∈ scene.listed x := by
        rw [Scene.listed_of_get? hq]
        exact List.count_pos_iff.1 (by omega)
      exact .inr ⟨c, hc, (Relation.reflTransGen_iff_eq_or_transGen.1 hyc).imp_left Eq.symm⟩
  · rintro (rfl | ⟨c, hc, rfl | hbelow⟩)
    · exact .inl rfl
    · exact .inr (.single (parentLink_of_listed hlinks hc))
    · exact .inr (hbelow.tail (parentLink_of_listed hlinks hc))

theorem Scene.Within.live (h : scene.Within x root) (he : scene.get? root = some e) :
    ∃ q, scene.get? x = some q := by
  rcases h with rfl | hbelow
  · exact ⟨e, he⟩
  · obtain ⟨p, ⟨q, hq, _⟩, _⟩ := Relation.TransGen.head'_iff.1 hbelow
    exact ⟨q, hq⟩

namespace Felled

/-- Whatever is still to be removed hangs apart from what was. -/
theorem apart (h : Felled scene root R P t) (hlinks : scene.LinksAgree) (hacyclic : scene.Acyclic) :
    Apart scene R P := by
  induction h with
  | start => exact ⟨List.nodup_singleton _, by simpa using hacyclic root⟩
  | next _ _ ih => exact ih.remove hlinks hacyclic

/-- What was removed and what is within the entities next in line make up the subtree. -/
theorem within_iff (h : Felled scene root R P t) (hlinks : scene.LinksAgree) (y : EntityId) :
    scene.Within y root ↔ y ∈ R ∨ ∃ x ∈ P, scene.Within y x := by
  induction h with
  | start => simp
  | @next R P x _ _ _ _ ih =>
    have hchildren : scene.Within y x ↔ y = x ∨ ∃ c ∈ scene.listed x, scene.Within y c :=
      Scene.within_iff hlinks
    simp only [ih, List.mem_append, List.mem_cons, List.not_mem_nil, or_false,
      or_and_right, exists_or, exists_eq_left, hchildren]
    grind

/-- What is removed or waits for it was within the root. -/
theorem within (h : Felled scene root R P t) (hlinks : scene.LinksAgree) (hx : x ∈ R ++ P) :
    scene.Within x root :=
  (h.within_iff hlinks x).2 ((List.mem_append.1 hx).imp id fun hx => ⟨x, hx, .inl rfl⟩)

/-- Before the first removal only the root waits. -/
theorem eq_of_nil (h : Felled scene root R P t) (hR : R = []) : P = [root] ∧ t = scene := by
  cases h with
  | start => exact ⟨rfl, rfl⟩
  | next => simp at hR

end Felled

namespace Scene.Halfway

/-- After the root was removed its children wait, and hang where it hung. -/
theorem start (he : scene.get? root = some e) :
    scene.Halfway root e [root] (scene.listed root) (scene.removed root e) where
  gone := List.mem_singleton_self root
  get?_eq x := by
    rw [get?_removed, listed_of_get? he]
    simp only [List.mem_singleton]
  activeZone := by
    rw [activeZone_removed]
    simp only [List.mem_singleton, exists_eq_left]

/-- The parent of the root drops `x` from the end of its list,
and takes the children of `x` there. -/
theorem adopt_adopt {children : List EntityId} {q : Entity α} (hq : x ∉ q.children) (hP : x ∉ P) :
    adopt x children (adopt root (x :: P) q) = adopt root (P ++ children) q := by
  have hfilter : ∀ l : List EntityId, x ∉ l → l.filter (fun z => decide (z ≠ x)) = l := fun l hl =>
    List.filter_eq_self.2 fun z hz => decide_eq_true fun hzx => hl (hzx ▸ hz)
  have hkept := hfilter (q.children.filter fun z => decide (z ≠ root)) fun hmem =>
    hq (List.mem_filter.1 hmem).1
  unfold adopt
  rw [List.filter_append, hkept, List.filter_cons_of_neg (by simp), hfilter P hP, List.append_assoc]

/-- What waits is as it was, but for its parent. -/
theorem get?_of_mem (h : scene.Halfway root e R P t) (hx : x ∈ P) (hR : x ∉ R)
    (hparent : e.parent ≠ some x) :
    t.get? x = (scene.get? x).map fun q => { q with parent := e.parent } := by
  rw [h.get?_eq, if_neg hR]
  simp only [hparent, hx, if_true, if_false]

/-- The removal of the first in line puts its children behind the others. -/
theorem next (hlinks : scene.LinksAgree) (hacyclic : scene.Acyclic) (he : scene.get? root = some e)
    (h : scene.Halfway root e R (x :: P) t) (hapart : Apart scene R (x :: P))
    (hbelow : scene.Below x root) {q : Entity α} (hq : t.get? x = some q) :
    scene.Halfway root e (R ++ [x]) (P ++ scene.listed x) (t.removed x q) := by
  obtain ⟨hnodup, hbelow'⟩ := hapart
  have hR : x ∉ R := fun hx => (List.nodup_append.1 hnodup).2.2 x hx x List.mem_cons_self rfl
  have hP : x ∉ P := (List.nodup_cons.1 (List.nodup_append.1 hnodup).2.1).1
  -- neither the entity nor what it lists has to do with the parent of the root
  have hparent : e.parent ≠ some x := fun hp =>
    hbelow' x List.mem_cons_self root (List.mem_append_left _ h.gone) (.single ⟨e, he, hp⟩)
  have hlist : ∀ y b, e.parent = some y → scene.get? y = some b → x ∉ b.children := by
    intro y b hy hb hx
    rcases below_of_parentLink hbelow (hlinks.claimed hb hx) with rfl | hyroot
    · exact hacyclic y (.single ⟨e, he, hy⟩)
    · exact hacyclic root (.head ⟨e, he, hy⟩ hyroot)
  obtain ⟨b, hb, hqb⟩ := Option.map_eq_some_iff.1
    ((h.get?_of_mem List.mem_cons_self hR hparent).symm.trans hq)
  have hqparent : q.parent = e.parent := by rw [← hqb]
  have hqchildren : q.children = scene.listed x := by rw [← hqb, listed_of_get? hb]
  refine ⟨List.mem_append_left _ h.gone, fun y => ?_, ?_⟩
  · rw [get?_removed, h.get?_eq, hqparent, hqchildren]
    by_cases hyx : y = x
    · simp [hyx]
    by_cases hyR : y ∈ R
    · simp [hyR]
    simp only [hyx, hyR, if_false, List.mem_append, List.mem_cons, List.not_mem_nil,
      or_self, false_or]
    cases hy : scene.get? y with
    | none => rfl
    | some b =>
      simp only [Option.map_some, Option.some.injEq]
      by_cases hpy : e.parent = some y
      · -- the parent of the root is not on its way out itself
        have hyP : y ∉ P := fun hmem => hbelow' y (List.mem_cons_of_mem _ hmem) root
          (List.mem_append_left _ h.gone) (.single ⟨e, he, hpy⟩)
        have hyx' : y ∉ scene.listed x := fun hmem => hacyclic root
          (.head ⟨e, he, hpy⟩ (.head (parentLink_of_listed hlinks hmem) hbelow))
        simp only [hpy, hyP, hyx', if_true, if_false, or_self, adopt_adopt (hlist y b hpy hy) hP]
      · simp only [hpy, if_false]
        by_cases hyP : y ∈ P <;> by_cases hyl : y ∈ scene.listed x <;> simp [hyP, hyl]
  · rw [activeZone_removed, h.activeZone]
    simp only [List.mem_append, List.mem_singleton, or_and_right, exists_or, exists_eq_left]
    by_cases hz : ∃ z ∈ R, scene.activeZone = some z <;> simp [hz]

end Scene.Halfway

namespace Felled

/-- At each point after the first removal, what waits hangs where the root did. -/
theorem halfway (h : Felled scene root R P t) (hlinks : scene.LinksAgree) (hacyclic : scene.Acyclic)
    (he : scene.get? root = some e) (hR : R ≠ []) : scene.Halfway root e R P t := by
  induction h with
  | start => exact absurd rfl hR
  | @next R P x t q h hq ih =>
    by_cases hnil : R = []
    · -- the root goes first, and from then on the scene is halfway
      obtain ⟨hP, rfl⟩ := h.eq_of_nil hnil
      cases hP
      cases hq.symm.trans he
      rw [hnil]
      exact .start he
    · have hgone : root ∈ R := (ih hnil).gone
      have hapart := h.apart hlinks hacyclic
      have hne : x ≠ root := fun hx =>
        (List.nodup_append.1 hapart.1).2.2 root hgone x List.mem_cons_self hx.symm
      exact (ih hnil).next hlinks hacyclic he hapart
        ((h.within hlinks (by simp)).resolve_left hne) hq

theorem exists_get? (h : Felled scene root R (x :: P) t) (hlinks : scene.LinksAgree)
    (hacyclic : scene.Acyclic) (he : scene.get? root = some e) : ∃ q, t.get? x = some q := by
  have hapart := h.apart hlinks hacyclic
  have hx : x ∉ R := fun hx => (List.nodup_append.1 hapart.1).2.2 x hx x List.mem_cons_self rfl
  obtain ⟨b, hb⟩ := (h.within hlinks (x := x) (by simp)).live he
  by_cases hnil : R = []
  · obtain ⟨_, rfl⟩ := h.eq_of_nil hnil
    exact ⟨b, hb⟩
  · have hhalf := h.halfway hlinks hacyclic he hnil
    have hparent : e.parent ≠ some x := fun hp =>
      hapart.2 x List.mem_cons_self root (List.mem_append_left _ hhalf.gone) (.single ⟨e, he, hp⟩)
    rw [hhalf.get?_of_mem List.mem_cons_self hx hparent, hb]
    exact ⟨_, rfl⟩

/-- No more are removed than there are entities. -/
theorem length_le (h : Felled scene root R P t) (hlinks : scene.LinksAgree)
    (hacyclic : scene.Acyclic) (he : scene.get? root = some e) :
    (R ++ P).length ≤ scene.entities.size :=
  Scene.length_le_size (h.apart hlinks hacyclic).1 fun _ hx => (h.within hlinks hx).live he

end Felled

/-! ## The pass over a removal -/

/-- The surrogate for the removal of a live entity can be made. -/
theorem WorkingSet.exists_surrogateFor_remove [Scalar α] (w : WorkingSet α)
    (he : scene.get? x = some e) (header : Header) (role : Role) :
    ∃ made, w.surrogateFor scene (.single header (.remove role x)) = .ok made := by
  rw [surrogateFor_single]
  have hshown : ∃ s, w.shown scene x = some s := by
    unfold shown Scene.surrogate?
    rw [he]
    cases w.get? x with
    | none => exact ⟨_, rfl⟩
    | some s => exact ⟨s, rfl⟩
  obtain ⟨s, hs⟩ := hshown
  rw [show w.base? scene (.remove role x) = some s from hs]
  exact ⟨_, rfl⟩

/--
Where the pass over the removal of `root` stands: those in `R` are approved, those in `P` are
pending, and `t` is the scene after what is approved.
-/
structure Pass.Felling (scene : Scene α) (root : EntityId) (R P : List EntityId) (t : Scene α)
    (p : Pass α μ) : Prop where
  felled : Felled scene root R P t
  unfailed : p.failed = false
  issued : p.session.queues.issued = []
  approved : List.Forall₂ Command.Removes R p.session.queues.approved
  pending : List.Forall₂ Command.Removes P p.session.queues.pending
  /-- None of the pending removals is superseded. -/
  alive : ∀ c ∈ p.session.queues.pending, c.header.dying = false
  applied : scene.applyAll p.session.queues.approved = (t, .ok ())

namespace Validator

variable [Scalar α] [NumberText α] {v : Validator α μ} {edit : Command α} {p : Pass α μ}

/-- A turn approves the removal that is first in line, and the children come behind the others. -/
theorem felling_step? (hv : v.Standard) (hlinks : scene.LinksAgree) (hacyclic : scene.Acyclic)
    (he : scene.get? root = some e) (edit : Command α) (h : p.Felling scene root R (x :: P) t) :
    ∃ p' t', v.step? scene edit p = some p' ∧
      p'.Felling scene root (R ++ [x]) (P ++ scene.listed x) t' := by
  obtain ⟨c, rest, hc, hrest, hpending⟩ := List.forall₂_cons_left_iff.1 h.pending
  obtain ⟨b, hb⟩ := (h.felled.within hlinks (x := x) (by simp)).live he
  obtain ⟨q, hq⟩ := h.felled.exists_get? hlinks hacyclic he
  have halive : ∀ d ∈ c :: rest, d.header.dying = false := fun d hd => h.alive d (hpending ▸ hd)
  obtain ⟨hjudge, hleft, hissued, hfresh⟩ :=
    judge_remove hv hlinks hacyclic p hb hc (halive c List.mem_cons_self)
  obtain ⟨made, hmade⟩ : ∃ made, (v.tried scene p c).changes.working.surrogateFor scene
      (v.tried scene p c).command = .ok made := by
    rw [hleft]
    obtain ⟨header, role, rfl, _⟩ := hc
    exact WorkingSet.exists_surrogateFor_remove _ hb header role
  -- the rules approve and the surrogate can be made, so the turn approves
  have hverdict := verdict_of_surrogateFor hjudge rfl hmade
  obtain ⟨_, _, _, hsession⟩ := approving_turn edit rest hverdict rfl
  rw [h.issued, List.nil_append, hleft] at hsession
  refine ⟨_, t.removed x q, step?_eq_some.2 ⟨c, rest, hpending, rfl⟩, .next h.felled hq,
    ?unfailed, ?issued, ?approved, ?pending, ?alive, ?applied⟩
  case unfailed =>
    rw [Pass.settle_approved _ _ hverdict rfl]
    exact h.unfailed
  case issued => rw [hsession]
  case approved =>
    rw [hsession]
    exact List.rel_append h.approved (.cons hc .nil)
  case pending =>
    rw [hsession]
    exact List.rel_append hrest hissued
  case alive =>
    rw [hsession]
    intro d hd
    exact (List.mem_append.1 hd).elim (fun hd => halive d (List.mem_cons_of_mem _ hd)) (hfresh d)
  case applied =>
    rw [hsession]
    obtain ⟨header, role, rfl, _⟩ := hc
    have hremove : t.remove x = .ok (q, t.removed x q) := Scene.remove_eq_ok.2 ⟨hq, rfl⟩
    refine Scene.applyAll_append_eq_ok.2 ⟨t, h.applied, Scene.applyAll_cons_eq_ok.2
      ⟨t.removed x q, Scene.apply_single_eq_ok.2 ?_, rfl⟩⟩
    simp only [Scene.edit, hremove, bind, Except.bind, pure, Except.pure]

/-- The pass ends when each entity of the subtree has had its turn,
and so after no more turns than that. -/
theorem felling_run (hv : v.Standard) (hlinks : scene.LinksAgree) (hacyclic : scene.Acyclic)
    (he : scene.get? root = some e) (edit : Command α) {budget : Nat}
    (hbudget : scene.entities.size ≤ R.length + budget) (h : p.Felling scene root R P t) :
    ∃ q R' t', v.run scene edit budget p = some q ∧ q.Felling scene root R' [] t' := by
  induction budget generalizing R P t p with
  | zero =>
    -- all entities of the scene had their turn, so none is left in line
    have hlength := h.felled.length_le hlinks hacyclic he
    cases P with
    | nil => exact ⟨p, R, t, run_of_pending (List.forall₂_nil_left_iff.1 h.pending), h⟩
    | cons x P => rw [List.length_append, List.length_cons] at hlength; omega
  | succ budget ih =>
    cases P with
    | nil => exact ⟨p, R, t, run_of_pending (List.forall₂_nil_left_iff.1 h.pending), h⟩
    | cons x P =>
      obtain ⟨p', t', hstep, h'⟩ := felling_step? hv hlinks hacyclic he edit h
      rw [run_of_step? budget hstep]
      exact ih (by rw [List.length_append, List.length_singleton]; omega) h'

/--
**Removing an entity removes exactly its subtree.** Under the default bindings, where parents and
children agree and nobody is above themselves, the removal of an entity is approved: one removal for
each entity of the subtree is executed, and what they leave is the scene without the subtree, where
the parent does not list the entity any more and no removed zone is active.
-/
theorem removes_subtree (hv : v.Standard) (hlinks : scene.LinksAgree) (hacyclic : scene.Acyclic)
    (he : scene.get? root = some e) (role : Role) {header : Header}
    (hforced : header.forced = false) (hdying : header.dying = false) (session : Session α)
    (ids : IdSource) (memory : μ) {budget : Nat} (hbudget : scene.entities.size ≤ budget) :
    ∃ result, v.validate budget scene session ids memory (.single header (.remove role root)) =
      some result ∧
      result.outcome.approved = true ∧ ∃ removed : List EntityId, removed.Nodup ∧
        (∀ x, x ∈ removed ↔ scene.Within x root) ∧
        List.Forall₂ Command.Removes removed result.outcome.command.members ∧
        ∃ t, scene.apply result.outcome.command = (t, .ok ()) ∧
          (∀ x, t.get? x =
            if x ∈ removed then none
            else (scene.get? x).map fun q => if e.parent = some x then Scene.delist root q else q) ∧
          t.activeZone =
            if ∃ z ∈ removed, scene.activeZone = some z then none else scene.activeZone := by
  have hchecks : v.checks (.single header (.remove role root)) = true := by
    unfold checks Command.header
    rw [hv.checking, hforced]
    rfl
  -- the line starts with the root alone, of which nothing is removed yet
  have hstart :
      (v.start session ids memory (.single header (.remove role root))).Felling scene root []
        [root] scene := by
    refine ⟨.start, rfl, ?_, ?_, ?_, ?_, ?_⟩ <;> rw [queues_start]
    · exact .nil
    · exact .cons ⟨header, role, rfl, hforced⟩ .nil
    · simpa [Command.leaves, Command.header] using hdying
    · rfl
  have hbudget : scene.entities.size ≤ ([] : List EntityId).length + budget := by
    simpa using hbudget
  obtain ⟨q, removed, t, hrun, h⟩ := felling_run hv hlinks hacyclic he _ hbudget hstart
  obtain ⟨result, header', description, hresult, happroved, hcommand⟩ :=
    validate_of_run hchecks hrun
  have hmem : ∀ x, x ∈ removed ↔ scene.Within x root := fun x => by
    rw [h.felled.within_iff hlinks x]
    simp
  -- the line is empty, so what is removed is the whole subtree
  have hhalf := h.felled.halfway hlinks hacyclic he
    (List.ne_nil_of_mem ((hmem root).2 (.inl rfl)))
  refine ⟨result, hresult, by rw [happroved, h.unfailed]; rfl, removed, ?_, hmem, ?_, t, ?_, ?_,
    hhalf.activeZone⟩
  · simpa using (h.felled.apart hlinks hacyclic).1
  · rw [hcommand]
    exact h.approved
  · rw [hcommand]
    exact h.applied
  · intro x
    rw [hhalf.get?_eq]
    simp only [List.not_mem_nil, if_false, Scene.adopt, List.append_nil]
    rfl

/-- A shelf with a box and a lid on it, where the lid is what is being worked on. -/
def shelfInUse : Scene Float := { shelf with activeZone := some 3 }

/-- The box is removed from the shelf with the lid on it, and the zone is left. -/
theorem removes_subtree_shelf : ∃ result : Validation Float Unit,
    (plain true).validate 5 shelfInUse .fresh {} () (.single { id := 1 } (.remove .entity 2)) =
      some result ∧
      result.outcome.approved = true ∧ ∃ removed : List EntityId, removed.Nodup ∧
        (∀ x, x ∈ removed ↔ shelfInUse.Within x 2) ∧
        List.Forall₂ Command.Removes removed result.outcome.command.members ∧
        ∃ t, shelfInUse.apply result.outcome.command = (t, .ok ()) ∧
          (∀ x, t.get? x =
            if x ∈ removed then none
            else (shelfInUse.get? x).map fun q => if some 1 = some x then Scene.delist 2 q else q) ∧
          t.activeZone =
            if ∃ z ∈ removed, shelfInUse.activeZone = some z then none
            else shelfInUse.activeZone := by
  have hlinks : shelfInUse.LinkConsistent := by decide
  have hacyclic : shelfInUse.Acyclic :=
    Scene.acyclic_of_rank (show shelfInUse.falls UInt64.toNat = true by decide)
  have hbox : shelfInUse.get? 2 =
      some { Entity.new 2 .model (.splat 1) with parent := some 1, children := [3] } := by rfl
  exact removes_subtree (standard_plain true) hlinks.linksAgree hacyclic hbox .entity rfl
    rfl .fresh {} () (by decide)

end Validator

end SceneGuard
