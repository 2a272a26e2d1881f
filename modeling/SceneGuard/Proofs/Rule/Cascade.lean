import SceneGuard.Proofs.Rule.Standard
import SceneGuard.Proofs.Scene.Following

/-!
# What goes with a removed entity

A removal goes through `die_check` and `cascade_remove`. The second has each child of the entity
removed later in the pass and stages disabled surrogates for all that is below it (`tried_remove`).
In a hierarchy without cycles it always answers, and the removal of a live entity is approved
(`judge_remove`).
-/

namespace SceneGuard

variable {α μ : Type}

/-- A command that is not forced and takes out the entity at a number. -/
def Command.Removes (id : EntityId) (c : Command α) : Prop :=
  ∃ header role, c = .single header (.remove role id) ∧ header.forced = false

namespace Rule

variable {scene : Scene α}

/-- An entity is live when the scene has it. -/
theorem requireLive_eq_ok {id : EntityId} {e : Entity α} :
    requireLive scene id = .ok e ↔ scene.get? id = some e := by
  unfold requireLive
  cases scene.get? id <;> simp

/-- Each child has its removal, in the order of the children. -/
theorem forall₂_removals {ids ids' : IdSource} {children : List EntityId}
    {issued : List (Command α)} (h : removals scene ids children = (.ok issued, ids')) :
    List.Forall₂ Command.Removes children issued := by
  induction children generalizing ids issued with
  | nil =>
    cases h
    exact .nil
  | cons id rest ih =>
    obtain ⟨e, more, -, hrest, rfl⟩ := removals_cons_eq_ok.1 h
    exact .cons ⟨_, _, rfl, rfl⟩ (ih hrest)

/-- What is below an entity are its children and what is below those. -/
theorem below_iff_children (hlinks : scene.LinksAgree) {id : EntityId} {e : Entity α}
    (he : scene.get? id = some e) {x : EntityId} :
    scene.Below x id ↔ x ∈ e.children ∨ ∃ c ∈ e.children, scene.Below x c := by
  -- links that agree: the children listed are those whose parent is `id`
  have hlink : ∀ {c}, c ∈ e.children ↔ scene.ParentLink c id := fun {c} => by
    rw [← Scene.listed_of_get? he, ← Scene.skeleton_link]
    exact hlinks.mem_listed
  simp only [hlink]
  constructor
  · intro hx
    obtain ⟨c, hxc, hc⟩ := Relation.TransGen.tail'_iff.1 hx
    exact (Relation.reflTransGen_iff_eq_or_transGen.1 hxc).elim (fun h => .inl (h ▸ hc))
      fun h => .inr ⟨c, hc, h⟩
  · rintro (hc | ⟨c, hc, hbelow⟩)
    · exact .single hc
    · exact hbelow.tail hc

/-- The walk down meets live entities only: those it starts from, and what is below them. -/
theorem subtree_sound (hlinks : scene.LinksAgree) {depth : Nat} {ids : List EntityId}
    {below : List (EntityId × Entity α)} (h : subtree scene depth ids = .ok below) :
    ∀ x ∈ below, scene.get? x.1 = some x.2 ∧ (x.1 ∈ ids ∨ ∃ id ∈ ids, scene.Below x.1 id) := by
  induction depth generalizing ids below with
  | zero =>
    cases ids with
    | nil => cases h; simp
    | cons id rest => cases h
  | succ depth ih =>
    cases ids with
    | nil => cases h; simp
    | cons id rest =>
      rw [subtree] at h
      · obtain ⟨parts, hparts, h⟩ := bind_eq_ok.1 h
        rw [← pure_eq_ok.1 h]
        intro x hx
        obtain ⟨part, hpart, hx⟩ := List.mem_flatten.1 hx
        obtain ⟨i, hi, hpart⟩ := exists_of_mem_mapM hparts hpart
        obtain ⟨e, he, hpart⟩ := bind_eq_ok.1 hpart
        obtain ⟨deeper, hdeeper, hpart⟩ := bind_eq_ok.1 hpart
        have hi : i ∈ id :: rest := List.mem_reverse.1 hi
        have he := requireLive_eq_ok.1 he
        rw [← pure_eq_ok.1 hpart] at hx
        -- either one of the entities walked from, or found on the way down from its children
        rcases List.mem_cons.1 hx with rfl | hx
        · exact ⟨he, .inl hi⟩
        · obtain ⟨hget, hbelow⟩ := ih hdeeper x hx
          exact ⟨hget, .inr ⟨i, hi, (below_iff_children hlinks he).2 hbelow⟩⟩
      · simp

/-- The walk down leaves nothing out that it starts from, and nothing that is below. -/
theorem subtree_complete (hlinks : scene.LinksAgree) {depth : Nat} {ids : List EntityId}
    {below : List (EntityId × Entity α)} (h : subtree scene depth ids = .ok below) {x : EntityId}
    (hx : x ∈ ids ∨ ∃ id ∈ ids, scene.Below x id) : ∃ e, (x, e) ∈ below := by
  induction depth generalizing ids below with
  | zero =>
    cases ids with
    | nil => simp at hx
    | cons id rest => cases h
  | succ depth ih =>
    cases ids with
    | nil => simp at hx
    | cons id rest =>
      rw [subtree] at h
      · obtain ⟨parts, hparts, h⟩ := bind_eq_ok.1 h
        rw [← pure_eq_ok.1 h]
        obtain ⟨i, hi, hx⟩ : ∃ i ∈ id :: rest, scene.Within x i :=
          hx.elim (fun hx => ⟨x, hx, .inl rfl⟩) fun ⟨i, hi, hx⟩ => ⟨i, hi, .inr hx⟩
        obtain ⟨part, hpart, hwalk⟩ := exists_mem_of_mapM hparts (List.mem_reverse.2 hi)
        obtain ⟨e, he, hwalk⟩ := bind_eq_ok.1 hwalk
        obtain ⟨deeper, hdeeper, hwalk⟩ := bind_eq_ok.1 hwalk
        rw [← pure_eq_ok.1 hwalk] at hpart
        -- either the entity itself, or what the walk from its children does not leave out
        rcases hx with rfl | hx
        · exact ⟨e, List.mem_flatten.2 ⟨_, hpart, List.mem_cons_self⟩⟩
        · obtain ⟨q, hq⟩ := ih hdeeper ((below_iff_children hlinks (requireLive_eq_ok.1 he)).1 hx)
          exact ⟨q, List.mem_flatten.2 ⟨_, hpart, List.mem_cons_of_mem _ hq⟩⟩
      · simp

/-- From the children of an entity the walk goes to everything below it. -/
theorem mem_subtree (hlinks : scene.LinksAgree) {depth : Nat} {id : EntityId} {e : Entity α}
    (he : scene.get? id = some e) {below : List (EntityId × Entity α)}
    (h : subtree scene depth e.children = .ok below) {x : EntityId × Entity α} :
    x ∈ below ↔ scene.get? x.1 = some x.2 ∧ scene.Below x.1 id := by
  rw [below_iff_children hlinks he]
  constructor
  · exact subtree_sound hlinks h x
  · rintro ⟨hget, hbelow⟩
    obtain ⟨q, hq⟩ := subtree_complete hlinks h hbelow
    obtain ⟨hget', _⟩ := subtree_sound hlinks h _ hq
    obtain rfl : q = x.2 := Option.some.inj (hget'.symm.trans hget)
    exact hq

/-- Disabled are the entities that were enabled, as the working set has them or as they are live. -/
theorem mem_disabling [Scalar α] {w : WorkingSet α} {entities : List (EntityId × Entity α)}
    {s : Surrogate α} :
    s ∈ disabling w entities ↔ ∃ x ∈ entities, ((w.get? x.1).getD (.ofEntity x.2)).enabled = true ∧
      s = ((w.get? x.1).getD (.ofEntity x.2)).disabled := by
  unfold disabling
  rw [List.mem_filterMap]
  refine exists_congr fun x => and_congr_right fun _ => ?_
  simp only
  split
  · next henabled => simp [henabled, eq_comm]
  · next hdisabled => simp [hdisabled]

/-- What the rule answers to a removal, if it answers. -/
theorem answer_cascadeRemove [Scalar α] {ctx : RuleContext α} (hscene : ctx.scene.LinkConsistent)
    {ids : IdSource} {memory : μ} {header : Header} {role : Role} {id : EntityId} {v v' : Verdict α}
    {a : RuleAnswer α μ}
    (ha : cascadeRemove.process ctx ids memory (.single header (.remove role id)) v = a)
    (hv : a.verdict = .ok v') :
    a.command = .single header (.remove role id) ∧
      List.Forall₂ Command.Removes (ctx.scene.listed id) a.issued ∧
      ∀ s ∈ a.staged, ∃ x e, ctx.scene.get? x = some e ∧ ctx.scene.Below x id ∧
        s = ((ctx.working.get? x).getD (.ofEntity e)).disabled := by
  subst ha
  have hlive : (if (Command.single header (Edit.remove (α := α) role id)).kind.isRemove then
      (Command.single header (Edit.remove (α := α) role id)).entityId.bind ctx.scene.get?
        else none) =
      ctx.scene.get? id := rfl
  unfold cascadeRemove at hv ⊢
  simp only [hlive] at hv ⊢
  cases he : ctx.scene.get? id with
  | none =>
    -- an entity that was added in this pass has no live children
    have hnone : ctx.scene.listed id = [] := by rw [Scene.listed, he]; rfl
    rw [hnone]
    exact ⟨rfl, .nil, by simp⟩
  | some e =>
    rw [Scene.listed_of_get? he]
    simp only [he] at hv ⊢
    rcases hremovals : removals ctx.scene ids e.children with ⟨issued, ids'⟩
    rw [hremovals] at hv
    cases issued with
    | error f => cases hv
    | ok issued =>
      cases hsubtree : subtree ctx.scene (ctx.scene.entities.size + 1) e.children with
      | error f => simp only [hsubtree] at hv; cases hv
      | ok below =>
        -- what is staged was met on the walk down, and so is below the entity
        refine ⟨rfl, forall₂_removals hremovals, fun s hs => ?_⟩
        obtain ⟨x, hx, _, rfl⟩ := mem_disabling.1 hs
        obtain ⟨hget, hbelow⟩ := (mem_subtree hscene.linksAgree he hsubtree).1 hx
        exact ⟨x.1, x.2, hget, hbelow, rfl⟩

/-! ## When the cascade answers -/

/-- Where all children are live each gets its removal, and none of these is superseded. -/
theorem removals_of_live {children : List EntityId} (ids : IdSource)
    (hlive : ∀ c ∈ children, ∃ e, scene.get? c = some e) :
    ∃ issued ids', removals scene ids children = (.ok issued, ids') ∧
      ∀ c ∈ issued, c.header.dying = false := by
  -- along the children; each takes one number, so the source is general
  induction children generalizing ids with
  | nil => exact ⟨[], ids, rfl, by simp⟩
  | cons id rest ih =>
    obtain ⟨e, he⟩ := hlive id List.mem_cons_self
    have hrequire : requireLive scene id = .ok e := requireLive_eq_ok.2 he
    obtain ⟨more, ids', hmore, hdying⟩ :=
      ih ids.fresh.2 fun c hc => hlive c (List.mem_cons_of_mem _ hc)
    refine ⟨.single { id := ids.fresh.1 } (.remove (removalRole e.kind) id) :: more, ids', ?_, ?_⟩
    · exact removals_cons_eq_ok.2 ⟨e, more, hrequire, hmore, rfl⟩
    · intro c hc
      rcases List.mem_cons.1 hc with rfl | hc
      · rfl
      · exact hdying c hc

/--
Down an acyclic hierarchy the walk finds its end: the entities above the ones it is at are all
different, so that there are no more of them than the scene has, and the depth allowed is never used
up.
-/
theorem exists_subtree (hlinks : scene.LinksAgree) (hacyclic : scene.Acyclic) {depth : Nat}
    {above ids : List EntityId} (hnodup : above.Nodup)
    (habove : ∀ a ∈ above, ∃ e, scene.get? a = some e)
    (hdepth : scene.entities.size < above.length + depth)
    (hids : ∀ id ∈ ids, (∃ e, scene.get? id = some e) ∧ ∀ a ∈ above, scene.Below id a) :
    ∃ below, subtree scene depth ids = .ok below := by
  induction depth generalizing above ids with
  | zero =>
    have hlength := Scene.length_le_size hnodup habove
    omega
  | succ depth ih =>
    cases ids with
    | nil => exact ⟨[], by rw [subtree]⟩
    | cons i rest =>
      have hparts : ∀ id ∈ (i :: rest).reverse, ∃ part, (do
          let e ← requireLive scene id
          let below ← subtree scene depth e.children
          return (id, e) :: below) = Except.ok part := by
        intro id hid
        obtain ⟨⟨e, he⟩, hbelow⟩ := hids id (List.mem_reverse.1 hid)
        have hchild : ∀ c ∈ e.children, scene.ParentLink c id := fun c hc => hlinks.claimed he hc
        -- one step further down, the entity itself is above
        have hnodup' : (id :: above).Nodup :=
          List.nodup_cons.2 ⟨fun hmem => hacyclic id (hbelow id hmem), hnodup⟩
        obtain ⟨below, hwalk⟩ : ∃ below, subtree scene depth e.children = .ok below := ih hnodup'
          (fun a ha => (List.mem_cons.1 ha).elim (fun h => ⟨e, h ▸ he⟩) (habove a))
          (by rw [List.length_cons]; omega)
          (fun c hc => ⟨(hchild c hc).imp fun _ h => h.1, fun a ha => (List.mem_cons.1 ha).elim
            (fun h => h ▸ .single (hchild c hc)) fun ha => .head (hchild c hc) (hbelow a ha)⟩)
        exact ⟨(id, e) :: below,
          bind_eq_ok.2 ⟨e, requireLive_eq_ok.2 he, bind_eq_ok.2 ⟨below, hwalk, rfl⟩⟩⟩
      obtain ⟨parts, hparts⟩ := exists_mapM hparts
      refine ⟨parts.flatten, ?_⟩
      rw [subtree]
      · exact bind_eq_ok.2 ⟨parts, hparts, rfl⟩
      · simp

/--
To the removal of a live entity the rule answers, and the verdict stays as it was. It issues
removals of the children and disables what is below.
-/
theorem cascadeRemove_of_live [Scalar α] (ctx : RuleContext α) (hlinks : ctx.scene.LinksAgree)
    (hacyclic : ctx.scene.Acyclic) (ids : IdSource) (memory : μ) (header : Header) (role : Role)
    {id : EntityId} {e : Entity α} (he : ctx.scene.get? id = some e) (v : Verdict α) :
    ∃ issued below ids', cascadeRemove.process ctx ids memory (.single header (.remove role id)) v =
        { command := .single header (.remove role id), verdict := .ok v,
          staged := disabling ctx.working below, issued, ids := ids', memory } ∧
      List.Forall₂ Command.Removes (ctx.scene.listed id) issued ∧
        (∀ c ∈ issued, c.header.dying = false) ∧
      ∀ x, x ∈ below ↔ ctx.scene.get? x.1 = some x.2 ∧ ctx.scene.Below x.1 id := by
  have hlive : (if (Command.single header (Edit.remove (α := α) role id)).kind.isRemove then
      (Command.single header (Edit.remove (α := α) role id)).entityId.bind ctx.scene.get?
        else none) =
      some e := he
  -- links that agree name live children, so neither call of the rule can fail
  have hchildren : ∀ c ∈ e.children, ∃ q, ctx.scene.get? c = some q := fun c hc =>
    (hlinks.claimed he hc).imp fun _ h => h.1
  obtain ⟨issued, ids', hremovals, hdying⟩ := removals_of_live ids hchildren
  obtain ⟨below, hbelow⟩ :
      ∃ below, subtree ctx.scene (ctx.scene.entities.size + 1) e.children = .ok below :=
    exists_subtree hlinks hacyclic List.nodup_nil (by simp) (by simp) fun c hc =>
      ⟨hchildren c hc, by simp⟩
  refine ⟨issued, below, ids', ?_, ?_, hdying, fun x => mem_subtree hlinks he hbelow⟩
  · unfold cascadeRemove
    simp only [hlive, hremovals, hbelow]
  · rw [Scene.listed_of_get? he]
    exact forall₂_removals hremovals

end Rule

namespace Validator

variable [Scalar α] [NumberText α] {v : Validator α μ} {scene : Scene α} {p : Pass α μ}

/-- What an approved removal leaves: its trial, removals of the children,
and disabled surrogates. -/
theorem tried_remove (hv : v.Standard) (hscene : scene.LinkConsistent) {id : EntityId}
    {c : Command α} (hc : c.Removes id) {r : Verdict α}
    (hr : (v.judge scene (trial p c)).2 = .ok r) :
    ∃ staged, (v.tried scene p c).command = c ∧
      (v.tried scene p c).changes = Transaction.stageAll { working := p.session.working } staged ∧
      List.Forall₂ Command.Removes (scene.listed id) (v.tried scene p c).issued ∧
      ∀ s ∈ staged, ∃ x e, scene.get? x = some e ∧ scene.Below x id ∧
        s = ((p.session.working.get? x).getD (.ofEntity e)).disabled := by
  obtain ⟨header, role, rfl, hforced⟩ := hc
  have hjudge :=
    judge_standard hv scene (t := trial p (.single header (.remove role id))) rfl hforced
  have hrun : Checklist.run scene v.config [.dieCheck, .cascadeRemove]
      (trial p (.single header (.remove role id))) .approval =
      (v.tried scene p (.single header (.remove role id)), .ok r) := by
    refine Eq.trans hjudge.symm (Prod.ext rfl hr)
  -- the first of the two rules leaves the trial alone,
  -- and the second answers as it does to a removal
  obtain ⟨v₁, _, hrun⟩ := Checklist.run_cons_eq_ok.1 hrun
  have habsorb : ∀ t : Trial α μ, t.absorb ((Rule.dieCheck : Rule α μ).process
      ⟨scene, t.changes.working, v.config⟩ t.ids t.memory t.command .approval) = t :=
    fun t => Checklist.absorb_judging
  rw [habsorb] at hrun
  obtain ⟨v₂, hv₂, hrun⟩ := Checklist.run_cons_eq_ok.1 hrun
  generalize ha : (Rule.cascadeRemove : Rule α μ).process _ _ _ _ _ = a at hv₂ hrun
  obtain ⟨hcommand, hissued, hstaged⟩ := Rule.answer_cascadeRemove hscene ha hv₂
  have htried : v.tried scene p (.single header (.remove role id)) =
      (trial p (.single header (.remove role id))).absorb a := (Prod.ext_iff.1 hrun).1.symm
  rw [htried]
  exact ⟨a.staged, hcommand, rfl, hissued, hstaged⟩

/-- A live entity's removal is approved, and the removals of its children are issued. -/
theorem judge_remove (hv : v.Standard) (hlinks : scene.LinksAgree) (hacyclic : scene.Acyclic)
    (p : Pass α μ) {id : EntityId} {e : Entity α} (he : scene.get? id = some e) {c : Command α}
    (hc : c.Removes id) (hdying : c.header.dying = false) :
    (v.judge scene (trial p c)).2 = .ok .approval ∧ (v.tried scene p c).command = c ∧
      List.Forall₂ Command.Removes (scene.listed id) (v.tried scene p c).issued ∧
      ∀ d ∈ (v.tried scene p c).issued, d.header.dying = false := by
  obtain ⟨header, role, rfl, hforced⟩ := hc
  have hdying : header.dying = false := hdying
  obtain ⟨issued, below, ids', hanswer, hissued, halive, _⟩ := Rule.cascadeRemove_of_live
    ⟨scene, p.session.working, v.config⟩ hlinks hacyclic p.ids p.memory header role he .approval
  have hjudge : v.judge scene (trial p (.single header (.remove role id))) =
      ((trial p (.single header (.remove role id))).absorb
        { command := .single header (.remove role id), verdict := .ok .approval,
          staged := Rule.disabling p.session.working below, issued, ids := ids',
          memory := p.memory },
        .ok .approval) := by
    rw [judge_standard hv scene rfl hforced]
    show Checklist.run scene v.config [.dieCheck, .cascadeRemove] _ _ = _
    -- the first of the two rules has nothing to say about a command that is not dying
    rw [Checklist.run_idle ?die]
    case die => simp [Rule.dieCheck, Rule.judging, trial, Command.header, hdying]
    unfold Checklist.run trial
    rw [hanswer]
    rfl
  unfold tried
  rw [hjudge]
  exact ⟨rfl, rfl, hissued, halive⟩

end Validator

end SceneGuard
