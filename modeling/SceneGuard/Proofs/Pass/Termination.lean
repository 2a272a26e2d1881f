import Mathlib.Logic.Hydra
import SceneGuard.Proofs.Pass.Order
import SceneGuard.Proofs.Rule.Cascade

/-!
# Passes come to an end

Under rules of the library a turn adds to the commands that wait only removals of what the removed
entity lists as its children (`issues_of_followUps`). Where nobody is listed below themselves
(`Scene.ListedAcyclic`), whatever else is wrong with the lists, a removal can so be followed by
others only so often: what waits goes down as a hydra does whose heads grow back lower. Main
statements:

* `Rule.walk_subtree` — the walk over a stack of numbers ends, with what `Rule.subtree` answers;
* `run_of_listedAcyclic` — a pass runs out of commands that wait;
* `validate_of_listedAcyclic` — so every validation comes to a result.
-/

namespace SceneGuard

variable {α μ : Type}

/-! ## Lists of children without a cycle -/

namespace Scene

variable {s : Scene α}

/-- Nobody is listed below themselves. Who is listed may be missing, or be listed more than once. -/
def ListedAcyclic (s : Scene α) : Prop := ∀ id, ¬Relation.TransGen (fun c p => c ∈ s.listed p) id id

/-- Where nobody is listed below themselves, ways down the lists end. -/
theorem ListedAcyclic.wellFounded (h : s.ListedAcyclic) : WellFounded fun c p => c ∈ s.listed p :=
  Subrelation.wf (fun hlisted => .single hlisted) (wellFounded_of_acyclic h)

/-- Who is listed is listed by somebody live. -/
theorem exists_of_mem_listed {c p : EntityId} (h : c ∈ s.listed p) :
    ∃ e, s.get? p = some e ∧ c ∈ e.children := by
  cases hp : s.get? p with
  | none => simp [listed_of_get?_eq_none hp] at h
  | some e => exact ⟨e, rfl, listed_of_get? hp ▸ h⟩

/-- Where a rank rises to every child that is listed, there is no cycle. -/
theorem listedAcyclic_of_rank (rank : EntityId → Nat)
    (h : s.entities.entries.all (fun x => x.2.children.all fun c => rank x.1 < rank c) = true) :
    s.ListedAcyclic := by
  have hlisted : ∀ {c p}, c ∈ s.listed p → rank p < rank c := fun {c p} hc => by
    obtain ⟨e, he, hc⟩ := exists_of_mem_listed hc
    exact of_decide_eq_true
      (List.all_eq_true.1 (List.all_eq_true.1 h (p, e) (get?_iff_mem.1 he)) c hc)
  have hrank : ∀ {c p}, Relation.TransGen (fun c p => c ∈ s.listed p) c p → rank p < rank c := by
    intro c p hcp
    induction hcp with
    | single hc => exact hlisted hc
    | tail _ hc ih => exact Nat.lt_trans (hlisted hc) ih
  exact fun id hid => Nat.lt_irrefl _ (hrank hid)

end Scene

/-!
## The walk down

`Walk` is the loop over a stack, and `Rule.subtree` a recursion in depth. They meet the same
entities in the same order: what is below a number is dealt with before the rest of the stack.
-/

namespace Rule

variable {scene : Scene α}

/--
The walk over a stack of numbers ends with an answer: what the last number stands for is noted, and
its children are put on the stack in its place.
-/
inductive Walk (scene : Scene α) :
    List EntityId → Except (Fault α) (List (EntityId × Entity α)) → Prop where
  | done : Walk scene [] (.ok [])
  | missing (frontier : List EntityId) {id : EntityId} (h : scene.get? id = none) :
      Walk scene (frontier ++ [id]) (.error (.entityNotFound id))
  | found (frontier : List EntityId) {id : EntityId} {e : Entity α} (h : scene.get? id = some e)
      {answer : Except (Fault α) (List (EntityId × Entity α))}
      (hrest : Walk scene (frontier ++ e.children) answer) :
      Walk scene (frontier ++ [id]) (answer.map ((id, e) :: ·))

/-- The last of the numbers comes first, with what is below it. -/
theorem subtree_concat (scene : Scene α) (depth : Nat) (rest : List EntityId) (id : EntityId) :
    subtree scene (depth + 1) (rest ++ [id]) = do
      let e ← requireLive scene id
      let below ← subtree scene depth e.children
      let more ← subtree scene (depth + 1) rest
      return (id, e) :: (below ++ more) := by
  -- the empty list apart, the walk is a `mapM` over the reversed list
  have hparts : ∀ ids, subtree scene (depth + 1) ids = do
      let parts ← ids.reverse.mapM fun id => do
        let e ← requireLive scene id
        let below ← subtree scene depth e.children
        return (id, e) :: below
      return parts.flatten := by
    intro ids
    cases ids with
    | nil => rw [subtree]; rfl
    | cons => rw [subtree]; simp
  rw [hparts, hparts rest, List.reverse_concat, List.mapM_cons]
  simp

/-- The answer of a walk that goes on after another one. -/
def resume (walk rest : Except (Fault α) (List (EntityId × Entity α))) :
    Except (Fault α) (List (EntityId × Entity α)) := do
  let below ← walk
  rest.map (below ++ ·)

/-- An entity, what is below it, and more, before another walk: noted in this order. -/
theorem resume_cons (x y answer : Except (Fault α) (List (EntityId × Entity α)))
    (entry : EntityId × Entity α) :
    resume (do let below ← x; let more ← y; return entry :: (below ++ more)) answer =
      (resume x (resume y answer)).map (entry :: ·) := by
  cases x <;> cases y <;> cases answer <;>
    simp [resume, bind, Except.bind, pure, Except.pure, Except.map]

/--
The walk below some numbers, and then over what is left on the stack. All of `above` are different
entities that those numbers are below, and so there are not as many as the depth allows for.
-/
theorem walk_append (hscene : scene.ListedAcyclic) {depth : Nat} {above ids : List EntityId}
    (hnodup : above.Nodup) (habove : ∀ a ∈ above, ∃ e, scene.get? a = some e)
    (hdepth : scene.entities.size < above.length + depth)
    (hids : ∀ id ∈ ids, ∀ a ∈ above, Relation.TransGen (fun c p => c ∈ scene.listed p) id a)
    {frontier : List EntityId} {answer : Except (Fault α) (List (EntityId × Entity α))}
    (h : Walk scene frontier answer) :
    Walk scene (frontier ++ ids) (resume (subtree scene depth ids) answer) := by
  induction depth generalizing above ids frontier answer with
  | zero =>
    have hlength := Scene.length_le_size hnodup habove
    omega
  | succ depth ih =>
    induction ids using List.reverseRecOn with
    | nil =>
      have hanswer : resume (.ok []) answer = answer := by cases answer <;> rfl
      rw [subtree, List.append_nil, hanswer]
      exact h
    | append_singleton rest id ihrest =>
      rw [← List.append_assoc, subtree_concat]
      cases he : scene.get? id with
      | none =>
        rw [requireLive, he]
        exact .missing _ he
      | some e =>
        have hid := hids id (by simp)
        have hchild : ∀ c ∈ e.children, c ∈ scene.listed id := fun c hc => by
          rwa [Scene.listed_of_get? he]
        -- first what is below the entity, where the entity itself is above, and then the rest
        have hrest := ihrest fun x hx => hids x (List.mem_append_left _ hx)
        have hnodup' : (id :: above).Nodup :=
          List.nodup_cons.2 ⟨fun hmem => hscene id (hid id hmem), hnodup⟩
        have habove' : ∀ a ∈ id :: above, ∃ e, scene.get? a = some e :=
          List.forall_mem_cons.2 ⟨⟨e, he⟩, habove⟩
        have hdepth' : scene.entities.size < (id :: above).length + depth := by
          rw [List.length_cons]
          omega
        have hids' : ∀ c ∈ e.children, ∀ a ∈ id :: above,
            Relation.TransGen (fun c p => c ∈ scene.listed p) c a := fun c hc =>
          List.forall_mem_cons.2 ⟨.single (hchild c hc), fun a ha => .head (hchild c hc) (hid a ha)⟩
        have hbelow := ih hnodup' habove' hdepth' hids' hrest
        rw [requireLive_eq_ok.2 he]
        exact resume_cons _ _ answer (id, e) ▸ .found _ he hbelow

/-- In the depth that the cascade allows, the walk down ends,
and the cascade has what it answers. -/
theorem walk_subtree (hscene : scene.ListedAcyclic) (frontier : List EntityId) :
    Walk scene frontier (subtree scene (scene.entities.size + 1) frontier) := by
  have h :
      Walk scene ([] ++ frontier)
        (resume (subtree scene (scene.entities.size + 1) frontier) (.ok [])) :=
    walk_append hscene List.nodup_nil (by simp) (Nat.lt_add_left _ (Nat.lt_succ_self _))
      (by simp) .done
  have hanswer : ∀ x : Except (Fault α) (List (EntityId × Entity α)), resume x (.ok []) = x := by
    intro x
    cases x <;> simp [resume, bind, Except.bind, Except.map]
  rwa [hanswer] at h

end Rule

/-!
## What a turn adds to what waits

The removals that a turn adds are of children of what it removed. Where lists make no cycle this
goes down, and so does taking one command off the line for any number of such ones.
-/

/-- The entity that a command removes. -/
def Command.removes? (c : Command α) : Option EntityId :=
  if c.kind.isRemove then c.entityId else none

/-- The first command removes a child that the entity lists which the second removes. -/
def Scene.Issues (scene : Scene α) (d c : Command α) : Prop :=
  ∃ p q, c.removes? = some p ∧ d.removes? = some q ∧ q ∈ scene.listed p

theorem Scene.ListedAcyclic.wellFounded_issues {scene : Scene α} (hscene : scene.ListedAcyclic) :
    WellFounded scene.Issues := by
  have hremoval : ∀ p (c : Command α), c.removes? = some p → Acc scene.Issues c := by
    intro p
    induction p using hscene.wellFounded.induction with
    | _ p ih =>
      refine fun c hc => ⟨c, ?_⟩
      rintro d ⟨p', q, hp, hq, hlisted⟩
      obtain rfl := Option.some.inj (hc.symm.trans hp)
      exact ih q hlisted d hq
  refine ⟨fun c => ⟨c, ?_⟩⟩
  rintro d ⟨_, q, _, hq, _⟩
  exact hremoval q d hq

theorem Command.Removes.removes? {id : EntityId} {c : Command α} (h : c.Removes id) :
    c.removes? = some id := by
  obtain ⟨header, role, rfl, _⟩ := h
  rfl

theorem Command.Resited.removes? {c d : Command α} (h : Resited c d) : d.removes? = c.removes? := by
  rw [Command.removes?, h.kind, h.entityId, Command.removes?]

namespace Rule

/-- The cascade issues removals of those who are listed by the entity it is shown. -/
theorem issues_cascadeRemove [Scalar α] (ctx : RuleContext α) (ids : IdSource) (memory : μ)
    (c : Command α) (v : Verdict α) : (cascadeRemove.process ctx ids memory c v).command = c ∧
      ∀ d ∈ (cascadeRemove.process ctx ids memory c v).issued, ctx.scene.Issues d c := by
  have hlive : (if c.kind.isRemove then c.entityId.bind ctx.scene.get? else none) =
      c.removes?.bind ctx.scene.get? := by
    unfold Command.removes?
    split <;> rfl
  unfold cascadeRemove
  dsimp only
  rw [hlive]
  -- nothing is issued where the entity is unknown or one of the two walks fails
  split
  · exact ⟨rfl, by simp⟩
  · next e he =>
    obtain ⟨id, hid, he⟩ := Option.bind_eq_some_iff.1 he
    split
    · exact ⟨rfl, by simp⟩
    · next issued ids' hremovals =>
      have hissues : ∀ d ∈ issued, ctx.scene.Issues d c := fun d hd => by
        obtain ⟨child, hchild, hremoves⟩ := exists_of_mem_forall₂ (forall₂_removals hremovals) hd
        exact ⟨id, child, hid, hremoves.removes?, Scene.listed_of_get? he ▸ hchild⟩
      split
      · exact ⟨rfl, by simp⟩
      · exact ⟨rfl, hissues⟩

/-- Whatever it is shown, a rule of the library issues removals of children
of what is removed only. -/
theorem Builtin.issues [Scalar α] [NumberText α] {r : Rule α μ} (h : r.Builtin)
    (ctx : RuleContext α) (ids : IdSource) (memory : μ) (c : Command α) (v : Verdict α) :
    c.Resited (r.process ctx ids memory c v).command ∧
      ∀ d ∈ (r.process ctx ids memory c v).issued, ctx.scene.Issues d c := by
  rcases h.quiet_or_cascadeRemove with hquiet | rfl
  · have hquiet := hquiet ctx ids memory c v
    exact ⟨hquiet.resited, by simp [hquiet.issued]⟩
  · obtain ⟨hcommand, hissued⟩ := issues_cascadeRemove ctx ids memory c v
    exact ⟨hcommand.symm ▸ .same c, hissued⟩

end Rule

theorem Checklist.issues_run [Scalar α] [NumberText α] {scene : Scene α} {config : Config α}
    {rules : List (Rule α μ)} (hrules : ∀ r ∈ rules, r.Builtin) (t : Trial α μ) (v : Verdict α)
    {c : Command α} (hc : c.Resited t.command) (ht : ∀ d ∈ t.issued, scene.Issues d c) :
    ∀ d ∈ (run scene config rules t v).1.issued, scene.Issues d c := by
  induction rules generalizing t v with
  | nil => exact ht
  | cons r rules ih =>
    obtain ⟨hresited, hissues⟩ := (hrules r List.mem_cons_self).issues
      ⟨scene, t.changes.working, config⟩ t.ids t.memory t.command v
    unfold run
    generalize r.process ⟨scene, t.changes.working, config⟩ t.ids t.memory t.command v =
      a at hresited hissues
    -- the command may have been sent elsewhere, but it still removes what it did
    have habsorb : ∀ d ∈ (t.absorb a).issued, scene.Issues d c := by
      intro d hd
      rcases List.mem_append.1 hd with hd | hd
      · exact ht d hd
      · obtain ⟨p, q, hp, hq⟩ := hissues d hd
        exact ⟨p, q, hc.removes? ▸ hp, hq⟩
    simp only
    split
    · exact habsorb
    · exact ih (fun r hr => hrules r (List.mem_cons_of_mem _ hr)) _ _ (hc.trans hresited) habsorb

namespace Validator

variable [Scalar α] [NumberText α] {v : Validator α μ} {scene : Scene α} {edit : Command α}
  {p p' : Pass α μ}

theorem issues_of_followUps (hv : v.Builtin) (p : Pass α μ) (c : Command α) :
    ∀ d ∈ (v.turn scene p c).followUps, scene.Issues d c := by
  have hissued : ∀ d ∈ (v.tried scene p c).issued, scene.Issues d c := by
    unfold tried judge
    split
    · next l hl =>
      refine Checklist.issues_run (fun r hr => ?_) (trial p c) .approval (.same c) (by simp [trial])
      obtain ⟨b, hb, hr⟩ := mem_rules_of_checklistFor? hl hr
      exact hv b hb r hr
    · simp [trial]
  intro d hd
  unfold Dispatch.followUps at hd
  -- follow-ups are dropped by the last two ways a turn can end
  split at hd
  · exact hissued d hd
  · exact hissued d hd
  · exact hissued d hd
  · cases hd
  · cases hd

/-- A turn cuts a head off what waits, and lower ones take its place,
unless nothing is left at all. -/
theorem cutExpand_step? (hv : v.Builtin) (hissued : p.session.queues.issued = [])
    (hstep : v.step? scene edit p = some p') :
    p'.session.queues.pending = [] ∨
      Relation.CutExpand scene.Issues (p'.session.queues.pending : Multiset (Command α))
        (p.session.queues.pending : Multiset (Command α)) := by
  obtain ⟨c, rest, hpending, rfl⟩ := step?_eq_some.1 hstep
  by_cases hclear : (v.turn scene p c).action? = some .clearAll
  · exact .inl (Pass.pending_settle_clearAll (v.judged scene p c rest) edit hclear)
  · have hissued : (v.judged scene p c rest).session.queues.issued = (v.turn scene p c).issued := by
      show p.session.queues.issued ++ (v.tried scene p c).issued = (v.tried scene p c).issued
      rw [hissued, List.nil_append]
    have hwaiting :
        ((v.judged scene p c rest).settle edit (v.turn scene p c)).session.queues.pending =
        rest ++ (v.turn scene p c).followUps := Pass.pending_settle edit hissued hclear
    -- one command is taken from the line and replaced by what it issues
    refine .inr ⟨((v.turn scene p c).followUps : Multiset (Command α)), c,
      issues_of_followUps hv p c, ?_⟩
    rw [hwaiting, hpending, ← Multiset.coe_add, ← Multiset.cons_coe,
      ← Multiset.singleton_add, add_comm, ← add_assoc]

/-! ## Runs and validations -/

/-- A pass between two turns runs out of commands that wait, in a number of turns of its own. -/
theorem run_of_listedAcyclic (hv : v.Builtin) (hscene : scene.ListedAcyclic) (edit : Command α)
    (hissued : p.session.queues.issued = []) :
    ∃ q turns, q.history.length = p.history.length + turns ∧ q.session.queues.pending = [] ∧
      ∀ budget, v.run scene edit budget p = if turns ≤ budget then some q else none := by
  induction hheads : (p.session.queues.pending : Multiset (Command α)) using
    hscene.wellFounded_issues.cutExpand.induction generalizing p with
  | _ heads ih =>
    cases hstep : v.step? scene edit p with
    | none =>
      have hpending := step?_eq_none.1 hstep
      exact ⟨p, 0, rfl, hpending, fun budget => run_of_pending hpending⟩
    | some p' =>
      obtain ⟨c, rest, hpending, hp'⟩ := step?_eq_some.1 hstep
      have hissued' : p'.session.queues.issued = [] := by rw [hp', Pass.issued_settle]
      have hhistory : p'.history.length = p.history.length + 1 := by
        rw [hp', Pass.history_settle, List.length_append]
        rfl
      -- the rest of the run, of which this turn is the first
      obtain ⟨q, turns, hlength, hdone, hrun⟩ :
          ∃ q turns, q.history.length = p'.history.length + turns ∧
          q.session.queues.pending = [] ∧
          ∀ budget, v.run scene edit budget p' = if turns ≤ budget then some q else none := by
        rcases cutExpand_step? hv hissued hstep with hdone | hcut
        · exact ⟨p', 0, rfl, hdone, fun budget => run_of_pending hdone⟩
        · exact ih _ (hheads ▸ hcut) hissued' rfl
      refine ⟨q, turns + 1, by rw [hlength, hhistory, Nat.add_right_comm, Nat.add_assoc], hdone, ?_⟩
      intro budget
      cases budget with
      | zero => rw [run, hpending]; rfl
      | succ budget => rw [run_of_step? budget hstep, hrun]; simp only [Nat.add_le_add_iff_right]

/--
**A pass with rules of the library ends.** In a scene where nobody is listed below themselves,
though who is listed may be missing, listed twice or shared, every validation comes to a result, in
as many turns as its history tells and with nothing waiting any more; and so does the walk down of
each removal, with the answer that the cascade goes by.
-/
theorem validate_of_listedAcyclic (hv : v.Builtin) (hscene : scene.ListedAcyclic) :
    (∀ (session : Session α) (ids : IdSource) (memory : μ) (edit : Command α),
      ∃ result : Validation α μ, (∀ budget, v.validate budget scene session ids memory edit =
        if result.history.length ≤ budget then some result else none) ∧
      (v.checks edit = true → result.session.queues.pending = [])) ∧
    ∀ frontier,
      Rule.Walk scene frontier (Rule.subtree scene (scene.entities.size + 1) frontier) := by
  refine ⟨fun session ids memory edit => ?_, Rule.walk_subtree hscene⟩
  cases hchecks : v.checks edit with
  | false =>
    refine ⟨{ outcome := .unchecked edit, session, ids, memory }, fun budget => ?_, by simp⟩
    rw [validate, hchecks]
    rfl
  | true =>
    -- the run takes a number of turns of its own, and any budget from there on gives it
    obtain ⟨q, turns, hlength, hdone, hrun⟩ :=
      run_of_listedAcyclic (p := v.start session ids memory edit)
      hv hscene edit (by rw [queues_start])
    have hturns : q.history.length = turns := hlength.trans (Nat.zero_add turns)
    obtain ⟨result, hresult, hhistory, hqueues⟩ : ∃ result,
        v.validate turns scene session ids memory edit = some result ∧ result.history = q.history ∧
          result.session.queues = q.session.queues := by
      unfold validate
      rw [hchecks, hrun, if_pos (Nat.le_refl _)]
      exact ⟨_, rfl, rfl, rfl⟩
    refine ⟨result, fun budget => ?_, fun _ => by rw [hqueues, hdone]⟩
    rw [hhistory, hturns, ← hresult]
    unfold validate
    rw [hchecks, hrun, hrun, if_pos (Nat.le_refl _)]
    by_cases hbudget : turns ≤ budget
    · rw [if_pos hbudget, if_pos hbudget]
    · rw [if_neg hbudget, if_neg hbudget]
      rfl

/-- Removals cascade, and those of vertices even when they are superseded. -/
def cascading : Validator Float Unit where
  routing := { bindings := [.ofKinds [.remove .entity] none ⟨[.dieCheck, .cascadeRemove]⟩,
    .ofKinds [.remove .vertex] none ⟨[.cascadeRemove]⟩] }
  config :=
    { Config.standard with
      bindings := [⟨["remove_entity"], none, ["die_check", "cascade_remove"]⟩,
        ⟨["remove_vertex"], none, ["cascade_remove"]⟩] }

/-- An arch of two posts that share a plinth, and a crate that lists a lid which is gone. -/
def arch : Scene Float where
  entities := .ofList
    [(1, { Entity.new 1 .model (.splat 1) with children := [2, 3] }),
      (2, { Entity.new 2 .model (.splat 1) with children := [4] }),
      (3, { Entity.new 3 .vertex (.splat 1) with children := [4] }),
      (4, Entity.new 4 .model (.splat 1)),
      (5, { Entity.new 5 .model (.splat 1) with children := [6, 6] })]

/-- The plinth is listed twice and the lid is gone, and both removals come to an end. -/
theorem validate_of_listedAcyclic_arch :
    (∃ result : Validation Float Unit,
      (∀ budget, cascading.validate budget arch .fresh {} ()
        (.single { id := 1 } (.remove .entity 1)) =
        if 5 ≤ budget then some result else none) ∧
      result.history.map (fun d => d.given.entityId) = [some 1, some 2, some 3, some 4, some 4] ∧
      result.session.queues.pending = []) ∧
    Rule.Walk arch [2, 5] (.error (.entityNotFound 6)) := by
  have hbuiltin : cascading.Builtin := builtin_of_routing (by rfl)
  have hscene : arch.ListedAcyclic := Scene.listedAcyclic_of_rank UInt64.toNat (by decide)
  obtain ⟨hvalidate, hwalk⟩ := validate_of_listedAcyclic hbuiltin hscene
  refine ⟨?_, hwalk [2, 5]⟩
  obtain ⟨result, hresult, hdone⟩ :=
    hvalidate .fresh {} () (.single { id := 1 } (.remove .entity 1))
  -- the plinth has a turn for each of the posts
  have hrun :
      ((cascading.validate 5 arch .fresh {} () (.single { id := 1 } (.remove .entity 1))).any
      fun r => r.history.map (fun d => d.given.entityId) == [some 1, some 2, some 3,
        some 4, some 4]) =
      true := by decide +kernel
  rw [hresult] at hrun
  split at hrun
  · have hturns := beq_iff_eq.1 hrun
    have hlength : result.history.length = 5 := by simpa using congrArg List.length hturns
    exact ⟨result, hlength ▸ hresult, hturns, hdone rfl⟩
  · cases hrun

end Validator

end SceneGuard
