import SceneGuard.Proofs.Speculation.Cycles

/-!
# Where walks end

Parent links may lead to nowhere, and they may lead in circles. Whatever they do, each entity has
one way up, and the way ends in one of three manners (`View.WayUp`): at a root, at a number that
nobody knows, or on a cycle. Main statements:

* `WayUp.unique` — the manners exclude each other;
* `ancestors_eq_iff` — the walk up answers as the way up ends;
* `walks_are_dual` — the walk up and the walk down end, and each tells what the parent links are.
-/

namespace SceneGuard

open Relation

namespace View

variable {α : Type} [Scalar α] {v : View α} {id : EntityId}

/-!
## Ways up

Nobody has two parents, so there is one way up from each number. It goes on for good only on a
cycle; otherwise it ends at a root or at a number that nobody knows.
-/

theorem rightUnique_parentLink (v : View α) : Relator.RightUnique v.ParentLink := by
  rintro c p p' ⟨s, hs, hp⟩ ⟨s', hs', hp'⟩
  rw [hs] at hs'
  cases hs'
  exact Option.some.inj (hp.symm.trans hp')

/-- Whoever is above an entity that is on a cycle is on it, too. -/
theorem onCycle_of_reach {c d : EntityId} (hcycle : TransGen v.ParentLink c c)
    (hway : ReflTransGen v.ParentLink c d) : TransGen v.ParentLink d d := by
  induction hway with
  | refl => exact hcycle
  | @tail a b _ hab ih =>
    -- the one way up from `a` begins with the link to `b`, so it comes back to `a` from there
    obtain ⟨b', hab', hback⟩ := TransGen.head'_iff.1 ih
    obtain rfl := v.rightUnique_parentLink hab hab'
    exact TransGen.tail' hback hab

/-- How the way up from an entity ends, and what there is to answer. -/
inductive WayUp (v : View α) (id : EntityId) : Except (Fault α) (List EntityId) → Prop where
  /-- At a root: the line of parents. -/
  | root {chain : List EntityId} (hline : v.Lineage (some id) (id :: chain)) :
      WayUp v id (.ok chain)
  /-- Past everything that is known: the first number that is not. -/
  | missing {m : EntityId} (hway : TransGen v.ParentLink id m) (hm : m ∉ v.knownIds) :
      WayUp v id (.error (.entityNotFound m))
  /-- On a cycle, which need not lead through the entity. -/
  | cycle {c : EntityId} (hway : ReflTransGen v.ParentLink id c)
      (hcycle : TransGen v.ParentLink c c) :
      WayUp v id (.error (.cyclicHierarchy id))

variable (huses : v.useSurrogates = true)
include huses

/-- From what is not known no link leads on. -/
theorem not_link_of_unknown {m p : EntityId} (hm : m ∉ v.knownIds) : ¬v.ParentLink m p :=
  fun ⟨s, hs, _⟩ => hm ((mem_knownIds huses).2 ⟨s, hs⟩)

namespace WayUp

/-- All above an entity with a line to the top is known. -/
theorem known_of_line {chain : List EntityId} (hline : v.Lineage (some id) (id :: chain))
    {m : EntityId} (hway : TransGen v.ParentLink id m) : m ∈ v.knownIds :=
  (mem_knownIds huses).2 (hline.exists_state (hline.mem_iff.2 hway.to_reflTransGen))

omit huses in
theorem not_cycle_of_line {chain : List EntityId} (hline : v.Lineage (some id) (id :: chain))
    {c : EntityId} (hway : ReflTransGen v.ParentLink id c) : ¬TransGen v.ParentLink c c := by
  obtain ⟨rest, hrest, _⟩ := hline.drop (hline.mem_iff.2 hway)
  exact hrest.not_below

/-- From an unknown number no way goes on. -/
theorem eq_of_reach {m d : EntityId} (hm : m ∉ v.knownIds) (hway : ReflTransGen v.ParentLink m d) :
    m = d := by
  rcases hway.cases_head with heq | ⟨p, hl, _⟩
  · exact heq
  · exact absurd hl (not_link_of_unknown huses hm)

theorem not_cycle_of_missing {m c : EntityId} (hmissing : ReflTransGen v.ParentLink id m)
    (hm : m ∉ v.knownIds) (hway : ReflTransGen v.ParentLink id c) : ¬TransGen v.ParentLink c c := by
  intro hcycle
  -- one of the two lies on the way to the other, so the unknown number would be on the cycle
  have hmcycle : TransGen v.ParentLink m m := by
    rcases ReflTransGen.total_of_right_unique v.rightUnique_parentLink hmissing hway with hmc | hcm
    · exact eq_of_reach huses hm hmc ▸ hcycle
    · exact onCycle_of_reach hcycle hcm
  obtain ⟨p, hl, _⟩ := TransGen.head'_iff.1 hmcycle
  exact not_link_of_unknown huses hm hl

/-- There is one entity at most that is missing on the way up. -/
theorem missing_unique {m m' : EntityId} (hway : ReflTransGen v.ParentLink id m)
    (hm : m ∉ v.knownIds) (hway' : ReflTransGen v.ParentLink id m') (hm' : m' ∉ v.knownIds) :
    m = m' := by
  rcases ReflTransGen.total_of_right_unique v.rightUnique_parentLink hway hway' with h | h
  · exact eq_of_reach huses hm h
  · exact (eq_of_reach huses hm' h).symm

/-- The way up from an entity ends in one manner. -/
theorem unique {r r' : Except (Fault α) (List EntityId)} (h : v.WayUp id r) (h' : v.WayUp id r') :
    r = r' := by
  -- nine pairs of outcomes; two of one kind agree and two of different kinds cannot both be
  cases h with
  | root hline =>
    cases h' with
    | root hline' => rw [(List.cons.inj (hline.unique hline')).2]
    | missing hway' hm' => exact absurd (known_of_line huses hline hway') hm'
    | cycle hway' hcycle' => exact absurd hcycle' (not_cycle_of_line hline hway')
  | missing hway hm =>
    cases h' with
    | root hline' => exact absurd (known_of_line huses hline' hway) hm
    | missing hway' hm' =>
      rw [missing_unique huses hway.to_reflTransGen hm hway'.to_reflTransGen hm']
    | cycle hway' hcycle' =>
      exact absurd hcycle' (not_cycle_of_missing huses hway.to_reflTransGen hm hway')
  | cycle hway hcycle =>
    cases h' with
    | root hline' => exact absurd hcycle (not_cycle_of_line hline' hway)
    | missing hway' hm' =>
      exact absurd hcycle (not_cycle_of_missing huses hway'.to_reflTransGen hm' hway)
    | cycle => rfl

end WayUp

/-!
## What the walk up answers

The walk is compared with the way that it follows. Each end that the way can have makes the walk
answer in a manner of its own.
-/

/-- A walk up that breaks off has come past what is known, or onto a cycle. -/
theorem Climbs.wayUp {chain : List EntityId} {cur : Option EntityId}
    {r : Except (Fault α) (List EntityId)} {f : Fault α} (h : v.Climbs id chain cur r)
    (hr : r = .error f)
    (hpassed : ∀ c, cur = some c → ∀ y ∈ id :: chain, TransGen v.ParentLink y c) :
    v.WayUp id (.error f) := by
  induction h with
  | root => cases hr
  | @again chain c hmet =>
    obtain rfl := Except.error.inj hr
    have hcycle : TransGen v.ParentLink c c := hpassed c rfl c (List.mem_cons.2 hmet)
    exact .cycle (hpassed c rfl id List.mem_cons_self).to_reflTransGen hcycle
  | @missing chain c _ _ hs =>
    obtain rfl := Except.error.inj hr
    obtain rfl := state_eq_error hs
    refine .missing (hpassed c rfl id List.mem_cons_self) fun hc => ?_
    obtain ⟨s, hs'⟩ := (mem_knownIds huses).1 hc
    rw [hs] at hs'
    cases hs'
  | @up chain c s _ _ hs _ ih =>
    refine ih hr fun p hp y hy => ?_
    have hlink : v.ParentLink c p := ⟨s, hs, hp⟩
    -- whoever was passed before is below `c`, and so below its parent
    rcases List.mem_cons.1 hy with rfl | hy
    · exact (hpassed c rfl y List.mem_cons_self).tail hlink
    · rcases List.mem_append.1 hy with hy | hy
      · exact (hpassed c rfl y (List.mem_cons_of_mem _ hy)).tail hlink
      · exact List.mem_singleton.1 hy ▸ .single hlink

/-- What the walk up answers is how the way up ends. -/
theorem wayUp_ancestors {s : Surrogate α} (hs : v.state id = .ok s) :
    v.WayUp id (v.ancestors id) := by
  cases hwalk : v.ancestors id with
  | ok chain =>
    obtain ⟨s', hs', hline, _⟩ := ancestors_eq_ok.1 hwalk
    exact .root (.link hs' hline)
  | error f =>
    refine (climbs_ancestors hs).wayUp huses hwalk fun c hc y hy => ?_
    obtain rfl := List.mem_singleton.1 hy
    exact .single ⟨s, hs, hc⟩

theorem ancestors_eq_iff {s : Surrogate α} (hs : v.state id = .ok s)
    {r : Except (Fault α) (List EntityId)} : v.ancestors id = r ↔ v.WayUp id r := by
  have hwalk := wayUp_ancestors huses hs
  exact ⟨fun h => h ▸ hwalk, fun h => hwalk.unique huses h⟩

/-! ## Both walks -/

/-- The walk down complains of a cycle when the entity is below itself, and only then. -/
theorem descendants_eq_error :
    v.descendants id = .error (.cyclicHierarchy id) ↔ TransGen v.ParentLink id id := by
  rw [← knownLink_eq huses]
  constructor
  · intro h
    by_contra hcycle
    obtain ⟨below, hbelow, _⟩ := exists_descendants hcycle
    rw [h] at hbelow
    cases hbelow
  · exact descendants_of_cycle

/-- Off the cycles, the walk down returns everyone whose way up leads to the entity. -/
theorem descendants_eq_ok (hcycle : ¬TransGen v.ParentLink id id) :
    ∃ below, v.descendants id = .ok below ∧ below.Nodup ∧
      ∀ x, x ∈ below ↔ x ∈ v.knownIds ∧ TransGen v.ParentLink x id := by
  rw [← knownLink_eq huses] at hcycle ⊢
  obtain ⟨below, hbelow, hnodup, hknown⟩ := exists_descendants hcycle
  refine ⟨below, hbelow, hnodup,
    fun x => ⟨fun hx => ?_, fun hx => (mem_descendants_iff hbelow).2 hx.2⟩⟩
  exact ⟨hknown hx, (mem_descendants_iff hbelow).1 hx⟩

/--
Both walks end by themselves. The walk up answers as the one way up from the entity ends. The walk
down fails exactly for an entity on a cycle, and otherwise returns, once each, those whose way up
leads to the entity; among them is whoever has the entity in the answer to a walk up.
-/
theorem walks_are_dual (hknown : id ∈ v.knownIds) :
    (∃ s, v.state id = .ok s ∧ v.Climbs id [] s.parent (v.ancestors id)) ∧
    (∀ r, v.ancestors id = r ↔ v.WayUp id r) ∧
    (∃ links, v.links = .ok links ∧ Collects id links [] [id] (v.descendants id)) ∧
    (v.descendants id = .error (.cyclicHierarchy id) ↔ TransGen v.ParentLink id id) ∧
    (¬TransGen v.ParentLink id id → ∃ below, v.descendants id = .ok below ∧ below.Nodup ∧
      (∀ x, x ∈ below ↔ x ∈ v.knownIds ∧ TransGen v.ParentLink x id) ∧
      ∀ x chain, v.ancestors x = .ok chain → (x ∈ below ↔ id ∈ chain)) := by
  obtain ⟨s, hs⟩ := (mem_knownIds huses).1 hknown
  obtain ⟨links, hlinks⟩ := v.exists_links
  refine ⟨⟨s, hs, climbs_ancestors hs⟩, fun r => ancestors_eq_iff huses hs,
    ⟨links, hlinks, collects_descendants hlinks id⟩, descendants_eq_error huses, fun hcycle => ?_⟩
  obtain ⟨below, hbelow, hnodup, hmem⟩ := descendants_eq_ok huses hcycle
  refine ⟨below, hbelow, hnodup, hmem, fun x chain hchain => ?_⟩
  -- from below as from above, one of the two is reached from the other
  calc x ∈ below ↔ TransGen v.KnownLink x id := mem_descendants_iff hbelow
    _ ↔ TransGen v.ParentLink x id := by rw [knownLink_eq huses]
    _ ↔ id ∈ chain := (mem_ancestors hchain).symm

end View

/-- A lamp on a shelf, a shelf on a wall, and a drawer in a chest that nobody has. -/
def furnished : Scene Float :=
  { entities := .ofList [(1, { Entity.new 1 .model (.splat 1) with parent := some 2 }),
      (2, { Entity.new 2 .model (.splat 1) with parent := some 3 }),
      (3, Entity.new 3 .model (.splat 1)),
      (5, { Entity.new 5 .model (.splat 1) with parent := some 9 })] }

/-- The wall has come to hang on a hook, and the hook is tried on the wall. -/
def tangled : View Float where
  scene := furnished
  working := (WorkingSet.bare 0).add
    { Surrogate.ofEntity (Entity.new 3 .model (.splat 1)) with parent := some 4 }
  candidate := some { Surrogate.ofEntity (Entity.new 4 .model (.splat 1)) with parent := some 3 }

/--
From the shelf the way up comes to a cycle that the shelf is not on, so the way down has a result.
From the drawer it comes past what is known.
-/
theorem View.walks_are_dual_tangled :
    tangled.useSurrogates = true ∧ 2 ∈ tangled.knownIds ∧
    tangled.ancestors 2 = .error (.cyclicHierarchy 2) ∧
      tangled.WayUp 2 (.error (.cyclicHierarchy 2)) ∧
    ¬TransGen tangled.ParentLink 2 2 ∧ tangled.descendants 2 = .ok [1] ∧
    (∀ x, x ∈ [1] ↔ x ∈ tangled.knownIds ∧ TransGen tangled.ParentLink x 2) ∧
    5 ∈ tangled.knownIds ∧ tangled.WayUp 5 (.error (.entityNotFound 9)) := by
  have habove : tangled.ancestors 2 = .error (.cyclicHierarchy 2) := by decide
  have hbelow : tangled.descendants 2 = .ok [1] := by decide
  have hshelf : 2 ∈ tangled.knownIds := by decide
  have hdrawer : 5 ∈ tangled.knownIds := by decide
  -- 2 hangs under a cycle without being on it, 5 under an id that nobody knows
  obtain ⟨_, hup, _, hcycle, hdown⟩ := View.walks_are_dual rfl hshelf
  have hstraight : ¬TransGen tangled.ParentLink 2 2 := by
    rw [← hcycle, hbelow]
    exact fun h => nomatch h
  obtain ⟨below, hbelow', _, hmem, _⟩ := hdown hstraight
  rw [hbelow] at hbelow'
  cases hbelow'
  obtain ⟨_, hout, _⟩ := View.walks_are_dual rfl hdrawer
  exact ⟨rfl, hshelf, habove, (hup _).1 habove, hstraight, hbelow, hmem, hdrawer,
    (hout _).1 (by decide)⟩

end SceneGuard
