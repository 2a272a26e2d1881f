import Mathlib.Data.List.Sort
import Mathlib.Logic.Relation
import SceneGuard.Proofs.Results
import SceneGuard.Speculation.Collision

/-!
# Walks through a view

The walks up (`View.ancestors`) and down (`View.descendants`) carry a bound that ends them on every
parent graph. Here the bound is shown to be out of reach: a walk is one of the walks that have no
bound, and end by themselves (`View.Climbs`, `View.Collects`). What follows is proved along these,
and ties the walks to the parent links of the view:

* `climbs_ancestors`, `collects_descendants` — the walks end before they come to their bounds;
* `ancestors_eq_ok` — what a walk up returns is the line of parents to a root (`View.Lineage`);
* `mem_descendants_iff` — what a walk down returns is everything from which known links lead back.
-/

namespace SceneGuard

namespace View

variable {α : Type} {v w : View α}

/-!
## Known numbers

Known numbers are listed in ascending order and each of them once. There are fewer of them than the
bounds of the walks allow steps, which keeps those bounds out of the way below.
-/

/-- An inserted number joins those that are there. -/
theorem mem_insertId {i x : EntityId} {l : List EntityId} : x ∈ insertId i l ↔ x = i ∨ x ∈ l := by
  induction l with
  | nil => simp [insertId]
  | cons j rest ih =>
    unfold insertId
    split
    · simp
    · split
      · next h => subst h; simp
      · simp only [List.mem_cons, ih]; tauto

/-- It goes to its place in ascending order. -/
theorem pairwise_insertId (i : EntityId) {l : List EntityId} (h : l.Pairwise (· < ·)) :
    (insertId i l).Pairwise (· < ·) := by
  induction l with
  | nil => simp [insertId]
  | cons j rest ih =>
    have ⟨hj, hrest⟩ := List.pairwise_cons.1 h
    unfold insertId
    split
    · next hij =>
      refine List.pairwise_cons.2 ⟨fun x hx => ?_, h⟩
      rcases List.mem_cons.1 hx with rfl | hx
      · exact hij
      · exact UInt64.lt_trans hij (hj x hx)
    · split
      · exact h
      · next hij hne =>
        refine List.pairwise_cons.2 ⟨fun x hx => ?_, ih hrest⟩
        -- the id itself comes after `j`, being neither before it nor equal
        rcases mem_insertId.1 hx with rfl | hx
        · exact ((LinearKey.connex x j).resolve_left hij).resolve_left hne
        · exact hj x hx

theorem length_insertId (i : EntityId) (l : List EntityId) :
    (insertId i l).length ≤ l.length + 1 := by
  induction l with
  | nil => simp [insertId]
  | cons j rest ih =>
    unfold insertId
    split
    · simp
    · split
      · simp
      · simpa using ih

theorem mem_foldr_insertId {x : EntityId} {is l : List EntityId} :
    x ∈ is.foldr insertId l ↔ x ∈ is ∨ x ∈ l := by
  induction is with
  | nil => simp
  | cons i is ih => simp [mem_insertId, ih, or_assoc]

theorem pairwise_foldr_insertId (is : List EntityId) {l : List EntityId} (h : l.Pairwise (· < ·)) :
    (is.foldr insertId l).Pairwise (· < ·) := by
  induction is with
  | nil => exact h
  | cons i is ih => exact pairwise_insertId i ih

theorem length_foldr_insertId (is l : List EntityId) :
    (is.foldr insertId l).length ≤ is.length + l.length := by
  induction is with
  | nil => simp
  | cons i is ih =>
    have := length_insertId i (is.foldr insertId l)
    simp only [List.foldr_cons, List.length_cons]
    omega

theorem pairwise_ids (s : Scene α) : s.ids.Pairwise (· < ·) :=
  List.pairwise_map.2 s.entities.ascending

/-- Known entities are listed in ascending order. -/
theorem pairwise_knownIds (v : View α) : v.knownIds.Pairwise (· < ·) :=
  pairwise_foldr_insertId _ (pairwise_ids v.scene)

theorem nodup_knownIds (v : View α) : v.knownIds.Nodup := by
  refine v.pairwise_knownIds.imp fun {a b} h heq => ?_
  subst heq
  exact UInt64.lt_irrefl _ h

/-- A query knows the live entities, the candidate and, where it uses them, the surrogates. -/
def Knows (v : View α) (x : EntityId) : Prop :=
  (∃ e, v.scene.get? x = some e) ∨ (v.useSurrogates = true ∧ ∃ s, v.working.get? x = some s) ∨
    ∃ c, v.candidate = some c ∧ c.id = x

/-- Known is what the scene or the working set has. -/
theorem mem_knownIds_iff {x : EntityId} : x ∈ v.knownIds ↔ v.Knows x := by
  have hcandidate : x ∈ v.candidate.toList.map (·.id) ↔ ∃ c, v.candidate = some c ∧ c.id = x := by
    cases v.candidate <;> simp [eq_comm]
  have hsurrogates : x ∈ (if v.useSurrogates then v.working.surrogates.keys else []) ↔
      v.useSurrogates = true ∧ ∃ s, v.working.get? x = some s := by
    cases v.useSurrogates <;> simp [Table.mem_keys_iff, Table.contains, WorkingSet.get?,
      Option.isSome_iff_exists]
  have hscene : x ∈ v.scene.ids ↔ ∃ e, v.scene.get? x = some e := by
    simp [Scene.ids, Table.mem_keys_iff, Table.contains, Scene.get?, Option.isSome_iff_exists]
  unfold knownIds Knows
  rw [mem_foldr_insertId, List.mem_append, hcandidate, hsurrogates, hscene]
  exact Or.comm

/-- There are fewer of them than a walk may take steps. -/
theorem length_knownIds (v : View α) : v.knownIds.length < v.walkBound := by
  have hc : (v.candidate.toList.map (·.id)).length ≤ 1 := by cases v.candidate <;> simp
  have hs : (if v.useSurrogates then v.working.surrogates.keys else []).length ≤
      v.working.surrogates.size := by
    split <;> simp [Table.keys, Table.size]
  -- an id is inserted at most once, from the scene, the session or the command
  have hlen := length_foldr_insertId ((if v.useSurrogates then v.working.surrogates.keys else []) ++
    v.candidate.toList.map (·.id)) v.scene.ids
  rw [List.length_append] at hlen
  have hids : v.scene.ids.length = v.scene.entities.size := by
    simp [Scene.ids, Table.keys, Table.size]
  unfold walkBound
  change (List.foldr insertId _ _).length < _
  omega

section Seeing

variable [Scalar α]

/-!
## What is seen

What stands at a number is looked for with the candidate first, and then among surrogates and live
entities. The fault about a number at which there is nothing names that number.
-/

/-- Something is settled about what is live, and about what has a surrogate. -/
theorem exists_settled {x : EntityId} : (∃ s, v.settled x = .ok s) ↔
    (∃ e, v.scene.get? x = some e) ∨ ∃ s, v.working.get? x = some s := by
  unfold settled
  cases v.working.get? x <;> cases v.scene.get? x <;> cases v.useSurrogates <;> simp

/-- About anything else the fault names the entity. -/
theorem settled_eq_error {x : EntityId} {f : Fault α} (h : v.settled x = .error f) :
    f = .entityNotFound x := by
  unfold settled at h
  dsimp only at h
  split at h
  · cases h
  · exact (Except.error.inj h).symm

/-- Whatever is not seen is nowhere. -/
theorem state_eq_error {x : EntityId} {f : Fault α} (h : v.state x = .error f) :
    f = .entityNotFound x := by
  unfold state at h
  split at h
  · split at h
    · cases h
    · exact settled_eq_error h
  · exact settled_eq_error h

/-- Whoever is known is seen. -/
theorem Knows.exists_state {x : EntityId} (h : v.Knows x) : ∃ s, v.state x = .ok s := by
  have hsettled : (∃ c, v.candidate = some c ∧ c.id = x) ∨ ∃ s, v.settled x = .ok s := by
    rcases h with hlive | ⟨_, hsurrogate⟩ | hcandidate
    · exact .inr (exists_settled.2 (.inl hlive))
    · exact .inr (exists_settled.2 (.inr hsurrogate))
    · exact .inl hcandidate
  -- the entity of the command goes before what is settled
  unfold state
  rcases hsettled with ⟨c, hc, hid⟩ | hsettled
  · exact ⟨c, by rw [hc]; exact if_pos hid⟩
  · cases v.candidate with
    | none => exact hsettled
    | some c =>
      by_cases hid : c.id = x
      · exact ⟨c, if_pos hid⟩
      · simpa only [hid, if_false] using hsettled

theorem knows_of_state (h : v.useSurrogates = true) {x : EntityId} {s : Surrogate α}
    (hs : v.state x = .ok s) : v.Knows x := by
  have hsettled : (∃ s, v.settled x = .ok s) → v.Knows x := fun hsettled =>
    (exists_settled.1 hsettled).imp_right fun hsurrogate => .inl ⟨h, hsurrogate⟩
  unfold state at hs
  cases hc : v.candidate with
  | none => rw [hc] at hs; exact hsettled ⟨s, hs⟩
  | some c =>
    rw [hc] at hs
    by_cases hid : c.id = x
    · exact .inr (.inr ⟨c, hc, hid⟩)
    · simp only [hid, if_false] at hs
      exact hsettled ⟨s, hs⟩

/-- Where surrogates are used, the known numbers are those at which the view sees something. -/
theorem mem_knownIds (h : v.useSurrogates = true) {x : EntityId} :
    x ∈ v.knownIds ↔ ∃ s, v.state x = .ok s :=
  mem_knownIds_iff.trans ⟨Knows.exists_state, fun ⟨_, hs⟩ => knows_of_state h hs⟩

/-- Every number at which a view sees something is on a list shorter than the bound of its walks. -/
theorem exists_reservoir (v : View α) :
    ∃ L : List EntityId, (∀ c s, v.state c = .ok s → c ∈ L) ∧ L.length < v.walkBound := by
  refine ⟨v.working.surrogates.keys ++ v.candidate.toList.map (·.id) ++ v.scene.ids, ?_, ?_⟩
  · intro c s hs
    have hsettled : ∀ s, v.settled c = .ok s → c ∈ v.working.surrogates.keys ∨ c ∈ v.scene.ids := by
      rw [Scene.ids, Table.mem_keys_iff, Table.mem_keys_iff]
      unfold settled Table.contains WorkingSet.get? Scene.get?
      cases v.working.surrogates.get? c <;> cases v.scene.entities.get? c <;>
        cases v.useSurrogates <;> simp
    simp only [List.mem_append, List.mem_map]
    unfold state at hs
    -- a candidate is on the list by its own entry, everything else as before it was tried
    cases hc : v.candidate with
    | none => rw [hc] at hs; exact (hsettled s hs).imp .inl id
    | some d =>
      rw [hc] at hs
      by_cases hd : d.id = c
      · exact .inl (.inr ⟨d, by simp, hd⟩)
      · simp only [hd, if_false] at hs
        exact (hsettled s hs).imp .inl id
  · have hc : (v.candidate.toList.map (·.id)).length ≤ 1 := by cases v.candidate <;> simp
    simp only [List.length_append, walkBound, Table.keys, Table.size, Scene.ids,
      List.length_map] at hc ⊢
    omega

/-!
## Walking up

`Climbs` is the walk without its bound, with a constructor for a step and one for each way in which
it can end. A walk passes no entity twice, and so a bound beyond the number of entities is never
used up.
-/

/-- The view sees an entity at `c`, and `p` is its parent. -/
def ParentLink (v : View α) (c p : EntityId) : Prop := ∃ s, v.state c = .ok s ∧ s.parent = some p

/-- The line of parents from a number on, up to a root. -/
inductive Lineage (v : View α) : Option EntityId → List EntityId → Prop where
  | root : Lineage v none []
  | link {c : EntityId} {s : Surrogate α} {rest : List EntityId} (hs : v.state c = .ok s)
      (hrest : Lineage v s.parent rest) : Lineage v (some c) (c :: rest)

theorem Lineage.unique {cur : Option EntityId} {l l' : List EntityId} (h : v.Lineage cur l)
    (h' : v.Lineage cur l') : l = l' := by
  induction h generalizing l' with
  | root => cases h'; rfl
  | link hs _ ih =>
    cases h' with
    | link hs' hrest' =>
      rw [hs] at hs'
      cases hs'
      rw [ih hrest']

/-- From each entity on a line there is a line that is no longer. -/
theorem Lineage.drop {cur : Option EntityId} {l : List EntityId} (h : v.Lineage cur l)
    {c : EntityId} (hc : c ∈ l) : ∃ rest, v.Lineage (some c) rest ∧ rest.length ≤ l.length := by
  induction h with
  | root => simp at hc
  | link hs hrest ih =>
    rcases List.mem_cons.1 hc with rfl | hc
    · exact ⟨_, .link hs hrest, Nat.le_refl _⟩
    · obtain ⟨rest, hr, hle⟩ := ih hc
      exact ⟨rest, hr, Nat.le_succ_of_le hle⟩

/-- Nobody is on a line twice: the line from there would be shorter than itself. -/
theorem Lineage.nodup {cur : Option EntityId} {l : List EntityId} (h : v.Lineage cur l) :
    l.Nodup := by
  induction h with
  | root => exact .nil
  | @link c s rest hs hrest ih =>
    refine List.nodup_cons.2 ⟨fun hc => ?_, ih⟩
    -- the line would start over at `c`, and so be shorter than itself
    obtain ⟨rest', hr, hle⟩ := hrest.drop hc
    have := congrArg List.length (hr.unique (.link hs hrest))
    simp only [List.length_cons] at this
    omega

theorem Lineage.exists_state {cur : Option EntityId} {l : List EntityId} (h : v.Lineage cur l)
    {c : EntityId} (hc : c ∈ l) : ∃ s, v.state c = .ok s := by
  induction h with
  | root => simp at hc
  | link hs _ ih =>
    rcases List.mem_cons.1 hc with rfl | hc
    · exact ⟨_, hs⟩
    · exact ih hc

/-- A line of parents holds what is reached by parent links. -/
theorem Lineage.mem_iff {c : EntityId} {l : List EntityId} (h : v.Lineage (some c) l)
    {x : EntityId} : x ∈ l ↔ Relation.ReflTransGen v.ParentLink c x := by
  constructor
  · intro hx
    generalize hcur : some c = cur at h
    -- along the line, each member is one link above the one before
    induction h generalizing c with
    | root => simp at hx
    | @link d s rest hs hrest ih =>
      cases hcur
      rcases List.mem_cons.1 hx with rfl | hx
      · exact .refl
      · cases hp : s.parent with
        | none => rw [hp] at hrest; cases hrest; simp at hx
        | some p => exact .head ⟨s, hs, hp⟩ (ih hx hp.symm)
  · intro hx
    -- along the links, the line goes on where its first member has its parent
    induction hx using Relation.ReflTransGen.head_induction_on generalizing l with
    | refl => cases h; exact List.mem_cons_self
    | @head a b hab _ ih =>
      obtain ⟨s, hs, hp⟩ := hab
      cases h with
      | link hs' hrest =>
        rw [hs] at hs'
        cases hs'
        rw [hp] at hrest
        exact List.mem_cons_of_mem _ (ih hrest)

/-- A number reached by one parent link or more is on the line of parents from the first one on. -/
theorem Lineage.mem_iff_transGen {c : EntityId} {s : Surrogate α} {l : List EntityId}
    (hs : v.state c = .ok s) (h : v.Lineage s.parent l) {x : EntityId} :
    x ∈ l ↔ Relation.TransGen v.ParentLink c x := by
  rw [Relation.TransGen.head'_iff]
  -- the first link is the one that `s` has, so both sides start at its parent
  cases hp : s.parent with
  | none =>
    rw [hp] at h
    cases h
    refine ⟨by simp, fun ⟨p, ⟨s', hs', hp'⟩, _⟩ => ?_⟩
    rw [hs] at hs'
    cases hs'
    rw [hp] at hp'
    cases hp'
  | some p =>
    rw [hp] at h
    rw [h.mem_iff]
    refine ⟨fun hx => ⟨p, ⟨s, hs, hp⟩, hx⟩, fun ⟨p', ⟨s', hs', hp'⟩, hx⟩ => ?_⟩
    rw [hs] at hs'
    cases hs'
    rw [hp] at hp'
    cases hp'
    exact hx

/-- Who has a line of parents is not above themselves. -/
theorem Lineage.not_below {c : EntityId} {l : List EntityId} (h : v.Lineage (some c) l) :
    ¬Relation.TransGen v.ParentLink c c := by
  cases h with
  | link hs hrest =>
    have hnodup := (Lineage.link hs hrest).nodup
    rw [← hrest.mem_iff_transGen hs]
    exact (List.nodup_cons.1 hnodup).1

/--
The walk up from `id` without a bound. It ends at a root, at an entity it has met before, and at one
that is nowhere.
-/
inductive Climbs (v : View α) (id : EntityId) :
    List EntityId → Option EntityId → Except (Fault α) (List EntityId) → Prop where
  | root {chain : List EntityId} : Climbs v id chain none (.ok chain)
  | again {chain : List EntityId} {c : EntityId} (hmet : c = id ∨ c ∈ chain) :
      Climbs v id chain (some c) (.error (.cyclicHierarchy id))
  | missing {chain : List EntityId} {c : EntityId} {f : Fault α} (hnew : ¬(c = id ∨ c ∈ chain))
      (hs : v.state c = .error f) : Climbs v id chain (some c) (.error f)
  | up {chain : List EntityId} {c : EntityId} {s : Surrogate α}
      {r : Except (Fault α) (List EntityId)} (hnew : ¬(c = id ∨ c ∈ chain)) (hs : v.state c = .ok s)
      (hrest : Climbs v id (chain ++ [c]) s.parent r) : Climbs v id chain (some c) r

namespace Climbs

variable {id : EntityId} {chain : List EntityId} {cur : Option EntityId}
  {r r' : Except (Fault α) (List EntityId)}

/-- A walk up goes one way, and so ends in one way. -/
theorem unique (h : v.Climbs id chain cur r) (h' : v.Climbs id chain cur r') : r = r' := by
  -- on the first walk; at each step the second must have taken the same rule
  induction h generalizing r' with
  | root =>
    cases h'
    rfl
  | again hmet =>
    cases h' with
    | again => rfl
    | missing hnew => exact absurd hmet hnew
    | up hnew => exact absurd hmet hnew
  | missing hnew hs =>
    cases h' with
    | again hmet => exact absurd hmet hnew
    | missing _ hs' =>
      rw [hs] at hs'
      cases hs'
      rfl
    | up _ hs' =>
      rw [hs] at hs'
      cases hs'
  | up hnew hs _ ih =>
    cases h' with
    | again hmet => exact absurd hmet hnew
    | missing _ hs' =>
      rw [hs] at hs'
      cases hs'
    | up _ hs' hrest' =>
      rw [hs] at hs'
      cases hs'
      exact ih hrest'

/-- Where the same is seen, the walk is the same. -/
theorem congr (hstate : ∀ c, v.state c = w.state c) (h : v.Climbs id chain cur r) :
    w.Climbs id chain cur r := by
  induction h with
  | root => exact .root
  | again hmet => exact .again hmet
  | missing hnew hs => exact .missing hnew ((hstate _).symm.trans hs)
  | up hnew hs _ ih => exact .up hnew ((hstate _).symm.trans hs) ih

/-- A walk up to a root passes a line of parents that does not lead back. -/
theorem lineage {out : List EntityId} (h : v.Climbs id chain cur r) (hr : r = .ok out) :
    ∃ rest, out = chain ++ rest ∧ v.Lineage cur rest ∧ id ∉ rest := by
  induction h with
  | root =>
    obtain rfl := Except.ok.inj hr
    exact ⟨[], by simp, .root, by simp⟩
  | again | missing => cases hr
  | @up chain c s r hnew hs _ ih =>
    obtain ⟨rest, rfl, hrest, hid⟩ := ih hr
    refine ⟨c :: rest, by simp, .link hs hrest, ?_⟩
    simp only [List.mem_cons, not_or]
    exact ⟨fun he => hnew (.inl he.symm), hid⟩

end Climbs

/-- On a line of parents that does not lead back the walk comes to the root. -/
theorem climbs_of_lineage {id : EntityId} {chain : List EntityId} {cur : Option EntityId}
    {rest : List EntityId} (h : v.Lineage cur rest) (hid : id ∉ rest)
    (hnew : ∀ c ∈ rest, c ∉ chain) : v.Climbs id chain cur (.ok (chain ++ rest)) := by
  induction h generalizing chain with
  | root =>
    rw [List.append_nil]
    exact .root
  | @link c s rest hs hrest ih =>
    obtain ⟨hc, _⟩ := List.nodup_cons.1 (Lineage.link hs hrest).nodup
    -- nothing on the line was met before, since no line meets an entity twice
    have hclimbs : v.Climbs id (chain ++ [c]) s.parent (.ok (chain ++ [c] ++ rest)) := by
      refine ih (fun h => hid (List.mem_cons_of_mem _ h)) fun d hd hdc => ?_
      rcases List.mem_append.1 hdc with hdc | hdc
      · exact hnew d (List.mem_cons_of_mem _ hd) hdc
      · exact hc (List.mem_singleton.1 hdc ▸ hd)
    rw [List.append_assoc, List.singleton_append] at hclimbs
    refine .up ?_ hs hclimbs
    rintro (rfl | hmet)
    · exact hid List.mem_cons_self
    · exact hnew c List.mem_cons_self hmet

/-- With a bound beyond the numbers at which something is seen,
the walk goes as it does without one. -/
theorem climbs_climb {L : List EntityId} (hL : ∀ c s, v.state c = .ok s → c ∈ L) (id : EntityId)
    (bound : Nat) : ∀ (chain : List EntityId) (cur : Option EntityId), chain.Nodup → chain ⊆ L →
      L.length < bound + chain.length → v.Climbs id chain cur (v.climb id bound chain cur) := by
  induction bound with
  | zero =>
    -- a walk that has used up its steps would have passed more than there is
    intro chain cur hn hsub hb
    have := (List.subperm_of_subset hn hsub).length_le
    omega
  | succ bound ih =>
    intro chain cur hn hsub hb
    cases cur with
    | none =>
      rw [climb]
      exact .root
    | some c =>
      rw [climb]
      split
      · next hmet => exact .again hmet
      · next hnew =>
        cases hs : v.state c with
        | error f => exact .missing hnew hs
        | ok s =>
          -- the chain grows by a new member of `L`,
          -- which keeps it within `L` and free of repetitions
          have hnodup : (chain ++ [c]).Nodup :=
            List.nodup_append.2 ⟨hn, List.nodup_singleton c, fun a ha b hb hab =>
              hnew (.inr (List.mem_singleton.1 hb ▸ hab ▸ ha))⟩
          have hsubset : chain ++ [c] ⊆ L := by simp [hsub, hL c s hs]
          refine .up hnew hs (ih _ _ hnodup hsubset ?_)
          rw [List.length_append, List.length_singleton]
          omega

/-- The walk up never comes to its bound. -/
theorem climbs_ancestors {id : EntityId} {s : Surrogate α} (hs : v.state id = .ok s) :
    v.Climbs id [] s.parent (v.ancestors id) := by
  obtain ⟨L, hL, hlen⟩ := v.exists_reservoir
  unfold ancestors
  rw [hs]
  exact climbs_climb hL id v.walkBound [] s.parent .nil (by simp) (by simpa using hlen)

/-- The walk up returns the line of parents, as long as it ends and does not lead back. -/
theorem ancestors_eq_ok {id : EntityId} {chain : List EntityId} :
    v.ancestors id = .ok chain ↔ ∃ s, v.state id = .ok s ∧ v.Lineage s.parent chain ∧
      id ∉ chain := by
  constructor
  · intro h
    obtain ⟨s, hs, _⟩ := bind_eq_ok.1 h
    obtain ⟨rest, rfl, hrest, hid⟩ := (climbs_ancestors hs).lineage h
    exact ⟨s, hs, hrest, hid⟩
  · rintro ⟨s, hs, hchain, hid⟩
    exact (climbs_ancestors hs).unique (climbs_of_lineage hchain hid (by simp))

/-- From an entity on a line of parents the walk up returns the rest of the line. -/
theorem Lineage.ancestors_eq {id : EntityId} {chain : List EntityId}
    (h : v.Lineage (some id) (id :: chain)) : v.ancestors id = .ok chain := by
  have hid := (List.nodup_cons.1 h.nodup).1
  cases h with
  | link hs hrest => exact ancestors_eq_ok.2 ⟨_, hs, hrest, hid⟩

/-- The walk up meets those that parent links lead to. -/
theorem mem_ancestors {id x : EntityId} {chain : List EntityId} (h : v.ancestors id = .ok chain) :
    x ∈ chain ↔ Relation.TransGen v.ParentLink id x := by
  obtain ⟨s, hs, hchain, _⟩ := ancestors_eq_ok.1 h
  exact hchain.mem_iff_transGen hs

end Seeing

/-!
## Walking down

`Collects` is the walk without its bound. Each linked number is found once at most, and so this walk
is over before the bound is reached as well.
-/

/-- Children are those whose link leads to the entity. -/
theorem mem_childrenOf {links : List (EntityId × Option EntityId)} {id c : EntityId} :
    c ∈ childrenOf links id ↔ (c, some id) ∈ links := by
  simp [childrenOf]

/-- Each of them is named once, as nobody has two links. -/
theorem nodup_childrenOf {links : List (EntityId × Option EntityId)}
    (h : (links.map Prod.fst).Nodup) (id : EntityId) : (childrenOf links id).Nodup :=
  h.sublist (List.filter_sublist.map Prod.fst)

/--
The walk down from `id` without a bound. It ends when nothing is left to look below, and at an
entity it has met before.
-/
inductive Collects (id : EntityId) (links : List (EntityId × Option EntityId)) :
    List EntityId → List EntityId → Except (Fault α) (List EntityId) → Prop where
  | done {found : List EntityId} : Collects id links found [] (.ok found)
  | again {found frontier : List EntityId} {next c : EntityId} (hc : c ∈ childrenOf links next)
      (hmet : c = id ∨ c ∈ found) :
      Collects id links found (next :: frontier) (.error (.cyclicHierarchy id))
  | sweep {found frontier : List EntityId} {next : EntityId} {r : Except (Fault α) (List EntityId)}
      (hnew : ∀ c ∈ childrenOf links next, ¬(c = id ∨ c ∈ found))
      (hrest : Collects id links (found ++ childrenOf links next)
        ((childrenOf links next).reverse ++ frontier) r) :
      Collects id links found (next :: frontier) r

namespace Collects

variable {id : EntityId} {links : List (EntityId × Option EntityId)}
  {found frontier out : List EntityId} {r r' : Except (Fault α) (List EntityId)}

theorem unique (h : Collects id links found frontier r) (h' : Collects id links found frontier r') :
    r = r' := by
  induction h generalizing r' with
  | done =>
    cases h'
    rfl
  | again hc hmet =>
    cases h' with
    | again => rfl
    | sweep hnew => exact absurd hmet (hnew _ hc)
  | sweep hnew _ ih =>
    cases h' with
    | again hc hmet => exact absurd hmet (hnew _ hc)
    | sweep _ hrest' => exact ih hrest'

/-- What a walk down returns: what it had found, and with each newly found number its children. -/
theorem closed (h : Collects id links found frontier r) (hr : r = .ok out) :
    found ⊆ out ∧ (∀ n ∈ frontier, childrenOf links n ⊆ out) ∧
      ∀ n ∈ out, n ∉ found → childrenOf links n ⊆ out := by
  induction h with
  | done =>
    obtain rfl := Except.ok.inj hr
    exact ⟨fun _ hn => hn, by simp, fun n hn hnf => absurd hn hnf⟩
  | again => cases hr
  | @sweep found frontier next r _ _ ih =>
    obtain ⟨hfound, hfrontier, hnew⟩ := ih hr
    have hnext : childrenOf links next ⊆ out := fun c hc => hfound (List.mem_append_right _ hc)
    refine ⟨fun c hc => hfound (List.mem_append_left _ hc), ?_, ?_⟩
    · intro n hn
      rcases List.mem_cons.1 hn with rfl | hn
      · exact hnext
      · exact hfrontier n (List.mem_append_right _ hn)
    · intro n hn hnf
      -- children of `next` are on the frontier of what follows, and others are found there
      by_cases hc : n ∈ childrenOf links next
      · exact hfrontier n (List.mem_append_left _ (List.mem_reverse.2 hc))
      · exact hnew n hn (by simp [hnf, hc])

/-- Whatever holds of the frontier and passes on to children,
holds of the parents of what is found. -/
theorem sound (h : Collects id links found frontier r) (hr : r = .ok out) {R : EntityId → Prop}
    (hfrontier : ∀ n ∈ frontier, R n) (hstep : ∀ n, R n → ∀ c ∈ childrenOf links n, R c) :
    ∀ c ∈ out, c ∈ found ∨ ∃ n, R n ∧ c ∈ childrenOf links n := by
  induction h with
  | done =>
    obtain rfl := Except.ok.inj hr
    exact fun c hc => .inl hc
  | again => cases hr
  | @sweep found frontier next r _ _ ih =>
    have hnext : R next := hfrontier next List.mem_cons_self
    -- `R` holds of the frontier of what follows, too, so whatever is found later is as it should be
    have hrest : ∀ n ∈ (childrenOf links next).reverse ++ frontier, R n := by
      intro n hn
      rcases List.mem_append.1 hn with hn | hn
      · exact hstep next hnext n (List.mem_reverse.1 hn)
      · exact hfrontier n (List.mem_cons_of_mem _ hn)
    intro c hc
    rcases ih hr hrest c hc with hc | hc
    · exact (List.mem_append.1 hc).imp_right fun hc => ⟨next, hnext, hc⟩
    · exact .inr hc

end Collects

/-- With a bound beyond the linked numbers, the walk goes as it does without one. -/
theorem collects_collect {links : List (EntityId × Option EntityId)}
    (hlinks : (links.map Prod.fst).Nodup) (id : EntityId) (bound : Nat) :
    ∀ found frontier : List EntityId, found.Nodup →
      found ⊆ links.map Prod.fst → frontier.length + links.length ≤ bound + found.length →
      Collects id links found frontier (collect (α := α) id links bound found frontier) := by
  induction bound with
  | zero =>
    -- with everything found, the frontier is used up together with the bound
    intro found frontier hn hsub hb
    have := (List.subperm_of_subset hn hsub).length_le
    rw [List.length_map] at this
    obtain rfl : frontier = [] := List.length_eq_zero_iff.1 (by omega)
    rw [collect]
    exact .done
  | succ bound ih =>
    intro found frontier hn hsub hb
    cases frontier with
    | nil =>
      rw [collect]
      exact .done
    | cons next frontier =>
      rw [collect]
      split
      · next hany =>
        obtain ⟨c, hc, hmet⟩ := List.any_eq_true.1 hany
        exact .again hc (of_decide_eq_true hmet)
      · next hany =>
        -- the children go from the numbers still to be found to those
        -- found and to the frontier at once
        have hnew : ∀ c ∈ childrenOf links next, ¬(c = id ∨ c ∈ found) := fun c hc hmet =>
          hany (List.any_eq_true.2 ⟨c, hc, decide_eq_true hmet⟩)
        have hnodup : (found ++ childrenOf links next).Nodup :=
          List.nodup_append.2 ⟨hn, nodup_childrenOf hlinks next, fun a ha b hb hab =>
            hnew b hb (.inr (hab ▸ ha))⟩
        have hsubset : found ++ childrenOf links next ⊆ links.map Prod.fst :=
          List.append_subset.2 ⟨hsub, fun c hc => List.mem_map.2 ⟨_, mem_childrenOf.1 hc, rfl⟩⟩
        refine .sweep hnew (ih _ _ hnodup hsubset ?_)
        simp only [List.length_cons, List.length_append, List.length_reverse] at hb ⊢
        omega

variable [Scalar α]

/-- The known numbers, each with the parent it is seen with. -/
def links (v : View α) : Except (Fault α) (List (EntityId × Option EntityId)) :=
  v.knownIds.mapM fun other => do
    let s ← v.state other
    return (other, s.parent)

/-- The walk down goes by the links of all that is known. -/
theorem descendants_eq (v : View α) (id : EntityId) :
    v.descendants id = v.links >>= fun links => collect id links v.walkBound [] [id] := rfl

/-- There is a link for each known entity, to the parent it is seen with. -/
theorem forall₂_links {links : List (EntityId × Option EntityId)} (h : v.links = .ok links) :
    List.Forall₂ (fun c l => ∃ s, v.state c = .ok s ∧ l = (c, s.parent)) v.knownIds links := by
  refine (mapM_eq_ok.1 h).imp fun c l hl => ?_
  obtain ⟨s, hs, hl⟩ := bind_eq_ok.1 hl
  exact ⟨s, hs, (pure_eq_ok.1 hl).symm⟩

/-- Links are listed in the order of known entities. -/
theorem map_fst_links {links : List (EntityId × Option EntityId)} (h : v.links = .ok links) :
    links.map Prod.fst = v.knownIds := by
  have hall := forall₂_links h
  generalize v.knownIds = ids at hall ⊢
  clear h
  induction hall with
  | nil => rfl
  | cons hl _ ih =>
    obtain ⟨s, _, rfl⟩ := hl
    rw [List.map_cons, ih]

/-- A parent link that a walk down goes by: what it leads up from is known. -/
def KnownLink (v : View α) (c p : EntityId) : Prop := v.Knows c ∧ v.ParentLink c p

/-- With surrogates in use, whatever has a parent is known. -/
theorem knownLink_eq (h : v.useSurrogates = true) : v.KnownLink = v.ParentLink := by
  funext c p
  refine propext ⟨fun hl => hl.2, fun hl => ⟨?_, hl⟩⟩
  obtain ⟨s, hs, _⟩ := hl
  exact knows_of_state h hs

/-- The links can be listed: all that is known can be looked up. -/
theorem exists_links (v : View α) : ∃ links, v.links = .ok links :=
  exists_mapM fun c hc => by
    obtain ⟨s, hs⟩ := (mem_knownIds_iff.1 hc).exists_state
    exact ⟨(c, s.parent), bind_eq_ok.2 ⟨s, hs, rfl⟩⟩

/-- Among the listed links, children are those with a link to the entity. -/
theorem mem_childrenOf_links {links : List (EntityId × Option EntityId)} (h : v.links = .ok links)
    {c n : EntityId} : c ∈ childrenOf links n ↔ v.KnownLink c n := by
  have hall := forall₂_links h
  rw [mem_childrenOf]
  constructor
  · intro hc
    obtain ⟨c', hc', s, hs, hl⟩ := exists_of_mem_forall₂ hall hc
    obtain ⟨rfl, hp⟩ := Prod.mk.inj hl
    exact ⟨mem_knownIds_iff.1 hc', s, hs, hp.symm⟩
  · rintro ⟨hknown, s, hs, hp⟩
    obtain ⟨l, hl, s', hs', rfl⟩ := exists_of_mem_forall₂ hall.flip (mem_knownIds_iff.2 hknown)
    rw [hs] at hs'
    cases hs'
    rwa [hp] at hl

/-- The walk down never comes to its bound. -/
theorem collects_descendants {links : List (EntityId × Option EntityId)} (h : v.links = .ok links)
    (id : EntityId) : Collects id links [] [id] (v.descendants id) := by
  have hfst := map_fst_links h
  have hlength := v.length_knownIds
  rw [← hfst, List.length_map] at hlength
  rw [descendants_eq, h]
  refine collects_collect (hfst ▸ v.nodup_knownIds) id v.walkBound [] [id] .nil (by simp) ?_
  rw [List.length_singleton, List.length_nil]
  omega

/-- The walk down returns what is below the entity by links that are known. -/
theorem mem_descendants_iff {id x : EntityId} {below : List EntityId}
    (h : v.descendants id = .ok below) : x ∈ below ↔ Relation.TransGen v.KnownLink x id := by
  obtain ⟨links, hlinks⟩ := v.exists_links
  have hcollects := collects_descendants hlinks id
  have hchild : ∀ {c n}, c ∈ childrenOf links n ↔ v.KnownLink c n := mem_childrenOf_links hlinks
  constructor
  · intro hx
    -- the frontier starts with `id`, and children of what is below it are below it
    have hpass : ∀ n, n = id ∨ Relation.TransGen v.KnownLink n id →
        ∀ c ∈ childrenOf links n, Relation.TransGen v.KnownLink c id := by
      rintro n (rfl | hn) c hc
      · exact .single (hchild.1 hc)
      · exact .head (hchild.1 hc) hn
    rcases hcollects.sound h (R := fun n => n = id ∨ Relation.TransGen v.KnownLink n id) (by simp)
      (fun n hn c hc => .inr (hpass n hn c hc)) x hx with hx | ⟨n, hn, hc⟩
    · simp at hx
    · exact hpass n hn x hc
  · intro hx
    obtain ⟨_, hfrontier, hnew⟩ := hcollects.closed h
    induction hx using Relation.TransGen.head_induction_on with
    | single hl => exact hfrontier id List.mem_cons_self (hchild.2 hl)
    | head hl _ ih => exact hnew _ ih (by simp) (hchild.2 hl)

end View

end SceneGuard
