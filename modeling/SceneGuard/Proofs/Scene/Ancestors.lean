import Mathlib.Data.List.Chain
import SceneGuard.Number.Binary
import SceneGuard.Proofs.Scene.Following

/-!
# Ancestors

The check for cycles follows parent links, and gives up after as many steps as there are entities,
and one. Links may lead in circles and to nowhere. Still nobody above is missed: where there is a
way up there is one that passes nobody twice (`exists_simple_way`), and all that it passes before
its end is in the scene. Main statements:

* `meets_iff` — a walk with more steps than there are entities meets whoever is above, and nobody
  else;
* `isAncestor_decides` — so the check decides who is above, and more steps would not change its
  answer.
-/

namespace SceneGuard

open Relation

/-!
## Ways without repetitions

A way up may run through a cycle any number of times, while the check has a limited number of steps.
Without its detours the way is short enough.
-/

section Ways

variable {β : Type} {r : β → β → Prop} {a b : β}

/-- Where there is a way there is one that passes nothing twice. -/
theorem exists_simple_way (h : ReflTransGen r a b) :
    ∃ way : List β, (a :: way).IsChain r ∧ (a :: way).Nodup ∧ (a :: way).getLast? = some b := by
  induction h using ReflTransGen.head_induction_on with
  | refl => exact ⟨[], .singleton b, List.nodup_singleton b, rfl⟩
  | @head a c hac _ ih =>
    obtain ⟨way, hchain, hnodup, hlast⟩ := ih
    by_cases ha : a ∈ c :: way
    · -- the way from `c` comes through `a`, and is cut down to what follows
      obtain ⟨before, after, hsplit⟩ := List.append_of_mem ha
      rw [hsplit] at hchain hnodup hlast
      refine ⟨after, hchain.right_of_append, hnodup.of_append_right, ?_⟩
      rwa [List.getLast?_append_cons] at hlast
    · exact ⟨c :: way, .cons_cons hac hchain, List.nodup_cons.2 ⟨ha, hnodup⟩, by
        rwa [List.getLast?_cons_cons]⟩

end Ways

namespace Scene

variable {α : Type} {s : Scene α} {a x : EntityId} {way : List EntityId}

/-- Everyone on a way up, the last one apart, is in the scene. -/
theorem live_of_isChain (h : way.IsChain s.ParentLink) :
    ∀ y ∈ way.dropLast, ∃ e, s.get? y = some e := by
  induction h with
  | nil => simp
  | singleton => simp
  | @cons_cons x y way hl _ ih =>
    intro z hz
    rw [List.dropLast_cons_cons] at hz
    rcases List.mem_cons.1 hz with rfl | hz
    · exact hl.imp fun _ he => he.1
    · exact ih z hz

/-- A way up that passes nobody twice has no more links than the scene has entities. -/
theorem length_le_of_isChain (h : (x :: way).IsChain s.ParentLink) (hnodup : (x :: way).Nodup) :
    way.length ≤ s.entities.size := by
  have hlength := length_le_size (hnodup.sublist (List.dropLast_sublist _)) (live_of_isChain h)
  rwa [List.length_dropLast, List.length_cons, Nat.add_sub_cancel] at hlength

/-- A walk with a step for each entity of a way meets the last one. -/
theorem meets_of_isChain (h : (x :: way).IsChain s.ParentLink)
    (hlast : (x :: way).getLast? = some a) {steps : Nat} (hsteps : way.length < steps) :
    s.meets a steps (some x) = true := by
  induction way generalizing x steps with
  | nil =>
    obtain rfl : x = a := Option.some.inj hlast
    obtain ⟨steps, rfl⟩ := Nat.exists_eq_succ_of_ne_zero (Nat.ne_of_gt hsteps)
    rw [meets, beq_self_eq_true, Bool.true_or]
  | cons y way ih =>
    obtain ⟨⟨e, he, hp⟩, hrest⟩ := List.isChain_cons_cons.1 h
    obtain ⟨steps, rfl⟩ := Nat.exists_eq_succ_of_ne_zero (Nat.ne_of_gt (Nat.zero_lt_of_lt hsteps))
    rw [List.getLast?_cons_cons] at hlast
    have hmeets : s.meets a steps (some y) = true := ih hrest hlast (by simpa using hsteps)
    rw [meets, he, Option.bind_some, hp, hmeets, Bool.or_true]

/-- A walk with more steps than there are entities meets whoever is above, and nobody else. -/
theorem meets_iff {steps : Nat} (hsteps : s.entities.size < steps) :
    s.meets a steps (some x) = true ↔ ReflTransGen s.ParentLink x a := by
  constructor
  · intro h
    obtain ⟨c, hc, hway⟩ := reflTransGen_of_meets h
    cases hc
    rwa [skeleton_link_eq] at hway
  · intro h
    obtain ⟨way, hchain, hnodup, hlast⟩ := exists_simple_way h
    have hlength := length_le_of_isChain hchain hnodup
    exact meets_of_isChain hchain hlast (by omega)

/-- The check finds those that links lead up to, the entity itself among them, and nobody else. -/
theorem isAncestor_iff : s.isAncestor a x = true ↔ ReflTransGen s.skeleton.Link x a := by
  rw [skeleton_link_eq]
  exact meets_iff (Nat.lt_succ_self _)

/--
In every scene, whatever its parent links, the check decides whether a number is reached by
following none or some of them. No walk with more steps answers differently.
-/
theorem isAncestor_decides (s : Scene α) (a id : EntityId) :
    (s.isAncestor a id = true ↔ ReflTransGen s.ParentLink id a) ∧
    ∀ more, s.meets a (s.entities.size + 1 + more) (some id) = s.isAncestor a id := by
  refine ⟨meets_iff (Nat.lt_succ_self _), fun more => ?_⟩
  have hmore : s.entities.size < s.entities.size + 1 + more := by omega
  rw [Bool.eq_iff_iff, meets_iff hmore]
  exact (meets_iff (Nat.lt_succ_self _)).symm

end Scene

/-- A way through all entities, and to a number that nobody has. -/
example :
    Scene.isAncestor
      ({ entities := .ofList [(1, { Entity.new 1 .model (.splat 1) with parent := some 2 }),
        (2, { Entity.new 2 .model (.splat 1) with parent := some 9 })] } : Scene Float) 9 1 =
          true := by decide

end SceneGuard
