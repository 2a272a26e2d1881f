import Mathlib.Data.List.Nodup
import SceneGuard.Proofs.Model.Numbering
import SceneGuard.Proofs.Scene.ResetBlock

/-!
# The commands of a reset block

A reset block is a forest of commands. Its single commands are those of the edit that have something
to go back to, the last one first, each set back to its values before (`takesBack_resetBlock`). Main
statements, for the commands at every level of it:

* `regular_resetBlock` — each is forced and neither superseded nor sent in a drag, and no composite
  is empty;
* `IdSource.nodup_of_freshly` — their numbers are different from each other, and at or above the
  next one of the source;
* `resetBlock_shape` — all of this together.
-/

namespace SceneGuard

open IdSource

namespace Command

variable {α : Type}

/-! ## Commands at every level -/

mutual

/-- A command and the commands in it, at every level. -/
def nodes : Command α → List (Command α)
  | .single h e => [.single h e]
  | .composite h d ms => .composite h d ms :: nodesAll ms

/-- The commands of a list and the commands in them, at every level. -/
def nodesAll : List (Command α) → List (Command α)
  | [] => []
  | c :: cs => nodes c ++ nodesAll cs

end

/-- Nodes are collected member by member. -/
theorem nodesAll_append (cs ds : List (Command α)) :
    nodesAll (cs ++ ds) = nodesAll cs ++ nodesAll ds := by
  induction cs with
  | nil => rfl
  | cons c cs ih => rw [List.cons_append, nodesAll, nodesAll, ih, List.append_assoc]

mutual

/-- The numbers of a command are those of its nodes. -/
theorem map_id_nodes : ∀ c : Command α, (nodes c).map Command.id = numbers c
  | .single _ _ => rfl
  | .composite h _ ms => congrArg (h.id :: ·) (map_id_nodesAll ms)

theorem map_id_nodesAll : ∀ cs : List (Command α), (nodesAll cs).map Command.id = numbersAll cs
  | [] => rfl
  | c :: cs => by rw [nodesAll, List.map_append, map_id_nodes c, map_id_nodesAll cs, numbersAll]

end

/-- The command is to be executed as it is. If it is a composite, there is something in it. -/
structure Regular (c : Command α) : Prop where
  header : c.header = { id := c.id, transient := false, dying := false, forced := true }
  members : c.kind = .composite → c.members ≠ []

/-- A reset is forced, and has no other flag. -/
theorem resetHeader_of_living {h : Header} (hd : h.dying = false) (id : CommandId) :
    resetHeader h id = { id, transient := false, dying := false, forced := true } := by
  rw [resetHeader, hd]

mutual

/-- Every node of a member of the block is regular. -/
theorem regular_resetMember (ids : IdSource) (c : Command α) :
    ∀ d ∈ nodesAll (resetMember ids c).1.toList, d.Regular := by
  cases c with
  | single h e =>
    rw [resetMember]
    split
    · exact fun _ hd => absurd hd List.not_mem_nil
    · next hlasts =>
      rw [Bool.or_eq_true, not_or, Bool.not_eq_true] at hlasts
      intro d hd
      obtain rfl := List.mem_singleton.1 hd
      refine ⟨resetHeader_of_living hlasts.1 _, fun hkind => ?_⟩
      cases e <;> cases hkind
  | composite h d ms =>
    have hms := regular_resetMembers ids ms
    rw [resetMember]
    split
    · exact fun _ hd => absurd hd List.not_mem_nil
    · next hliving =>
      -- a composite that nothing is left of is left out itself
      rcases hblock : resetMembers ids ms with ⟨_ | ⟨b, bs⟩, ids'⟩ <;> rw [hblock] at hms
      · exact hms
      · show ∀ x ∈ nodesAll [.composite (resetHeader h ids'.fresh.1) d (b :: bs)], x.Regular
        rw [nodesAll, nodesAll, List.append_nil, nodes]
        have hheader := resetHeader_of_living (eq_false_of_ne_true hliving) ids'.fresh.1
        exact List.forall_mem_cons.2 ⟨⟨hheader, fun _ => List.cons_ne_nil b bs⟩, hms⟩

theorem regular_resetMembers (ids : IdSource) (cs : List (Command α)) :
    ∀ d ∈ nodesAll (resetMembers ids cs).1, d.Regular := by
  cases cs with
  | nil => exact fun _ hd => absurd hd List.not_mem_nil
  | cons c cs =>
    intro d hd
    rw [resetMembers, nodesAll_append] at hd
    rcases List.mem_append.1 hd with hd | hd
    · exact regular_resetMembers ids cs d hd
    · exact regular_resetMember _ c d hd

end

theorem regular_resetBlock (ids : IdSource) (c : Command α) :
    ∀ d ∈ nodesAll (c.resetBlock ids).1, d.Regular := by
  cases c with
  | single h e => exact regular_resetMember ids (.single h e)
  | composite h d ms => exact regular_resetMembers ids ms

end Command

/-!
## Numbers that differ

Fresh numbers are handed out in ascending order up to the last one there is, after which the count
starts over. As far as that they are all different.
-/

namespace IdSource

/-- Each request is served with one number. -/
theorem length_serveAll (s : IdSource) (rs : List Request) :
    (s.serveAll rs).1.length = rs.length := by
  induction rs generalizing s with
  | nil => rfl
  | cons r rs ih => rw [serveAll, List.length_cons, List.length_cons, ih]

/-- Until the count starts over, fresh numbers are handed out one after the other. -/
theorem serveAll_replicate_fresh {s : IdSource} {count : Nat}
    (h : s.next.toNat + count ≤ UInt64.size) :
    (s.serveAll (List.replicate count .fresh)).1.map UInt64.toNat =
      List.range' s.next.toNat count := by
  induction count generalizing s with
  | zero => rfl
  | succ count ih =>
    have hfirst : (s.serveAll (List.replicate (count + 1) .fresh)).1 =
        s.next :: (IdSource.serveAll ⟨s.next + 1⟩ (List.replicate count .fresh)).1 := rfl
    rw [hfirst, List.map_cons, List.range'_succ]
    cases count with
    | zero => rfl
    | succ count =>
      -- room for one more number means that this one does not wrap around
      have hsucc : (s.next + 1).toNat = s.next.toNat + 1 := by
        rw [UInt64.toNat_add, UInt64.toNat_one]
        unfold UInt64.size at h
        omega
      rw [ih (by rw [hsucc]; omega), hsucc]

/-- Numbers that are all fresh differ from each other,
and none is below the next one of the source. -/
theorem nodup_of_freshly {s s' : IdSource} {ids : List CommandId} (h : Command.Freshly s (ids, s'))
    (hroom : s.next.toNat + ids.length ≤ UInt64.size) : ids.Nodup ∧ ∀ id ∈ ids, s.next ≤ id := by
  obtain ⟨count, _, hperm⟩ := h
  have hlength : ids.length = count := by
    rw [hperm.length_eq, length_serveAll, List.length_replicate]
  rw [hlength] at hroom
  -- numbers taken one after the other are a range, in some order
  have hconsecutive := serveAll_replicate_fresh hroom
  constructor
  · refine hperm.nodup_iff.2 (List.Nodup.of_map UInt64.toNat ?_)
    rw [hconsecutive]
    exact List.nodup_range'
  · intro id hid
    have hin := List.mem_map_of_mem (f := UInt64.toNat) (hperm.mem_iff.1 hid)
    rw [hconsecutive, List.mem_range'_1] at hin
    exact UInt64.le_iff_toNat_le.2 hin.1

end IdSource

namespace Command

variable {α : Type}

/--
**The shape of a reset block.** Its single commands are those of the edit that have something to go
back to, in reverse, each set back to its values before. At every level of it the commands are
forced, neither superseded nor sent in a drag, and no composite is empty. And unless the source of
numbers runs out, no two of them have the same number, and none has a number that was handed out or
read before.
-/
theorem resetBlock_shape (ids : IdSource) (c : Command α) :
    List.Forall₂ TakesBack c.toRevert.reverse (leavesAll (c.resetBlock ids).1) ∧
    (∀ d ∈ nodesAll (c.resetBlock ids).1, d.Regular) ∧
    (ids.next.toNat + (nodesAll (c.resetBlock ids).1).length ≤ UInt64.size →
      ((nodesAll (c.resetBlock ids).1).map Command.id).Nodup ∧
      ∀ s rs given, IdSource.serveAll s rs = (given, ids) → last ∉ given →
        ∀ d ∈ nodesAll (c.resetBlock ids).1, ∀ id ∈ given, id < d.id) := by
  refine ⟨takesBack_resetBlock ids c, regular_resetBlock ids c, fun hroom => ?_⟩
  have hnumbers := map_id_nodesAll (c.resetBlock ids).1
  rw [← List.length_map Command.id, hnumbers] at hroom
  obtain ⟨hnodup, habove⟩ := nodup_of_freshly (freshly_resetBlock ids c) hroom
  refine ⟨hnumbers ▸ hnodup, fun s rs given hserved hlast d hd id hid => ?_⟩
  -- the source is above all that it has served, and the block at or above the source
  have hgiven : given = (s.serveAll rs).1 := (congrArg Prod.fst hserved).symm
  rw [hgiven] at hlast hid
  have hbelow := (lt_next_serveAll hlast).2 id hid
  rw [hserved] at hbelow
  exact UInt64.lt_of_lt_of_le hbelow (habove d.id (hnumbers ▸ List.mem_map_of_mem hd))

/-- A push, a group with nothing to go back to, a group with a superseded push in it,
and a superseded group. -/
def pushing : Command Float :=
  .composite { id := 1 } "push"
    [.single { id := 2 } (.move 1 (.splat 0) (.splat 1)),
      .composite { id := 3 } "take out" [.single { id := 4 } (.remove .entity 3)],
      .composite { id := 5, transient := true } "push on"
        [.single { id := 6, transient := true } (.move 2 (.splat 0) (.splat 1)),
          .single { id := 7, dying := true } (.move 2 (.splat 1) (.splat 2)),
          .single { id := 8 } (.move 2 (.splat 1) (.splat 3))],
      .composite { id := 9, dying := true } "push back"
        [.single { id := 10 } (.move 2 (.splat 3) (.splat 0))]]

/-- The numbers in the edit are read, and those of its reset block come after them. -/
theorem resetBlock_shape_pushing :
    let block := (pushing.resetBlock ⟨11⟩).1
    pushing.toRevert.map Command.id = [2, 6, 8] ∧
    List.Forall₂ TakesBack pushing.toRevert.reverse (leavesAll block) ∧
    block.map (nodes · |>.map Command.id) = [[13, 11, 12], [14]] ∧
      (∀ d ∈ nodesAll block, d.Regular) ∧
    ((nodesAll block).map Command.id).Nodup ∧ ∀ d ∈ nodesAll block, ∀ id ∈ pushing.numbers,
      id < d.id := by
  intro block
  obtain ⟨htakes, hregular, hnumbers⟩ := resetBlock_shape ⟨11⟩ pushing
  obtain ⟨hnodup, hfresh⟩ := hnumbers (by decide)
  have hread : IdSource.serveAll {} (pushing.numbers.map .given) = (pushing.numbers, ⟨11⟩) := by
    decide
  exact ⟨by decide, htakes, by decide, hregular, hnodup, hfresh {} _ _ hread (by decide)⟩

end Command

end SceneGuard
