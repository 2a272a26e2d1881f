import Mathlib.Data.List.Forall2
import SceneGuard.Model.Reset
import SceneGuard.Proofs.Scene.Commands

/-!
# Force in nested commands

A composite can be forced, and so can each command in it. Force is handed down from the composites
to the single commands under them (`handedDown`), or taken away everywhere (`unforced`). Main
statements:

* `resetBlock_congr` — what takes an edit back does not depend on what is forced in it;
* `leaves_handedDown` — handing force down forces the single commands under forced composites, and
  no others.
-/

namespace SceneGuard

variable {α : Type}

namespace Command

/-- The command, forced. -/
def force (c : Command α) : Command α := c.withHeader { c.header with forced := true }

mutual

/-- The command with nothing in it forced. -/
def unforced : Command α → Command α
  | .single h e => .single { h with forced := false } e
  | .composite h d ms => .composite { h with forced := false } d (unforcedAll ms)

/-- The commands of a list with nothing in them forced. -/
def unforcedAll : List (Command α) → List (Command α)
  | [] => []
  | c :: cs => unforced c :: unforcedAll cs

end

mutual

/-- The single commands in a command that are under a forced composite;
all, if the command is itself. -/
def covered (under : Bool) : Command α → List (Command α)
  | .single h e => if under then [.single h e] else []
  | .composite h _ ms => coveredAll (under || h.forced) ms

/-- The same in the commands of a list. -/
def coveredAll (under : Bool) : List (Command α) → List (Command α)
  | [] => []
  | c :: cs => covered under c ++ coveredAll under cs

end

mutual

/-- The command with force handed down from the composites;
`under` hands it down to all of the command. -/
def handedDown (under : Bool) : Command α → Command α
  | .single h e => .single { h with forced := h.forced || under } e
  | .composite h d ms =>
    .composite { h with forced := false } d (handedDownAll (under || h.forced) ms)

/-- The same for the commands of a list. -/
def handedDownAll (under : Bool) : List (Command α) → List (Command α)
  | [] => []
  | c :: cs => handedDown under c :: handedDownAll under cs

end

/-!
## Up to force

Two commands are the same up to force when they come to the same without any. Reset blocks do not
look at force, and so they cannot tell such commands apart.
-/

/-- To take force away does not depend on whether there was any. -/
@[simp] theorem unforced_force (c : Command α) : c.force.unforced = c.unforced := by
  cases c <;> rfl

/-- What is forced already is not changed by force. -/
theorem force_of_forced {c : Command α} (h : c.header.forced = true) : c.force = c := by
  have hheader : { c.header with forced := true } = c.header := by rw [← h]
  rw [force, hheader]
  cases c <;> rfl

@[simp] theorem label_unforced (c : Command α) : c.unforced.label = c.label := by
  cases c <;> rfl

mutual

/-- To hand force down changes no more than force. -/
theorem unforced_handedDown :
    ∀ (under : Bool) (c : Command α), (handedDown under c).unforced = c.unforced
  | _, .single _ _ => rfl
  | under, .composite h d ms => by
    rw [handedDown, unforced, unforced, unforced_handedDownAll _ ms]

theorem unforced_handedDownAll : ∀ (under : Bool) (cs : List (Command α)),
    unforcedAll (handedDownAll under cs) = unforcedAll cs
  | _, [] => rfl
  | under, c :: cs => by
    rw [handedDownAll, unforcedAll, unforcedAll, unforced_handedDown, unforced_handedDownAll]

end

mutual

/-- Reset commands are forced in any case. -/
theorem resetMember_unforced : ∀ (ids : IdSource) (c : Command α),
    resetMember ids c.unforced = resetMember ids c
  | _, .single _ _ => rfl
  | ids, .composite h d ms => by
    rw [unforced, resetMember, resetMember, resetMembers_unforcedAll ids ms]
    rfl

/-- The reset of a member does not depend on force, since all of it is forced anyway. -/
theorem resetMembers_unforcedAll : ∀ (ids : IdSource) (cs : List (Command α)),
    resetMembers ids (unforcedAll cs) = resetMembers ids cs
  | _, [] => rfl
  | ids, c :: cs => by
    rw [unforcedAll, resetMembers, resetMembers, resetMembers_unforcedAll ids cs]
    simp only [resetMember_unforced]

end

theorem resetBlock_unforced (ids : IdSource) (c : Command α) :
    c.unforced.resetBlock ids = c.resetBlock ids := by
  cases c with
  | single h e => rfl
  | composite h d ms => exact resetMembers_unforcedAll ids ms

theorem resetBlock_congr {c c' : Command α} (h : c'.unforced = c.unforced) (ids : IdSource) :
    c'.resetBlock ids = c.resetBlock ids := by
  rw [← resetBlock_unforced, h, resetBlock_unforced]

theorem label_congr {c c' : Command α} (h : c'.unforced = c.unforced) : c'.label = c.label := by
  rw [← label_unforced, h, label_unforced]

/-- Force comes down from above only, and not to the top. -/
theorem forced_handedDown {c : Command α} (h : c.header.forced = false) :
    (handedDown false c).header.forced = false := by
  cases c with
  | single hd e =>
    show (hd.forced || false) = false
    rw [Bool.or_false]
    exact h
  | composite hd d ms => rfl

/-! ## The single commands -/

mutual

/-- Handing force down forces what is under a forced composite. -/
theorem leaves_handedDown : ∀ (under : Bool) (c : Command α),
    List.Forall₂ (fun d d' => d' = d ∨ d ∈ covered under c ∧ d' = d.force) c.leaves
      (handedDown under c).leaves
  | under, .single h e => by
    cases under with
    | false => exact .cons (.inl (by simp)) .nil
    | true => exact .cons (.inr ⟨by simp [covered], by simp [force, withHeader, header]⟩) .nil
  | under, .composite h d ms => leaves_handedDownAll (under || h.forced) ms

/-- Single commands are forced if a composite above them is, and else they stay as they are. -/
theorem leaves_handedDownAll : ∀ (under : Bool) (cs : List (Command α)),
    List.Forall₂ (fun d d' => d' = d ∨ d ∈ coveredAll under cs ∧ d' = d.force) (leavesAll cs)
      (leavesAll (handedDownAll under cs))
  | _, [] => .nil
  | under, c :: cs => by
    rw [handedDownAll, leavesAll, leavesAll, coveredAll]
    refine List.rel_append ((leaves_handedDown under c).imp ?_)
      ((leaves_handedDownAll under cs).imp ?_)
    · exact fun d d' => Or.imp_right fun h => ⟨List.mem_append_left _ h.1, h.2⟩
    · exact fun d d' => Or.imp_right fun h => ⟨List.mem_append_right _ h.1, h.2⟩

end

end Command

end SceneGuard
