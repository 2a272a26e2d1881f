import Mathlib.Data.List.Forall2
import SceneGuard.Model.Reset
import SceneGuard.Proofs.Scene.Commands

/-!
# Reset blocks

What is superseded has no part in taking an edit back: a reset block is that of the edit without it
(`resetBlock_pruned`). Of what is left, the block takes the single commands back in reverse, one by
one (`takesBack_resetBlock`), and so makes their edits turned around (`edits_resetBlock`).
-/

namespace SceneGuard

variable {α : Type}

namespace Command

mutual

/-- What is left of a command without what is superseded. -/
def living? : Command α → Option (Command α)
  | .single h e => if h.dying then none else some (.single h e)
  | .composite h d ms => if h.dying then none else some (.composite h d (livingAll ms))

/-- What is left of each command of a list. -/
def livingAll : List (Command α) → List (Command α)
  | [] => []
  | c :: cs => (living? c).toList ++ livingAll cs

end

/-- An edit without what is superseded. Of one that is superseded itself
the empty composite is left. -/
def pruned (c : Command α) : Command α := (living? c).getD (.composite { id := c.id } c.label [])

mutual

/-- Whatever stands under a superseded composite is superseded itself. -/
def diesWhole : Command α → Bool
  | .single .. => true
  | .composite h _ ms => (!h.dying || (leavesAll ms).all (·.header.dying)) && allDieWhole ms

/-- The same of each command of a list. -/
def allDieWhole : List (Command α) → Bool
  | [] => true
  | c :: cs => diesWhole c && allDieWhole cs

end

/-- To prune a command does not force it. -/
theorem forced_pruned {c : Command α} (h : c.header.forced = false) :
    c.pruned.header.forced = false := by
  unfold pruned
  cases c with
  | single hd e => rw [living?]; split <;> first | rfl | exact h
  | composite hd d ms => rw [living?]; split <;> first | rfl | exact h

mutual

/-- Where what is superseded is so as a whole, the live leaves are those not superseded. -/
theorem leaves_living? : ∀ {c : Command α}, c.diesWhole = true →
    leavesAll c.living?.toList = c.leaves.filter fun d => !d.header.dying
  | .single h e, _ => by
    cases hd : h.dying <;> simp [living?, leaves, leavesAll, header, hd]
  | .composite h d ms, hwhole => by
    rw [diesWhole, Bool.and_eq_true] at hwhole
    cases hd : h.dying with
    | false =>
      have hleaves := leaves_livingAll hwhole.2
      simp [living?, hd, leavesAll, leaves, hleaves]
    | true =>
      have hdying : ∀ d ∈ leavesAll ms, d.header.dying = true := by simpa [hd] using hwhole.1
      simp only [living?, hd, if_true, Option.toList_none, leavesAll, leaves]
      exact (List.filter_eq_nil_iff.2 fun d hd => by simp [hdying d hd]).symm

theorem leaves_livingAll : ∀ {cs : List (Command α)}, allDieWhole cs = true →
    leavesAll (livingAll cs) = (leavesAll cs).filter fun d => !d.header.dying
  | [], _ => rfl
  | c :: cs, hwhole => by
    rw [allDieWhole, Bool.and_eq_true] at hwhole
    have hc := leaves_living? hwhole.1
    have hcs := leaves_livingAll hwhole.2
    rw [livingAll, leavesAll, List.filter_append, ← hc, ← hcs]
    cases c.living? <;> simp [leavesAll]

end

/-- The single commands of the pruned edit are those that are not superseded. -/
theorem leaves_pruned {c : Command α} (hwhole : c.diesWhole = true) :
    c.pruned.leaves = c.leaves.filter fun d => !d.header.dying := by
  rw [← leaves_living? hwhole, pruned]
  cases c.living? with
  | none => rfl
  | some d => simp [leavesAll]

mutual

/-- What is superseded has no reset, so to leave it out makes no difference. -/
theorem resetMember_living? : ∀ (ids : IdSource) (c : Command α),
    (c.living?.elim (none, ids) (resetMember ids) : Option (Command α) × IdSource) =
      resetMember ids c
  | ids, .single h e => by cases hd : h.dying <;> simp [living?, resetMember, hd]
  | ids, .composite h d ms => by
    have hms := resetMembers_livingAll ids ms
    cases hd : h.dying <;> simp [living?, resetMember, hd, hms]

theorem resetMembers_livingAll : ∀ (ids : IdSource) (cs : List (Command α)),
    resetMembers ids (livingAll cs) = resetMembers ids cs
  | _, [] => rfl
  | ids, c :: cs => by
    have hcs := resetMembers_livingAll ids cs
    have hc := resetMember_living? (resetMembers ids cs).2 c
    cases hl : c.living? with
    | none =>
      rw [hl] at hc
      simp [livingAll, hl, resetMembers, hcs, ← hc]
    | some d =>
      rw [hl] at hc
      simp [livingAll, hl, resetMembers, hcs, ← hc]

end

mutual

/-- If all leaves are superseded nothing is reset. -/
theorem resetMember_of_dying : ∀ (ids : IdSource) {c : Command α},
    (∀ d ∈ c.leaves, d.header.dying = true) → resetMember ids c = (none, ids)
  | ids, .single h e, hdying => by
    have hd : h.dying = true := hdying (.single h e) (by simp [leaves])
    simp [resetMember, hd]
  | ids, .composite h d ms, hdying => by
    have hms := resetMembers_of_dying ids hdying
    cases hd : h.dying <;> simp [resetMember, hd, hms]

theorem resetMembers_of_dying : ∀ (ids : IdSource) {cs : List (Command α)},
    (∀ d ∈ leavesAll cs, d.header.dying = true) → resetMembers ids cs = ([], ids)
  | _, [], _ => rfl
  | ids, c :: cs, hdying => by
    have hcs : resetMembers ids cs = ([], ids) :=
      resetMembers_of_dying ids fun d hd => hdying d (by simp [leavesAll, hd])
    have hc : resetMember (resetMembers ids cs).2 c = (none, (resetMembers ids cs).2) :=
      resetMember_of_dying _ fun d hd => hdying d (by simp [leavesAll, hd])
    rw [hcs] at hc
    simp [resetMembers, hcs, hc]

end

theorem resetBlock_pruned {c : Command α} (hwhole : c.diesWhole = true) (ids : IdSource) :
    c.pruned.resetBlock ids = c.resetBlock ids := by
  cases c with
  | single h e =>
    cases hd : h.dying <;> simp [pruned, living?, resetBlock, resetMembers, resetMember, hd]
  | composite h d ms =>
    rw [diesWhole, Bool.and_eq_true] at hwhole
    cases hd : h.dying with
    | false => simp [pruned, living?, resetBlock, hd, resetMembers_livingAll]
    | true =>
      have hdying : ∀ d ∈ leavesAll ms, d.header.dying = true := by simpa [hd] using hwhole.1
      simp [pruned, living?, resetBlock, hd, resetMembers_of_dying ids hdying, resetMembers]

/-! ## What a reset block takes back -/

/-- The single commands of a list that have something to go back to:
none of what is superseded, no adds and no removes. -/
def revertibles (cs : List (Command α)) : List (Command α) :=
  (leavesAll (livingAll cs)).filter fun d => !d.kind.isAddOrRemove

/-- The single commands that are to be taken back with an edit.
The flags of a composite itself do not matter. -/
def toRevert : Command α → List (Command α)
  | .single h e => revertibles [.single h e]
  | .composite _ _ ms => revertibles ms

/-- The second command is the first one set back to its values before, under a header of its own. -/
def TakesBack (d d' : Command α) : Prop := d' = d.resetToStart.withHeader d'.header

/-- What can be taken back is collected command by command. -/
theorem revertibles_cons (c : Command α) (cs : List (Command α)) :
    revertibles (c :: cs) = revertibles [c] ++ revertibles cs := by
  simp [revertibles, livingAll, leavesAll_eq_flatMap]

/-- Nothing superseded has anything to go back to. -/
theorem revertibles_of_dying {c : Command α} (h : c.header.dying = true) :
    revertibles [c] = [] := by
  have hliving : c.living? = none := by cases c <;> exact if_pos h
  simp [revertibles, livingAll, hliving, leavesAll]

/-- A single command can be taken back unless it adds or removes. -/
theorem revertibles_single {h : Header} (hd : h.dying = false) (e : Edit α) :
    revertibles [.single h e] = if e.kind.isAddOrRemove then [] else [.single h e] := by
  cases hkind : e.kind.isAddOrRemove <;>
    simp [revertibles, livingAll, living?, hd, leavesAll, leaves, kind, hkind]

/-- In a composite it is what can be taken back of its members. -/
theorem revertibles_composite {h : Header} (hd : h.dying = false) (d : String)
    (ms : List (Command α)) : revertibles [.composite h d ms] = revertibles ms := by
  simp [revertibles, livingAll, living?, hd, leavesAll, leaves]

mutual

/-- A member of the block takes back, in reverse, what can be taken back of its command. -/
theorem takesBack_resetMember (ids : IdSource) (c : Command α) :
    List.Forall₂ TakesBack (revertibles [c]).reverse (leavesAll (resetMember ids c).1.toList) := by
  cases hd : c.header.dying with
  | true =>
    have hnone : (resetMember ids c).1 = none := by
      cases c <;> simp_all [resetMember, header]
    rw [revertibles_of_dying hd, hnone]
    exact .nil
  | false =>
    cases c with
    | single h e =>
      replace hd : h.dying = false := hd
      rw [revertibles_single hd, resetMember, hd, Bool.false_or]
      split
      · exact .nil
      · exact .cons rfl .nil
    | composite h d ms =>
      replace hd : h.dying = false := hd
      have hms := takesBack_resetMembers ids ms
      rw [revertibles_composite hd, resetMember, hd]
      -- without anything to take back the composite is gone, and with it no leaf
      rcases hblock : resetMembers ids ms with ⟨_ | ⟨b, bs⟩, ids'⟩ <;> rw [hblock] at hms
      · exact hms
      · simpa [leavesAll, leaves] using hms

/-- The last single command is taken back first. -/
theorem takesBack_resetMembers (ids : IdSource) (cs : List (Command α)) :
    List.Forall₂ TakesBack (revertibles cs).reverse (leavesAll (resetMembers ids cs).1) := by
  cases cs with
  | nil => exact .nil
  | cons c cs =>
    have hleaves : leavesAll (resetMembers ids (c :: cs)).1 = leavesAll (resetMembers ids cs).1 ++
        leavesAll (resetMember (resetMembers ids cs).2 c).1.toList := by
      simp [resetMembers, leavesAll_eq_flatMap]
    rw [revertibles_cons, List.reverse_append, hleaves]
    exact List.rel_append (takesBack_resetMembers ids cs) (takesBack_resetMember _ c)

end

theorem takesBack_resetBlock (ids : IdSource) (c : Command α) :
    List.Forall₂ TakesBack c.toRevert.reverse (leavesAll (c.resetBlock ids).1) := by
  cases c with
  | single h e => exact takesBack_resetMember ids (.single h e)
  | composite h d ms => exact takesBack_resetMembers ids ms

/-! ## The edits of a reset block -/

/-- The edits that have something to go back to. -/
def revertible (es : List (Edit α)) : List (Edit α) := es.filter fun e => !e.kind.isAddOrRemove

/-- The edits that can be taken back are those of live members that neither add nor remove. -/
theorem edits_revertibles (cs : List (Command α)) :
    (revertibles cs).filterMap Command.edit? = revertible (editsAll (livingAll cs)) := by
  unfold revertibles revertible editsAll
  rw [List.filter_filterMap, List.filterMap_filter]
  refine congrArg (List.filterMap · _) (funext fun d => ?_)
  cases d with
  | single h e =>
    cases hkind : e.kind.isAddOrRemove <;> simp [kind, Command.edit?, Option.filter, hkind]
  | composite h d ms => simp [kind, Command.edit?, CommandKind.isAddOrRemove]

/-- What takes a command back resets its edit. -/
theorem edits_of_takesBack {ds ds' : List (Command α)} (h : List.Forall₂ TakesBack ds ds') :
    ds'.filterMap Command.edit? = (ds.filterMap Command.edit?).map Edit.reset := by
  induction h with
  | nil => rfl
  | @cons d d' ds ds' hd _ ih =>
    have hedit : d'.edit? = d.edit?.map Edit.reset := by
      rw [hd]
      cases d <;> rfl
    rw [List.filterMap_cons, List.filterMap_cons, ih, hedit]
    cases d.edit? <;> rfl

/-- Where nothing is superseded, the block turns the edits around in reverse. -/
theorem edits_resetBlock {c : Command α} (hlive : c.living? = some c) (ids : IdSource) :
    editsAll (c.resetBlock ids).1 = (revertible c.edits).reverse.map Edit.reset := by
  have hedits : c.toRevert.filterMap Command.edit? = revertible c.edits := by
    cases c with
    | single h e =>
      rw [toRevert, edits_revertibles]
      simp [livingAll, hlive, editsAll_cons]
    | composite h d ms =>
      have hms : livingAll ms = ms := by
        rw [living?] at hlive
        split at hlive
        · cases hlive
        · simpa using hlive
      rw [toRevert, edits_revertibles, hms, edits_composite]
  rw [editsAll, edits_of_takesBack (takesBack_resetBlock ids c), List.filterMap_reverse, hedits]

/-- Without adds and removes, those are all edits of the edit. -/
theorem edits_block {c : Command α} (hlive : c.living? = some c)
    (hkinds : ∀ e ∈ c.edits, e.kind.isAddOrRemove = false) (ids : IdSource) :
    editsAll (c.resetBlock ids).1 = c.edits.reverse.map Edit.reset := by
  have hall : revertible c.edits = c.edits := List.filter_eq_self.2 fun e he => by
    simp [hkinds e he]
  rw [edits_resetBlock hlive, hall]

end Command

end SceneGuard
