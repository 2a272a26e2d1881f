import SceneGuard.Proofs.Speculation.Snapshots

/-!
# Abandoned transactions

A transaction that is dropped puts back every entity it changed, and shares the pocket with whoever
stashed something before it was opened. An entity that had no snapshot then stands as it stood,
however often it was changed. An entity that had one goes back to that, and the snapshot is gone:
what became of the entity between the stash and the transaction is lost. `drop_stageAll` says what
is left of the transaction, and when that is nothing.
-/

namespace SceneGuard

namespace Transaction

variable {α : Type}

/--
**What is left of a transaction that is dropped**, whatever was staged in it, and however often. An
entity that was not staged, or had no snapshot when the transaction was opened, is as it was, and so
is what the pocket has for it. One that was staged and had a snapshot goes back to that, and leaves
the pocket. So nothing is left of the transaction exactly when nothing was staged that had a
snapshot.
-/
theorem drop_stageAll (w : WorkingSet α) (ss : List (Surrogate α)) :
    let left := (stageAll { working := w } ss).drop
    left.epsilon = w.epsilon ∧
    (∀ id, (w.pocket.get? id = none ∨ ∀ s ∈ ss, s.id ≠ id) →
      left.get? id = w.get? id ∧ left.pocket.get? id = w.pocket.get? id) ∧
    (∀ s ∈ ss, ∀ snapshot, w.pocket.get? s.id = some snapshot →
      left.get? s.id = snapshot ∧ left.pocket.get? s.id = none) ∧
    (left = w ↔ ∀ s ∈ ss, w.pocket.get? s.id = none) := by
  intro left
  have hopened : Opened w (stageAll { working := w } ss) := (opened_start w).stageAll ss
  have htouched : ∀ id, id ∈ (stageAll { working := w } ss).touched ↔
      ∃ s ∈ ss, s.id = id := fun id => by
    rw [mem_touched_stageAll, List.mem_map]
    exact or_iff_right List.not_mem_nil
  -- one fact about every id staged, whether it had a snapshot before or not
  have hstaged : ∀ s ∈ ss, left.get? s.id = (w.pocket.get? s.id).getD (w.get? s.id) ∧
      left.pocket.get? s.id = none := fun s hs => by
    have hin := (htouched s.id).2 ⟨s, hs, rfl⟩
    exact ⟨(hopened.get?_drop s.id).trans (if_pos hin),
      (hopened.pocket_drop s.id).trans (if_pos hin)⟩
  refine ⟨hopened.epsilon_drop, fun id hid => ?_, fun s hs snapshot hsnapshot => ?_,
    fun hleft s hs => ?_, fun hnew => hopened.drop_eq fun id hid => ?_⟩
  · by_cases hin : ∃ s ∈ ss, s.id = id
    · obtain ⟨s, hs, rfl⟩ := hin
      have hnone := hid.resolve_right fun hout => hout s hs rfl
      obtain ⟨hget, hpocket⟩ := hstaged s hs
      rw [hget, hpocket, hnone, Option.getD_none]
      exact ⟨rfl, rfl⟩
    · have hout := mt (htouched id).1 hin
      exact ⟨(hopened.get?_drop id).trans (if_neg hout),
        (hopened.pocket_drop id).trans (if_neg hout)⟩
  · obtain ⟨hget, hpocket⟩ := hstaged s hs
    rw [hget, hsnapshot, Option.getD_some]
    exact ⟨rfl, hpocket⟩
  · -- what was staged has no snapshot afterwards
    rw [← hleft]
    exact (hstaged s hs).2
  · obtain ⟨s, hs, rfl⟩ := (htouched id).1 hid
    exact hnew s hs

/-- The yard with the box pushed on, after a snapshot of it was taken where it was before. -/
def pushedYard : WorkingSet Float := (yard.stash 1).add (box 1 5)

/-- Staged and dropped once, the pushed box is back where the snapshot has it,
and the snapshot is gone. -/
theorem not_drop_stageAll :
    ¬∀ (w : WorkingSet Float) (ss : List (Surrogate Float)),
      (stageAll { working := w } ss).drop.surrogates = w.surrogates ∧
        (stageAll { working := w } ss).drop.pocket = w.pocket := by
  intro h
  have hgone : ((stageAll { working := pushedYard } [box 1 7]).drop.pocket.contains 1) = false := by
    decide
  have hthere : pushedYard.pocket.contains 1 = true := by decide
  rw [(h pushedYard [box 1 7]).2, hthere] at hgone
  cases hgone

/-- A second box that is staged on the way leaves nothing behind, while the pushed one goes back. -/
theorem drop_stageAll_pushedYard :
    let left := (stageAll { working := pushedYard } [box 1 7, box 2 0, box 1 9]).drop
    pushedYard.pocket.get? 1 = some (some (box 1 0)) ∧ left.get? 1 = some (box 1 0) ∧
      left.pocket.get? 1 = none ∧ pushedYard.pocket.get? 2 = none ∧ left.get? 2 = none := by
  obtain ⟨_, hleave, hback, _⟩ := drop_stageAll pushedYard [box 1 7, box 2 0, box 1 9]
  have hheld : pushedYard.pocket.get? 1 = some (some (box 1 0)) := rfl
  have hnew : pushedYard.pocket.get? 2 = none := rfl
  have hfirst := hback (box 1 7) List.mem_cons_self (some (box 1 0)) hheld
  have hnone : pushedYard.get? 2 = none := rfl
  exact ⟨hheld, hfirst.1, hfirst.2, hnew, (hleave 2 (.inl hnew)).1.trans hnone⟩

end Transaction

end SceneGuard
