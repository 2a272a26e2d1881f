import Mathlib.Data.List.Forall2

/-!
# Results

When a chain or a list of results that may fail is there and when it fails, and how a list of what
has happened so far is split when one thing more happens.
-/

namespace SceneGuard

variable {ε β γ : Type}

/-- Two steps succeed when the first does, and the second does with what it gave. -/
theorem bind_eq_ok {x : Except ε β} {f : β → Except ε γ} {c : γ} :
    (x >>= f) = .ok c ↔ ∃ b, x = .ok b ∧ f b = .ok c := by
  cases x <;> simp [bind, Except.bind]

theorem exists_bind_eq_ok {x : Except ε β} {f : β → Except ε γ} :
    (∃ c, (x >>= f) = .ok c) ↔ ∃ b, x = .ok b ∧ ∃ c, f b = .ok c := by
  simp only [bind_eq_ok, exists_and_left, @exists_comm γ]

/-- A result that is given succeeds as what it is. -/
theorem pure_eq_ok {b c : β} : (pure b : Except ε β) = .ok c ↔ b = c := by
  simp [pure, Except.pure]

/-- A last step that cannot fail does not bear on success. -/
theorem exists_bind_pure {x : Except ε β} {f : β → γ} :
    (∃ c, (x >>= fun b => pure (f b)) = .ok c) ↔ ∃ b, x = .ok b := by
  simp only [exists_bind_eq_ok, pure_eq_ok, exists_eq', and_true]

/-- A list of results is there when each of them is. -/
theorem mapM_eq_ok {f : β → Except ε γ} {l : List β} {out : List γ} :
    l.mapM f = .ok out ↔ List.Forall₂ (fun b c => f b = .ok c) l out := by
  induction l generalizing out with
  | nil => rw [List.mapM_nil, pure_eq_ok, List.forall₂_nil_left_iff, eq_comm]
  | cons b l ih =>
    rw [List.mapM_cons, bind_eq_ok, List.forall₂_cons_left_iff]
    constructor
    · rintro ⟨c, hc, h⟩
      obtain ⟨cs, hcs, h⟩ := bind_eq_ok.1 h
      exact ⟨c, cs, hc, ih.1 hcs, (pure_eq_ok.1 h).symm⟩
    · rintro ⟨c, cs, hc, hcs, rfl⟩
      exact ⟨c, hc, bind_eq_ok.2 ⟨cs, ih.2 hcs, rfl⟩⟩

/-- Two steps fail when the first does, or when it succeeds and the second does. -/
theorem bind_eq_error {x : Except ε β} {f : β → Except ε γ} {e : ε} :
    (x >>= f) = .error e ↔ x = .error e ∨ ∃ b, x = .ok b ∧ f b = .error e := by
  cases x <;> simp [bind, Except.bind]

/-- A list of results fails with the first that fails. -/
theorem mapM_eq_error {f : β → Except ε γ} {l : List β} {e : ε} :
    l.mapM f = .error e ↔
      ∃ before b after, l = before ++ b :: after ∧ (∀ b' ∈ before, ∃ c, f b' = .ok c) ∧
        f b = .error e := by
  induction l with
  | nil => simp [pure, Except.pure]
  | cons b l ih =>
    rw [List.mapM_cons, bind_eq_error]
    constructor
    · rintro (he | ⟨c, hc, he⟩)
      · exact ⟨[], b, l, rfl, by simp, he⟩
      · rcases bind_eq_error.1 he with he | ⟨cs, _, he⟩
        · obtain ⟨before, b', after, rfl, hbefore, he⟩ := ih.1 he
          exact ⟨b :: before, b', after, rfl, List.forall_mem_cons.2 ⟨⟨c, hc⟩, hbefore⟩, he⟩
        · cases he
    · rintro ⟨before, b', after, hl, hbefore, he⟩
      -- the first member fails, or a later one of the rest
      cases before with
      | nil =>
        obtain ⟨rfl, rfl⟩ := List.cons.inj hl
        exact .inl he
      | cons b'' before =>
        obtain ⟨rfl, rfl⟩ := List.cons.inj hl
        obtain ⟨⟨c, hc⟩, hbefore⟩ := List.forall_mem_cons.1 hbefore
        exact .inr ⟨c, hc, bind_eq_error.2 (.inl (ih.2 ⟨before, b', after, rfl, hbefore, he⟩))⟩

/-- A step for each item succeeds if each of the steps does. -/
theorem exists_mapM {f : β → Except ε γ} {l : List β} (h : ∀ b ∈ l, ∃ c, f b = .ok c) :
    ∃ out, l.mapM f = .ok out := by
  induction l with
  | nil => exact ⟨[], mapM_eq_ok.2 .nil⟩
  | cons b l ih =>
    obtain ⟨c, hc⟩ := h b List.mem_cons_self
    obtain ⟨out, hout⟩ := ih fun b' hb' => h b' (List.mem_cons_of_mem _ hb')
    exact ⟨c :: out, mapM_eq_ok.2 (.cons hc (mapM_eq_ok.1 hout))⟩

/-- Each result belongs to one of the items. -/
theorem exists_of_mem_forall₂ {R : β → γ → Prop} {l : List β} {out : List γ}
    (h : List.Forall₂ R l out) {c : γ} (hc : c ∈ out) : ∃ b ∈ l, R b c := by
  induction h with
  | nil => simp at hc
  | @cons b c' l out hb _ ih =>
    rcases List.mem_cons.1 hc with rfl | hc
    · exact ⟨b, List.mem_cons_self, hb⟩
    · obtain ⟨b', hb', h'⟩ := ih hc
      exact ⟨b', List.mem_cons_of_mem _ hb', h'⟩

/-- Each result comes from one of the items. -/
theorem exists_of_mem_mapM {f : β → Except ε γ} {l : List β} {out : List γ} (h : l.mapM f = .ok out)
    {c : γ} (hc : c ∈ out) : ∃ b ∈ l, f b = .ok c :=
  exists_of_mem_forall₂ (mapM_eq_ok.1 h) hc

theorem exists_mem_of_mapM {f : β → Except ε γ} {l : List β} {out : List γ} (h : l.mapM f = .ok out)
    {b : β} (hb : b ∈ l) : ∃ c ∈ out, f b = .ok c :=
  exists_of_mem_forall₂ (mapM_eq_ok.1 h).flip hb

/-- Where a list with one more at its end is split, the split is of the list itself,
or right before the end. -/
theorem split_concat {l before after : List β} {x y : β} (h : l ++ [x] = before ++ y :: after) :
    (before = l ∧ y = x ∧ after = []) ∨ ∃ after', after = after' ++ [x] ∧
      l = before ++ y :: after' := by
  rcases List.eq_nil_or_concat after with rfl | ⟨after', z, rfl⟩
  · obtain ⟨hbefore, hlast⟩ := List.append_inj' h rfl
    exact .inl ⟨hbefore.symm, (List.singleton_inj.1 hlast).symm, rfl⟩
  · rw [List.concat_eq_append, ← List.cons_append, ← List.append_assoc] at h
    obtain ⟨hl, hlast⟩ := List.append_inj' h rfl
    obtain rfl := List.singleton_inj.1 hlast
    exact .inr ⟨after', List.concat_eq_append, hl⟩

end SceneGuard
