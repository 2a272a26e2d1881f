/-!
# Tables

A table holds at most one value per key and lists its entries by ascending key. The order is part of
the type, so a table is settled by its look-ups (`Table.ext_get?`).
-/

namespace SceneGuard

/-- Keys that are placed in one line by `<`. -/
class LinearKey (κ : Type) [LT κ] : Prop where
  irrefl : ∀ a : κ, ¬a < a
  trans : ∀ {a b c : κ}, a < b → b < c → a < c
  connex : ∀ a b : κ, a < b ∨ a = b ∨ b < a

instance : LinearKey UInt64 where
  irrefl := UInt64.lt_irrefl
  trans := UInt64.lt_trans
  connex a b := by
    simp only [UInt64.lt_iff_toNat_lt, ← UInt64.toNat_inj]
    omega

instance : LinearKey String where
  irrefl := String.lt_irrefl
  trans := String.lt_trans
  connex a b := Std.lt_trichotomy a b

/-- Entries by strictly ascending key. -/
structure Table (κ ν : Type) [LT κ] where
  entries : List (κ × ν)
  ascending : entries.Pairwise fun a b => a.1 < b.1

namespace Table

/-! ## Entry lists -/

namespace Entries

variable {κ ν : Type} [DecidableEq κ]

/-- The value of the first entry with a key. -/
def get? (k : κ) : List (κ × ν) → Option ν
  | [] => none
  | (k', v) :: rest => if k = k' then some v else get? k rest

/-- Leave out every entry with a key. -/
def erase (k : κ) : List (κ × ν) → List (κ × ν)
  | [] => []
  | (k', v) :: rest => if k = k' then erase k rest else (k', v) :: erase k rest

/-- Put an entry in front of the first greater key, in place of an entry with its own key. -/
def insert [LT κ] [DecidableLT κ] (k : κ) (v : ν) : List (κ × ν) → List (κ × ν)
  | [] => [(k, v)]
  | (k', v') :: rest =>
    if k < k' then (k, v) :: (k', v') :: rest
    else if k = k' then (k, v) :: rest
    else (k', v') :: insert k v rest

theorem mem_erase {k : κ} {e : κ × ν} {es : List (κ × ν)} (h : e ∈ erase k es) : e ∈ es := by
  induction es with
  | nil => simp [erase] at h
  | cons x rest ih =>
    obtain ⟨k', v'⟩ := x
    simp only [erase] at h
    split at h
    · exact List.mem_cons_of_mem _ (ih h)
    · rcases List.mem_cons.1 h with h | h
      · exact h ▸ List.mem_cons_self
      · exact List.mem_cons_of_mem _ (ih h)

/-- What is looked up is one of the entries. -/
theorem mem_of_get?_eq_some {k : κ} {v : ν} {es : List (κ × ν)} (h : get? k es = some v) :
    (k, v) ∈ es := by
  induction es with
  | nil => simp [get?] at h
  | cons x rest ih =>
    obtain ⟨k', v'⟩ := x
    simp only [get?] at h
    split at h
    · next he => obtain rfl := he; simp_all
    · exact List.mem_cons_of_mem _ (ih h)

/-- Erasing a key leaves what is under the others. -/
theorem get?_erase (k k' : κ) (es : List (κ × ν)) :
    get? k' (erase k es) = if k' = k then none else get? k' es := by
  induction es with
  | nil => simp [erase, get?]
  | cons x rest ih =>
    obtain ⟨k₀, v₀⟩ := x
    by_cases h₀ : k = k₀
    · subst h₀
      by_cases hk : k' = k <;> simp_all [erase, get?]
    · by_cases hk : k' = k₀
      · subst hk; simp [erase, get?, h₀, Ne.symm h₀]
      · simp [erase, get?, h₀, hk, ih]

variable [LT κ] [DecidableLT κ]

/-- Inserting adds one entry and no other. -/
theorem mem_insert {k : κ} {v : ν} {e : κ × ν} {es : List (κ × ν)} (h : e ∈ insert k v es) :
    e = (k, v) ∨ e ∈ es := by
  induction es with
  | nil => simpa [insert] using h
  | cons x rest ih =>
    obtain ⟨k', v'⟩ := x
    simp only [insert] at h
    split at h
    · simpa using h
    · split at h
      · exact (List.mem_cons.1 h).imp_right (List.mem_cons_of_mem _)
      · rcases List.mem_cons.1 h with h | h
        · exact .inr (h ▸ List.mem_cons_self)
        · exact (ih h).imp_right (List.mem_cons_of_mem _)

/-- An inserted value is under its key, and what is under other keys stays. -/
theorem get?_insert (k k' : κ) (v : ν) (es : List (κ × ν)) :
    get? k' (insert k v es) = if k' = k then some v else get? k' es := by
  induction es with
  | nil => simp [insert, get?]
  | cons x rest ih =>
    obtain ⟨k₀, v₀⟩ := x
    simp only [insert]
    split
    · simp [get?]
    · split
      · next h => subst h; by_cases hk : k' = k <;> simp [get?, hk]
      · next h =>
        by_cases hk : k' = k₀
        · subst hk; simp [get?, Ne.symm h]
        · simp [get?, hk, ih]

variable [LinearKey κ]

/-- Inserting keeps the keys ascending: the entry goes before the first greater key. -/
theorem pairwise_insert (k : κ) (v : ν) {es : List (κ × ν)}
    (hs : es.Pairwise fun a b => a.1 < b.1) : (insert k v es).Pairwise fun a b => a.1 < b.1 := by
  induction es with
  | nil => simp [insert]
  | cons x rest ih =>
    obtain ⟨k', v'⟩ := x
    have ⟨hx, hr⟩ := List.pairwise_cons.1 hs
    simp only [insert]
    split
    · next h =>
      refine List.pairwise_cons.2 ⟨fun e he => ?_, hs⟩
      rcases List.mem_cons.1 he with rfl | he
      · exact h
      · exact LinearKey.trans h (hx e he)
    · split
      · next h => exact List.pairwise_cons.2 ⟨fun e he => h ▸ hx e he, hr⟩
      · next h₁ h₂ =>
        refine List.pairwise_cons.2 ⟨fun e he => ?_, ih hr⟩
        rcases mem_insert he with rfl | he
        · exact ((LinearKey.connex k k').resolve_left h₁).resolve_left h₂
        · exact hx e he

omit [DecidableLT κ] [LinearKey κ] in
theorem pairwise_erase (k : κ) {es : List (κ × ν)} (hs : es.Pairwise fun a b => a.1 < b.1) :
    (erase k es).Pairwise fun a b => a.1 < b.1 := by
  induction es with
  | nil => simp [erase]
  | cons x rest ih =>
    obtain ⟨k', v'⟩ := x
    have ⟨hx, hr⟩ := List.pairwise_cons.1 hs
    simp only [erase]
    split
    · exact ih hr
    · exact List.pairwise_cons.2 ⟨fun e he => hx e (mem_erase he), ih hr⟩

omit [DecidableLT κ] in
/-- Where keys ascend there is one entry for each, and look-up finds it. -/
theorem get?_eq_some_of_mem {k : κ} {v : ν} {es : List (κ × ν)}
    (hs : es.Pairwise fun a b => a.1 < b.1) (h : (k, v) ∈ es) : get? k es = some v := by
  induction es with
  | nil => simp at h
  | cons x rest ih =>
    obtain ⟨k', v'⟩ := x
    rcases List.mem_cons.1 h with h | h
    · obtain ⟨rfl, rfl⟩ := Prod.mk.inj h; simp [get?]
    · have hlt : k' < k := (List.pairwise_cons.1 hs).1 _ h
      have hne : k ≠ k' := fun he => LinearKey.irrefl k (he ▸ hlt)
      simpa [get?, hne] using ih (List.pairwise_cons.1 hs).2 h

omit [DecidableEq κ] [DecidableLT κ] in
/-- Ascending lists with the same entries are equal. -/
theorem eq_of_mem_iff {es fs : List (κ × ν)} (hes : es.Pairwise fun a b => a.1 < b.1)
    (hfs : fs.Pairwise fun a b => a.1 < b.1) (h : ∀ e, e ∈ es ↔ e ∈ fs) : es = fs := by
  induction es generalizing fs with
  | nil =>
    cases fs with
    | nil => rfl
    | cons y r' => exact absurd ((h y).2 List.mem_cons_self) List.not_mem_nil
  | cons x r ih =>
    cases fs with
    | nil => exact absurd ((h x).1 List.mem_cons_self) List.not_mem_nil
    | cons y r' =>
      have ⟨hx, hr⟩ := List.pairwise_cons.1 hes
      have ⟨hy, hr'⟩ := List.pairwise_cons.1 hfs
      -- each head stands before everything else in its own list, so the heads are the same entry
      have hxy : x = y := by
        rcases List.mem_cons.1 ((h x).1 List.mem_cons_self) with hxy | hxr'
        · exact hxy
        · rcases List.mem_cons.1 ((h y).2 List.mem_cons_self) with hyx | hyr
          · exact hyx.symm
          · exact absurd (LinearKey.trans (hx y hyr) (hy x hxr')) (LinearKey.irrefl _)
      subst hxy
      refine congrArg (x :: ·) (ih hr hr' fun e => ⟨fun he => ?_, fun he => ?_⟩)
      · exact (List.mem_cons.1 ((h e).1 (List.mem_cons_of_mem _ he))).resolve_left
          fun hex => LinearKey.irrefl _ (hex ▸ hx e he)
      · exact (List.mem_cons.1 ((h e).2 (List.mem_cons_of_mem _ he))).resolve_left
          fun hex => LinearKey.irrefl _ (hex ▸ hy e he)

end Entries

/-! ## Operations -/

section Operations

variable {κ ν : Type} [LT κ]

/-- The proof that the keys ascend does not tell tables apart. -/
theorem ext_entries {s t : Table κ ν} (h : s.entries = t.entries) : s = t := by
  cases s; cases t; cases h; rfl

/-- The table without entries. -/
def empty : Table κ ν := ⟨[], .nil⟩

instance : EmptyCollection (Table κ ν) := ⟨empty⟩

instance : Inhabited (Table κ ν) := ⟨empty⟩

instance [DecidableEq κ] [DecidableEq ν] : DecidableEq (Table κ ν) := fun s t =>
  decidable_of_iff (s.entries = t.entries) ⟨ext_entries, fun h => h ▸ rfl⟩

instance [BEq κ] [BEq ν] : BEq (Table κ ν) := ⟨fun s t => s.entries == t.entries⟩

/-- The keys, ascending. -/
def keys (t : Table κ ν) : List κ := t.entries.map Prod.fst

/-- The number of entries. -/
def size (t : Table κ ν) : Nat := t.entries.length

/-- Whether there is no entry. -/
def isEmpty (t : Table κ ν) : Bool := t.entries.isEmpty

variable [DecidableEq κ]

/-- The value under a key. -/
def get? (t : Table κ ν) (k : κ) : Option ν := Entries.get? k t.entries

/-- Whether there is a value under a key. -/
def contains (t : Table κ ν) (k : κ) : Bool := (t.get? k).isSome

variable [DecidableLT κ] [LinearKey κ]

/-- Put a value under a key, over the one there. -/
def insert (t : Table κ ν) (k : κ) (v : ν) : Table κ ν :=
  ⟨Entries.insert k v t.entries, Entries.pairwise_insert k v t.ascending⟩

/-- Take out what is under a key, if anything is. -/
def erase (t : Table κ ν) (k : κ) : Table κ ν :=
  ⟨Entries.erase k t.entries, Entries.pairwise_erase k t.ascending⟩

/-- Change the value under a key. Without one nothing happens. -/
def modify (t : Table κ ν) (k : κ) (f : ν → ν) : Table κ ν :=
  match t.get? k with
  | some v => t.insert k (f v)
  | none => t

/-- The entries one after the other; of two with one key the later stays. -/
def ofList (es : List (κ × ν)) : Table κ ν :=
  es.foldl (fun t e => t.insert e.1 e.2) empty

end Operations

/-! ## Look-ups -/

section LookUps

variable {κ ν : Type} [LT κ] [DecidableEq κ]

@[simp] theorem get?_empty (k : κ) : (empty : Table κ ν).get? k = none := rfl

variable [DecidableLT κ] [LinearKey κ]

theorem get?_insert (t : Table κ ν) (k k' : κ) (v : ν) :
    (t.insert k v).get? k' = if k' = k then some v else t.get? k' :=
  Entries.get?_insert k k' v t.entries

/-- The key just inserted has its new value. -/
@[simp] theorem get?_insert_self (t : Table κ ν) (k : κ) (v : ν) :
    (t.insert k v).get? k = some v := by
  simp [get?_insert]

omit [DecidableLT κ] [LinearKey κ] in
theorem get?_erase (t : Table κ ν) (k k' : κ) :
    (t.erase k).get? k' = if k' = k then none else t.get? k' :=
  Entries.get?_erase k k' t.entries

/-- A change under a key that is not there is none. -/
theorem get?_modify (t : Table κ ν) (k k' : κ) (f : ν → ν) :
    (t.modify k f).get? k' = if k' = k then (t.get? k).map f else t.get? k' := by
  unfold modify
  by_cases hk : k' = k
  · subst hk; cases h : t.get? k' <;> simp [h]
  · cases h : t.get? k <;> simp [get?_insert, hk]

omit [DecidableLT κ] in
/-- Look-up and entries say the same, since keys ascend. -/
theorem get?_eq_some_iff (t : Table κ ν) (k : κ) (v : ν) :
    t.get? k = some v ↔ (k, v) ∈ t.entries :=
  ⟨Entries.mem_of_get?_eq_some, Entries.get?_eq_some_of_mem t.ascending⟩

omit [DecidableLT κ] in
/-- The keys are those that something is under. -/
theorem mem_keys_iff (t : Table κ ν) (k : κ) : k ∈ t.keys ↔ t.contains k = true := by
  simp only [contains, Option.isSome_iff_exists, get?_eq_some_iff, keys, List.mem_map]
  exact ⟨fun ⟨⟨_, v⟩, h, hk⟩ => ⟨v, hk ▸ h⟩, fun ⟨v, h⟩ => ⟨(k, v), h, rfl⟩⟩

omit [DecidableLT κ] in
/-- Tables are told apart by look-up, and so by nothing else. -/
theorem ext_get? {s t : Table κ ν} (h : ∀ k, s.get? k = t.get? k) : s = t :=
  ext_entries (Entries.eq_of_mem_iff s.ascending t.ascending fun (k, v) => by
    rw [← get?_eq_some_iff s, ← get?_eq_some_iff t, h])

end LookUps

end Table

end SceneGuard
