import SceneGuard.Proofs.Json.Tokens

/-!
# Text read back

A document that is written and read again is the same document, whatever the breaks between items.
Three things are asked of it: its numbers are such that their text stands for them (`Json.Legible`),
the outline it is read by asks for all of it (`Json.Covered`), and lists and records do not stand in
one another deeper than the reader goes (`Document.depth`). Main statements:

* `Json.tokens?_write` — the tokens of what is written are those of the document;
* `Json.read?_write` — what is written is read back exactly when it is not too deep.
-/

namespace SceneGuard

namespace Json

/-!
## The tokens of a document

Tokens stand between a document and its text. Writing and reading are both compared with the tokens
of the document, and blanks and breaks play no part in either.
-/

/-- A float is printed and read back exactly, and as a float. -/
def Exact (x : Float) : Prop :=
  ∃ l, number? (floatText x).toList = some (l, []) ∧ l.toDocument? = some (.number x)

/-- Whether a float is printed and read back exactly, tried out. -/
def exactly (x : Float) : Bool :=
  match number? (floatText x).toList with
  | some (l, []) =>
    match l.toDocument? with
    | some (.number y) => decide (y = x)
    | _ => false
  | _ => false

/-- The test that is run says what exactness means. -/
theorem exactly_iff {x : Float} : exactly x = true ↔ Exact x := by
  unfold exactly
  constructor
  · intro h
    split at h
    · next l hl =>
      split at h
      · next y hy => exact ⟨l, hl, of_decide_eq_true h ▸ hy⟩
      · exact nomatch h
    · exact nomatch h
  · rintro ⟨l, hl, hx⟩
    simp [hl, hx]

instance : DecidablePred Exact := fun _ => decidable_of_iff _ exactly_iff

/-- The token of a float. -/
def floatTokens (x : Float) : List Token :=
  ((number? (floatText x).toList).map fun l => Token.number l.1).toList

/-- Lists of tokens with commas between them. -/
def separated : List (List Token) → List Token
  | [] => []
  | [ts] => ts
  | ts :: more => ts ++ .comma :: separated more

mutual

/-- The tokens that a document is written with. -/
def tokens : Document Float → List Token
  | .null => [.value .null]
  | .bool b => [.value (.bool b)]
  | .int n => [.number (wholeLiteral n)]
  | .number x => floatTokens x
  | .text s => [.text (spelled s)]
  | .list ds => .openList :: (separated (itemTokens ds) ++ [.closeList])
  | .record fs => .openRecord :: (separated (fieldTokens fs) ++ [.closeRecord])

/-- The tokens of each item of a list. -/
def itemTokens : List (Document Float) → List (List Token)
  | [] => []
  | d :: ds => tokens d :: itemTokens ds

/-- The tokens of each field of a record. -/
def fieldTokens : List (String × Document Float) → List (List Token)
  | [] => []
  | (name, d) :: fs => (.text (spelled name) :: .colon :: tokens d) :: fieldTokens fs

end

mutual

/-- Whole numbers are such of 64 bits, and floats are exact. -/
def Legible : Document Float → Prop
  | .int n => Int64.minValue.toInt ≤ n ∧ n < UInt64.size
  | .number x => Exact x
  | .list ds => LegibleItems ds
  | .record fs => LegibleFields fs
  | .null | .bool _ | .text _ => True

def LegibleItems : List (Document Float) → Prop
  | [] => True
  | d :: ds => Legible d ∧ LegibleItems ds

def LegibleFields : List (String × Document Float) → Prop
  | [] => True
  | (_, d) :: fs => Legible d ∧ LegibleFields fs

end

theorem legibleItems_iff {ds : List (Document Float)} : LegibleItems ds ↔ ∀ d ∈ ds, Legible d := by
  induction ds with
  | nil => simp [LegibleItems]
  | cons d ds ih => simp [LegibleItems, ih]

/-- A record is legible field by field, whatever the names are. -/
theorem legibleFields_iff {fs : List (String × Document Float)} :
    LegibleFields fs ↔ ∀ f ∈ fs, Legible f.2 := by
  induction fs with
  | nil => simp [LegibleFields]
  | cons f fs ih => simp [LegibleFields, ih]

/-! ## Writing -/

/-- All that a writer puts between items is blank to a reader. -/
theorem isBlank_of_mem_text {b : Breaks} {c : Char} (h : c ∈ b.text.toList) : isBlank c = true := by
  cases b with
  | none => simp [Breaks.text] at h
  | indented level =>
    simp only [Breaks.text, String.toList_append, String.toList_ofList, List.mem_append,
      List.mem_replicate] at h
    rcases h with h | ⟨_, rfl⟩
    · obtain rfl := List.mem_singleton.1 h
      rfl
    · rfl

/-- After an item comes a comma, a line break or the closing bracket. -/
theorem delimited_cons {c : Char} (cs : List Char) (hc : c ∈ [',', ']', '\x7d', '\n']) :
    Delimited (c :: cs) := by
  rintro _ ⟨⟩
  exact hc

/-- Blanks before something delimited do not make a number go on. -/
theorem delimited_text (b : Breaks) {cs : List Char} (h : Delimited cs) :
    Delimited (b.text.toList ++ cs) := by
  cases b with
  | none => exact h
  | indented level =>
    have htext : (Breaks.indented level).text.toList ++ cs =
        '\n' :: (List.replicate (2 * level) ' ' ++ cs) := by simp [Breaks.text]
    rw [htext]
    exact delimited_cons _ (by decide)

/-- The character is a token of its own. -/
def IsMark (c : Char) (t : Token) : Prop :=
  isBlank c = false ∧ ∀ fuel cs, token? fuel (c :: cs) = some (t, cs)

/-- A mark is one character and one token. -/
theorem Scans.mark {c : Char} {t : Token} {cs : List Char} {ts : List Token} (h : Scans cs ts)
    (hc : IsMark c t) : Scans (c :: cs) (t :: ts) :=
  h.token hc.1 (fun fuel _ => hc.2 fuel cs) (Nat.le_refl _)

/-- Items with commas between them spell their tokens with commas between them. -/
theorem Spells.items {b : Breaks} {items : List String} {tss : List (List Token)}
    (h : List.Forall₂ (fun s ts => Spells s.toList ts) items tss) {rest : List Char}
    {more : List Token} (hrest : Delimited rest) (hmore : Scans rest more) :
    Scans ((("," ++ b.text).intercalate items).toList ++ rest) (separated tss ++ more) := by
  -- on the items; a comma stands before each but the first
  induction h with
  | nil => exact hmore
  | @cons s ts items tss hs hitems ih =>
    cases hitems with
    | nil =>
      rw [String.intercalate_singleton]
      exact hs hrest hmore
    | @cons s' ts' items tss hs' hitems =>
      have htext : (("," ++ b.text).intercalate (s :: s' :: items)).toList ++ rest =
          s.toList ++ ',' ::
            (b.text.toList ++ ((("," ++ b.text).intercalate (s' :: items)).toList ++ rest)) := by
        rw [String.intercalate_cons_cons]
        simp
      rw [htext, separated, List.append_assoc]
      · exact hs (delimited_cons _ (by decide))
          ((ih.blanks fun _ => isBlank_of_mem_text).mark ⟨rfl, fun _ _ => rfl⟩)
      · simp

/-- Items between brackets, whatever is put between them. -/
theorem spells_enclose (b : Breaks) {left right : String} {l r : Char} {opened closed : Token}
    (hleft : left.toList = [l]) (hright : right.toList = [r]) (hopen : IsMark l opened)
    (hclose : IsMark r closed) (hdelimited : r ∈ [',', ']', '\x7d', '\n']) {items : List String}
    {tss : List (List Token)} (h : List.Forall₂ (fun s ts => Spells s.toList ts) items tss) :
    Spells (b.enclose left right items).toList (opened :: (separated tss ++ [closed])) := by
  intro rest more hrest hmore
  have hend : Scans (r :: rest) (closed :: more) := hmore.mark hclose
  unfold Breaks.enclose
  -- without items the brackets stand together, and no line is broken
  cases h with
  | nil =>
    have hboth : Scans (l :: r :: rest) (opened :: closed :: more) := hend.mark hopen
    simpa [separated, hleft, hright] using hboth
  | @cons s ts items tss hs hitems =>
    have hitems : Scans ((("," ++ b.inner.text).intercalate (s :: items)).toList ++
        (b.text.toList ++ r :: rest)) (separated (ts :: tss) ++ closed :: more) :=
      Spells.items (.cons hs hitems) (delimited_text b (delimited_cons rest hdelimited))
        (hend.blanks fun _ => isBlank_of_mem_text)
    have hall := (hitems.blanks fun _ => isBlank_of_mem_text (b := b.inner)).mark hopen
    simpa [hleft, hright] using hall

/-- A value with a name of its own. -/
theorem spells_named (b : Breaks) {d : Document Float} (c : Char) (cs : List Char)
    (htext : (write b d).toList = c :: cs) (htokens : tokens d = [.value d])
    (hc : isBlank c = false)
    (htoken : ∀ fuel rest, token? fuel (c :: (cs ++ rest)) = some (.value d, rest)) :
    Spells (write b d).toList (tokens d) := by
  intro rest more _ hmore
  rw [htext, htokens]
  exact hmore.token hc (fun fuel _ => htoken fuel rest) (by simp)

mutual

/-- What is written for a document is spelled with its tokens. -/
theorem spells_write (b : Breaks) (d : Document Float) (h : Legible d) :
    Spells (write b d).toList (tokens d) := by
  -- on the document; lists and records go through their items
  cases d with
  | null =>
    exact spells_named b 'n' ['u', 'l', 'l'] (by simp [write]) rfl rfl fun _ _ => rfl
  | bool x =>
    cases x with
    | false =>
      exact spells_named b 'f' ['a', 'l', 's', 'e'] (by simp [write]) rfl rfl fun _ _ => rfl
    | true =>
      exact spells_named b 't' ['r', 'u', 'e'] (by simp [write]) rfl rfl fun _ _ => rfl
  | int n => exact spells_number (number?_toString n)
  | number x =>
    obtain ⟨l, hl, _⟩ := h
    unfold tokens floatTokens
    rw [hl]
    exact spells_number hl
  | text s => exact fun _ _ _ hmore => hmore.text s
  | list ds =>
    unfold write tokens
    exact spells_enclose b (l := '[') (r := ']') (by simp) (by simp) ⟨rfl, fun _ _ => rfl⟩
      ⟨rfl, fun _ _ => rfl⟩ (by decide) (spells_writeItems b.inner ds h)
  | record fs =>
    unfold write tokens
    exact spells_enclose b (l := '\x7b') (r := '\x7d') (by simp) (by simp) ⟨rfl, fun _ _ => rfl⟩
      ⟨rfl, fun _ _ => rfl⟩ (by decide) (spells_writeFields b.inner fs h)

/-- The written items of a list spell their tokens, each of them. -/
theorem spells_writeItems (b : Breaks) (ds : List (Document Float)) (h : LegibleItems ds) :
    List.Forall₂ (fun s ts => Spells s.toList ts) (writeItems b ds) (itemTokens ds) := by
  cases ds with
  | nil => exact .nil
  | cons d ds => exact .cons (spells_write b d h.1) (spells_writeItems b ds h.2)

/-- The written fields of a record do, with their names and colons. -/
theorem spells_writeFields (b : Breaks) (fs : List (String × Document Float))
    (h : LegibleFields fs) :
    List.Forall₂ (fun s ts => Spells s.toList ts) (writeFields b fs) (fieldTokens fs) := by
  cases fs with
  | nil => exact .nil
  | cons f fs =>
    obtain ⟨name, d⟩ := f
    refine .cons (fun rest more hrest hmore => ?_) (spells_writeFields b fs h.2)
    have hd := spells_write b d h.1 hrest hmore
    -- the name, a colon, blanks, and the value
    have hcolon : Scans (':' :: (b.afterColon.toList ++ ((write b d).toList ++ rest)))
        (.colon :: (tokens d ++ more)) := by
      refine (hd.blanks fun c hc => ?_).token (by decide) (fun _ _ => rfl) (by simp)
      cases b with
      | none => simp [Breaks.afterColon] at hc
      | indented level =>
        obtain rfl : c = ' ' := by simpa [Breaks.afterColon] using hc
        rfl
    have hfield := hcolon.text name
    simpa using hfield

end

/-- What is written for a document has its tokens. -/
theorem tokens?_write (b : Breaks) {d : Document Float} (h : Legible d) :
    tokens? (write b d).toList = some (tokens d) := by
  have hscans : Scans ((write b d).toList ++ []) (tokens d ++ []) :=
    spells_write b d h (by simp [Delimited]) .nil
  simpa using hscans.tokens?

/-!
## Reading

The proof goes by induction on the document. The reader counts levels down, so where a bracket opens
it matters whether there is a level left.
-/

end Json

namespace Document

variable {α : Type}

mutual

/-- How deep lists and records stand in one another. -/
def depth : Document α → Nat
  | .list ds => depthItems ds + 1
  | .record fs => depthFields fs + 1
  | .null | .bool _ | .int _ | .number _ | .text _ => 0

def depthItems : List (Document α) → Nat
  | [] => 0
  | d :: ds => max (depth d) (depthItems ds)

def depthFields : List (String × Document α) → Nat
  | [] => 0
  | (_, d) :: fs => max (depth d) (depthFields fs)

end

/-- A list is as deep as its deepest item. -/
theorem depthItems_le_iff {ds : List (Document α)} {n : Nat} :
    depthItems ds ≤ n ↔ ∀ d ∈ ds, d.depth ≤ n := by
  induction ds with
  | nil => simp [depthItems]
  | cons d ds ih => rw [depthItems, Nat.max_le, ih, List.forall_mem_cons]

/-- A record is as deep as its deepest field. -/
theorem depthFields_le_iff {fs : List (String × Document α)} {n : Nat} :
    depthFields fs ≤ n ↔ ∀ f ∈ fs, f.2.depth ≤ n := by
  induction fs with
  | nil => simp [depthFields]
  | cons f fs ih => rw [depthFields, Nat.max_le, ih, List.forall_mem_cons]

end Document

namespace Json

mutual

/-- All of the document is asked for, and the names of its fields are read as they are. -/
def Covered (o : Outline) : Document Float → Prop
  | .list ds => CoveredItems o 0 ds
  | .record fs => CoveredFields o fs
  | .null | .bool _ | .int _ | .number _ | .text _ => True

def CoveredItems (o : Outline) (place : Nat) : List (Document Float) → Prop
  | [] => True
  | d :: ds => Covered (o.item place) d ∧ CoveredItems o (place + 1) ds

def CoveredFields (o : Outline) : List (String × Document Float) → Prop
  | [] => True
  | (name, d) :: fs =>
    (∃ inner, name? o (spelled name) = some name ∧ o.field? name = some inner ∧ Covered inner d) ∧
      CoveredFields o fs

end

/-- An outline covers a record when it asks for each field, by its name,
and covers what is in it. -/
theorem coveredFields_iff {o : Outline} {fs : List (String × Document Float)} :
    CoveredFields o fs ↔ ∀ f ∈ fs,
      ∃ inner, name? o (spelled f.1) = some f.1 ∧ o.field? f.1 = some inner ∧
        Covered inner f.2 := by
  induction fs with
  | nil => simp [CoveredFields]
  | cons f fs ih => rw [CoveredFields, ih, List.forall_mem_cons]

mutual

/-- An outline of everything asks for everything. -/
theorem covered_all (d : Document Float) : Covered .all d := by
  cases d with
  | list ds => exact coveredItems_all 0 ds
  | record fs => exact coveredFields_all fs
  | _ => exact trivial

/-- The outline that asks for everything covers every list. -/
theorem coveredItems_all (place : Nat) (ds : List (Document Float)) :
    CoveredItems .all place ds := by
  cases ds with
  | nil => exact trivial
  | cons d ds => exact ⟨covered_all d, coveredItems_all (place + 1) ds⟩

theorem coveredFields_all (fs : List (String × Document Float)) : CoveredFields .all fs := by
  cases fs with
  | nil => exact trivial
  | cons f fs =>
    obtain ⟨name, d⟩ := f
    exact ⟨⟨.all, text?_spelled name, rfl, covered_all d⟩, coveredFields_all fs⟩

end

/-- Behind an opening bracket come the items, one level deeper, if there is a level left. -/
theorem value_openList {ts : List Token} (h : ∀ r, ts ≠ .closeList :: r) (fuel depth : Nat)
    (o : Outline) :
    value (fuel + 1) depth o (.openList :: ts) =
      if depth = 0 then none
      else (items fuel (depth - 1) o [] ts).map fun (ds, rest) => (.list ds, rest) := by
  rw [value]
  exact h

/-- Behind an opening brace come the fields, likewise. -/
theorem value_openRecord {ts : List Token} (h : ∀ r, ts ≠ .closeRecord :: r) (fuel depth : Nat)
    (o : Outline) :
    value (fuel + 1) depth o (.openRecord :: ts) =
      if depth = 0 then none
      else (fields fuel (depth - 1) o [] ts).map fun (fs, rest) => (.record fs, rest) := by
  rw [value]
  exact h

/-- The first token of a document opens it, and closes nothing. -/
theorem tokens_ne_closeList {d : Document Float} (h : Legible d) (ts r : List Token) :
    tokens d ++ ts ≠ .closeList :: r := by
  cases d with
  | number x =>
    obtain ⟨l, hl, _⟩ := h
    simp [tokens, floatTokens, hl]
  | _ => simp [tokens]

/-- A list of items starts with its first item. -/
theorem separated_cons (ts : List Token) (tss : List (List Token)) :
    ∃ more, separated (ts :: tss) = ts ++ more := by
  cases tss with
  | nil => exact ⟨[], (List.append_nil ts).symm⟩
  | cons ts' tss => exact ⟨_, by rw [separated]; simp⟩

/-- The tokens of a list that is not empty are read item by item. -/
theorem value_list {d : Document Float} (hd : Legible d) (ds : List (Document Float))
    (fuel depth : Nat) (o : Outline) (rest : List Token) :
    value (fuel + 1) depth o (tokens (.list (d :: ds)) ++ rest) =
      if depth = 0 then none
      else (items fuel (depth - 1) o []
        (separated (itemTokens (d :: ds)) ++ .closeList :: rest)).map
        fun (ds, rest) => (.list ds, rest) := by
  have htokens : tokens (.list (d :: ds)) ++ rest =
      .openList :: (separated (itemTokens (d :: ds)) ++ .closeList :: rest) := by simp [tokens]
  rw [htokens]
  refine value_openList (fun r => ?_) fuel depth o
  obtain ⟨more, hmore⟩ := separated_cons (tokens d) (itemTokens ds)
  rw [itemTokens, hmore, List.append_assoc]
  exact tokens_ne_closeList hd _ _

/-- The tokens of a record that is not empty are read field by field. -/
theorem value_record (f : String × Document Float) (fs : List (String × Document Float))
    (fuel depth : Nat) (o : Outline) (rest : List Token) :
    value (fuel + 1) depth o (tokens (.record (f :: fs)) ++ rest) =
      if depth = 0 then none
      else (fields fuel (depth - 1) o []
        (separated (fieldTokens (f :: fs)) ++ .closeRecord :: rest)).map
        fun (fs, rest) => (.record fs, rest) := by
  have htokens : tokens (.record (f :: fs)) ++ rest =
      .openRecord :: (separated (fieldTokens (f :: fs)) ++ .closeRecord :: rest) := by simp [tokens]
  rw [htokens]
  refine value_openRecord (fun r => ?_) fuel depth o
  obtain ⟨more, hmore⟩ := separated_cons (.text (spelled f.1) :: .colon :: tokens f.2)
    (fieldTokens fs)
  rw [fieldTokens, hmore]
  simp

mutual

/-- From its tokens a document is read back, if lists and records do not
stand in one another too deep. -/
theorem value_tokens (d : Document Float) (hd : Legible d) {o : Outline}
    (ho : Covered o d) {fuel : Nat} (hfuel : 2 * (tokens d).length ≤ fuel) (depth : Nat)
    (rest : List Token) :
    value fuel depth o (tokens d ++ rest) = if d.depth ≤ depth then some (d, rest) else none := by
  cases fuel with
  | zero =>
    -- no fuel would mean no tokens, and every document has one
    have hlength : (tokens d).length = 0 := by omega
    have hnil : tokens d ++ [.closeList] = .closeList :: [] := by
      rw [List.eq_nil_of_length_eq_zero hlength]
      rfl
    exact absurd hnil (tokens_ne_closeList hd _ _)
  | succ fuel =>
    cases d with
    | null => simp [tokens, value, Document.depth]
    | bool x => simp [tokens, value, Document.depth]
    | int n => simp [tokens, value, Document.depth, toDocument?_wholeLiteral hd.1 hd.2]
    | number x =>
      obtain ⟨l, hl, hread⟩ := hd
      simp [tokens, floatTokens, value, Document.depth, hl, hread]
    | text s => simp [tokens, value, Document.depth, text?_spelled]
    | list ds =>
      cases ds with
      | nil =>
        cases depth <;> simp [tokens, itemTokens, separated, value, Document.depth,
          Document.depthItems]
      | cons d ds =>
        have hlength : 2 * (separated (itemTokens (d :: ds))).length < fuel := by
          simp only [tokens, List.length_cons, List.length_append] at hfuel
          omega
        rw [value_list hd.1, items_tokens (d :: ds) (by simp) hd [] ho hlength (depth - 1) rest,
          Document.depth]
        cases depth with
        | zero => simp
        | succ depth => by_cases hdepth : Document.depthItems (d :: ds) ≤ depth <;> simp [hdepth]
    | record fs =>
      cases fs with
      | nil =>
        cases depth <;> simp [tokens, fieldTokens, separated, value, Document.depth,
          Document.depthFields]
      | cons f fs =>
        have hlength : 2 * (separated (fieldTokens (f :: fs))).length < fuel := by
          simp only [tokens, List.length_cons, List.length_append] at hfuel
          omega
        rw [value_record, fields_tokens (f :: fs) (by simp) hd [] ho hlength (depth - 1) rest,
          Document.depth]
        cases depth with
        | zero => simp
        | succ depth => by_cases hdepth : Document.depthFields (f :: fs) ≤ depth <;> simp [hdepth]

/-- The items are read back up to the closing bracket, behind those that were read before. -/
theorem items_tokens (ds : List (Document Float)) (hne : ds ≠ []) (hds : LegibleItems ds)
    {o : Outline} (acc : List (Document Float)) (ho : CoveredItems o acc.length ds) {fuel : Nat}
    (hfuel : 2 * (separated (itemTokens ds)).length < fuel) (depth : Nat) (rest : List Token) :
    items fuel depth o acc (separated (itemTokens ds) ++ .closeList :: rest) =
      if Document.depthItems ds ≤ depth then some (acc.reverse ++ ds, rest) else none := by
  cases fuel with
  | zero => omega
  | succ fuel =>
    cases ds with
    | nil => exact absurd rfl hne
    | cons d ds =>
      cases ds with
      | nil =>
        have hlength : 2 * (tokens d).length ≤ fuel := Nat.le_of_lt_succ hfuel
        rw [items, itemTokens, itemTokens, separated, value_tokens d hds.1 ho.1 hlength]
        by_cases hdepth : d.depth ≤ depth <;> simp [hdepth, Document.depthItems]
      -- a comma follows, so the rest is read from the same outline
      | cons d' ds =>
        simp only [itemTokens, separated, List.length_append, List.length_cons] at hfuel
        have hlength : 2 * (tokens d).length ≤ fuel := by omega
        have hrest : 2 * (separated (itemTokens (d' :: ds))).length < fuel := by
          simp only [itemTokens]
          omega
        have htokens : separated (itemTokens (d :: d' :: ds)) ++ .closeList :: rest =
            tokens d ++ .comma :: (separated (itemTokens (d' :: ds)) ++ .closeList :: rest) := by
          simp [itemTokens, separated]
        have hitems := items_tokens (d' :: ds) (by simp) hds.2 (d :: acc) ho.2 hrest depth rest
        rw [htokens, items, value_tokens d hds.1 ho.1 hlength, Document.depthItems]
        simp only [Nat.max_le]
        by_cases hdepth : d.depth ≤ depth
        · simp only [hdepth, if_true, true_and, hitems]
          simp
        · simp [hdepth]

/-- The fields are read back up to the closing brace, behind those that were read before. -/
theorem fields_tokens (fs : List (String × Document Float)) (hne : fs ≠ [])
    (hfs : LegibleFields fs) {o : Outline} (acc : Fields) (ho : CoveredFields o fs) {fuel : Nat}
    (hfuel : 2 * (separated (fieldTokens fs)).length < fuel) (depth : Nat) (rest : List Token) :
    fields fuel depth o acc (separated (fieldTokens fs) ++ .closeRecord :: rest) =
      if Document.depthFields fs ≤ depth then some (acc.reverse ++ fs, rest) else none := by
  cases fuel with
  | zero => omega
  | succ fuel =>
    cases fs with
    | nil => exact absurd rfl hne
    | cons f fs =>
      obtain ⟨name, d⟩ := f
      obtain ⟨⟨inner, hname, hinner, hd⟩, ho⟩ := ho
      cases fs with
      | nil =>
        have hlength : 2 * (tokens d).length ≤ fuel := by
          simp only [fieldTokens, separated, List.length_cons] at hfuel
          omega
        have htokens : separated (fieldTokens [(name, d)]) ++ .closeRecord :: rest =
            .text (spelled name) :: .colon :: (tokens d ++ .closeRecord :: rest) := by
          simp [fieldTokens, separated]
        rw [htokens, fields]
        simp only [hname, hinner]
        rw [value_tokens d hfs.1 hd hlength]
        by_cases hdepth : d.depth ≤ depth <;> simp [hdepth, Document.depthFields]
      -- a comma follows, so the rest is read from the same outline
      | cons f' fs =>
        simp only [fieldTokens, separated, List.length_append, List.length_cons] at hfuel
        have hlength : 2 * (tokens d).length ≤ fuel := by omega
        have hrest : 2 * (separated (fieldTokens (f' :: fs))).length < fuel := by
          simp only [fieldTokens]
          omega
        have htokens : separated (fieldTokens ((name, d) :: f' :: fs)) ++ .closeRecord :: rest =
            .text (spelled name) :: .colon ::
              (tokens d ++ .comma ::
                (separated (fieldTokens (f' :: fs)) ++ .closeRecord :: rest)) := by
          simp [fieldTokens, separated]
        have hfields := fields_tokens (f' :: fs) (by simp) hfs.2 ((name, d) :: acc) ho
          hrest depth rest
        rw [htokens, fields]
        simp only [hname, hinner]
        rw [value_tokens d hfs.1 hd hlength, Document.depthFields]
        simp only [Nat.max_le]
        by_cases hdepth : d.depth ≤ depth
        · simp only [hdepth, if_true, true_and, Option.map_some, hfields]
          simp
        · simp [hdepth]

end

/--
What is written is read back, as far as it is asked for and lists and records do not stand in one
another too deep; deeper ones are not read at all.
-/
theorem read?_write (b : Breaks) {d : Document Float} (hd : Legible d) {o : Outline}
    (ho : Covered o d) : read? o (write b d) = if d.depth ≤ maxDepth then some d else none := by
  have hlength : 2 * (tokens d).length ≤ 2 * (tokens d).length + 2 := Nat.le_add_right _ _
  have hvalue := value_tokens d hd ho hlength maxDepth []
  rw [List.append_nil] at hvalue
  unfold read?
  rw [tokens?_write b hd]
  simp only [Option.bind_eq_bind, Option.bind_some]
  rw [hvalue]
  split <;> rfl

end Json

end SceneGuard
