import Mathlib.Data.List.Basic
import SceneGuard.Json.Read
import SceneGuard.Json.Write

/-!
# The tokens of written text

A text is scanned (`Json.Scans`) token by token, with any blanks in between. What is written for a
text or a number spells the token of that text or number (`Json.Spells`), whatever may follow it.
Main statements:

* `spelling?_escape`, `Scans.text` — a text in quotes spells itself;
* `number?_append`, `spells_number` — a number goes on where nothing follows that could belong to
  it;
* `number?_toString`, `toDocument?_wholeLiteral` — whole numbers of 64 bits are read back.
-/

namespace SceneGuard

/-! ## Digits -/

namespace Digits

/-- The digits of a number are read as that number. -/
theorem toNat_toDigits (n : Nat) : toNat (Nat.toDigits 10 n) = n := by
  have hfold : (fun (n : Nat) (c : Char) => n * 10 + value c) =
      fun n c => 10 * n + (c.toNat - '0'.toNat) := by
    funext n c
    rw [Nat.mul_comm, value]
  rw [toNat, hfold]
  exact Nat.ofDigitChars_ten_toDigits

theorem isDigit_of_mem_toDigits {n : Nat} {c : Char} (h : c ∈ Nat.toDigits 10 n) :
    c.isDigit = true :=
  Nat.isDigit_of_mem_toDigits (by decide) (by decide) h

/-- Only zero is written with a zero in front. -/
theorem eq_zero_of_head?_toDigits {n : Nat} (h : (Nat.toDigits 10 n).head? = some '0') : n = 0 := by
  induction n using Nat.strongRecOn with
  | _ n ih =>
    rw [Nat.toDigits_eq_if (by decide)] at h
    split at h
    · simpa using h
    · rw [List.head?_append_of_ne_nil _ Nat.toDigits_ne_nil] at h
      have := ih (n / 10) (by omega) h
      omega

/-- There is no zero too many in front of the digits of a number. -/
theorem proper_toDigits (n : Nat) :
    ((Nat.toDigits 10 n).isEmpty ||
      ((Nat.toDigits 10 n).head? = some '0' && 1 < (Nat.toDigits 10 n).length)) = false := by
  have hne : (Nat.toDigits 10 n).isEmpty = false := by simp
  rw [hne, Bool.false_or, Bool.and_eq_false_iff]
  by_cases hhead : (Nat.toDigits 10 n).head? = some '0'
  · rw [eq_zero_of_head?_toDigits hhead]
    exact .inr rfl
  · exact .inl (decide_eq_false hhead)

/-- Digits end where something else begins. -/
theorem split_append (cs : List Char) {rest : List Char} (h : ∀ c ∈ rest.head?, c.isDigit = false) :
    split (cs ++ rest) = ((split cs).1, (split cs).2 ++ rest) := by
  induction cs with
  | nil =>
    cases rest with
    | nil => rfl
    | cons c rest => simp [split, h c (by simp)]
  | cons c cs ih =>
    simp only [split, Prod.mk.injEq] at ih
    simp only [split, List.cons_append, List.takeWhile_cons, List.dropWhile_cons]
    cases c.isDigit with
    | false => rfl
    | true => simp [ih]

/-- Where all are digits, all of them are split off. -/
theorem split_of_all {cs : List Char} (h : ∀ c ∈ cs, c.isDigit = true) : split cs = (cs, []) := by
  induction cs with
  | nil => rfl
  | cons c cs ih =>
    have hcs := ih fun x hx => h x (List.mem_cons_of_mem _ hx)
    simp only [split, Prod.mk.injEq] at hcs
    simp [split, h c List.mem_cons_self, hcs]

end Digits

namespace Json

/-!
## Numbers

Nothing marks the end of a number: a reader goes on for as long as it can. So each part of a number
is shown to end where something delimited follows.
-/

/-- What follows is no part of a number. -/
def Delimited (rest : List Char) : Prop := ∀ c ∈ rest.head?, c ∈ [',', ']', '\x7d', '\n']

/-- What follows a number is no character that a number could go on with. -/
theorem Delimited.head {rest : List Char} (h : Delimited rest) {c : Char} (hc : c ∈ rest.head?) :
    c.isDigit = false ∧ c ≠ '-' ∧ c ≠ '.' ∧ c ≠ 'e' ∧ c ≠ 'E' := by
  have hmem := h c hc
  simp only [List.mem_cons, List.not_mem_nil, or_false] at hmem
  rcases hmem with rfl | rfl | rfl | rfl <;> decide

/-- A number is a sign, digits without a zero too many in front, a fraction and a power of ten. -/
theorem number?_eq_some {cs : List Char} {l : Literal} {rest : List Char} :
    number? cs = some (l, rest) ↔ ∃ cs₁ cs₂, (sign cs).1 = l.negative ∧
      Digits.split (sign cs).2 = (l.whole, cs₁) ∧
      (l.whole.isEmpty || (l.whole.head? = some '0' && 1 < l.whole.length)) = false ∧
      fraction? cs₁ = some (l.fraction, cs₂) ∧ power? cs₂ = some (l.power, rest) := by
  unfold number?
  simp only
  -- a whole part that is empty or starts with a spare zero is refused outright
  split
  · next hwhole =>
    constructor
    · rintro ⟨⟩
    · rintro ⟨cs₁, cs₂, _, hsplit, hproper, _⟩
      rw [hsplit, hproper] at hwhole
      cases hwhole
  · next hwhole =>
    constructor
    · intro h
      obtain ⟨⟨fraction, cs₂⟩, hfraction, h⟩ := Option.bind_eq_some_iff.1 h
      obtain ⟨⟨power, rest'⟩, hpower, h⟩ := Option.bind_eq_some_iff.1 h
      cases h
      exact ⟨_, cs₂, rfl, rfl, by simpa using hwhole, hfraction, hpower⟩
    · rintro ⟨cs₁, cs₂, hsign, hsplit, _, hfraction, hpower⟩
      rw [hsplit, hsign]
      refine Option.bind_eq_some_iff.2 ⟨_, hfraction, Option.bind_eq_some_iff.2 ⟨_, hpower, rfl⟩⟩

/-- Without a point there is no fraction, and nothing is read. -/
theorem fraction?_of_ne {cs : List Char} (h : ∀ c ∈ cs.head?, c ≠ '.') :
    fraction? cs = some (none, cs) := by
  rw [fraction?]
  rintro r rfl
  exact h '.' rfl rfl

/-- Without an `e` there is no power of ten. -/
theorem power?_of_ne {cs : List Char} (h : ∀ c ∈ cs.head?, c ≠ 'e' ∧ c ≠ 'E') :
    power? cs = some (none, cs) := by
  rw [power?]
  · rintro r rfl
    exact (h 'e' rfl).1 rfl
  · rintro r rfl
    exact (h 'E' rfl).2 rfl

/-- A fraction ends where it ended before something delimited was put behind it. -/
theorem fraction?_append {cs rest r : List Char} {fraction : Option (List Char)}
    (hrest : Delimited rest) (h : fraction? cs = some (fraction, r)) :
    fraction? (cs ++ rest) = some (fraction, r ++ rest) := by
  unfold fraction? at h
  split at h
  · next cs =>
    rw [List.cons_append, fraction?, Digits.split_append _ fun _ hc => (hrest.head hc).1]
    generalize Digits.split cs = ds at h
    obtain ⟨ds, rest'⟩ := ds
    cases ds with
    | nil => cases h
    | cons d ds => cases h; rfl
  · next hcs =>
    cases h
    -- no fraction before means none after: what follows does not start with a point
    refine fraction?_of_ne fun c hc => ?_
    cases cs with
    | nil => exact (hrest.head hc).2.2.1
    | cons c' cs =>
      cases hc
      rintro rfl
      exact hcs cs rfl

/-- The sign of a power is one of its first characters. -/
theorem powerSign_append {c : Char} (cs rest : List Char) :
    powerSign (c :: cs ++ rest) = ((powerSign (c :: cs)).1, (powerSign (c :: cs)).2 ++ rest) := by
  -- three cases of the first character: a minus, a plus, neither
  have hother : ∀ cs : List Char, c ≠ '-' → c ≠ '+' → powerSign (c :: cs) = (false, c :: cs) := by
    intro cs hminus hplus
    rw [powerSign]
    · rintro r ⟨⟩
      exact hminus rfl
    · rintro r ⟨⟩
      exact hplus rfl
  by_cases hminus : c = '-'
  · subst hminus
    rfl
  · by_cases hplus : c = '+'
    · subst hplus
      rfl
    · rw [hother cs hminus hplus, List.cons_append, hother _ hminus hplus]

theorem exponent?_append {cs rest r : List Char} {power : Int} (hrest : Delimited rest)
    (h : exponent? cs = some (power, r)) : exponent? (cs ++ rest) = some (power, r ++ rest) := by
  cases cs with
  | nil => cases h
  | cons c cs =>
    unfold exponent? at h ⊢
    rw [powerSign_append]
    dsimp only at h ⊢
    rw [Digits.split_append _ fun _ hc => (hrest.head hc).1]
    generalize Digits.split (powerSign (c :: cs)).2 = ds at h
    obtain ⟨ds, rest'⟩ := ds
    cases ds with
    | nil => cases h
    | cons d ds => cases h; rfl

theorem power?_append {cs rest r : List Char} {power : Option Int} (hrest : Delimited rest)
    (h : power? cs = some (power, r)) : power? (cs ++ rest) = some (power, r ++ rest) := by
  unfold power? at h
  split at h
  · obtain ⟨⟨n, r'⟩, hn, h⟩ := Option.map_eq_some_iff.1 h
    cases h
    rw [List.cons_append, power?, exponent?_append hrest hn]
    rfl
  · obtain ⟨⟨n, r'⟩, hn, h⟩ := Option.map_eq_some_iff.1 h
    cases h
    rw [List.cons_append, power?, exponent?_append hrest hn]
    rfl
  · next hlower hupper =>
    cases h
    -- what follows a number is not an exponent letter either
    refine power?_of_ne fun c hc => ?_
    cases cs with
    | nil => exact (hrest.head hc).2.2.2
    | cons c' cs =>
      cases hc
      exact ⟨fun hc => hlower cs (hc ▸ rfl), fun hc => hupper cs (hc ▸ rfl)⟩

/-- The sign of a number is its first character, and nothing delimited has one to take for it. -/
theorem sign_append {cs rest : List Char} (hrest : Delimited rest) :
    sign (cs ++ rest) = ((sign cs).1, (sign cs).2 ++ rest) := by
  have hother : ∀ cs : List Char, (∀ c ∈ cs.head?, c ≠ '-') → sign cs = (false, cs) := by
    intro cs h
    rw [sign]
    rintro r rfl
    exact h '-' rfl rfl
  cases cs with
  | nil => exact hother rest fun c hc => (hrest.head hc).2.1
  | cons c cs =>
    by_cases hc : c = '-'
    · subst hc
      rfl
    · rw [hother (c :: cs) (by simpa using hc), List.cons_append, hother _ (by simpa using hc)]

/-- A number ends where something else begins. -/
theorem number?_append {cs : List Char} {l : Literal} {rest r : List Char} (hrest : Delimited rest)
    (h : number? cs = some (l, r)) : number? (cs ++ rest) = some (l, r ++ rest) := by
  obtain ⟨cs₁, cs₂, hsign, hsplit, hproper, hfraction, hpower⟩ := number?_eq_some.1 h
  refine number?_eq_some.2 ⟨cs₁ ++ rest, cs₂ ++ rest, ?_, ?_, hproper,
    fraction?_append hrest hfraction, power?_append hrest hpower⟩
  · rw [sign_append hrest, hsign]
  · rw [sign_append hrest, Digits.split_append _ fun _ hc => (hrest.head hc).1, hsplit]

/-- How a whole number is written. -/
def wholeLiteral (n : Int) : Literal := ⟨n < 0, Nat.toDigits 10 n.natAbs, none, none⟩

/-- A whole number, written in digits, is read as the literal it is. -/
theorem number?_toString (n : Int) : number? (toString n).toList = some (wholeLiteral n, []) := by
  have hsplit : Digits.split (Nat.toDigits 10 n.natAbs) = (Nat.toDigits 10 n.natAbs, []) :=
    Digits.split_of_all fun c => Digits.isDigit_of_mem_toDigits
  have hproper := Digits.proper_toDigits n.natAbs
  suffices hsign : sign (toString n).toList = (decide (n < 0), Nat.toDigits 10 n.natAbs) by
    exact number?_eq_some.2 ⟨[], [], by rw [hsign]; rfl, by rw [hsign]; exact hsplit,
      hproper, rfl, rfl⟩
  rw [Int.toString_eq_repr, Int.repr_eq_if]
  by_cases hn : 0 ≤ n
  · have htext : n.toNat = n.natAbs := by omega
    have hpos : decide (n < 0) = false := by simpa using hn
    rw [if_pos hn, Nat.toList_repr, htext, hpos, sign]
    -- the first digit is no sign
    intro rest hrest
    have hmem : '-' ∈ Nat.toDigits 10 n.natAbs := by simp [hrest]
    exact absurd (Digits.isDigit_of_mem_toDigits hmem) (by decide)
  · have htext : (-n).toNat = n.natAbs := by omega
    have hneg : decide (n < 0) = true := by simpa using hn
    rw [if_neg hn, String.toList_append, Nat.toList_repr, htext, hneg]
    rfl

/-- Whole numbers of 64 bits, with a sign or without, read back. -/
theorem toDocument?_wholeLiteral {n : Int} (hmin : Int64.minValue.toInt ≤ n)
    (hmax : n < UInt64.size) : (wholeLiteral n).toDocument? = some (.int n) := by
  have hvalue : Digits.toNat (wholeLiteral n).whole = n.natAbs := Digits.toNat_toDigits _
  have hmin : -9223372036854775808 ≤ n := hmin
  have hmax : n < 18446744073709551616 := hmax
  have hnofloat : ((wholeLiteral n).fraction.isSome || (wholeLiteral n).power.isSome) = false := rfl
  rw [Literal.toDocument?, hnofloat, hvalue]
  -- signed below zero, unsigned from zero on
  by_cases hn : n < 0
  · have hsign : (wholeLiteral n).negative = true := decide_eq_true hn
    have hrange :
        (decide (n.natAbs ≠ 0) && decide (n.natAbs ≤ Int64.minValue.toInt.natAbs)) = true := by
      have hmin : Int64.minValue.toInt.natAbs = 9223372036854775808 := by decide
      rw [Bool.and_eq_true, decide_eq_true_eq, decide_eq_true_eq, hmin]
      omega
    have hback : -(n.natAbs : Int) = n := by omega
    rw [hsign]
    simp only [Bool.not_true, Bool.false_and, Bool.false_eq_true, if_false, Bool.true_and, hrange,
      if_true, hback]
  · have hsign : (wholeLiteral n).negative = false := decide_eq_false hn
    have hrange : n.natAbs ≤ maxSignificand := by
      show n.natAbs ≤ 18446744073709551615
      omega
    have hback : (n.natAbs : Int) = n := by omega
    rw [hsign]
    simp only [Bool.not_false, Bool.true_and, decide_true, Bool.false_eq_true, if_false, hrange,
      if_true, hback]

/-!
## Texts

What is written for a character is read as that character, and what follows is left alone. A text is
that, character by character.
-/

/-- A character that needs no escape. -/
def isPlain (c : Char) : Bool := escape c == [c]

theorem isPlain_of_isDigit {c : Char} (h : c.isDigit = true) : isPlain c = true := by
  have hzero : 48 ≤ c.toNat := by
    simp only [Char.isDigit, Bool.and_eq_true, decide_eq_true_eq] at h
    exact h.1
  unfold isPlain escape
  split
  iterate 7 exact absurd h (by decide)
  have hprintable : ¬c.toNat < 0x20 := by omega
  simp [hprintable]

/-- A text as the writer spells it. -/
def spelled (s : String) : Spelling := ⟨s.toList.map some, s.toList.all isPlain⟩

/-- A text is spelled with escapes and read back without them. -/
theorem text?_spelled (s : String) : (spelled s).text? = some s := by
  have hchars : ∀ cs : List Char, (cs.map some).mapM id = some cs := by
    intro cs
    induction cs with
    | nil => rfl
    | cons c cs ih => rw [List.map_cons, List.mapM_cons, ih]; rfl
  rw [Spelling.text?, spelled, hchars, Option.map_some, String.ofList_toList]

/-- The four digits in an escape stand for the character. -/
theorem unicode?_control {c : Char} (hc : c.toNat < 0x20) (rest : List Char) :
    unicode? (List.replicate (4 - (Nat.toDigits 16 c.toNat).length) '0' ++ Nat.toDigits 16
      c.toNat ++ rest) =
      some (some c, rest) := by
  have hdigits : ∀ n < 0x20, ∃ a b c d,
      List.replicate (4 - (Nat.toDigits 16 n).length) '0' ++ Nat.toDigits 16 n = [a, b, c, d] ∧
        Digits.hexToNat? [a, b, c, d] = some n := by
    -- thirty-two codes, each by evaluation
    have hfour : ∀ n < 0x20,
        (List.replicate (4 - (Nat.toDigits 16 n).length) '0' ++ Nat.toDigits 16 n).length = 4 ∧
          Digits.hexToNat? (List.replicate (4 - (Nat.toDigits 16 n).length) '0' ++
            Nat.toDigits 16 n) =
            some n := by decide
    intro n hn
    obtain ⟨hlength, hvalue⟩ := hfour n hn
    obtain ⟨a, b, c, d, hl⟩ := List.length_eq_four.1 hlength
    exact ⟨a, b, c, d, hl, hl ▸ hvalue⟩
  obtain ⟨a, b, c', d, hl, hvalue⟩ := hdigits c.toNat hc
  have hsmall : c.toNat < 0xD800 := by omega
  rw [hl, unicode?]
  simp [unit?, hvalue, hsmall]

/-- What is written for a character is read as that character. -/
theorem spelling?_step (c : Char) (fuel : Nat) (acc : List (Option Char)) (plain : Bool)
    (rest : List Char) :
    spelling? (fuel + 1) acc plain (escape c ++ rest) =
      spelling? fuel (some c :: acc) (plain && isPlain c) rest := by
  unfold isPlain
  unfold escape
  split
  -- the seven characters with short escapes, then the others
  iterate 7 · simp [spelling?, shortEscape?]
  · split
    · next hc =>
      simp only [List.cons_append, List.nil_append]
      rw [spelling?, unicode?_control hc]
      simp
    · next hquote hbackslash _ _ _ _ _ hc =>
      have hbackslash : c ≠ '\\' := hbackslash
      rw [List.singleton_append, spelling?]
      · simp [hc, hbackslash]
      · exact hquote
      · exact fun _ h _ => hbackslash h
      · exact fun _ _ h _ => hbackslash h

/-- A text in quotes spells itself, and what follows the closing quote is left. -/
theorem spelling?_escape (cs : List Char) {fuel : Nat} (hfuel : cs.length < fuel)
    (acc : List (Option Char)) (plain : Bool) (rest : List Char) :
    spelling? fuel acc plain (cs.flatMap escape ++ '"' :: rest) =
      some (⟨acc.reverse ++ cs.map some, plain && cs.all isPlain⟩, rest) := by
  induction cs generalizing fuel acc plain with
  | nil =>
    obtain ⟨fuel, rfl⟩ := Nat.exists_eq_succ_of_ne_zero (Nat.ne_of_gt hfuel)
    simp [spelling?]
  | cons c cs ih =>
    obtain ⟨fuel, rfl⟩ :=
      Nat.exists_eq_succ_of_ne_zero (Nat.ne_of_gt (Nat.lt_of_le_of_lt (Nat.zero_le _) hfuel))
    rw [List.flatMap_cons, List.append_assoc, spelling?_step, ih (by simpa using hfuel)]
    simp [Bool.and_assoc]

/-! ## Tokens -/

/-- The tokens are those of the text. -/
def Scans (cs : List Char) (ts : List Token) : Prop :=
  ∀ fuel acc, cs.length ≤ fuel → tokensFrom fuel acc cs = some (acc.reverse ++ ts)

/-- What is scanned step by step is what the scanner finds. -/
theorem Scans.tokens? {cs : List Char} {ts : List Token} (h : Scans cs ts) : tokens? cs = some ts :=
  h cs.length [] (Nat.le_refl _)

theorem Scans.nil : Scans [] [] := by
  intro fuel acc _
  cases fuel <;> simp [tokensFrom]

theorem Scans.blank {c : Char} {cs : List Char} {ts : List Token} (hc : isBlank c = true)
    (h : Scans cs ts) : Scans (c :: cs) ts := by
  intro fuel acc hfuel
  cases fuel with
  | zero => simp at hfuel
  | succ fuel =>
    have hcs := h (fuel + 1) acc (Nat.le_of_succ_le (by simpa using hfuel))
    rw [← hcs, tokensFrom, tokensFrom, List.dropWhile_cons_of_pos hc]

theorem Scans.blanks {bs cs : List Char} {ts : List Token} (hbs : ∀ c ∈ bs, isBlank c = true)
    (h : Scans cs ts) : Scans (bs ++ cs) ts := by
  induction bs with
  | nil => exact h
  | cons c bs ih =>
    exact (ih fun x hx => hbs x (List.mem_cons_of_mem _ hx)).blank (hbs c List.mem_cons_self)

/-- A token at the front, where the rest has its tokens. -/
theorem Scans.token {c : Char} {cs rest : List Char} {t : Token} {ts : List Token}
    (h : Scans rest ts) (hc : isBlank c = false)
    (htoken : ∀ fuel, (c :: cs).length ≤ fuel → token? fuel (c :: cs) = some (t, rest))
    (hrest : rest.length ≤ cs.length) : Scans (c :: cs) (t :: ts) := by
  intro fuel acc hfuel
  cases fuel with
  | zero => simp at hfuel
  | succ fuel =>
    have hcs : cs.length ≤ fuel := by simpa using hfuel
    rw [tokensFrom, List.dropWhile_cons_of_neg (by simp [hc])]
    simp only
    rw [htoken (fuel + 1) hfuel]
    simp only
    rw [h fuel (t :: acc) (Nat.le_trans hrest hcs)]
    simp

/-- The text and its tokens at the front of any text that does not go on with a number. -/
def Spells (cs : List Char) (ts : List Token) : Prop :=
  ∀ ⦃rest : List Char⦄ ⦃more : List Token⦄,
    Delimited rest → Scans rest more → Scans (cs ++ rest) (ts ++ more)

/-- Escapes do not make a text shorter, so that its length is fuel enough. -/
theorem length_le_flatMap_escape (cs : List Char) : cs.length ≤ (cs.flatMap escape).length := by
  have hescape : ∀ c, 1 ≤ (escape c).length := fun c => by
    unfold escape
    split <;> simp
    split <;> simp
  induction cs with
  | nil => exact Nat.le_refl _
  | cons c cs ih =>
    have := hescape c
    rw [List.flatMap_cons, List.length_cons, List.length_append]
    omega

/-- A quoted text is one token: no quote inside it is taken for the closing one. -/
theorem Scans.text (s : String) {rest : List Char} {ts : List Token} (h : Scans rest ts) :
    Scans ((quoted s).toList ++ rest) (.text (spelled s) :: ts) := by
  have hquoted : (quoted s).toList ++ rest = '"' :: (s.toList.flatMap escape ++ '"' :: rest) := by
    simp [quoted]
  rw [hquoted]
  refine h.token (by decide) (fun fuel hfuel => ?_) (by simp; omega)
  have hlength : s.toList.length < fuel := by
    have := length_le_flatMap_escape s.toList
    simp only [List.length_cons, List.length_append] at hfuel
    omega
  rw [token?, spelling?_escape _ hlength]
  rfl

/-- A number begins with its sign or a digit. -/
theorem head_of_number? {c : Char} {cs r : List Char} {l : Literal}
    (h : number? (c :: cs) = some (l, r)) : c = '-' ∨ c.isDigit = true := by
  by_cases hc : c = '-'
  · exact .inl hc
  · obtain ⟨cs₁, _, _, hsplit, hproper, _⟩ := number?_eq_some.1 h
    rw [sign] at hsplit
    · cases hdigit : c.isDigit with
      | true => exact .inr rfl
      | false =>
        -- no digit in front, and so nothing before the point
        have hwhole : l.whole = [] := by
          refine (congrArg Prod.fst hsplit).symm.trans ?_
          simp [Digits.split, hdigit]
        rw [hwhole] at hproper
        cases hproper
    · rintro r ⟨⟩
      exact hc rfl

/-- What is read as a number is a token if something delimited follows. -/
theorem spells_number {cs : List Char} {l : Literal} (h : number? cs = some (l, [])) :
    Spells cs [.number l] := by
  intro rest more hrest hmore
  cases cs with
  | nil => cases h
  | cons c cs =>
    have hnumber : number? (c :: (cs ++ rest)) = some (l, rest) := number?_append hrest h
    -- a number starts with a digit or a minus, which no other token does
    have hother : ∀ x : Char, x.isDigit = false → x ≠ '-' → c ≠ x := by
      rintro x hdigit hminus rfl
      rcases head_of_number? h with rfl | hc
      · exact hminus rfl
      · rw [hdigit] at hc
        cases hc
    refine hmore.token ?_ (fun fuel _ => ?_) (by simp)
    · simp [isBlank, hother ' ' rfl (by decide), hother '\n' rfl (by decide),
        hother '\t' rfl (by decide), hother '\r' rfl (by decide)]
    · show token? fuel (c :: (cs ++ rest)) = some (.number l, rest)
      rw [token?, hnumber]
      · rfl
      all_goals
        intro _ heq
        exact hother _ (by decide) (by decide) (List.cons.inj heq).1

end Json

end SceneGuard
