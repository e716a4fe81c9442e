import Mathlib.Algebra.Group.Int.Defs
import Mathlib.Algebra.Group.Nat.Defs

/-!
# Decimal integers

Reading an integer from its decimal digits into a type with bounds, and printing it. A sign may
come first; there is at least one digit and nothing else. `parseSigned_toString` says that what
is printed is read back.
-/

namespace KafkaCli.Decimal

/-- Why a text is not an integer of the type. -/
inductive ParseIntError
  | empty | invalidDigit | posOverflow | negOverflow
  deriving DecidableEq, Repr

def ParseIntError.text : ParseIntError → String
  | .empty => "cannot parse integer from empty string"
  | .invalidDigit => "invalid digit found in string"
  | .posOverflow => "number too large to fit in target type"
  | .negOverflow => "number too small to fit in target type"

/-- Read digits on top of those read before, up to a limit. -/
def magnitude (limit : Nat) (overflow : ParseIntError) : Nat → List Char → Except ParseIntError Nat
  | n, [] => .ok n
  | n, c :: cs =>
    if c.isDigit then
      let next := 10 * n + (c.toNat - '0'.toNat)
      if next ≤ limit then magnitude limit overflow next cs else .error overflow
    else .error .invalidDigit

/-- Read an integer between `-low` and `high`. -/
def parseSigned (low high : Nat) (s : String) : Except ParseIntError Int :=
  match s.toList with
  | [] => .error .empty
  | ['+'] | ['-'] => .error .invalidDigit
  | '+' :: digits => (magnitude high .posOverflow 0 digits).map Int.ofNat
  | '-' :: digits => (magnitude low .negOverflow 0 digits).map fun (n : Nat) => -(n : Int)
  | digits => (magnitude high .posOverflow 0 digits).map Int.ofNat

/-- Read a natural number up to `high`. -/
def parseUnsigned (high : Nat) (s : String) : Except ParseIntError Nat :=
  match s.toList with
  | [] => .error .empty
  | ['+'] => .error .invalidDigit
  | '+' :: digits => magnitude high .posOverflow 0 digits
  | digits => magnitude high .posOverflow 0 digits

def parseI32 : String → Except ParseIntError Int := parseSigned (2 ^ 31) (2 ^ 31 - 1)
def parseI64 : String → Except ParseIntError Int := parseSigned (2 ^ 63) (2 ^ 63 - 1)
def parseU16 : String → Except ParseIntError Nat := parseUnsigned (2 ^ 16 - 1)

/-! ## Bounds -/

theorem magnitude_le {limit : Nat} {overflow : ParseIntError} {cs : List Char} {n m : Nat}
    (hn : n ≤ limit) (h : magnitude limit overflow n cs = .ok m) : m ≤ limit := by
  induction cs generalizing n with
  | nil =>
    cases h
    exact hn
  | cons c cs ih =>
    rw [magnitude] at h
    split at h
    · by_cases hnext : 10 * n + (c.toNat - '0'.toNat) ≤ limit
      · rw [if_pos hnext] at h
        exact ih hnext h
      · rw [if_neg hnext] at h
        cases h
    · cases h

/-- What is read lies within the bounds. -/
theorem parseSigned_bounds {low high : Nat} {s : String} {n : Int}
    (h : parseSigned low high s = .ok n) : -low ≤ n ∧ n ≤ high := by
  have hmagnitude : ∀ {limit : Nat} {overflow : ParseIntError} {cs : List Char} {f : Nat → Int},
      (magnitude limit overflow 0 cs).map f = .ok n → ∃ m ≤ limit, f m = n := by
    intro limit overflow cs f hmap
    cases hcs : magnitude limit overflow 0 cs with
    | error e =>
      rw [hcs] at hmap
      cases hmap
    | ok m =>
      rw [hcs] at hmap
      cases hmap
      exact ⟨m, magnitude_le (Nat.zero_le _) hcs, rfl⟩
  unfold parseSigned at h
  split at h
  · cases h
  · cases h
  · cases h
  · obtain ⟨m, hm, rfl⟩ := hmagnitude h
    simp only [Int.ofNat_eq_natCast]
    omega
  · obtain ⟨m, hm, rfl⟩ := hmagnitude h
    omega
  · obtain ⟨m, hm, rfl⟩ := hmagnitude h
    simp only [Int.ofNat_eq_natCast]
    omega

/-- What is read consists of digits. -/
theorem isDigit_of_magnitude {limit : Nat} {overflow : ParseIntError} {cs : List Char} {n m : Nat}
    (h : magnitude limit overflow n cs = .ok m) : ∀ c ∈ cs, c.isDigit := by
  induction cs generalizing n with
  | nil => nofun
  | cons c cs ih =>
    rw [magnitude] at h
    by_cases hc : c.isDigit
    · rw [if_pos hc] at h
      by_cases hnext : 10 * n + (c.toNat - '0'.toNat) ≤ limit
      · rw [if_pos hnext] at h
        exact List.forall_mem_cons.2 ⟨hc, ih h⟩
      · rw [if_neg hnext] at h
        cases h
    · rw [if_neg hc] at h
      cases h

/-- What is read consists of digits, and a sign. -/
theorem isDigit_of_parseSigned {low high : Nat} {s : String} {n : Int}
    (h : parseSigned low high s = .ok n) : ∀ c ∈ s.toList, c.isDigit ∨ c = '+' ∨ c = '-' := by
  have hdigits : ∀ {limit : Nat} {overflow : ParseIntError} {cs : List Char} {f : Nat → Int},
      (magnitude limit overflow 0 cs).map f = .ok n → ∀ c ∈ cs, c.isDigit := by
    intro limit overflow cs f hmap
    cases hcs : magnitude limit overflow 0 cs with
    | error e =>
      rw [hcs] at hmap
      cases hmap
    | ok m => exact isDigit_of_magnitude hcs
  unfold parseSigned at h
  intro c hc
  split at h
  · cases h
  · cases h
  · cases h
  · next digits _ hlist =>
    rw [hlist] at hc
    exact (List.mem_cons.1 hc).elim (fun heq => .inr (.inl heq)) fun hmem => .inl (hdigits h c hmem)
  · next digits _ hlist =>
    rw [hlist] at hc
    exact (List.mem_cons.1 hc).elim (fun heq => .inr (.inr heq)) fun hmem => .inl (hdigits h c hmem)
  · exact .inl (hdigits h c hc)

/-! ## Reading what was printed -/

theorem le_ofDigitChars (cs : List Char) (n : Nat) : n ≤ Nat.ofDigitChars 10 cs n := by
  induction cs generalizing n with
  | nil => simp
  | cons c cs ih =>
    rw [Nat.ofDigitChars_cons]
    have hnext := ih (10 * n + (c.toNat - '0'.toNat))
    omega

theorem magnitude_of_digits {limit : Nat} {overflow : ParseIntError} {cs : List Char} {n : Nat}
    (hdigits : ∀ c ∈ cs, c.isDigit) (hlimit : Nat.ofDigitChars 10 cs n ≤ limit) :
    magnitude limit overflow n cs = .ok (Nat.ofDigitChars 10 cs n) := by
  induction cs generalizing n with
  | nil => simp [magnitude]
  | cons c cs ih =>
    rw [Nat.ofDigitChars_cons] at hlimit ⊢
    have hnext := Nat.le_trans (le_ofDigitChars cs _) hlimit
    rw [magnitude, if_pos (hdigits c List.mem_cons_self), if_pos hnext]
    exact ih (fun c hc => hdigits c (List.mem_cons_of_mem _ hc)) hlimit

theorem magnitude_toDigits {limit n : Nat} (overflow : ParseIntError) (h : n ≤ limit) :
    magnitude limit overflow 0 (Nat.toDigits 10 n) = .ok n := by
  have hdigits : ∀ c ∈ Nat.toDigits 10 n, c.isDigit := fun c hc =>
    Nat.isDigit_of_mem_toDigits (by decide) (by decide) hc
  have hvalue := Nat.ofDigitChars_ten_toDigits (n := n)
  rw [magnitude_of_digits hdigits (by rwa [hvalue]), hvalue]

theorem isDigit_ne {c d : Char} (hc : c.isDigit) (hd : d.isDigit = false) : c ≠ d := by
  intro heq
  rw [heq, hd] at hc
  cases hc

/-- Reading the digits of a natural number without a sign. -/
theorem parseSigned_ofList_toDigits {low high n : Nat} (h : n ≤ high) :
    parseSigned low high (String.ofList (Nat.toDigits 10 n)) = .ok n := by
  have hmagnitude := magnitude_toDigits .posOverflow h
  cases hdigits : Nat.toDigits 10 n with
  | nil => exact absurd hdigits Nat.toDigits_ne_nil
  | cons c cs =>
    have hc : c.isDigit := Nat.isDigit_of_mem_toDigits (b := 10) (n := n) (by decide) (by decide)
      (hdigits ▸ List.mem_cons_self)
    have hplus : c ≠ '+' := isDigit_ne hc (by decide)
    have hminus : c ≠ '-' := isDigit_ne hc (by decide)
    rw [hdigits] at hmagnitude
    simp [parseSigned, hplus, hminus, hmagnitude, Except.map]

/-- Reading a natural number that was printed. -/
theorem parseUnsigned_toString {high n : Nat} (h : n ≤ high) :
    parseUnsigned high (toString n) = .ok n := by
  have hmagnitude := magnitude_toDigits .posOverflow h
  change parseUnsigned high n.repr = _
  rw [parseUnsigned, Nat.toList_repr]
  cases hdigits : Nat.toDigits 10 n with
  | nil => exact absurd hdigits Nat.toDigits_ne_nil
  | cons c cs =>
    have hc : c.isDigit := Nat.isDigit_of_mem_toDigits (b := 10) (n := n) (by decide) (by decide)
      (hdigits ▸ List.mem_cons_self)
    have hplus : c ≠ '+' := isDigit_ne hc (by decide)
    rw [hdigits] at hmagnitude
    simp [hplus, hmagnitude]

theorem parseSigned_toString {low high : Nat} {n : Int} (hlow : -low ≤ n) (hhigh : n ≤ high) :
    parseSigned low high (toString n) = .ok n := by
  cases n with
  | ofNat m =>
    change parseSigned low high m.repr = _
    rw [Nat.repr_eq_ofList_toDigits]
    exact parseSigned_ofList_toDigits (Int.ofNat_le.1 hhigh)
  | negSucc m =>
    have hlimit : m + 1 ≤ low := by omega
    have hmagnitude := magnitude_toDigits .negOverflow hlimit
    have htext : (toString (Int.negSucc m)).toList = '-' :: Nat.toDigits 10 (m + 1) := by
      change ("-" ++ (m + 1).repr).toList = _
      rw [String.toList_append, Nat.toList_repr]
      rfl
    cases hdigits : Nat.toDigits 10 (m + 1) with
    | nil => exact absurd hdigits Nat.toDigits_ne_nil
    | cons c cs =>
      rw [hdigits] at hmagnitude htext
      simp only [parseSigned, htext, hmagnitude, Except.map]
      rfl

/-- What is printed tells the number. -/
theorem toString_injective : Function.Injective (toString : Int → String) := by
  intro n m h
  have hread : ∀ k : Int, k.natAbs ≤ n.natAbs + m.natAbs →
      parseSigned (n.natAbs + m.natAbs) (n.natAbs + m.natAbs) (toString k) = .ok k :=
    fun k hk => parseSigned_toString (by omega) (by omega)
  have hn := hread n (Nat.le_add_right _ _)
  rw [h, hread m (Nat.le_add_left _ _)] at hn
  exact (Except.ok.inj hn).symm

/-- What is printed consists of digits, and a sign. -/
theorem isDigit_of_mem_toString {n : Int} {c : Char} (h : c ∈ (toString n).toList) :
    c.isDigit ∨ c = '-' := by
  have hdigit : ∀ m : Nat, c ∈ Nat.toDigits 10 m → c.isDigit := fun m hm =>
    Nat.isDigit_of_mem_toDigits (by decide) (by decide) hm
  cases n with
  | ofNat m =>
    change c ∈ m.repr.toList at h
    rw [Nat.toList_repr] at h
    exact .inl (hdigit m h)
  | negSucc m =>
    change c ∈ ("-" ++ (m + 1).repr).toList at h
    rw [String.toList_append, Nat.toList_repr] at h
    rcases List.mem_append.1 h with h | h
    · exact .inr (List.mem_singleton.1 h)
    · exact .inl (hdigit _ h)

theorem toList_toString_ne_nil (n : Int) : (toString n).toList ≠ [] := by
  cases n with
  | ofNat m =>
    change m.repr.toList ≠ []
    rw [Nat.toList_repr]
    exact Nat.toDigits_ne_nil
  | negSucc m =>
    change ("-" ++ (m + 1).repr).toList ≠ []
    simp

/-- What follows a printed number does not go on with it. -/
def Delimits (s : String) : Prop := ∀ c ∈ s.toList.head?, ¬ (c.isDigit ∨ c = '-')

/-- What is printed in front of a delimiter tells the number and what follows it. -/
theorem toString_append_inj {n m : Int} {s t : String} (hs : Delimits s) (ht : Delimits t)
    (h : toString n ++ s = toString m ++ t) : n = m ∧ s = t := by
  let numeral : Char → Bool := fun c => c.isDigit || c == '-'
  have hsplit : ∀ (k : Int) (u : String), Delimits u →
      (toString k ++ u).toList.takeWhile numeral = (toString k).toList := by
    intro k u hu
    have hall : ∀ c ∈ (toString k).toList, numeral c = true := by
      intro c hc
      simpa [numeral] using isDigit_of_mem_toString hc
    have hstop : u.toList.takeWhile numeral = [] := by
      cases hlist : u.toList with
      | nil => rfl
      | cons c cs =>
        have hc := hu c (by rw [hlist]; rfl)
        rw [List.takeWhile_cons_of_neg (by simpa [numeral] using hc)]
    rw [String.toList_append, List.takeWhile_append_of_pos hall, hstop, List.append_nil]
  have hlist := congrArg String.toList h
  have htake := congrArg (List.takeWhile numeral) hlist
  rw [hsplit n s hs, hsplit m t ht, String.toList_inj] at htake
  obtain rfl := toString_injective htake
  rw [String.toList_append, String.toList_append, List.append_cancel_left_eq,
    String.toList_inj] at hlist
  exact ⟨rfl, hlist⟩

/-! ## The grammar of integers -/

/-- The text is the digits of a number. -/
structure IsNumeral (s : String) (n : Nat) : Prop where
  ne : s ≠ ""
  digits : ∀ c ∈ s.toList, c.isDigit
  value : Nat.ofDigitChars 10 s.toList 0 = n

instance (s : String) (n : Nat) : Decidable (IsNumeral s n) :=
  decidable_of_iff
    (s ≠ "" ∧ s.toList.all Char.isDigit = true ∧ Nat.ofDigitChars 10 s.toList 0 = n)
    ⟨fun h => ⟨h.1, List.all_eq_true.1 h.2.1, h.2.2⟩,
      fun h => ⟨h.ne, List.all_eq_true.2 h.digits, h.value⟩⟩

theorem magnitude_eq_ok {limit : Nat} {overflow : ParseIntError} {cs : List Char} {m : Nat} :
    magnitude limit overflow 0 cs = .ok m ↔
      (∀ c ∈ cs, c.isDigit) ∧ Nat.ofDigitChars 10 cs 0 = m ∧ m ≤ limit := by
  refine ⟨?_, ?_⟩
  · intro h
    have hdigits := isDigit_of_magnitude h
    have hlimit := magnitude_le (Nat.zero_le limit) h
    refine ⟨hdigits, ?_, hlimit⟩
    have hvalue : ∀ n, magnitude limit overflow n cs = .ok m → Nat.ofDigitChars 10 cs n = m := by
      clear h
      induction cs with
      | nil =>
        intro n h
        cases h
        rfl
      | cons c cs ih =>
        intro n h
        rw [List.forall_mem_cons] at hdigits
        rw [magnitude, if_pos hdigits.1] at h
        dsimp only at h
        split at h
        next => exact Nat.ofDigitChars_cons .. ▸ ih hdigits.2 _ h
        next => cases h
    exact hvalue 0 h
  · rintro ⟨hdigits, rfl, hlimit⟩
    exact magnitude_of_digits hdigits hlimit

/-- The characters of a numeral, of which there is a first one. -/
theorem IsNumeral.exists_cons {s : String} {n : Nat} (h : IsNumeral s n) :
    ∃ c cs, s.toList = c :: cs ∧ c.isDigit := by
  cases hs : s.toList with
  | nil => exact absurd (String.toList_eq_nil_iff.1 hs) h.ne
  | cons c cs => exact ⟨c, cs, rfl, h.digits c (hs ▸ List.mem_cons_self)⟩

theorem isNumeral_ofList {cs : List Char} {n : Nat} (hne : cs ≠ [])
    (hdigits : ∀ c ∈ cs, c.isDigit) (hvalue : Nat.ofDigitChars 10 cs 0 = n) :
    IsNumeral (String.ofList cs) n where
  ne := by simpa using hne
  digits := by simpa using hdigits
  value := by simpa using hvalue

/-- Digits that are read are a numeral. -/
theorem exists_isNumeral_of_map {limit : Nat} {overflow : ParseIntError} {cs : List Char}
    {sign : Nat → Int} {x : Int} (hne : cs ≠ [])
    (h : (magnitude limit overflow 0 cs).map sign = .ok x) :
    ∃ n, IsNumeral (String.ofList cs) n ∧ n ≤ limit ∧ x = sign n := by
  cases hmagnitude : magnitude limit overflow 0 cs with
  | error e =>
    rw [hmagnitude] at h
    cases h
  | ok n =>
    rw [hmagnitude] at h
    cases h
    obtain ⟨hall, hvalue, hlimit⟩ := magnitude_eq_ok.1 hmagnitude
    exact ⟨n, isNumeral_ofList hne hall hvalue, hlimit, rfl⟩

theorem IsNumeral.magnitude {s : String} {n limit : Nat} (h : IsNumeral s n) (hlimit : n ≤ limit)
    (overflow : ParseIntError) : magnitude limit overflow 0 s.toList = .ok n :=
  magnitude_eq_ok.2 ⟨h.digits, h.value, hlimit⟩

/-- **Which texts are integers.** A numeral, with or without a sign, within the bounds. -/
theorem parseSigned_eq_ok {low high : Nat} {s : String} {x : Int} :
    parseSigned low high s = .ok x ↔ ∃ digits n, IsNumeral digits n ∧
      ((s = digits ∨ s = "+" ++ digits) ∧ n ≤ high ∧ x = n ∨
        s = "-" ++ digits ∧ n ≤ low ∧ x = -(n : Int)) := by
  refine ⟨?_, ?_⟩
  · intro h
    unfold parseSigned at h
    split at h
    · cases h
    · cases h
    · cases h
    next digits hdigits hlist =>
      obtain ⟨n, hnumeral, hlimit, hx⟩ := exists_isNumeral_of_map hdigits h
      have hs : s = "+" ++ String.ofList digits := by
        rw [← String.toList_inj, hlist]
        simp
      exact ⟨_, n, hnumeral, .inl ⟨.inr hs, hlimit, hx⟩⟩
    next digits hdigits hlist =>
      obtain ⟨n, hnumeral, hlimit, hx⟩ := exists_isNumeral_of_map hdigits h
      have hs : s = "-" ++ String.ofList digits := by
        rw [← String.toList_inj, hlist]
        simp
      exact ⟨_, n, hnumeral, .inr ⟨hs, hlimit, hx⟩⟩
    next hempty _ _ _ _ =>
      obtain ⟨n, hnumeral, hlimit, hx⟩ := exists_isNumeral_of_map hempty h
      rw [String.ofList_toList] at hnumeral
      exact ⟨s, n, hnumeral, .inl ⟨.inl rfl, hlimit, hx⟩⟩
  · rintro ⟨digits, n, hnumeral, ⟨rfl | rfl, hlimit, rfl⟩ | ⟨rfl, hlimit, rfl⟩⟩
    all_goals
      obtain ⟨c, cs, hlist, hc⟩ := hnumeral.exists_cons
    · have hmagnitude := hnumeral.magnitude hlimit .posOverflow
      have hplus : c ≠ '+' := isDigit_ne hc (by decide)
      have hminus : c ≠ '-' := isDigit_ne hc (by decide)
      rw [hlist] at hmagnitude
      simp [parseSigned, hlist, hplus, hminus, hmagnitude, Except.map]
    · have hmagnitude := hnumeral.magnitude hlimit .posOverflow
      rw [hlist] at hmagnitude
      simp [parseSigned, hlist, hmagnitude, Except.map]
    · have hmagnitude := hnumeral.magnitude hlimit .negOverflow
      rw [hlist] at hmagnitude
      simp [parseSigned, hlist, hmagnitude, Except.map]

end KafkaCli.Decimal
