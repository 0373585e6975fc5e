import KeyChord.Number.Printer
import KeyChord.Number.Reader
import Mathlib.Data.List.TakeWhile
import Mathlib.Data.Nat.Log

/-!
# Numbers survive being written and read

The text of a number is read back as the same number. That the digits of a number are the fewest
possible is of no account here: the printer only ever settles on digits that it has read back
itself, or on all the digits that there are, and these are exact.

* `nearestRank_mul_left`: rounding depends on the quotient alone.
* `nearestRank_units`: rounding keeps the magnitudes of the format.
* `Digits.readsAs_nearest`: the digits that the printer chooses read back.
* `exists_isPositional_magnitudeText`: the text of a magnitude is digits with a point, and reads
  back as the magnitude.

The main statement is `read?_text`.
-/

namespace KeyChord.Number

/-! ## Rounding -/

theorem twoTo_pos (exponent : Nat) : 0 < twoTo exponent :=
  Nat.two_pow_pos exponent

theorem tenTo_pos (exponent : Nat) : 0 < tenTo exponent :=
  Nat.pow_pos (by decide)

/-- A common factor does not change how a quotient is rounded. -/
theorem roundedDiv_mul_left {k : Nat} (hk : 0 < k) (num den : Nat) :
    roundedDiv (k * num) (k * den) = roundedDiv num den := by
  have hrest : 2 * (k * num % (k * den)) = k * (2 * (num % den)) := by
    rw [Nat.mul_mod_mul_left, Nat.mul_left_comm]
  simp only [roundedDiv, hrest, Nat.mul_div_mul_left num den hk, Nat.mul_lt_mul_left hk]

/-- A whole quotient is left alone. -/
theorem roundedDiv_mul_self {den : Nat} (hden : 0 < den) (q : Nat) :
    roundedDiv (q * den) den = q := by
  simp only [roundedDiv, Nat.mul_mod_left, Nat.mul_zero, hden, if_true, Nat.mul_div_cancel q hden]

/-- Rounding depends on the quotient alone. -/
theorem nearestRank_mul_left {k : Nat} (hk : 0 < k) (num den : Nat) :
    nearestRank (k * num) (k * den) = nearestRank num den := by
  simp only [nearestRank, Nat.mul_div_mul_left num den hk, Nat.mul_assoc,
    roundedDiv_mul_left hk]

/-- The binade of a magnitude from the second binade on. -/
theorem log2_mul_twoTo {significand : Nat} (hlow : twoTo 52 ≤ significand)
    (hhigh : significand < twoTo 53) (exponent : Nat) :
    (significand * twoTo exponent).log2 = 52 + exponent := by
  have hpos := twoTo_pos exponent
  have hne : significand * twoTo exponent ≠ 0 :=
    Nat.mul_ne_zero (by have := twoTo_pos 52; omega) hpos.ne'
  rw [Nat.log2_eq_iff hne]
  constructor
  · calc 2 ^ (52 + exponent) = twoTo 52 * twoTo exponent := Nat.pow_add 2 52 exponent
      _ ≤ significand * twoTo exponent := Nat.mul_le_mul_right _ hlow
  · calc significand * twoTo exponent < twoTo 53 * twoTo exponent :=
          Nat.mul_lt_mul_of_pos_right hhigh hpos
      _ = 2 ^ (53 + exponent) := (Nat.pow_add 2 53 exponent).symm
      _ = 2 ^ (52 + exponent + 1) := by congr 1; omega

/-- Rounding keeps the magnitudes of the format. -/
theorem nearestRank_units (rank : Nat) {den : Nat} (hden : 0 < den) :
    nearestRank (units rank * den) den = rank := by
  simp only [nearestRank, Nat.mul_div_cancel _ hden]
  by_cases hsmall : rank < twoTo 53
  · have hunits : units rank = rank := if_pos hsmall
    have hbinade : rank.log2 - 52 = 0 := by
      by_cases hzero : rank = 0
      · rw [hzero, Nat.log2_zero]
      · have := (Nat.log2_lt hzero).mpr hsmall
        omega
    rw [hunits, hbinade, Nat.zero_mul, Nat.zero_add]
    exact (congrArg (roundedDiv _) (Nat.mul_one den)).trans (roundedDiv_mul_self hden rank)
  · have hunits : units rank =
        (twoTo 52 + rank % twoTo 52) * twoTo (rank / twoTo 52 - 1) := if_neg hsmall
    have hdivMod := Nat.div_add_mod rank (twoTo 52)
    have hmod := Nat.mod_lt rank (twoTo_pos 52)
    have hdouble : twoTo 53 = 2 * twoTo 52 := Nat.pow_succ'
    have hbinade : (units rank).log2 - 52 = rank / twoTo 52 - 1 := by
      rw [hunits, log2_mul_twoTo (by omega) (by omega)]
      omega
    -- Both sides of the quotient have the spacing of the binade as a factor.
    have hrounded : roundedDiv (units rank * den) (den * twoTo (rank / twoTo 52 - 1)) =
        twoTo 52 + rank % twoTo 52 := by
      rw [hunits, Nat.mul_assoc, Nat.mul_comm (twoTo _) den]
      exact roundedDiv_mul_self (Nat.mul_pos hden (twoTo_pos _)) _
    have htwo : 2 ≤ rank / twoTo 52 := by
      rw [Nat.le_div_iff_mul_le (twoTo_pos 52)]
      omega
    rw [hbinade, hrounded, Nat.sub_mul]
    rw [Nat.mul_comm] at hdivMod
    have := Nat.mul_le_mul_right (twoTo 52) htwo
    omega

/-! ## Decimals -/

theorem tenTo_zero : tenTo 0 = 1 := rfl

theorem tenTo_one : tenTo 1 = 10 := rfl

/-- Powers of ten multiply by adding their exponents. -/
theorem tenTo_add (m n : Nat) : tenTo (m + n) = tenTo m * tenTo n :=
  Nat.pow_add 10 m n

/-- A power of ten goes from the digits to the exponent. -/
theorem ofDecimal_mul_tenTo (negative : Bool) (digits n : Nat) (exponent : Int) :
    ofDecimal negative (digits * tenTo n) exponent = ofDecimal negative digits (exponent + n) := by
  -- The factor that the two quotients differ by.
  obtain ⟨k, hden, hnum⟩ : ∃ k, (-exponent).toNat = k + (-(exponent + n)).toNat ∧
      n + exponent.toNat = k + (exponent + n).toNat :=
    ⟨(-exponent).toNat - (-(exponent + n)).toNat, by omega, by omega⟩
  have hscaled : digits * tenTo n * tenTo exponent.toNat * twoTo 1074 =
      tenTo k * (digits * tenTo (exponent + n).toNat * twoTo 1074) := by
    calc digits * tenTo n * tenTo exponent.toNat * twoTo 1074
        = digits * tenTo (n + exponent.toNat) * twoTo 1074 := by
          rw [tenTo_add, Nat.mul_assoc digits]
      _ = tenTo k * (digits * tenTo (exponent + n).toNat * twoTo 1074) := by
          rw [hnum, tenTo_add, Nat.mul_left_comm digits, Nat.mul_assoc (tenTo k)]
  rw [ofDecimal, ofDecimal, ofUnits, ofUnits, hscaled, hden, tenTo_add,
    nearestRank_mul_left (tenTo_pos k)]

/-- Zero has any exponent. -/
theorem ofDecimal_zero (negative : Bool) (n : Nat) (exponent : Int) :
    ofDecimal negative 0 exponent = ofDecimal negative 0 (exponent + n) := by
  rw [← ofDecimal_mul_tenTo, Nat.zero_mul]

namespace Digits

/-- The number that a decimal stands for. -/
def number (d : Digits) (negative : Bool) : Number :=
  ofDecimal negative d.digits d.exponent

/-- A decimal that reads back as a magnitude does so with either sign. -/
theorem number_of_readsAs {d : Digits} {rank : Fin rankLimit} (h : d.readsAs rank = true)
    (negative : Bool) : d.number negative = .finite negative rank := by
  have hfinite : ∀ negative, ofRank negative rank = .finite negative rank := fun _ =>
    dif_pos rank.isLt
  rw [readsAs, beq_iff_eq, ofDecimal, ofUnits, hfinite] at h
  -- The rank that the decimal is rounded to is the one of the magnitude, and the sign is no part
  -- of it.
  rw [number, ofDecimal, ofUnits]
  generalize nearestRank _ _ = nearest at h ⊢
  rw [ofRank] at h ⊢
  split_ifs at h ⊢
  cases h
  rfl

/-- All digits of a magnitude read back. -/
theorem readsAs_exact (rank : Nat) : (exact rank).readsAs rank = true := by
  have hscaled : ∀ n, units rank * Nat.pow 5 n * tenTo 0 * twoTo n = units rank * tenTo n := by
    intro n
    rw [tenTo_zero, Nat.mul_one, Nat.mul_assoc]
    exact congrArg (units rank * ·) (Nat.mul_pow 5 2 n).symm
  have hzero : (-1074 : Int).toNat = 0 := rfl
  have hdenominator : (-(-1074) : Int).toNat = 1074 := rfl
  rw [readsAs, beq_iff_eq]
  simp only [exact, ofDecimal, ofUnits, hzero, hdenominator, hscaled,
    nearestRank_units rank (tenTo_pos 1074)]

/-- A neighbour is only taken if it reads back. -/
theorem readsAs_of_neighbour? {d d' : Digits} {rank dropped : Nat}
    (h : d.neighbour? rank dropped = some d') : d'.readsAs rank = true := by
  rw [neighbour?] at h
  have hreads := List.find?_some h
  exact hreads

/-- The digits that the printer chooses read back. -/
theorem readsAs_nearest (rank : Nat) : (nearest rank).readsAs rank = true := by
  simp only [nearest]
  cases h : (List.range 17).findSome? _ with
  | none => exact readsAs_exact rank
  | some d =>
    obtain ⟨kept, -, hkept⟩ := List.exists_of_findSome?_eq_some h
    exact readsAs_of_neighbour? hkept

/-- Zeros at the end of the digits do not count. -/
theorem number_trimmed (d : Digits) (negative : Bool) :
    d.trimmed.number negative = d.number negative := by
  fun_induction trimmed d with
  | case1 d h ih =>
    rw [ih, number, number]
    have hdigits : d.digits = d.digits / 10 * tenTo 1 := by
      rw [tenTo_one]
      omega
    conv_rhs => rw [hdigits]
    rw [ofDecimal_mul_tenTo]
    rfl
  | case2 d h => rfl

end Digits

/-! ## Texts of decimals -/

/-- Digits, and behind a point further digits or none. -/
structure IsPositional (cs : List Char) (whole places : List Char) : Prop where
  /-- There are digits in front. -/
  nonempty : whole ≠ []
  /-- In front are digits only. -/
  whole_digits : ∀ c ∈ whole, c.isDigit = true
  /-- Behind the point are digits only. -/
  places_digits : ∀ c ∈ places, c.isDigit = true
  /-- Without a point nothing is behind it. -/
  eq : cs = whole ∧ places = [] ∨ cs = whole ++ '.' :: places

variable {cs whole places : List Char}

/-- The whole number that some digits write. -/
theorem digitsValue_eq_ofDigitChars (cs : List Char) : digitsValue cs = Nat.ofDigitChars 10 cs 0 :=
  Nat.ofDigitChars_eq_foldl.symm

/-- Zeros in front do not count. -/
theorem digitsValue_replicate_append (n : Nat) (cs : List Char) :
    digitsValue (List.replicate n '0' ++ cs) = digitsValue cs := by
  rw [digitsValue_eq_ofDigitChars, Nat.ofDigitChars_append, Nat.ofDigitChars_replicate_zero,
    Nat.mul_zero, digitsValue_eq_ofDigitChars]

/-- Zeros at the end multiply by a power of ten. -/
theorem digitsValue_append_replicate (cs : List Char) (n : Nat) :
    digitsValue (cs ++ List.replicate n '0') = digitsValue cs * tenTo n := by
  rw [digitsValue_eq_ofDigitChars, Nat.ofDigitChars_append, Nat.ofDigitChars_replicate_zero,
    digitsValue_eq_ofDigitChars, Nat.mul_comm]
  rfl

/-- The digits of a whole number write it. -/
theorem digitsValue_toDigits (n : Nat) : digitsValue (Nat.toDigits 10 n) = n := by
  rw [digitsValue_eq_ofDigitChars, Nat.ofDigitChars_ten_toDigits]

/-- The point divides the digits. -/
theorem IsPositional.readPlaces_eq (h : IsPositional cs whole places) :
    readPlaces cs = (whole ++ places, places.length, []) := by
  rw [readPlaces]
  obtain ⟨rfl, rfl⟩ | rfl := h.eq
  · rw [List.takeWhile_eq_self_iff.mpr h.whole_digits, List.dropWhile_eq_nil_iff.mpr h.whole_digits,
      List.append_nil]
    rfl
  · have hpoint : Char.isDigit '.' = false := by decide
    rw [List.takeWhile_append_of_pos h.whole_digits, List.dropWhile_append_of_pos h.whole_digits,
      List.takeWhile_cons, List.dropWhile_cons, hpoint]
    simp only [Bool.false_eq_true, if_false, List.append_nil,
      List.takeWhile_eq_self_iff.mpr h.places_digits, List.dropWhile_eq_nil_iff.mpr h.places_digits]

/-- Digits with a point are read as a decimal. -/
theorem IsPositional.readMagnitude?_eq (h : IsPositional cs whole places) (negative : Bool) :
    readMagnitude? negative cs =
      some (ofDecimal negative (digitsValue (whole ++ places)) (-places.length)) := by
  have hnonempty : (whole ++ places).isEmpty = false :=
    List.isEmpty_eq_false_iff.mpr (List.append_ne_nil_of_left_ne_nil h.nonempty _)
  have hexponent : ∀ n : Nat, max (-(400 + n : Int)) (min (400 + n) 0) = 0 := by
    intro n
    omega
  rw [readMagnitude?, h.readPlaces_eq]
  simp only [hnonempty, Bool.false_eq_true, if_false, readExponent?, Option.map_some, ofPlaces,
    hexponent, Int.zero_sub]

/-- The text of a decimal is digits with a point, which are read as the number that it stands
for. -/
theorem Digits.exists_isPositional_text (d : Digits) :
    ∃ whole places, IsPositional d.text.toList whole places ∧ ∀ negative,
      ofDecimal negative (digitsValue (whole ++ places)) (-places.length) = d.number negative := by
  have hdigits : ∀ c ∈ Nat.toDigits 10 d.digits, c.isDigit = true := fun c hc =>
    Nat.isDigit_of_mem_toDigits (by decide) (by decide) hc
  have hzeros : ∀ n, ∀ c ∈ List.replicate n '0', c.isDigit = true := by
    intro n c hc
    rw [List.eq_of_mem_replicate hc]
    decide
  simp only [text]
  split_ifs with hplaces
  · refine ⟨Nat.toDigits 10 d.digits ++ List.replicate d.exponent.toNat '0', [], ?_, ?_⟩
    · rw [String.toList_ofList]
      refine ⟨?_, List.forall_mem_append.mpr ⟨hdigits, hzeros _⟩, fun c hc => ?_, Or.inl ⟨rfl, rfl⟩⟩
      · exact List.append_ne_nil_of_left_ne_nil Nat.toDigits_ne_nil _
      · cases hc
    · intro negative
      rw [List.append_nil, digitsValue_append_replicate, digitsValue_toDigits, ofDecimal_mul_tenTo,
        number]
      congr 1
      simp only [List.length_nil]
      omega
  · generalize hpadded : List.replicate ((-d.exponent).toNat + 1 -
      (Nat.toDigits 10 d.digits).length) '0' ++ Nat.toDigits 10 d.digits = padded
    have hall : ∀ c ∈ padded, c.isDigit = true := by
      rw [← hpadded]
      exact List.forall_mem_append.mpr ⟨hzeros _, hdigits⟩
    have hlength : (-d.exponent).toNat < padded.length := by
      rw [← hpadded, List.length_append, List.length_replicate]
      omega
    refine ⟨padded.take (padded.length - (-d.exponent).toNat),
      padded.drop (padded.length - (-d.exponent).toNat), ?_, fun negative => ?_⟩
    · rw [String.toList_ofList]
      refine ⟨?_, fun c hc => hall c (List.mem_of_mem_take hc),
        fun c hc => hall c (List.mem_of_mem_drop hc), Or.inr rfl⟩
      rw [ne_eq, List.take_eq_nil_iff, not_or]
      refine ⟨by omega, fun hnil => ?_⟩
      rw [hnil] at hlength
      exact absurd hlength (Nat.not_lt_zero _)
    · rw [List.take_append_drop, ← hpadded, digitsValue_replicate_append, digitsValue_toDigits,
        hpadded, List.length_drop, number]
      congr 1
      omega

/-! ## Texts of numbers -/

/-- The text of a magnitude is digits with a point, which are read as the magnitude. -/
theorem exists_isPositional_magnitudeText (rank : Fin rankLimit) :
    ∃ whole places, IsPositional (magnitudeText rank).toList whole places ∧ ∀ negative,
      readMagnitude? negative (magnitudeText rank).toList = some (.finite negative rank) := by
  -- Zero has a text of its own, which is also that of its digits.
  obtain ⟨d, htext, hreads⟩ : ∃ d : Digits, magnitudeText rank = d.text ∧
      ∀ negative, d.number negative = .finite negative rank := by
    by_cases hzero : rank.val = 0
    · refine ⟨⟨0, 0⟩, ?_, fun negative => ?_⟩
      · rw [magnitudeText, if_pos hzero]
        decide
      · have hunits : units rank = 0 := by
          rw [hzero]
          exact if_pos (twoTo_pos 53)
        have hexact := Digits.number_of_readsAs (Digits.readsAs_exact rank) negative
        obtain ⟨unit, hunit⟩ : ∃ unit, Digits.exact rank = ⟨units rank * unit, -1074⟩ := ⟨_, rfl⟩
        rw [hunit, hunits, Nat.zero_mul, Digits.number, ofDecimal_zero _ 1074] at hexact
        exact hexact
    · refine ⟨(Digits.nearest rank).trimmed, if_neg hzero, fun negative => ?_⟩
      rw [Digits.number_trimmed]
      exact Digits.number_of_readsAs (Digits.readsAs_nearest rank) negative
  obtain ⟨whole, places, hpositional, hnumber⟩ := d.exists_isPositional_text
  rw [htext]
  refine ⟨whole, places, hpositional, fun negative => ?_⟩
  rw [hpositional.readMagnitude?_eq, hnumber, hreads]

/-- What is written in digits begins with one. -/
theorem IsPositional.exists_eq_cons (h : IsPositional cs whole places) :
    ∃ digit rest, cs = digit :: rest ∧ digit.isDigit = true := by
  obtain ⟨digit, whole, rfl⟩ := List.exists_cons_of_ne_nil h.nonempty
  have hdigit := h.whole_digits digit List.mem_cons_self
  obtain ⟨rfl, -⟩ | rfl := h.eq
  · exact ⟨digit, whole, rfl, hdigit⟩
  · exact ⟨digit, whole ++ '.' :: places, rfl, hdigit⟩

/-- What is written in digits has nothing else than digits and a point. -/
theorem IsPositional.isDigit_or_eq (h : IsPositional cs whole places) :
    ∀ c ∈ cs, c.isDigit = true ∨ c = '.' := by
  intro c hc
  obtain ⟨rfl, -⟩ | rfl := h.eq
  · exact Or.inl (h.whole_digits c hc)
  · rcases List.mem_append.mp hc with hwhole | hrest
    · exact Or.inl (h.whole_digits c hwhole)
    · rcases List.mem_cons.mp hrest with rfl | hplaces
      · exact Or.inr rfl
      · exact Or.inl (h.places_digits c hplaces)

/-- A digit in front is neither a sign nor the start of a word. -/
theorem read?_of_isPositional (h : IsPositional cs whole places) :
    read? cs = readMagnitude? false cs ∧ read? ('-' :: cs) = readMagnitude? true cs := by
  obtain ⟨digit, rest, rfl, hdigit⟩ := h.exists_eq_cons
  have hsign : readSign (digit :: rest) = (false, digit :: rest) := by
    rw [readSign] <;> rintro _ ⟨rfl, -⟩ <;> revert hdigit <;> decide
  have hword : ∀ negative, readWord? negative (digit :: rest) = none := by
    have hlower : digit.toLower = digit := by
      have hle := (Char.isDigit_iff_toNat.mp hdigit).2
      refine dif_neg fun hupper => ?_
      have hge := UInt32.le_iff_toNat_le.mp hupper.1
      exact absurd (hge.trans hle) (by decide)
    intro negative
    rw [readWord?, List.map_cons, hlower]
    have hne : ∀ letter, letter.isDigit = false → digit ≠ letter := by
      rintro letter hletter rfl
      exact absurd hdigit (by rw [hletter]; decide)
    simp only [List.cons.injEq, hne 'n' rfl, hne 'i' rfl, false_and, or_self, if_false]
  constructor
  · rw [read?, hsign]
    simp only [hword, Option.none_or]
  · rw [read?, readSign]
    simp only [hword, Option.none_or]

/-- The text of a finite number is that of its magnitude, behind a minus if it has one. -/
theorem toList_text_finite (negative : Bool) (rank : Fin rankLimit) :
    (finite negative rank).text.toList =
      if negative then '-' :: (magnitudeText rank).toList else (magnitudeText rank).toList := by
  cases negative with
  | false => rw [text, if_neg Bool.false_ne_true, if_neg Bool.false_ne_true]
  | true =>
    rw [text, if_pos rfl, if_pos rfl, String.toList_append]
    rfl

/-- The text of a number is read back as the number. -/
theorem read?_text {n : Number} (h : n ≠ .nan) : read? n.text.toList = some n := by
  cases n with
  | nan => exact absurd rfl h
  | infinite negative => cases negative <;> decide
  | finite negative rank =>
    obtain ⟨whole, places, hpositional, hreads⟩ := exists_isPositional_magnitudeText rank
    obtain ⟨hplus, hminus⟩ := read?_of_isPositional hpositional
    rw [toList_text_finite]
    cases negative with
    | false => rw [if_neg Bool.false_ne_true, hplus, hreads]
    | true => rw [if_pos rfl, hminus, hreads]

/-- Different numbers have different texts. -/
theorem text_injective : Function.Injective text := by
  have hread : ∀ n : Number, read? n.text.toList = some n := by
    intro n
    by_cases hnan : n = .nan
    · subst hnan
      decide
    · exact read?_text hnan
  intro n n' h
  exact Option.some.inj ((hread n).symm.trans (h ▸ hread n'))

end KeyChord.Number
