import TwigLint.Number.Shortest
import TwigLint.Proofs.Text.Decimal
import Mathlib.Data.Nat.Digits.Lemmas
import Mathlib.Tactic.Linarith
import Mathlib.Tactic.Ring

/-! # Whole numbers as doubles

Every integer of less than 53 bits is a double.  No other integer reads as this double, so that its
shortest decimal has exactly its value and is written without a point.
-/

namespace TwigLint

namespace Double

/-- A finite double with an integer as its exact value. -/
def IsWhole (x : Double) (n : Int) : Prop :=
  x.isFinite = true ∧ x.toRatio.1 = n * x.toRatio.2

/-! ## Mantissa and exponent -/

/-- A double with an exponent above the least one has all bits of its mantissa. -/
theorem le_mantissa {x : Double} (h : -1074 < x.exponent) : 2 ^ 52 ≤ x.mantissa := by
  have hfield : x.magnitude >>> 52 ≠ 0 := by
    intro hzero
    rw [exponent, hzero] at h
    exact absurd h (by decide)
  simp only [mantissa, hfield, if_false, Nat.one_shiftLeft]
  exact Nat.le_add_left ..

/-- The exponent of an integer of less than 53 bits is not positive, so that its mantissa is a
multiple of it. -/
theorem IsWhole.scaled {x : Double} {n : Int} (hx : x.IsWhole n) (hn : n.natAbs < 2 ^ 53) :
    x.exponent ≤ 0 ∧ (if x.isNegative then -(x.mantissa : Int) else x.mantissa) =
      n * 2 ^ (-x.exponent).toNat := by
  obtain ⟨-, hvalue⟩ := hx
  simp only [toRatio, Nat.one_shiftLeft] at hvalue
  by_cases he : 0 ≤ x.exponent
  · rw [if_pos he, Nat.cast_one, mul_one] at hvalue
    have hlarge := le_mantissa (x := x) (by omega)
    have habs : n.natAbs = x.mantissa * 2 ^ x.exponent.toNat := by
      rw [← hvalue]
      split <;> simp [Int.natAbs_mul]
    have hzero : x.exponent.toNat = 0 := by
      by_contra hpos
      have htwo : 2 ≤ 2 ^ x.exponent.toNat := Nat.le_self_pow hpos 2
      have := Nat.mul_le_mul hlarge htwo
      omega
    have hexponent : x.exponent = 0 := by omega
    rw [hexponent]
    rw [hzero] at hvalue
    exact ⟨le_rfl, by simpa using hvalue⟩
  · rw [if_neg he] at hvalue
    exact ⟨by omega, by simpa using hvalue⟩

theorem IsWhole.mantissa_eq {x : Double} {n : Int} (hx : x.IsWhole n) (hn : n.natAbs < 2 ^ 53) :
    x.mantissa = n.natAbs * 2 ^ (-x.exponent).toNat := by
  have habs := congrArg Int.natAbs (hx.scaled hn).2
  split at habs <;> simpa [Int.natAbs_mul, Int.natAbs_pow] using habs

theorem IsWhole.isNegative_iff {x : Double} {n : Int} (hx : x.IsWhole n) (hn : n.natAbs < 2 ^ 53)
    (hzero : n ≠ 0) : x.isNegative = true ↔ n < 0 := by
  have hpos : (0 : Int) < 2 ^ (-x.exponent).toNat := by positivity
  have hscaled := (hx.scaled hn).2
  constructor
  · intro hnegative
    rw [if_pos hnegative] at hscaled
    by_contra hsign
    have := mul_pos (lt_of_le_of_ne (not_lt.mp hsign) hzero.symm) hpos
    omega
  · intro hsign
    by_contra hnegative
    rw [if_neg hnegative] at hscaled
    have := mul_neg_of_neg_of_pos hsign hpos
    omega

/-- A double is zero exactly if its pattern is, but for the sign. -/
theorem IsWhole.magnitude_eq_zero_iff {x : Double} {n : Int} (hx : x.IsWhole n)
    (hn : n.natAbs < 2 ^ 53) : x.magnitude = 0 ↔ n = 0 := by
  have hmantissa := hx.mantissa_eq hn
  constructor
  · intro hzero
    have hnone : x.mantissa = 0 := by simp [mantissa, hzero]
    rw [hnone] at hmantissa
    simpa using hmantissa.symm
  · rintro rfl
    rw [Int.natAbs_zero, Nat.zero_mul] at hmantissa
    simp only [mantissa, Nat.shiftRight_eq_div_pow, Nat.one_shiftLeft] at hmantissa
    split at hmantissa <;> omega

/-! ## The double of an integer -/

theorem magnitude_ofMagnitude (negative : Bool) {m : Nat} (hm : m < 2 ^ 63) :
    (ofMagnitude negative m).magnitude = m := by
  cases negative <;> simp [ofMagnitude, magnitude] <;> omega

theorem isNegative_ofMagnitude (negative : Bool) {m : Nat} (hm : m < 2 ^ 63) :
    (ofMagnitude negative m).isNegative = negative := by
  cases negative <;> simp [ofMagnitude, isNegative] <;> omega

/-- The value of a pattern that puts a mantissa of 53 bits behind a field for the exponent. -/
theorem toRatio_ofMagnitude (negative : Bool) {m field : Nat} (hlow : 2 ^ 52 ≤ m)
    (hhigh : m < 2 ^ 53) (hfield : field ≤ 1074) :
    (ofMagnitude negative (field <<< 52 + m)).toRatio =
      ((if negative then -(m : Int) else m), 2 ^ (1074 - field)) := by
  have hshift : field <<< 52 + m = field * 2 ^ 52 + m := by rw [Nat.shiftLeft_eq]
  have hsize : field <<< 52 + m < 2 ^ 63 := by omega
  have hmagnitude := magnitude_ofMagnitude negative hsize
  have hdiv : (field <<< 52 + m) >>> 52 = field + 1 := by
    rw [Nat.shiftRight_eq_div_pow]
    omega
  have hmantissa : (ofMagnitude negative (field <<< 52 + m)).mantissa = m := by
    simp only [mantissa, hmagnitude, hdiv, Nat.one_shiftLeft, Nat.succ_ne_zero, if_false]
    omega
  have hexponent : (ofMagnitude negative (field <<< 52 + m)).exponent = (field : Int) - 1074 := by
    rw [exponent, hmagnitude, hdiv]
    omega
  rw [toRatio, hmantissa, hexponent, isNegative_ofMagnitude negative hsize]
  by_cases hall : field = 1074
  · subst hall
    simp
  · rw [if_neg (by omega), Nat.one_shiftLeft]
    congr 2
    omega

/-- The exponent of an integer depends on its length only. -/
theorem scale_whole {v : Nat} (hv : v ≠ 0) (hlarge : v < 2 ^ 53) :
    scale v 1 = (Nat.log2 v : Int) - 52 := by
  have hlog : Nat.log2 v < 53 := (Nat.log2_lt hv).mpr hlarge
  have hself := Nat.log2_self_le hv
  have hfits : ¬ (if 0 ≤ (Nat.log2 v : Int) - (0 : Nat) - 52 then
      v < 1 <<< ((Nat.log2 v : Int) - (0 : Nat) - 52).toNat <<< 52
      else v <<< (-((Nat.log2 v : Int) - (0 : Nat) - 52)).toNat < 1 <<< 52) := by
    simp only [Nat.shiftLeft_eq, Nat.one_mul]
    split
    · have hexact : Nat.log2 v = 52 := by omega
      rw [hexact] at hself ⊢
      simpa using hself
    · have hrest : (-((Nat.log2 v : Int) - (0 : Nat) - 52)).toNat = 52 - Nat.log2 v := by omega
      have := Nat.mul_le_mul_right (2 ^ (52 - Nat.log2 v)) hself
      rw [← pow_add, Nat.add_sub_cancel' (by omega)] at this
      rw [hrest]
      omega
  have hone : Nat.log2 1 = 0 := by decide
  simp only [scale, hone, hfits, if_false]
  omega

/-- Scaling an integer to 53 bits rounds nothing. -/
theorem roundScaled_whole {v : Nat} (hv : v ≠ 0) (hlarge : v < 2 ^ 53) :
    roundScaled v 1 ((Nat.log2 v : Int) - 52) = v * 2 ^ (52 - Nat.log2 v) := by
  have hlog : Nat.log2 v < 53 := (Nat.log2_lt hv).mpr hlarge
  have hround (k : Nat) : roundDiv k 1 = k := by simp [roundDiv, Nat.mod_one]
  rw [roundScaled]
  split
  · have hexact : Nat.log2 v = 52 := by omega
    simp [hexact, hround]
  · have hrest : (-((Nat.log2 v : Int) - 52)).toNat = 52 - Nat.log2 v := by omega
    rw [hround, hrest, Nat.shiftLeft_eq]

/-- Shifted to 53 bits, a natural number is the mantissa of a normal double. -/
theorem shifted_bounds {v : Nat} (hv : v ≠ 0) (hlarge : v < 2 ^ 53) :
    2 ^ 52 ≤ v * 2 ^ (52 - Nat.log2 v) ∧ v * 2 ^ (52 - Nat.log2 v) < 2 ^ 53 := by
  have hlog : Nat.log2 v < 53 := (Nat.log2_lt hv).mpr hlarge
  constructor
  · have := Nat.mul_le_mul_right (2 ^ (52 - Nat.log2 v)) (Nat.log2_self_le hv)
    rwa [← pow_add, Nat.add_sub_cancel' (by omega)] at this
  · have hless : v < 2 ^ (Nat.log2 v + 1) := Nat.lt_log2_self
    have hall : Nat.log2 v + 1 + (52 - Nat.log2 v) = 53 := by omega
    calc v * 2 ^ (52 - Nat.log2 v)
        < 2 ^ (Nat.log2 v + 1) * 2 ^ (52 - Nat.log2 v) :=
          Nat.mul_lt_mul_of_pos_right hless (by positivity)
      _ = 2 ^ 53 := by rw [← pow_add, hall]

/-- The bits of the double of a natural number without the sign. -/
def wholeBits (v : Nat) : Nat := (Nat.log2 v + 1022) <<< 52 + v * 2 ^ (52 - Nat.log2 v)

theorem wholeBits_lt {v : Nat} (hv : v ≠ 0) (hlarge : v < 2 ^ 53) : wholeBits v < infinityBits := by
  have hlog : Nat.log2 v < 53 := (Nat.log2_lt hv).mpr hlarge
  have hhigh := (shifted_bounds hv hlarge).2
  have hbits : infinityBits = 2047 * 2 ^ 52 := by decide
  rw [hbits, wholeBits, Nat.shiftLeft_eq]
  omega

theorem ofInt_eq_ofMagnitude {n : Int} (hv : n.natAbs ≠ 0) (hn : n.natAbs < 2 ^ 53) :
    ofInt n = ofMagnitude (n < 0) (wholeBits n.natAbs) := by
  have hfield : ((Nat.log2 n.natAbs : Int) - 52 + 1074).toNat = Nat.log2 n.natAbs + 1022 := by omega
  simp only [ofInt, ofRatio, if_neg hv, scale_whole hv hn, roundScaled_whole hv hn, hfield]
  rw [← wholeBits, Nat.min_eq_left (wholeBits_lt hv hn).le]

/-- Every integer of less than 53 bits is the exact value of its double. -/
theorem isWhole_ofInt {n : Int} (hn : n.natAbs < 2 ^ 53) : (ofInt n).IsWhole n := by
  by_cases hzero : n = 0
  · subst hzero
    exact ⟨by decide, by decide⟩
  have hv : n.natAbs ≠ 0 := Int.natAbs_ne_zero.mpr hzero
  have hlog : Nat.log2 n.natAbs < 53 := (Nat.log2_lt hv).mpr hn
  obtain ⟨hlow, hhigh⟩ := shifted_bounds hv hn
  have hpattern := wholeBits_lt hv hn
  have hinfinity : infinityBits < 2 ^ 63 := by decide
  rw [ofInt_eq_ofMagnitude hv hn]
  constructor
  · rw [isFinite, magnitude_ofMagnitude _ (hpattern.trans hinfinity)]
    simpa using hpattern
  · have hrest : 1074 - (Nat.log2 n.natAbs + 1022) = 52 - Nat.log2 n.natAbs := by omega
    rw [wholeBits, toRatio_ofMagnitude _ hlow hhigh (by omega), hrest]
    by_cases hsign : n < 0
    · simp [hsign, abs_of_neg hsign]
    · simp [hsign, abs_of_nonneg (not_lt.mp hsign)]

/-! ## The shortest decimal -/

/-- The interval lies around `v` in units of which `u` make one, with less than a step of one on
either side. -/
structure Surrounds (i : Interval) (v u : Nat) : Prop where
  value : i.value = v * u
  low : i.value ≤ i.low + 2
  below : i.low < i.value
  high : i.high ≤ i.value + 2
  unit : 2 < u

namespace Surrounds

variable {i : Interval} {v u : Nat} (h : Surrounds i v u)
include h

/-- The next point of a grid of a power of ten lies outside of the interval. -/
theorem high_lt (j : Nat) : i.high < (v / 10 ^ j + 1) * (10 ^ j * u) := by
  have hpower : 0 < 10 ^ j := by positivity
  have hstep : v + 1 ≤ (v / 10 ^ j + 1) * 10 ^ j :=
    Nat.lt_mul_of_div_lt (Nat.lt_succ_self _) hpower
  have hscaled := Nat.mul_le_mul_right u hstep
  rw [Nat.mul_assoc, Nat.add_mul, ← h.value] at hscaled
  have hhigh := h.high
  have hunit := h.unit
  omega

/-- The last point of the grid up to the integer lies in the interval if it is the integer. -/
theorem holds_low_iff (j : Nat) : (if i.closed then i.low ≤ v / 10 ^ j * (10 ^ j * u)
    else i.low < v / 10 ^ j * (10 ^ j * u)) ↔ 10 ^ j ∣ v := by
  obtain ⟨hvalue, hlow, hbelow, -, hunit⟩ := h
  rw [← Nat.mul_assoc]
  by_cases hdvd : 10 ^ j ∣ v
  · rw [Nat.div_mul_cancel hdvd, ← hvalue]
    split <;> simp [hdvd] <;> omega
  · have hless : v / 10 ^ j * 10 ^ j + 1 ≤ v := by
      have hle := Nat.div_mul_le_self v (10 ^ j)
      have hne : v / 10 ^ j * 10 ^ j ≠ v := fun heq => hdvd (heq ▸ Nat.dvd_mul_left ..)
      omega
    have hscaled := Nat.mul_le_mul_right u hless
    rw [Nat.add_mul, ← hvalue] at hscaled
    split <;> simp [hdvd] <;> omega

/-- On the grid of a power of ten, the interval holds the integer, if the grid does, and nothing
else. -/
theorem onGrid?_eq (j : Nat) :
    onGrid? i (1, u) j = if 10 ^ j ∣ v then some (v / 10 ^ j) else none := by
  have hunit := h.unit
  have hquotient : v * u / (10 ^ j * u) = v / 10 ^ j := Nat.mul_div_mul_right _ _ (by omega)
  have habove := h.high_lt j
  have hnotAbove : ¬ (if i.closed then (v / 10 ^ j + 1) * (10 ^ j * u) ≤ i.high
      else (v / 10 ^ j + 1) * (10 ^ j * u) < i.high) := by
    split <;> omega
  simp only [onGrid?, tenPower, Int.natCast_nonneg, if_true, Int.toNat_natCast, Nat.pow_eq,
    Nat.mul_one, h.value, hquotient, h.holds_low_iff, hnotAbove, decide_false, Bool.and_false,
    Bool.false_eq_true, if_false]

/-- The first grid that holds the integer is found before the grid of units is passed. -/
theorem firstGrid_eq (k fuel n : Nat) (hn : n ≤ k) (hfuel : k < fuel + n) :
    ∃ d j : Nat, firstGrid i (1, u) k fuel n = (d, (j : Int)) ∧ d * 10 ^ j = v := by
  induction fuel generalizing n with
  | zero => omega
  | succ fuel ih =>
    have hexponent : (k : Int) - n = (k - n : Nat) := by omega
    rw [firstGrid, hexponent, h.onGrid?_eq]
    by_cases hdvd : 10 ^ (k - n) ∣ v
    · rw [if_pos hdvd]
      exact ⟨v / 10 ^ (k - n), k - n, rfl, Nat.div_mul_cancel hdvd⟩
    · have hne : n ≠ k := by
        rintro rfl
        simp at hdvd
      rw [if_neg hdvd]
      exact ih (n + 1) (by omega) (by omega)

end Surrounds

/-- The interval of a whole number lies around it, in quarters of the unit of the mantissa. -/
theorem surrounds_whole {x : Double} {n : Int} (hx : x.IsWhole n) (hn : n.natAbs < 2 ^ 53)
    (hzero : n ≠ 0) : Surrounds x.interval n.natAbs (2 ^ (-(x.exponent - 2)).toNat) := by
  have hmantissa := hx.mantissa_eq hn
  have hexponent := (hx.scaled hn).1
  have hv : 0 < n.natAbs := Int.natAbs_pos.mpr hzero
  have hpositive : 0 < x.mantissa := by
    rw [hmantissa]
    positivity
  have hlow : x.interval.value ≤ x.interval.low + 2 ∧ x.interval.low < x.interval.value := by
    simp only [interval]
    split <;> omega
  have hfour : 2 ^ (-(x.exponent - 2)).toNat = 4 * 2 ^ (-x.exponent).toNat := by
    have hshift : (-(x.exponent - 2)).toNat = (-x.exponent).toNat + 2 := by omega
    rw [hshift, pow_add]
    ring
  have hpower : 0 < 2 ^ (-x.exponent).toNat := by positivity
  refine ⟨?_, hlow.1, hlow.2, le_rfl, by omega⟩
  have hvalue : x.interval.value = 4 * x.mantissa := rfl
  rw [hvalue, hmantissa, hfour]
  ring

/-- Dropping zeros changes nothing about the value. -/
theorem dropZeros_value (fuel d j : Nat) :
    ∃ d' j' : Nat, dropZeros fuel (d, (j : Int)) = (d', (j' : Int)) ∧
      d' * 10 ^ j' = d * 10 ^ j := by
  induction fuel generalizing d j with
  | zero => exact ⟨d, j, rfl, rfl⟩
  | succ fuel ih =>
    rw [dropZeros]
    split
    · rename_i hzero
      obtain ⟨d', j', hdrop, hsame⟩ := ih (d / 10) (j + 1)
      refine ⟨d', j', hdrop, hsame.trans ?_⟩
      have hten : d / 10 * 10 = d := Nat.div_mul_cancel (Nat.dvd_of_mod_eq_zero (by simp_all))
      rw [pow_succ', ← Nat.mul_assoc, hten]
    · exact ⟨d, j, rfl, rfl⟩

theorem pointPosition_whole {v u : Nat} (hv : 0 < v) (hu : 0 < u) :
    pointPosition (v * u) u = digitCount v := by
  rw [pointPosition, if_pos (Nat.le_mul_of_pos_left u hv), Nat.mul_div_cancel v hu]

/-- The shortest decimal of an integer has its value. -/
theorem shortest_whole {x : Double} {n : Int} (hx : x.IsWhole n) (hn : n.natAbs < 2 ^ 53)
    (hzero : n ≠ 0) : ∃ d j : Nat, x.shortest = (d, (j : Int)) ∧ d * 10 ^ j = n.natAbs := by
  have hexponent := (hx.scaled hn).1
  have hsurrounds := surrounds_whole hx hn hzero
  have hunit := hsurrounds.unit
  have hdigits : 0 < digitCount n.natAbs ∧ digitCount n.natAbs ≤ 18 := by
    refine ⟨Nat.length_toDigits_pos, (Nat.length_toDigits_le_iff (by decide) (by decide)).mpr ?_⟩
    exact hn.trans (by decide)
  obtain ⟨d, j, hgrid, hd⟩ :=
    hsurrounds.firstGrid_eq (digitCount n.natAbs) 18 1 hdigits.1 (by omega)
  obtain ⟨d', j', hdrop, hd'⟩ := dropZeros_value 20 d j
  have hnegative : ¬ 0 ≤ x.exponent - 2 := by omega
  have hposition : pointPosition (x.interval.value * 1) (2 ^ (-(x.exponent - 2)).toNat) =
      digitCount n.natAbs := by
    rw [Nat.mul_one, hsurrounds.value]
    exact pointPosition_whole (Int.natAbs_pos.mpr hzero) (by omega)
  refine ⟨d', j', ?_, hd'.trans hd⟩
  simp only [shortest, if_neg hnegative, Nat.one_shiftLeft, hposition, hgrid, hdrop]

end Double

namespace FloatStyle

/-! ## Texts -/

/-- A number in front of whose point all digits stand is written without the point. -/
theorem positional_whole {d : Nat} (hd : 0 < d) (j : Nat) :
    positional (Text.ofNat d) (j + (Text.ofNat d).length) = Text.ofNat (d * 10 ^ j) := by
  have hlength : 0 < (Text.ofNat d).length := List.length_pos_iff.mpr (Text.ofNat_ne_nil d)
  have hpoint : ¬ (j + (Text.ofNat d).length : Int) ≤ 0 := by omega
  have hnat : ((j : Int) + (Text.ofNat d).length).toNat = j + (Text.ofNat d).length := by omega
  rw [positional, if_neg hpoint, hnat, if_pos (Nat.le_add_left ..), Nat.add_sub_cancel,
    Text.ofNat_mul_pow hd]

theorem mem_scientific (width : Nat) (ds : Text) (e : Int) :
    ('e' : UInt8) ∈ scientific width ds e := by
  have hmark : ('e' : UInt8) ∈ Text.ofString (if e < 0 then "e-" else "e+") := by
    split <;> decide
  simp only [scientific, List.mem_append]
  exact .inl (.inl (.inr hmark))

theorem not_mem_ofInt (n : Int) : ('e' : UInt8) ∉ Text.ofInt n := by
  rw [Text.ofInt_eq, List.mem_append]
  rintro (h | h)
  · split at h <;> exact absurd h (by decide)
  · exact absurd (Text.isDigit_of_mem_ofNat h) (by decide)

variable {x : Double} {n : Int}

theorem render_eq (hx : x.isFinite = true) : general.render x =
    (if x.isNegative then ("-" : Text) else "") ++
      if x.magnitude = 0 then ("0" : Text)
      else
        let lead := x.shortest.2 + (Text.ofNat x.shortest.1).length - 1
        if lead < -4 || 6 ≤ lead then scientific 2 (Text.ofNat x.shortest.1) lead
        else positional (Text.ofNat x.shortest.1) (lead + 1) := by
  have hbound : x.magnitude < Double.infinityBits := by simpa [Double.isFinite] using hx
  have hnan : x.isNaN = false := by simpa [Double.isNaN] using hbound.le
  have hinfinite : x.isInfinite = false := by simpa [Double.isInfinite] using hbound.ne
  rw [render, hnan, hinfinite]
  by_cases hzero : x.magnitude = 0
  · simp [hzero]
  · simp only [hzero, if_false]
    rfl

/-- Zero is written like an integer unless it has a sign. -/
theorem render_general_zero (hx : x.IsWhole 0) :
    general.render x = Text.ofInt 0 ↔ x.isNegative = false := by
  have hmagnitude := (hx.magnitude_eq_zero_iff (by decide)).mpr rfl
  rw [render_eq hx.1, if_pos hmagnitude]
  cases x.isNegative <;> decide

/-- A whole number other than zero is written like an integer exactly if it is less than a
million. -/
theorem render_general_whole (hx : x.IsWhole n) (hn : n.natAbs < 2 ^ 53) (hzero : n ≠ 0) :
    general.render x = Text.ofInt n ↔ n.natAbs < 10 ^ 6 := by
  obtain ⟨d, j, hshortest, hd⟩ := Double.shortest_whole hx hn hzero
  have hmagnitude : x.magnitude ≠ 0 := fun h => hzero ((hx.magnitude_eq_zero_iff hn).mp h)
  have hpositive : 0 < d := by
    rcases Nat.eq_zero_or_pos d with rfl | h
    · simp at hd
      omega
    · exact h
  have hlength : j + (Text.ofNat d).length = (Nat.toDigits 10 n.natAbs).length := by
    rw [← Text.length_ofNat, ← hd, Text.ofNat_mul_pow hpositive, List.length_append,
      List.length_replicate, Nat.add_comm]
  have hsize : (Nat.toDigits 10 n.natAbs).length ≤ 6 ↔ n.natAbs < 10 ^ 6 :=
    Nat.length_toDigits_le_iff (by decide) (by decide)
  rw [render_eq hx.1, if_neg hmagnitude, hshortest]
  have hsign : (if x.isNegative then ("-" : Text) else "") =
      if n < 0 then ("-" : Text) else "" := by
    simp only [hx.isNegative_iff hn hzero]
  by_cases hsmall : n.natAbs < 10 ^ 6
  · have hlead : ¬ ((j : Int) + (Text.ofNat d).length - 1 < -4 ∨
        6 ≤ (j : Int) + (Text.ofNat d).length - 1) := by
      have := hsize.mpr hsmall
      omega
    simp only [Bool.or_eq_true, decide_eq_true_eq, hlead, if_false, sub_add_cancel,
      positional_whole hpositive, hd, hsign, ← Text.ofInt_eq, hsmall]
  · have hlead : (j : Int) + (Text.ofNat d).length - 1 < -4 ∨
        6 ≤ (j : Int) + (Text.ofNat d).length - 1 := by
      have := mt hsize.mp hsmall
      omega
    simp only [Bool.or_eq_true, decide_eq_true_eq, hlead, if_true, hsmall, iff_false]
    intro hsame
    exact not_mem_ofInt n (hsame ▸ List.mem_append_right _ (mem_scientific ..))

end FloatStyle

end TwigLint
