import TwigLint.Lint.Schema
import TwigLint.Proofs.Number.Whole

/-! # Whole numbers in enumerations

An integer and a double with the same value are the same entry of an enumeration only as far as they
are written alike: the double is written with an exponent from a million on, and a negative zero
keeps its sign.
-/

namespace TwigLint

/-- A double with an integer as its value is written like the integer. -/
def Double.WrittenLike (x : Double) (n : Int) : Prop :=
  n.natAbs < 10 ^ 6 ∧ (n = 0 → x.isNegative = false)

instance (x : Double) (n : Int) : Decidable (x.WrittenLike n) :=
  inferInstanceAs (Decidable (_ ∧ _))

theorem Double.IsWhole.render_eq_iff {x : Double} {n : Int} (hx : x.IsWhole n)
    (hn : n.natAbs < 2 ^ 53) : FloatStyle.general.render x = Text.ofInt n ↔ x.WrittenLike n := by
  by_cases hzero : n = 0
  · subst hzero
    rw [FloatStyle.render_general_zero hx]
    exact ⟨fun h => ⟨by decide, fun _ => h⟩, fun h => h.2 rfl⟩
  · rw [FloatStyle.render_general_whole hx hn hzero]
    exact ⟨fun h => ⟨h, fun h0 => absurd h0 hzero⟩, And.left⟩

namespace Schema

/-! ## Membership -/

theorem inEnum_middle (value e : Data) (before behind : List Data) :
    inEnum value (before ++ e :: behind) = true ↔
      e.looselyEqual value = true ∨ inEnum value (before ++ behind) = true := by
  simp only [inEnum, List.any_append, List.any_cons, Bool.or_eq_true]
  exact or_left_comm

section

variable {n : Int} {x : Double} (hn : n.natAbs < 2 ^ 53) (hx : x.IsWhole n)
include hn hx

theorem looselyEqual_int_float :
    (Data.int n).looselyEqual (.float x) = true ↔ x.WrittenLike n := by
  have hparts : (Data.int n).same (.float x) = false := rfl
  rw [← hx.render_eq_iff hn, Data.looselyEqual, hparts, Bool.false_or, beq_iff_eq]
  exact eq_comm

theorem looselyEqual_float_int :
    (Data.float x).looselyEqual (.int n) = true ↔ x.WrittenLike n := by
  have hparts : (Data.float x).same (.int n) = false := rfl
  rw [← hx.render_eq_iff hn, Data.looselyEqual, hparts, Bool.false_or, beq_iff_eq]
  exact Iff.rfl

end

/-! ## The finding -/

/-- The finding about a default value that is not in the enumeration of a property. -/
def outsideEnum (id : Text) (p : Property) : Diagnostic :=
  .inSchema id p.line .error "Default value must be in the enum."

/-- The texts about the shape of a property are others. -/
theorem shapeMessage?_ne {p : Property} {message : Text} (h : shapeMessage? p = some message) :
    message ≠ "Default value must be in the enum." := by
  unfold shapeMessage? at h
  split at h
  · cases h
    decide
  split at h
  · cases h
    decide
  split at h
  · cases h
    decide
  · cases h

theorem outsideEnum_mem_iff {id : Text} {p : Property} : outsideEnum id p ∈ checkProperty id p ↔
    ∃ value, p.default? = some value ∧ p.enum ≠ [] ∧ inEnum value p.enum = false := by
  have hshape {severity : Severity} {message : Text}
      (hmessage : message ≠ "Default value must be in the enum.") :
      outsideEnum id p ≠ Diagnostic.inSchema id p.line severity message :=
    fun h => hmessage (congrArg Diagnostic.message h).symm
  simp only [checkProperty, List.mem_append]
  rw [or_iff_left]
  · cases p.default? with
    | none => simp
    | some value => simp [outsideEnum]
  · split
    · rw [List.mem_singleton]
      exact hshape (by decide)
    · split
      · rename_i message hmessage
        rw [List.mem_singleton]
        exact hshape (shapeMessage?_ne hmessage)
      · exact List.not_mem_nil

/-- An integer and a double with its value are the same entry of an enumeration, wherever it stands,
exactly if the double is written like the integer; only otherwise a default value with this value
can be reported.  Every integer of less than 53 bits has such a double. -/
theorem whole_number_in_enum {n : Int} (hn : n.natAbs < 2 ^ 53) :
    (Double.ofInt n).IsWhole n ∧ ∀ x : Double, x.IsWhole n → ∀ before behind : List Data,
      (inEnum (.float x) (before ++ .int n :: behind) = true ↔
        x.WrittenLike n ∨ inEnum (.float x) (before ++ behind) = true) ∧
      (inEnum (.int n) (before ++ .float x :: behind) = true ↔
        x.WrittenLike n ∨ inEnum (.int n) (before ++ behind) = true) ∧
      ∀ (id : Text) (p : Property) (value entry : Data), p.default? = some value →
        p.enum = before ++ entry :: behind →
        (entry = .int n ∧ value = .float x ∨ entry = .float x ∧ value = .int n) →
        (outsideEnum id p ∈ checkProperty id p ↔
          ¬ x.WrittenLike n ∧ inEnum value (before ++ behind) = false) := by
  refine ⟨Double.isWhole_ofInt hn, fun x hx before behind => ?_⟩
  have hfloat : inEnum (.float x) (before ++ .int n :: behind) = true ↔
      x.WrittenLike n ∨ inEnum (.float x) (before ++ behind) = true := by
    rw [inEnum_middle, looselyEqual_int_float hn hx]
  have hint : inEnum (.int n) (before ++ .float x :: behind) = true ↔
      x.WrittenLike n ∨ inEnum (.int n) (before ++ behind) = true := by
    rw [inEnum_middle, looselyEqual_float_int hn hx]
  refine ⟨hfloat, hint, fun id p value entry hdefault henum hequal => ?_⟩
  have hmember : inEnum value p.enum = true ↔
      x.WrittenLike n ∨ inEnum value (before ++ behind) = true := by
    rw [henum]
    rcases hequal with ⟨rfl, rfl⟩ | ⟨rfl, rfl⟩
    · exact hfloat
    · exact hint
  rw [outsideEnum_mem_iff, hdefault, henum]
  simp only [Option.some.injEq, exists_eq_left', ← henum]
  rw [← Bool.not_eq_true, hmember, not_or, Bool.not_eq_true]
  simp [henum]

/-- The last integer that is written alike, in front of others and behind them. -/
theorem whole_number_in_enum_last :
    (-999999 : Int).natAbs < 2 ^ 53 ∧ (Double.ofInt (-999999)).IsWhole (-999999) ∧
      inEnum (.float (Double.ofInt (-999999))) [.text "a", .int (-999999), .int 3] = true ∧
      inEnum (.int (-999999)) [.text "a", .float (Double.ofInt (-999999)), .int 3] = true := by
  have hn : (-999999 : Int).natAbs < 2 ^ 53 := by decide
  obtain ⟨hx, hequal⟩ := whole_number_in_enum hn
  have hlike : (Double.ofInt (-999999)).WrittenLike (-999999) := ⟨by decide, by decide⟩
  obtain ⟨hfloat, hint, -⟩ := hequal _ hx [.text "a"] [.int 3]
  exact ⟨hn, hx, hfloat.mpr (.inl hlike), hint.mpr (.inl hlike)⟩

/-- A property whose default value is a million as a double, and whose enumeration has a million as
an integer. -/
def million : Property :=
  { Property.new "n" 1 with
    types := ["integer"]
    enum := [.int 1000000]
    default? := some (.float (Double.ofInt 1000000)) }

/-- A million as a double is not found among integers, and is reported. -/
theorem whole_number_in_enum_million :
    (1000000 : Int).natAbs < 2 ^ 53 ∧ (Double.ofInt 1000000).IsWhole 1000000 ∧
      inEnum (.float (Double.ofInt 1000000)) [.int 1000000] = false ∧
      outsideEnum "p:c" million ∈ checkProperty "p:c" million := by
  have hn : (1000000 : Int).natAbs < 2 ^ 53 := by decide
  have hx := Double.isWhole_ofInt hn
  have hnot : inEnum (.float (Double.ofInt 1000000)) [.int 1000000] = false := by
    rw [← Bool.not_eq_true, inEnum, List.any_cons, List.any_nil, Bool.or_false,
      looselyEqual_int_float hn hx]
    exact fun h => absurd h.1 (by decide)
  exact ⟨hn, hx, hnot, outsideEnum_mem_iff.mpr ⟨_, rfl, List.cons_ne_nil _ _, hnot⟩⟩

end Schema

end TwigLint
