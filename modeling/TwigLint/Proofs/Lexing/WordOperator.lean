import TwigLint.Proofs.Text.Decimal
import TwigLint.Proofs.Lexing.Spelled

/-! # Word operators

A word is followed by a blank.  An operator is read from it exactly when the word is that operator,
or when it is the first word of an operator of two words and the second one stands behind the blank.
-/

namespace TwigLint.Text

theorem after?_eq_some {p t r : Text} : after? p t = some r ↔ t = p ++ r := by
  induction p generalizing t with
  | nil => simp [after?]
  | cons a p ih =>
    cases t with
    | nil => simp [after?]
    | cons b t =>
      by_cases h : a = b
      · subst h
        simp [after?, ih]
      · simp [after?, h, Ne.symm h]

end TwigLint.Text

namespace TwigLint.Lexing

open Lexeme

/-- The text starts with the given word. -/
def startsWord (v t : Text) : Bool :=
  match Text.after? v t with
  | some r => endsWord r
  | none => false

theorem startsWord_iff {v t : Text} :
    startsWord v t = true ↔ ∃ r, t = v ++ r ∧ endsWord r = true := by
  unfold startsWord
  cases h : Text.after? v t with
  | none =>
    refine ⟨fun h => absurd h (by simp), ?_⟩
    rintro ⟨r, hr, -⟩
    rw [Text.after?_eq_some.mpr hr] at h
    exact absurd h (by simp)
  | some r =>
    rw [Text.after?_eq_some] at h
    subst h
    simp

theorem not_isWordByte_of_isBlank {b : UInt8} (h : isBlank b = true) :
    Text.isWordByte b = false := by
  simp only [isBlank, Bool.or_eq_true, beq_iff_eq] at h
  rcases h with (((rfl | rfl) | rfl) | rfl) | rfl <;> rfl

/-- A word without blanks at the front of another word and a blank, which stops there, is that
other word. -/
theorem word_eq {u w r rest : Text} (hu : ∀ b ∈ u, Text.isWordByte b = true)
    (hw : (' ' : UInt8) ∉ w) (hr : endsWord r = true) (h : u ++ (' ' : UInt8) :: rest = w ++ r) :
    w = u ∧ r = (' ' : UInt8) :: rest := by
  induction w generalizing u with
  | nil =>
    cases u with
    | nil => exact ⟨rfl, h.symm⟩
    | cons b u =>
      subst h
      simp [endsWord, hu b (by simp)] at hr
  | cons a w ih =>
    cases u with
    | nil =>
      simp only [List.nil_append, List.cons_append, List.cons.injEq] at h
      exact absurd (by simp [h.1]) hw
    | cons b u =>
      simp only [List.cons_append, List.cons.injEq] at h
      obtain ⟨rfl, h⟩ := h
      obtain ⟨rfl, rfl⟩ := ih (fun c hc => hu c (by simp [hc])) (fun hc => hw (by simp [hc])) h
      exact ⟨rfl, rfl⟩

/-- The lexeme of one operator, if it stands at the front of the text. -/
def operatorAt (ws : List Text) (t : Text) : Option Lexeme :=
  match readWords? ws t with
  | some (source, rest) =>
    if endsWord rest then some ⟨.operator, Text.join " " ws, source⟩ else none
  | none => none

theorem wordOperator?_eq (t : Text) :
    wordOperator? t = wordOperators.findSome? fun ws => operatorAt ws t := rfl

/-- The operators have one or two words. -/
theorem words_cases {ws : List Text} (h : ws ∈ wordOperators) :
    (∃ w, ws = [w] ∧ (' ' : UInt8) ∉ w) ∨ ∃ w v, ws = [w, v] ∧ (' ' : UInt8) ∉ w := by
  simp only [wordOperators, List.mem_cons, List.not_mem_nil, or_false] at h
  rcases h with rfl | rfl | rfl | rfl | rfl | rfl | rfl | rfl | rfl | rfl | rfl | rfl | rfl
  all_goals first
    | exact .inl ⟨_, rfl, by decide⟩
    | exact .inr ⟨_, _, rfl, by decide⟩

/-- A value that some entry has, and that every entry has or none, is the first one. -/
theorem findSome?_eq_of_only {α β : Type} {f : α → Option β} {a : α} {b : β} {l : List α}
    (ha : a ∈ l) (hb : f a = some b) (h : ∀ x ∈ l, f x = some b ∨ f x = none) :
    l.findSome? f = some b := by
  obtain ⟨c, hc⟩ : ∃ c, l.findSome? f = some c := by
    rw [← Option.isSome_iff_exists, List.findSome?_isSome_iff]
    exact ⟨a, ha, by rw [hb]; rfl⟩
  obtain ⟨x, hx, hxc⟩ := List.exists_of_findSome?_eq_some hc
  rcases h x hx with hsome | hnone
  · rw [hc, ← hxc, hsome]
  · rw [hnone] at hxc
    cases hxc

/-- Behind what goes on as a word there is no blank. -/
theorem takeWhile_isBlank_of_not_endsWord {r : Text} (h : endsWord r = false) :
    r.takeWhile isBlank = [] := by
  cases r with
  | nil => rfl
  | cons b t =>
    by_contra hne
    have hb : isBlank b = true := by
      by_contra hb
      simp [hb] at hne
    simp [endsWord, not_isWordByte_of_isBlank hb] at h

section Word

variable {u rest : Text} (hu : ∀ b ∈ u, Text.isWordByte b = true)

include hu

/-- Another word than the one in front of the blank goes on. -/
theorem not_endsWord_of_after? {w r : Text} (hw : (' ' : UInt8) ∉ w) (hne : w ≠ u)
    (hr : Text.after? w (u ++ (' ' : UInt8) :: rest) = some r) : endsWord r = false := by
  by_contra hend
  exact hne (word_eq hu hw (by simpa using hend) (Text.after?_eq_some.mp hr)).1

theorem operatorAt_one {w : Text} (hw : (' ' : UInt8) ∉ w) :
    operatorAt [w] (u ++ (' ' : UInt8) :: rest) =
      if w = u then some ⟨.operator, w, w⟩ else none := by
  split
  case isTrue h =>
    subst h
    simp [operatorAt, readWords?, Text.after?_eq_some.mpr rfl, Text.join]
    rfl
  case isFalse h =>
    unfold operatorAt
    cases hr : Text.after? w (u ++ (' ' : UInt8) :: rest) with
    | none => simp [readWords?, hr]
    | some r => simp [readWords?, hr, not_endsWord_of_after? hu hw h hr]

theorem operatorAt_two {w v : Text} (hw : (' ' : UInt8) ∉ w)
    (hrest : ∀ b ∈ rest.head?, isBlank b = false) :
    operatorAt [w, v] (u ++ (' ' : UInt8) :: rest) =
      if w = u ∧ startsWord v rest = true then
        some ⟨.operator, w ++ " " ++ v, w ++ " " ++ v⟩ else none := by
  by_cases h : w = u
  · subst h
    have hblank : isBlank ' ' = true := rfl
    have htake : rest.takeWhile isBlank = [] := by
      cases rest with
      | nil => rfl
      | cons b t => simp [hrest b rfl]
    have hdrop : rest.dropWhile isBlank = rest := by
      cases rest with
      | nil => rfl
      | cons b t => simp [hrest b rfl]
    cases hv : Text.after? v rest with
    | none =>
      simp [operatorAt, readWords?, Text.after?_eq_some.mpr rfl, hblank, htake, hdrop, hv,
        startsWord]
    | some r =>
      simp [operatorAt, readWords?, Text.after?_eq_some.mpr rfl, hblank, htake, hdrop, hv,
        startsWord, Text.join]
      rfl
  · simp only [h, false_and, if_false]
    unfold operatorAt
    cases hr : Text.after? w (u ++ (' ' : UInt8) :: rest) with
    | none => simp [readWords?, hr]
    | some r =>
      have hempty := takeWhile_isBlank_of_not_endsWord (not_endsWord_of_after? hu hw h hr)
      simp only [readWords?, hr, Option.bind_eq_bind, Option.bind_some, hempty, List.isEmpty_nil,
        if_true, Option.bind_none]

/-- Of all operators only the word itself stands in front, if no operator of two words does. -/
theorem operatorAt_word {ws : List Text} (hws : ws ∈ wordOperators)
    (hrest : ∀ b ∈ rest.head?, isBlank b = false)
    (htwo : ∀ v, [u, v] ∈ wordOperators → startsWord v rest = false) :
    operatorAt ws (u ++ (' ' : UInt8) :: rest) =
      if ws = [u] then some ⟨.operator, u, u⟩ else none := by
  rcases words_cases hws with ⟨w, rfl, hw⟩ | ⟨w, v, rfl, hw⟩
  · rw [operatorAt_one hu hw]
    by_cases h : w = u
    · simp [h]
    · simp [h]
  · rw [operatorAt_two hu hw hrest, if_neg, if_neg (by simp)]
    rintro ⟨rfl, hv⟩
    rw [htwo v hws] at hv
    exact absurd hv (by simp)

/-- A word is read as an operator exactly if it is one. -/
theorem wordOperator?_word (hrest : ∀ b ∈ rest.head?, isBlank b = false)
    (htwo : ∀ v, [u, v] ∈ wordOperators → startsWord v rest = false) :
    wordOperator? (u ++ (' ' : UInt8) :: rest) =
      if [u] ∈ wordOperators then some ⟨.operator, u, u⟩ else none := by
  have hat : ∀ ws ∈ wordOperators, operatorAt ws (u ++ (' ' : UInt8) :: rest) =
      if ws = [u] then some ⟨.operator, u, u⟩ else none :=
    fun ws hws => operatorAt_word hu hws hrest htwo
  rw [wordOperator?_eq]
  split
  case isTrue h =>
    refine findSome?_eq_of_only h ((hat [u] h).trans (if_pos rfl)) fun ws hws => ?_
    rw [hat ws hws]
    exact ite_eq_or_eq ..
  case isFalse h =>
    rw [List.findSome?_eq_none_iff]
    intro ws hws
    rw [hat ws hws, if_neg]
    rintro rfl
    exact h hws

end Word

/-- An operator is read from its own words. -/
theorem wordOperator?_listed {ws : List Text} {rest : Text} (hws : ws ∈ wordOperators)
    (hrest : ∀ b ∈ rest.head?, isBlank b = false)
    (htwo : ∀ v, [Text.join " " ws, v] ∈ wordOperators → startsWord v rest = false) :
    wordOperator? (Text.join " " ws ++ (' ' : UInt8) :: rest) =
      some ⟨.operator, Text.join " " ws, Text.join " " ws⟩ := by
  simp only [wordOperators, List.mem_cons, List.not_mem_nil, or_false] at hws
  rcases hws with rfl | rfl | rfl | rfl | rfl | rfl | rfl | rfl | rfl | rfl | rfl | rfl | rfl
  -- An operator with a blank or a hyphen shows where it ends; a single word need not.
  all_goals first
    | rfl
    | exact (wordOperator?_word (List.all_eq_true.mp rfl) hrest htwo).trans (if_pos (by decide))

/-- Every operator of words starts with a letter. -/
theorem wordOperators_letter {ws : List Text} (h : ws ∈ wordOperators) :
    ∃ c w vs, ws = (c :: w) :: vs ∧ Text.isLetter c = true := by
  simp only [wordOperators, List.mem_cons, List.not_mem_nil, or_false] at h
  rcases h with rfl | rfl | rfl | rfl | rfl | rfl | rfl | rfl | rfl | rfl | rfl | rfl | rfl
  all_goals exact ⟨_, _, _, rfl, by decide⟩

theorem wordOperator?_not_letter {b : UInt8} (h : Text.isLetter b = false) (t : Text) :
    wordOperator? (b :: t) = none := by
  rw [wordOperator?_eq, List.findSome?_eq_none_iff]
  intro ws hws
  obtain ⟨c, w, vs, rfl, hc⟩ := wordOperators_letter hws
  have hne : (c == b) = false := by
    rw [beq_eq_false_iff_ne]
    rintro rfl
    rw [hc] at h
    exact absurd h (by simp)
  cases vs with
  | nil => simp [operatorAt, readWords?, Text.after?, hne]
  | cons v vs => simp [operatorAt, readWords?, Text.after?, hne]

/-! ## Operators of two words -/

theorem pair_cases {w v : Text} (h : [w, v] ∈ wordOperators) :
    (w = "starts" ∧ v = "with") ∨ (w = "ends" ∧ v = "with") ∨ (w = "not" ∧ v = "in") ∨
      (w = "is" ∧ v = "not") := by
  simpa only [wordOperators, List.mem_cons, List.cons.injEq, List.not_mem_nil, reduceCtorEq,
    and_true, and_false, or_false] using h

theorem second_word_bytes {w v : Text} (h : [w, v] ∈ wordOperators) :
    ∃ a t, v = a :: t ∧ Text.isLetter a = true ∧ (' ' : UInt8) ∉ v := by
  rcases pair_cases h with ⟨-, rfl⟩ | ⟨-, rfl⟩ | ⟨-, rfl⟩ | ⟨-, rfl⟩
  all_goals exact ⟨_, _, rfl, by decide, by decide⟩

theorem startsWord_not_letter {w v t : Text} {b : UInt8} (h : [w, v] ∈ wordOperators)
    (hb : Text.isLetter b = false) : startsWord v (b :: t) = false := by
  obtain ⟨a, v, rfl, ha, -⟩ := second_word_bytes h
  have hne : a ≠ b := by
    rintro rfl
    rw [ha] at hb
    exact absurd hb (by simp)
  simp [startsWord, Text.after?, hne]

end TwigLint.Lexing
