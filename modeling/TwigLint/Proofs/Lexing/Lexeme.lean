import TwigLint.Proofs.Lexing.WordOperator

/-! # Reading one lexeme

A written token with a blank behind it is read back: its type, its value, and exactly the bytes that
were written.  Only for a word does it matter what follows the blank, since the word and the next
one can be an operator.
-/

namespace TwigLint.Lexing

open Lexeme

/-! ## Byte classes -/

theorem isNameByte_of_isWordByte {b : UInt8} (h : Text.isWordByte b = true) :
    isNameByte b = true := by
  simp only [Text.isWordByte, Bool.or_eq_true] at h
  rcases h with (h | h) | h
  · simp [isNameByte, isNameStart, h]
  · simp [isNameByte, h]
  · simp [isNameByte, isNameStart, h]

theorem isWordByte_of_isDigit {b : UInt8} (h : Text.isDigit b = true) :
    Text.isWordByte b = true := by
  simp [Text.isWordByte, h]

theorem not_isLetter_of_isDigit {b : UInt8} (h : Text.isDigit b = true) :
    Text.isLetter b = false := by
  rw [Text.isDigit_iff] at h
  simp only [Text.isLetter, Text.isLower, Text.isUpper, Char.toUInt8, UInt8.le_iff_toNat_le,
    Bool.or_eq_false_iff, Bool.and_eq_false_iff, decide_eq_false_iff_not]
  exact ⟨.inl (by simp; omega), .inl (by simp; omega)⟩

theorem not_isNameStart_of_isDigit {b : UInt8} (h : Text.isDigit b = true) :
    isNameStart b = false := by
  have hletter := not_isLetter_of_isDigit h
  have hunderscore : b ≠ '_' := by
    rintro rfl
    exact absurd h (by decide)
  rw [Text.isDigit_iff] at h
  have hhigh : ¬ (0x7f : UInt8) ≤ b := by
    rw [UInt8.le_iff_toNat_le]
    simp
    omega
  simp [isNameStart, hletter, hunderscore, hhigh]

/-! ## Maximal runs -/

section Runs

variable {p : UInt8 → Bool} {t r : Text}

theorem takeWhile_run (ht : ∀ b ∈ t, p b = true) (hr : ∀ b ∈ r.head?, p b = false) :
    (t ++ r).takeWhile p = t := by
  rw [List.takeWhile_append_of_pos ht]
  cases r with
  | nil => simp
  | cons b r => simp [hr b rfl]

theorem dropWhile_run (ht : ∀ b ∈ t, p b = true) (hr : ∀ b ∈ r.head?, p b = false) :
    (t ++ r).dropWhile p = r := by
  rw [List.dropWhile_append_of_pos ht]
  cases r with
  | nil => rfl
  | cons b r => simp [hr b rfl]

theorem head?_cons_stop {b : UInt8} (h : p b = false) : ∀ c ∈ (b :: r).head?, p c = false := by
  intro c hc
  obtain rfl : b = c := by simpa using hc
  exact h

end Runs

/-! ## Names -/

theorem Name.text_eq (n : Name) : ∃ b t, n.text = b :: t ∧
    (Text.isLetter b = true ∨ b = '_') ∧ ∀ c ∈ n.text, Text.isWordByte c = true := by
  obtain ⟨text, identifier, -⟩ := n
  cases text with
  | nil => simp [isIdentifier] at identifier
  | cons b t =>
    simp only [isIdentifier, Bool.and_eq_true, Bool.or_eq_true, beq_iff_eq, List.all_eq_true]
      at identifier
    obtain ⟨hb, ht⟩ := identifier
    refine ⟨b, t, rfl, hb, ?_⟩
    intro c hc
    rcases List.mem_cons.mp hc with rfl | hc
    · rcases hb with hb | rfl
      · simp [Text.isWordByte, hb]
      · rfl
    · exact ht c hc

theorem not_arrow {b : UInt8} (h : b ≠ '=') (t : Text) :
    Text.startsWith (b :: t) "=>" = false := by
  change (('=' : UInt8) == b && _) = false
  simp [Ne.symm h]

/-- What stands behind a token and a blank: no blank, and no word with which the token would be an
operator of two words. -/
structure Separate (t : Spelled) (rest : Text) : Prop where
  head : ∀ b ∈ rest.head?, isBlank b = false
  word : ∀ v, [t.print, v] ∈ wordOperators → startsWord v rest = false

theorem read_name {n : Name} {rest : Text} (h : Separate (.name n) rest) {b : UInt8} {t : Text}
    (hp : n.text = b :: t) :
    Lexeme.read b (t ++ (' ' : UInt8) :: rest) = .ok ⟨.name, n.text, n.text⟩ := by
  obtain ⟨c, u, hc, hfirst, hword⟩ := n.text_eq
  obtain ⟨rfl, rfl⟩ : b = c ∧ t = u := by simpa [hp] using hc
  have harrow : b ≠ '=' := by
    rintro rfl
    revert hfirst
    decide
  have hnone : wordOperator? (b :: (t ++ (' ' : UInt8) :: rest)) = none := by
    have hone : [n.text] ∉ wordOperators := fun hmem => n.notOperator _ hmem rfl
    have := wordOperator?_word hword h.head h.word
    rwa [if_neg hone, hp] at this
  have hstart : isNameStart b = true := by
    rcases hfirst with hb | rfl
    · simp [isNameStart, hb]
    · rfl
  have htake : (t ++ (' ' : UInt8) :: rest).takeWhile isNameByte = t := by
    refine takeWhile_run (fun c hc => ?_) (head?_cons_stop rfl)
    exact isNameByte_of_isWordByte (hword c (by simp [hp, hc]))
  simp only [Lexeme.read, not_arrow harrow, hnone, hstart, htake, if_true, hp]
  simp

/-! ## Numbers -/

theorem Digits.text_eq (ds : Digits) : ∃ b t, ds.text = b :: t ∧ Text.isDigit b = true := by
  obtain ⟨text, nonempty, digits⟩ := ds
  cases text with
  | nil => exact absurd rfl nonempty
  | cons b t => exact ⟨b, t, rfl, digits b (by simp)⟩

theorem number_whole (ds : Digits) (rest : Text) :
    number (ds.text ++ (' ' : UInt8) :: rest) = ds.text := by
  have hstop : ∀ c ∈ ((' ' : UInt8) :: rest).head?, Text.isDigit c = false := head?_cons_stop rfl
  have hpoint : ((' ' : UInt8) == '.') = false := rfl
  cases rest with
  | nil => simp [number, takeWhile_run ds.digits hstop, dropWhile_run ds.digits hstop]
  | cons d r => simp [number, takeWhile_run ds.digits hstop, dropWhile_run ds.digits hstop, hpoint]

theorem number_fraction (ds es : Digits) (rest : Text) :
    number (ds.text ++ "." ++ es.text ++ (' ' : UInt8) :: rest) = ds.text ++ "." ++ es.text := by
  obtain ⟨d, u, hes, hd⟩ := es.text_eq
  have hpoint : ∀ c ∈ (('.' : UInt8) :: d :: (u ++ (' ' : UInt8) :: rest)).head?,
      Text.isDigit c = false := head?_cons_stop rfl
  have hstop : ∀ c ∈ ((' ' : UInt8) :: rest).head?, Text.isDigit c = false := head?_cons_stop rfl
  have hu : ∀ c ∈ u, Text.isDigit c = true := fun c hc => es.digits c (by simp [hes, hc])
  have heq : ds.text ++ "." ++ es.text ++ (' ' : UInt8) :: rest =
      ds.text ++ ('.' : UInt8) :: d :: (u ++ (' ' : UInt8) :: rest) := by
    rw [hes, List.append_assoc, List.append_assoc]
    rfl
  rw [heq, hes, List.append_assoc]
  simp only [number, takeWhile_run ds.digits hpoint, dropWhile_run ds.digits hpoint,
    takeWhile_run hu hstop, hd, Bool.and_true, beq_self_eq_true, if_true]
  rfl

/-- Behind a first digit everything depends on where the digits end. -/
theorem read_digit {b : UInt8} (h : Text.isDigit b = true) (t : Text) :
    Lexeme.read b t = .ok ⟨.number, number (b :: t), number (b :: t)⟩ := by
  have harrow : b ≠ '=' := by
    rintro rfl
    exact absurd h (by decide)
  simp [Lexeme.read, not_arrow harrow, wordOperator?_not_letter (not_isLetter_of_isDigit h),
    not_isNameStart_of_isDigit h, h]

/-! ## Strings -/

section Strings

variable {quote : UInt8}

theorem stringBody?_byte {b : UInt8} (hquote : b ≠ quote) (hescape : b ≠ '\\') (t : Text) :
    stringBody? quote (b :: t) =
      (stringBody? quote t).map fun (value, source) => (b :: value, b :: source) := by
  cases t with
  | nil => simp [stringBody?, hquote]
  | cons c t => simp [stringBody?, hquote, hescape]

theorem stringBody?_escaped (hquote : ('\\' : UInt8) ≠ quote) (c : UInt8) (t : Text) :
    stringBody? quote (('\\' : UInt8) :: c :: t) =
      (stringBody? quote t).map fun (value, source) =>
        (unescape c :: value, ('\\' : UInt8) :: c :: source) := by
  simp [stringBody?, hquote]

theorem stringBody?_quote (t : Text) : stringBody? quote (quote :: t) = some ([], [quote]) := by
  cases t with
  | nil => simp [stringBody?]
  | cons c t => simp [stringBody?]

/-- One byte of the content, as it is written, is read back. -/
theorem stringBody?_escape (hquote : ('\\' : UInt8) ≠ quote) (hsame : unescape quote = quote)
    (b : UInt8) (t : Text) :
    stringBody? quote (escape quote b ++ t) =
      (stringBody? quote t).map fun (value, source) => (b :: value, escape quote b ++ source) := by
  unfold escape
  split
  case isTrue h =>
    have hb : unescape b = b := by
      rcases (Bool.or_eq_true _ _).mp h with h | h
      · obtain rfl := eq_of_beq h
        rfl
      · obtain rfl := eq_of_beq h
        exact hsame
    simp only [List.cons_append, List.nil_append, stringBody?_escaped hquote, hb]
  case isFalse h =>
    split
    case isTrue hb =>
      obtain rfl := eq_of_beq hb
      exact stringBody?_escaped hquote _ _
    case isFalse _ =>
      split
      case isTrue hb =>
        obtain rfl := eq_of_beq hb
        exact stringBody?_escaped hquote _ _
      case isFalse _ =>
        simp only [Bool.or_eq_true, beq_iff_eq, not_or] at h
        exact stringBody?_byte h.2 h.1 t

theorem stringBody?_content (hquote : ('\\' : UInt8) ≠ quote) (hsame : unescape quote = quote)
    (content t : Text) :
    stringBody? quote (content.flatMap (escape quote) ++ quote :: t) =
      some (content, content.flatMap (escape quote) ++ [quote]) := by
  induction content with
  | nil => exact stringBody?_quote t
  | cons b content ih =>
    rw [List.flatMap_cons, List.append_assoc, stringBody?_escape hquote hsame, ih]
    simp

end Strings

theorem read_quote (quote : Quote) {t value source : Text}
    (h : stringBody? quote.byte t = some (value, source)) :
    Lexeme.read quote.byte t = .ok ⟨.string, value, quote.byte :: source⟩ := by
  have harrow : quote.byte ≠ '=' := by cases quote <;> decide
  have hletter : Text.isLetter quote.byte = false := by cases quote <;> rfl
  have hname : isNameStart quote.byte = false := by cases quote <;> rfl
  have hdigit : Text.isDigit quote.byte = false := by cases quote <;> rfl
  have hsymbol : (symbolOperators.find? fun op => Text.startsWith (quote.byte :: t) op) = none := by
    cases quote <;> rfl
  have hmark : punctuation.contains quote.byte = false := by cases quote <;> rfl
  have hquote : (quote.byte == '\'' || quote.byte == '"') = true := by cases quote <;> rfl
  simp only [Lexeme.read, not_arrow harrow, wordOperator?_not_letter hletter, hname, hdigit,
    hsymbol, hmark, hquote, h, Bool.false_eq_true, if_false, if_true]

theorem read_string (quote : Quote) (content rest : Text) :
    Lexeme.read quote.byte
        (content.flatMap (escape quote.byte) ++ [quote.byte] ++ (' ' : UInt8) :: rest) =
      .ok ⟨.string, content,
        quote.byte :: content.flatMap (escape quote.byte) ++ [quote.byte]⟩ := by
  apply read_quote
  rw [List.append_assoc]
  cases quote with
  | single => exact stringBody?_content (by decide) rfl content _
  | double => exact stringBody?_content (by decide) rfl content _

/-! ## Operators and punctuation -/

theorem read_word {ws : List Text} (hws : ws ∈ wordOperators) {rest : Text}
    (h : Separate (.word ws hws) rest) {b : UInt8} {t : Text} (hp : Text.join " " ws = b :: t) :
    Lexeme.read b (t ++ (' ' : UInt8) :: rest) =
      .ok ⟨.operator, Text.join " " ws, Text.join " " ws⟩ := by
  have hsome := wordOperator?_listed hws h.head h.word
  nth_rewrite 1 [hp] at hsome
  have harrow : b ≠ '=' := by
    rintro rfl
    rw [List.cons_append, wordOperator?_not_letter rfl] at hsome
    exact absurd hsome (by simp)
  rw [List.cons_append] at hsome
  simp [Lexeme.read, not_arrow harrow, hsome]

theorem read_symbol {op : Text} (hop : op ∈ symbolOperators) (rest : Text) {b : UInt8} {t : Text}
    (hp : op = b :: t) :
    Lexeme.read b (t ++ (' ' : UInt8) :: rest) = .ok ⟨.operator, op, op⟩ := by
  simp only [symbolOperators, List.mem_cons, List.not_mem_nil, or_false] at hop
  rcases hop with rfl | rfl | rfl | rfl | rfl | rfl | rfl | rfl | rfl | rfl | rfl | rfl | rfl |
    rfl | rfl | rfl | rfl | rfl
  all_goals
    obtain ⟨rfl, rfl⟩ := List.cons.inj hp
    rfl

theorem punctuation_eq :
    punctuation = [(40 : UInt8), 41, 91, 93, 123, 125, 63, 58, 46, 44, 124, 61] := rfl

/-- A punctuation mark that could start an operator does not, because a blank follows. -/
theorem read_mark {b : UInt8} (hb : b ∈ punctuation) (rest : Text) :
    Lexeme.read b ((' ' : UInt8) :: rest) = .ok ⟨.punctuation, [b], [b]⟩ := by
  simp only [punctuation_eq, List.mem_cons, List.not_mem_nil, or_false] at hb
  rcases hb with rfl | rfl | rfl | rfl | rfl | rfl | rfl | rfl | rfl | rfl | rfl | rfl
  all_goals rfl

/-! ## Every token -/

theorem read_print {t : Spelled} {rest : Text} (h : Separate t rest) {b : UInt8} {p : Text}
    (hp : t.print = b :: p) :
    Lexeme.read b (p ++ (' ' : UInt8) :: rest) = .ok ⟨t.type, t.value, t.print⟩ := by
  cases t with
  | name n => exact read_name h hp
  | number whole =>
    obtain ⟨c, u, hc, hdigit⟩ := whole.text_eq
    obtain ⟨rfl, rfl⟩ : b = c ∧ p = u := List.cons.inj (hp.symm.trans hc)
    rw [read_digit hdigit, ← List.cons_append, ← hc, number_whole]
    rfl
  | decimal whole fraction =>
    obtain ⟨c, u, hc, hdigit⟩ := whole.text_eq
    obtain ⟨rfl, -⟩ : b = c ∧ p = u ++ "." ++ fraction.text := by
      refine List.cons.inj (hp.symm.trans ?_)
      simp [Spelled.print, hc]
    rw [read_digit hdigit, ← List.cons_append, ← hp]
    simp only [Spelled.print, number_fraction]
    rfl
  | string quote content =>
    obtain ⟨rfl, rfl⟩ := List.cons.inj hp
    exact read_string quote content rest
  | word ws hws => exact read_word hws h hp
  | symbol op hop => exact read_symbol hop rest hp
  | mark c hc =>
    obtain ⟨rfl, rfl⟩ := List.cons.inj hp
    exact read_mark hc rest
  | arrow =>
    obtain ⟨rfl, rfl⟩ := List.cons.inj hp
    rfl

end TwigLint.Lexing
