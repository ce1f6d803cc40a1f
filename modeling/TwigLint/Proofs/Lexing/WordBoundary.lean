import TwigLint.Proofs.Lexing.Offset

/-! # Where word operators end

Names and word operators end at different bytes: a name goes on with every byte from DEL on, and a
word operator ends in front of them.  So an operator word at the front of a longer name is read as
part of the name exactly if an ASCII letter, a digit or an underscore comes next.
-/

namespace TwigLint.Lexing

open Lexeme Segment

/-! ## Operators in front of a text -/

/-- Where a word operator ends, a name goes on exactly with the bytes from DEL on. -/
theorem isNameByte_of_endsWord {behind : Text} (h : endsWord behind = true) :
    ∀ b ∈ behind.head?, (isNameByte b = true ↔ 0x7f ≤ b) := by
  intro b hb
  cases behind with
  | nil => cases hb
  | cons c more =>
    obtain rfl : c = b := by simpa using hb
    have hother : Text.isLetter c = false ∧ Text.isDigit c = false ∧ (c == '_') = false := by
      simpa [endsWord, Text.isWordByte, and_assoc] using h
    simp [isNameByte, isNameStart, hother]

/-- An operator whose value is a list of words was read from these words. -/
theorem wordOperator?_of_read {b : UInt8} {t : Text} {lexeme : Lexeme} {ws : List Text}
    (h : Lexeme.read b t = .ok lexeme) (htype : lexeme.type = .operator) (hws : ws ∈ wordOperators)
    (hvalue : lexeme.value = Text.join " " ws) : wordOperator? (b :: t) = some lexeme := by
  have hsymbols : ∀ op ∈ symbolOperators, ∀ ws ∈ wordOperators, op ≠ Text.join " " ws := by decide
  cases readsLexeme_of_read h with
  | word hword => exact hword
  | symbol hop => exact absurd hvalue (hsymbols _ hop ws hws)
  | _ => cases htype

/-! ## Operator words in front of a name -/

/-- No operator starts with another first word of an operator. -/
theorem first_word_unique {w v : Text} {ws vs : List Text} (hw : w :: ws ∈ wordOperators)
    (hv : v :: vs ∈ wordOperators) {t : Text} (hwt : w <+: t) (hvt : v <+: t) : w = v := by
  have hfirst : ∀ ws ∈ wordOperators, ∀ vs ∈ wordOperators,
      ∀ w ∈ ws.head?, ∀ v ∈ vs.head?, w <+: v → w = v := by decide
  rcases Nat.le_total w.length v.length with hle | hle
  · exact hfirst _ hw _ hv w rfl v rfl (List.prefix_of_prefix_length_le hwt hvt hle)
  · exact (hfirst _ hv _ hw v rfl w rfl (List.prefix_of_prefix_length_le hvt hwt hle)).symm

theorem not_isBlank_of_isNameByte {b : UInt8} (h : isNameByte b = true) : isBlank b = false := by
  rw [Bool.eq_false_iff]
  intro hblank
  simp only [isBlank, Bool.or_eq_true, beq_iff_eq] at hblank
  rcases hblank with (((rfl | rfl) | rfl) | rfl) | rfl <;> exact absurd h (by decide)

/-- No byte from DEL on is part of a word. -/
theorem not_isWordByte_of_le {b : UInt8} (h : 0x7f ≤ b) : Text.isWordByte b = false := by
  rw [UInt8.le_iff_toNat_le] at h
  rw [Bool.eq_false_iff]
  intro hword
  simp only [Text.isWordByte, Text.isLetter, Text.isLower, Text.isUpper, Text.isDigit,
    Bool.or_eq_true, Bool.and_eq_true, decide_eq_true_eq, beq_iff_eq, UInt8.le_iff_toNat_le,
    ← UInt8.toNat_inj, Char.toUInt8] at hword
  simp at h hword
  omega

theorem endsWord_of_isNameByte {c : UInt8} (hname : isNameByte c = true) (more : Text) :
    endsWord (c :: more) = true ↔ 0x7f ≤ c := by
  refine ⟨fun h => (isNameByte_of_endsWord h c rfl).mp hname, fun h => ?_⟩
  rw [endsWord, not_isWordByte_of_le h]
  rfl

section Name

variable {w more : Text} {vs : List Text} {c : UInt8} (hlisted : w :: vs ∈ wordOperators)
  (hname : isNameByte c = true)

include hlisted hname

/-- In front of a byte of a name there is a word operator exactly if the byte is no word byte. -/
theorem operatorAt_before_name {ws : List Text} (hws : ws ∈ wordOperators) :
    operatorAt ws (w ++ c :: more) =
      if ws = [w] ∧ 0x7f ≤ c then some ⟨.operator, w, w⟩ else none := by
  have hfirst {v r : Text} {us : List Text} (hv : v :: us ∈ wordOperators)
      (hr : Text.after? v (w ++ c :: more) = some r) : v = w ∧ r = c :: more := by
    have ht := Text.after?_eq_some.mp hr
    obtain rfl := first_word_unique hv hlisted ⟨r, ht.symm⟩ (List.prefix_append ..)
    exact ⟨rfl, (List.append_cancel_left ht).symm⟩
  rcases words_cases hws with ⟨v, rfl, -⟩ | ⟨v, u, rfl, -⟩
  · cases hr : Text.after? v (w ++ c :: more) with
    | none =>
      have hne : v ≠ w := by
        rintro rfl
        rw [Text.after?_eq_some.mpr rfl] at hr
        cases hr
      simp [operatorAt, readWords?, hr, hne]
    | some r =>
      obtain ⟨rfl, rfl⟩ := hfirst hws hr
      simp [operatorAt, readWords?, hr, endsWord_of_isNameByte hname, Text.join]
  · rw [if_neg (by simp)]
    cases hr : Text.after? v (w ++ c :: more) with
    | none => simp [operatorAt, readWords?, hr]
    | some r =>
      obtain ⟨rfl, rfl⟩ := hfirst hws hr
      simp [operatorAt, readWords?, hr, not_isBlank_of_isNameByte hname]

theorem wordOperator?_before_name : wordOperator? (w ++ c :: more) =
    if [w] ∈ wordOperators ∧ 0x7f ≤ c then some ⟨.operator, w, w⟩ else none := by
  rw [wordOperator?_eq]
  split
  · next h =>
    refine findSome?_eq_of_only h.1
      ((operatorAt_before_name hlisted hname h.1).trans (if_pos ⟨rfl, h.2⟩)) fun ws hws => ?_
    rw [operatorAt_before_name hlisted hname hws]
    exact ite_eq_or_eq ..
  · next h =>
    rw [List.findSome?_eq_none_iff]
    intro ws hws
    rw [operatorAt_before_name hlisted hname hws, if_neg]
    rintro ⟨rfl, hc⟩
    exact h ⟨hws, hc⟩

theorem read_before_name {b : UInt8} {t : Text} (ht : b :: t = w ++ c :: more) :
    Lexeme.read b t = .ok (if [w] ∈ wordOperators ∧ 0x7f ≤ c then ⟨.operator, w, w⟩
      else ⟨.name, (b :: t).takeWhile isNameByte, (b :: t).takeWhile isNameByte⟩) := by
  obtain ⟨a, u, us, hws, hletter⟩ := wordOperators_letter hlisted
  obtain ⟨rfl, -⟩ := List.cons.inj hws
  obtain ⟨rfl, -⟩ := List.cons.inj ht
  have hstart : isNameStart b = true := by simp [isNameStart, hletter]
  have hcontinue : isNameByte b = true := by simp [isNameByte, hstart]
  have harrow : Text.startsWith (b :: t) "=>" = false := by
    rw [Bool.eq_false_iff]
    intro harrow
    obtain ⟨r, hr⟩ := startsWith_iff.mp harrow
    obtain ⟨rfl, -⟩ := List.cons.inj hr
    exact absurd hletter (by decide)
  have hword : wordOperator? (b :: t) =
      if [b :: u] ∈ wordOperators ∧ 0x7f ≤ c then some ⟨.operator, b :: u, b :: u⟩ else none := by
    rw [ht]
    exact wordOperator?_before_name hlisted hname
  unfold Lexeme.read
  rw [harrow, hword, List.takeWhile_cons_of_pos hcontinue]
  by_cases hends : [b :: u] ∈ wordOperators ∧ 0x7f ≤ c
  · simp [hends]
  · simp [hends, hstart]

end Name

/-! ## Tokens that are read -/

/-- The token is what is read at its place in a text. -/
def ReadAt (all : Text) (tok : Token) : Prop :=
  ∃ (pre : Text) (b : UInt8) (t : Text) (lexeme : Lexeme), pre ++ b :: t = all ∧
    tok.location = Location.start.advance pre ∧ Lexeme.read b t = .ok lexeme ∧
      tok.type = lexeme.type ∧ tok.value = lexeme.value

/-- The tokens of expressions among some tokens are read at their places. -/
def ReadIn (all : Text) (toks : List Token) : Prop :=
  ∀ tok ∈ toks, isInner tok.type = true → ReadAt all tok

variable {all : Text}

theorem ReadsTag.readIn {kind : TagKind} {stack : List OpenBracket} {loc : Location} {t : Text}
    {r : TagRest} (h : ReadsTag kind stack loc t r) {pre : Text} (hall : pre ++ t = all)
    (hloc : loc = Location.start.advance pre) : ReadIn all r.tokens := by
  induction h generalizing pre with
  | @blank _ _ b _ _ _ _ ih =>
    exact ih (List.append_cons pre b _ ▸ hall) (by simp [hloc, Location.advance])
  | close =>
    refine List.forall_mem_singleton.mpr fun hinner => ?_
    rw [isInner_endType] at hinner
    cases hinner
  | @lexeme _ _ _ b t _ lexeme _ text _ hread _ _ ih =>
    refine List.forall_mem_cons.mpr
      ⟨fun _ => ⟨pre, b, t, lexeme, hall, hloc, hread, rfl, rfl⟩, ?_⟩
    rw [text, ← List.append_assoc] at hall
    exact ih hall (by rw [hloc, Location.advance_advance])

/-- The tokens that a segment holds are read at their places. -/
def Reads (all : Text) (segment : Segment) : Prop :=
  ∀ lead toks trail, segment.shape = .tag lead toks trail → ReadIn all toks

theorem ReadsSegment.reads {pre t : Text} {segment : Segment}
    (h : ReadsSegment (Location.start.advance pre) t segment) (hall : pre ++ t = all) :
    Reads all segment := by
  cases h with
  | tag kind _ hopening hrest =>
    rintro lead toks trail ⟨⟩
    refine List.forall_mem_cons.mpr ⟨fun hinner => ?_,
      hrest.readIn (hopening ▸ append_opening hall _) (Location.advance_advance ..)⟩
    rw [isInner_startType] at hinner
    cases hinner
  | text | comment | verbatim => rintro lead toks trail ⟨⟩

theorem readIn_textToken (before behind : Trim) (start : Location) (t : Text) :
    ReadIn all (textToken before behind start t) := by
  intro tok htok hinner
  have htype := List.filter_eq_nil_iff.mp (filter_textToken before behind start t) tok htok
  rw [bne_iff_ne, not_not] at htype
  rw [htype] at hinner
  cases hinner

theorem Cuts.readIn {start : Location} {t : Text} {segments : List Segment}
    (h : Cuts start t segments) {pre : Text} (hall : pre ++ t = all)
    (hstart : start = Location.start.advance pre) (before : Trim) :
    ReadIn all (Segment.tokens before segments) := by
  induction h generalizing pre before with
  | nil => exact fun tok htok => absurd htok (by simp [Segment.tokens])
  | @cons _ _ segment _ first _ ih =>
    subst hstart
    have hreads := first.reads hall
    rw [← List.append_assoc] at hall
    have hrest := ih hall (Location.advance_advance ..) segment.trail
    rw [Segment.tokens]
    intro tok htok
    rcases List.mem_append.mp htok with htok | htok
    · cases hshape : segment.shape with
      | text =>
        rw [hshape] at htok
        exact readIn_textToken _ _ _ _ tok htok
      | comment =>
        rw [hshape] at htok
        cases htok
      | verbatim =>
        rw [hshape] at htok
        exact readIn_textToken _ _ _ _ tok htok
      | tag lead toks trail =>
        rw [hshape] at htok
        exact hreads lead toks trail hshape tok htok
    · exact hrest tok htok

theorem readIn_ofSource {source : Text} {s : TokenStream}
    (h : TokenStream.ofSource source = .ok s) : ReadIn source.normalizeNewlines s.tokens := by
  obtain ⟨segments, hcuts, rfl⟩ := cuts_of_ofSource h
  exact hcuts.readIn (List.nil_append _) rfl .keep

/-! ## Word operators and names -/

theorem join_inj {ws vs : List Text} (hws : ws ∈ wordOperators) (hvs : vs ∈ wordOperators)
    (h : Text.join " " ws = Text.join " " vs) : ws = vs := by
  have hjoin : ∀ ws ∈ wordOperators, ∀ vs ∈ wordOperators,
      Text.join " " ws = Text.join " " vs → ws = vs := by decide
  exact hjoin ws hws vs hvs h

/-- Behind a word operator a name can go on, but only with a byte from DEL on.  And where a text has
the first word of an operator in front of a byte of a name, this is an operator if it is one without
a second word and the byte is one of those, else the whole name is one token. -/
theorem word_operator_boundary {source : Text} {s : TokenStream}
    (h : TokenStream.ofSource source = .ok s) {tok : Token} (htok : tok ∈ s.tokens)
    (hinner : isInner tok.type = true) :
    ∃ before rest, source.normalizeNewlines = before ++ rest ∧
      tok.location = Location.start.advance before ∧
      (∀ ws ∈ wordOperators, tok.type = .operator → tok.value = Text.join " " ws →
        ∃ lexeme behind, rest = lexeme ++ behind ∧ Apart ws lexeme ∧
          ∀ b ∈ behind.head?, (isNameByte b = true ↔ 0x7f ≤ b)) ∧
      ∀ w vs c more, w :: vs ∈ wordOperators → rest = w ++ c :: more → isNameByte c = true →
        if [w] ∈ wordOperators ∧ 0x7f ≤ c then tok.type = .operator ∧ tok.value = w
        else tok.type = .name ∧ tok.value = rest.takeWhile isNameByte := by
  obtain ⟨before, b, t, lexeme, hall, hlocation, hread, htype, hvalue⟩ :=
    readIn_ofSource h tok htok hinner
  refine ⟨before, b :: t, hall.symm, hlocation, fun ws hws hoperator hjoin => ?_,
    fun w vs c more hlisted hrest hname => ?_⟩
  · have hword := wordOperator?_of_read hread (htype ▸ hoperator) hws (hvalue ▸ hjoin)
    obtain ⟨vs, hvs, behind, hapart, hvalue', ht, hends⟩ := apart_wordOperator? hword
    obtain rfl : ws = vs := join_inj hws hvs (by rw [← hjoin, hvalue, hvalue'])
    exact ⟨lexeme.source, behind, ht, hapart, isNameByte_of_endsWord hends⟩
  · rw [read_before_name hlisted hname hrest] at hread
    obtain rfl := Except.ok.inj hread
    rw [htype, hvalue]
    split <;> exact ⟨rfl, rfl⟩

/-- A name that starts with an operator word, and an operator of two words. -/
theorem word_operator_boundary_words :
    let source : Text := "\x7b\x7b order not  in x \x7d\x7d"
    ∃ s, TokenStream.ofSource source = .ok s ∧ ⟨.operator, "not in", ⟨1, 10⟩⟩ ∈ s.tokens ∧
      ⟨.name, "order", ⟨1, 4⟩⟩ ∈ s.tokens ∧
      ∃ before lexeme behind, source.normalizeNewlines = before ++ (lexeme ++ behind) ∧
        Apart ["not", "in"] lexeme ∧ ∀ b ∈ behind.head?, (isNameByte b = true ↔ 0x7f ≤ b) := by
  intro source
  have hok : (TokenStream.ofSource source).toOption.map (·.tokens) = some
      [⟨.printStart, "\x7b\x7b", ⟨1, 1⟩⟩, ⟨.name, "order", ⟨1, 4⟩⟩,
        ⟨.operator, "not in", ⟨1, 10⟩⟩, ⟨.name, "x", ⟨1, 18⟩⟩,
        ⟨.printEnd, "\x7d\x7d", ⟨1, 20⟩⟩] := by
    decide +kernel
  obtain ⟨s, h, htokens⟩ := ok_of_toOption_map hok
  have hmem : ⟨.operator, "not in", ⟨1, 10⟩⟩ ∈ s.tokens := by simp [htokens]
  obtain ⟨before, rest, hsource, -, hwords, -⟩ := word_operator_boundary h hmem rfl
  obtain ⟨lexeme, behind, rfl, hapart, hbehind⟩ :=
    hwords ["not", "in"] (by decide) rfl (by decide)
  exact ⟨s, h, hmem, by simp [htokens], before, lexeme, behind, hsource, hapart, hbehind⟩

/-- A name is split after an operator word that a letter with an accent follows. -/
theorem word_operator_boundary_accent :
    let source : Text := "\x7b\x7b inédit \x7d\x7d"
    ∃ s, TokenStream.ofSource source = .ok s ∧ ⟨.operator, "in", ⟨1, 4⟩⟩ ∈ s.tokens ∧
      ⟨.name, "édit", ⟨1, 6⟩⟩ ∈ s.tokens ∧
      ∃ before b behind, source.normalizeNewlines = before ++ (Text.ofString "in" ++ b :: behind) ∧
        Location.start.advance before = ⟨1, 4⟩ ∧ isNameByte b = true := by
  intro source
  have hok : (TokenStream.ofSource source).toOption.map (·.tokens) = some
      [⟨.printStart, "\x7b\x7b", ⟨1, 1⟩⟩, ⟨.operator, "in", ⟨1, 4⟩⟩, ⟨.name, "édit", ⟨1, 6⟩⟩,
        ⟨.printEnd, "\x7d\x7d", ⟨1, 12⟩⟩] := by
    decide +kernel
  obtain ⟨s, h, htokens⟩ := ok_of_toOption_map hok
  refine ⟨s, h, by simp [htokens], by simp [htokens], "\x7b\x7b ", 0xc3,
    0xa9 :: Text.ofString "dit \x7d\x7d", ?_, ?_, ?_⟩
  all_goals decide +kernel

end TwigLint.Lexing
