import TwigLint.Proofs.Lexing.SourceReading
import TwigLint.Proofs.Lexing.WordBoundary

/-! # Names are read alike everywhere

A text that is read as a name somewhere in a source is read as a name in front of every blank,
unless it is the first word of an operator and the second one stands behind the blank.  So a print
statement can be written for every name, and it has no token but the name.
-/

namespace TwigLint.Lexing

open Lexeme Segment

/-- Somewhere the text is read as a name. -/
def IsName (x : Text) : Prop :=
  ∃ b t lexeme, Lexeme.read b t = .ok lexeme ∧ lexeme.type = .name ∧ lexeme.value = x

/-! ## Bytes of names -/

theorem not_isTagBlank_of_isNameByte {b : UInt8} (h : isNameByte b = true) :
    isTagBlank b = false := by
  rw [Bool.eq_false_iff]
  intro hblank
  simp only [isTagBlank, Bool.or_eq_true, beq_iff_eq] at hblank
  rcases hblank with ((((rfl | rfl) | rfl) | rfl) | rfl) | rfl <;> exact absurd h (by decide)

theorem not_mem_closing_of_isNameByte {b : UInt8} (h : isNameByte b = true) : b ∉ closing := by
  have hclosing : closing.all (fun c => !isNameByte c) = true := by decide
  intro hmem
  have hnot := List.all_eq_true.mp hclosing b hmem
  rw [h] at hnot
  cases hnot

/-- Where a name ends, a word operator ends as well. -/
theorem endsWord_of_not_isNameByte {rest : Text} (h : ∀ c ∈ rest.head?, isNameByte c = false) :
    endsWord rest = true := by
  cases rest with
  | nil => rfl
  | cons c more =>
    rw [endsWord, Bool.not_eq_true']
    by_contra hword
    have hname := isNameByte_of_isWordByte (Bool.not_eq_false _ ▸ hword)
    rw [h c rfl] at hname
    cases hname

/-- What is read as a name starts like a name, goes on as long as it can, and has no operator in
front. -/
theorem parts_of_read {b : UInt8} {t : Text} {lexeme : Lexeme} (h : Lexeme.read b t = .ok lexeme)
    (htype : lexeme.type = .name) : isNameStart b = true ∧ wordOperator? (b :: t) = none ∧
      lexeme.value = b :: t.takeWhile isNameByte := by
  cases readsLexeme_of_read h with
  | word hword =>
    rw [type_wordOperator? hword] at htype
    cases htype
  | name hnone hstart => exact ⟨hstart, hnone, rfl⟩
  | _ => cases htype

/-! ## Operators in front of a name -/

section Operators

variable {x rest more : Text} (hx : ∀ c ∈ x, isNameByte c = true)
  (hrest : ∀ c ∈ rest.head?, isNameByte c = false)
  (hmore : ∀ v, [x, v] ∈ wordOperators → startsWord v more = false)
  (hblank : ∀ c ∈ more.head?, isBlank c = false)

/-- A word without blanks that stands in front of a text and a blank stands in front of the text. -/
theorem eq_append_of_after? {w r : Text} (hw : (' ' : UInt8) ∉ w)
    (h : Text.after? w (x ++ (' ' : UInt8) :: more) = some r) :
    ∃ s, x = w ++ s ∧ r = s ++ (' ' : UInt8) :: more := by
  rcases List.append_eq_append_iff.mp (Text.after?_eq_some.mp h) with
    ⟨a, rfl, ha⟩ | ⟨s, hs, hr⟩
  · cases a with
    | nil => exact ⟨[], by simp, by simpa using ha.symm⟩
    | cons c a =>
      obtain ⟨rfl, -⟩ := List.cons.inj ha
      exact absurd (by simp) hw
  · exact ⟨s, hs, hr⟩

section

include hrest

/-- An operator of one word that ends inside the name ends nowhere. -/
theorem operatorAt_word_blank {w : Text} (hw : (' ' : UInt8) ∉ w)
    (h : operatorAt [w] (x ++ rest) = none) :
    operatorAt [w] (x ++ (' ' : UInt8) :: more) = none := by
  cases hr : Text.after? w (x ++ (' ' : UInt8) :: more) with
  | none => simp [operatorAt, readWords?, hr]
  | some r =>
    obtain ⟨s, rfl, rfl⟩ := eq_append_of_after? hw hr
    have hafter : Text.after? w (w ++ s ++ rest) = some (s ++ rest) :=
      Text.after?_eq_some.mpr (List.append_assoc ..)
    have hgoes : endsWord (s ++ rest) = false := by
      by_contra hends
      rw [Bool.not_eq_false] at hends
      simp only [operatorAt, readWords?, hafter, Option.map_some, hends, if_true] at h
      cases h
    cases s with
    | nil =>
      rw [List.nil_append, endsWord_of_not_isNameByte hrest] at hgoes
      cases hgoes
    | cons c s =>
      have hgoes : endsWord (c :: s ++ (' ' : UInt8) :: more) = false := hgoes
      simp only [operatorAt, readWords?, hr, Option.map_some, hgoes, Bool.false_eq_true, if_false]

end

section

include hx hmore hblank

/-- An operator of two words has its blank behind the name, where its second word does not stand. -/
theorem operatorAt_pair_blank {w v : Text} (hw : (' ' : UInt8) ∉ w)
    (hpair : [w, v] ∈ wordOperators) :
    operatorAt [w, v] (x ++ (' ' : UInt8) :: more) = none := by
  cases hr : Text.after? w (x ++ (' ' : UInt8) :: more) with
  | none => simp [operatorAt, readWords?, hr]
  | some r =>
    obtain ⟨s, rfl, rfl⟩ := eq_append_of_after? hw hr
    cases s with
    | nil =>
      rw [List.append_nil] at hmore ⊢
      have hbytes : ∀ c ∈ w, Text.isWordByte c = true := by
        rcases pair_cases hpair with ⟨rfl, -⟩ | ⟨rfl, -⟩ | ⟨rfl, -⟩ | ⟨rfl, -⟩
        all_goals exact List.all_eq_true.mp rfl
      rw [operatorAt_two hbytes hw hblank, hmore v hpair]
      simp
    | cons c s =>
      have hc : isBlank c = false := not_isBlank_of_isNameByte (hx c (by simp))
      have hnone : (c :: s ++ (' ' : UInt8) :: more).takeWhile isBlank = [] := by simp [hc]
      simp only [operatorAt, readWords?, hr, Option.bind_eq_bind, Option.bind_some, hnone,
        List.isEmpty_nil, if_true, Option.bind_none]

end

include hx hrest hmore hblank

/-- No operator stands in front of the name and a blank when none does somewhere else. -/
theorem operatorAt_blank {ws : List Text} (hws : ws ∈ wordOperators)
    (h : operatorAt ws (x ++ rest) = none) :
    operatorAt ws (x ++ (' ' : UInt8) :: more) = none := by
  rcases words_cases hws with ⟨w, rfl, hw⟩ | ⟨w, v, rfl, hw⟩
  · exact operatorAt_word_blank hrest hw h
  · exact operatorAt_pair_blank hx hmore hblank hw hws

theorem wordOperator?_blank (h : wordOperator? (x ++ rest) = none) :
    wordOperator? (x ++ (' ' : UInt8) :: more) = none := by
  rw [wordOperator?_eq, List.findSome?_eq_none_iff] at h ⊢
  exact fun ws hws => operatorAt_blank hx hrest hmore hblank hws (h ws hws)

end Operators

/-! ## Names in front of a blank -/

theorem IsName.bytes {x : Text} (h : IsName x) : ∀ c ∈ x, isNameByte c = true := by
  obtain ⟨b, all, lexeme, hread, htype, rfl⟩ := h
  obtain ⟨hstart, -, hvalue⟩ := parts_of_read hread htype
  rw [hvalue]
  intro c hc
  rcases List.mem_cons.mp hc with rfl | hc
  · simp [isNameByte, hstart]
  · exact List.mem_takeWhile_imp hc

/-- A name is read again in front of a blank. -/
theorem IsName.read {x more : Text} (h : IsName x)
    (hmore : ∀ v, [x, v] ∈ wordOperators → startsWord v more = false)
    (hblank : ∀ c ∈ more.head?, isBlank c = false) :
    ∃ b t, x = b :: t ∧ Lexeme.read b (t ++ (' ' : UInt8) :: more) = .ok ⟨.name, x, x⟩ := by
  have hbytes := h.bytes
  obtain ⟨b, all, lexeme, hread, htype, rfl⟩ := h
  obtain ⟨hstart, hnone, hvalue⟩ := parts_of_read hread htype
  have hcut : b :: all = lexeme.value ++ all.dropWhile isNameByte := by
    rw [hvalue, List.cons_append, List.takeWhile_append_dropWhile]
  have hstop : ∀ c ∈ (all.dropWhile isNameByte).head?, isNameByte c = false :=
    fun c hc => by
      have hhead := List.head?_dropWhile_not isNameByte all
      rwa [Option.mem_def.mp hc] at hhead
  rw [hcut] at hnone
  have hword := wordOperator?_blank hbytes hstop hmore hblank hnone
  refine ⟨b, all.takeWhile isNameByte, hvalue, ?_⟩
  rw [hvalue, List.cons_append] at hword
  have harrow : b ≠ '=' := by
    rintro rfl
    exact absurd hstart (by decide)
  have htake : (all.takeWhile isNameByte ++ (' ' : UInt8) :: more).takeWhile isNameByte =
      all.takeWhile isNameByte :=
    takeWhile_run (fun c hc => List.mem_takeWhile_imp hc) (head?_cons_stop rfl)
  simp [Lexeme.read, not_arrow harrow, hword, hstart, htake, hvalue]

theorem isName_of_mem {source : Text} {s : TokenStream} (h : TokenStream.ofSource source = .ok s)
    {tok : Token} (htok : tok ∈ s.toList) (hname : tok.type = .name) : IsName tok.value := by
  have hmem : tok ∈ s.tokens := by
    rcases List.mem_append.mp htok with htok | htok
    · exact htok
    · -- the token for the end is no name
      obtain ⟨segments, -, hs⟩ := bind_eq_ok h
      cases hs
      rw [List.mem_singleton.mp htok] at hname
      cases hname
  have hinner : isInner tok.type = true := by
    rw [hname]
    rfl
  obtain ⟨pre, b, t, lexeme, -, -, hread, htype, hvalue⟩ := readIn_ofSource h tok hmem hinner
  exact ⟨b, t, lexeme, hread, htype.symm.trans hname, hvalue.symm⟩

/-! ## Print statements -/

/-- What stands behind the opening delimiter when a text is printed. -/
def printBody (x : Text) : Text := (' ' : UInt8) :: (x ++ (' ' : UInt8) :: TagKind.print.closer)

/-- The print statement for a text. -/
def printSource (x : Text) : Text := "\x7b\x7b " ++ x ++ " \x7d\x7d"

theorem printSource_eq (x : Text) :
    printSource x = ('{' : UInt8) :: ('{' : UInt8) :: printBody x := by
  rw [printSource, List.append_assoc]
  rfl

namespace IsName

variable {x : Text} (h : IsName x)
include h

theorem tagRest_printBody : ∃ l, tagRest .print .start [] ⟨1, 3⟩ (printBody x) =
    .ok ⟨[⟨.name, x, ⟨1, 4⟩⟩, ⟨.printEnd, "\x7d\x7d", l⟩], .keep, printBody x⟩ := by
  have hbytes := h.bytes
  have hword : ∀ v, [x, v] ∈ wordOperators → startsWord v TagKind.print.closer = false :=
    fun v hv => startsWord_not_letter hv rfl
  have hblank : ∀ c ∈ TagKind.print.closer.head?, isBlank c = false := by
    intro c hc
    obtain rfl := Option.some.inj hc
    rfl
  obtain ⟨b, t, rfl, hread⟩ := h.read hword hblank
  have hb : isNameByte b = true := hbytes b (List.mem_cons_self ..)
  have hlexeme : tagRest .print .start [] ⟨1, 4⟩ _ = _ := tagRest_lexeme hread
    (not_isTagBlank_of_isNameByte hb) (.inr (not_mem_closing_of_isNameByte hb)) rfl
  rw [tagRest_closer] at hlexeme
  rw [printBody, tagRest_blank]
  exact ⟨_, congrArg (Except.map _) hlexeme⟩

theorem return_not_mem_printSource : ('\r' : UInt8) ∉ printSource x := by
  intro hmem
  rw [printSource_eq, printBody, List.mem_cons, List.mem_cons, List.mem_cons, List.mem_append]
    at hmem
  rcases hmem with hmem | hmem | hmem | hmem | hmem
  · exact absurd hmem (by decide)
  · exact absurd hmem (by decide)
  · exact absurd hmem (by decide)
  · exact absurd (h.bytes _ hmem) (by decide)
  · exact absurd hmem (by decide)

/-- A print statement for a name has the name as its only token inside. -/
theorem printed : ∃ l l', TokenStream.ofSource (printSource x) =
    .ok ⟨[⟨.printStart, "\x7b\x7b", .start⟩, ⟨.name, x, ⟨1, 4⟩⟩, ⟨.printEnd, "\x7d\x7d", l⟩],
      ⟨.eof, [], l'⟩⟩ := by
  obtain ⟨l, hrest⟩ := h.tagRest_printBody
  let segment : Segment := ⟨.start, printSource x, .tag .keep
    [⟨.printStart, "\x7b\x7b", .start⟩, ⟨.name, x, ⟨1, 4⟩⟩, ⟨.printEnd, "\x7d\x7d", l⟩] .keep⟩
  have htag : tag .print .start (printBody x) = .ok segment := by
    have hlead : Trim.ofHead (printBody x) = .keep := rfl
    have hstart : Location.start.advance TagKind.print.opener = ⟨1, 3⟩ := rfl
    simp only [tag, hlead, Trim.width, List.take_zero, List.append_nil, List.drop_zero, hstart,
      hrest]
    rfl
  have hsplit : split (printSource x) = .ok [segment] := by
    nth_rewrite 1 [printSource_eq]
    exact split_single htag (printSource_eq x)
  refine ⟨l, Location.start.advance (printSource x), ?_⟩
  simp [TokenStream.ofSource, normalizeNewlines_eq_self h.return_not_mem_printSource, hsplit,
    tokens, segment, bind, Except.bind, pure, Except.pure]

end IsName

end TwigLint.Lexing
