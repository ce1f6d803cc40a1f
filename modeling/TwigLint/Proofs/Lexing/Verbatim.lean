import TwigLint.Proofs.Lexing.Offset

/-! # Markers and verbatim sections

A delimiter has its trim marker on the inner side, so that the markers of a comment or a tag are
read off the two ends of what stands between its delimiters.  Text, a comment and a verbatim section
reach up to the first place where something starts: a delimiter, `#\x7d`, or a tag that ends a
verbatim section.
-/

namespace TwigLint

namespace Trim

/-- The marker at the end of a text. -/
def ofLast (t : Text) : Trim := ofHead t.reverse

@[simp] theorem length_bytes (m : Trim) : m.bytes.length = m.width := by
  cases m <;> rfl

/-- A text starts with its marker. -/
theorem bytes_ofHead (t : Text) : (ofHead t).bytes ++ t.drop (ofHead t).width = t := by
  cases t with
  | nil => rfl
  | cons b t =>
    rcases ofByte_cases b with ⟨rfl, h⟩ | ⟨rfl, h⟩ | h
    all_goals simp [ofHead, h, bytes, width]

theorem take_ofHead (t : Text) : t.take (ofHead t).width = (ofHead t).bytes := by
  nth_rewrite 2 [← bytes_ofHead t]
  rw [← length_bytes, List.take_left]

theorem ofHead_bytes {t : Text} (m : Trim) (h : ∀ b ∈ t.head?, ofByte b = keep) :
    ofHead (m.bytes ++ t) = m := by
  cases m with
  | keep =>
    cases t with
    | nil => rfl
    | cons b t => exact h b rfl
  | all => rfl
  | inline => rfl

@[simp] theorem ofLast_nil : ofLast [] = keep := rfl

@[simp] theorem ofLast_singleton (b : UInt8) : ofLast [b] = ofByte b := rfl

@[simp] theorem ofLast_concat (t : Text) (b : UInt8) : ofLast (t ++ [b]) = ofByte b := by
  simp [ofLast, ofHead]

theorem ofLast_append (s : Text) {t : Text} (h : t ≠ []) : ofLast (s ++ t) = ofLast t := by
  obtain ⟨t, b, rfl⟩ := (List.eq_nil_or_concat t).resolve_left h
  rw [List.concat_eq_append, ← List.append_assoc, ofLast_concat, ofLast_concat]

end Trim

namespace Lexing

open Segment

theorem commentTrail_eq (content : Text) : commentTrail content = Trim.ofLast content := by
  rcases List.eq_nil_or_concat content with rfl | ⟨t, b, rfl⟩
  · rfl
  · simp [commentTrail]

/-! ## First places -/

/-- The text reaches up to the first place where `P` holds of what follows. -/
def FirstAt (P : Text → Prop) (t rest : Text) : Prop :=
  P rest ∧ ∀ s, s <:+ t → s ≠ [] → ¬ P (s ++ rest)

section FirstAt

variable {P : Text → Prop} {t rest : Text}

theorem FirstAt.nil (h : P rest) : FirstAt P [] rest :=
  ⟨h, fun _ hs hne => absurd (List.suffix_nil.mp hs) hne⟩

theorem FirstAt.cons {b : UInt8} (hb : ¬ P (b :: t ++ rest)) (h : FirstAt P t rest) :
    FirstAt P (b :: t) rest := by
  refine ⟨h.1, fun s hs hne => ?_⟩
  rcases List.suffix_cons_iff.mp hs with rfl | hs
  · exact hb
  · exact h.2 s hs hne

end FirstAt

/-- A delimiter opens at the front of a text. -/
def Opens (t : Text) : Prop := ∃ opener ∈ (["\x7b\x7b", "\x7b%", "\x7b#"] : List Text), opener <+: t

theorem opens_cons {b : UInt8} {t : Text} :
    Opens (b :: t) ↔ (b == '{' && opensAfterBrace t) = true := by
  have h₁ : Text.ofString "\x7b\x7b" = ['{', '{'] := rfl
  have h₂ : Text.ofString "\x7b%" = ['{', '%'] := rfl
  have h₃ : Text.ofString "\x7b#" = ['{', '#'] := rfl
  cases t with
  | nil => simp [Opens, opensAfterBrace, h₁, h₂, h₃]
  | cons c t =>
    simp [Opens, opensAfterBrace, h₁, h₂, h₃, eq_comm (a := c), eq_comm (a := b), or_assoc,
      and_or_left]

/-- A text run reaches up to the next delimiter or to the end. -/
theorem firstAt_textRun (t : Text) :
    ∃ rest, t = textRun t ++ rest ∧ FirstAt (fun r => r = [] ∨ Opens r) (textRun t) rest := by
  fun_induction textRun t with
  | case1 => exact ⟨[], rfl, .nil (.inl rfl)⟩
  | case2 b t hopens => exact ⟨b :: t, rfl, .nil (.inr (opens_cons.mpr hopens))⟩
  | case3 b t hopens ih =>
    obtain ⟨rest, ht, hfirst⟩ := ih
    refine ⟨rest, congrArg (b :: ·) ht, hfirst.cons ?_⟩
    rw [List.cons_append, ← ht, opens_cons]
    simpa using hopens

/-- What is searched for is found where it stands first. -/
theorem firstAt_find? {p t s r : Text} (h : Text.find? p t = some (s, r)) :
    FirstAt (p <+: ·) s r := by
  fun_induction Text.find? p t generalizing s r with
  | case1 hempty =>
    cases h
    exact .nil (by rw [List.isEmpty_iff.mp hempty])
  | case2 => cases h
  | case3 b t hstarts =>
    cases h
    exact .nil (startsWith_iff.mp hstarts)
  | case4 b t hstarts ih =>
    obtain ⟨⟨s', r'⟩, hfind, hs⟩ := Option.map_eq_some_iff.mp h
    cases hs
    refine (ih hfind).cons ?_
    rw [List.cons_append, ← (find?_eq hfind).1, ← startsWith_iff]
    exact hstarts

/-! ## Tags of one word -/

/-- Blanks, one of the words, blanks, a marker and the closing delimiter. -/
def EndsWith (words : List Text) (trail : Trim) (t : Text) : Prop :=
  ∃ before word behind, (∀ b ∈ before, Lexeme.isBlank b = true) ∧ word ∈ words ∧
    (∀ b ∈ behind, Lexeme.isBlank b = true) ∧
      t = before ++ (word ++ (behind ++ (trail.bytes ++ "%\x7d")))

/-- A tag that has one of the words in it and nothing else. -/
def WordTag (words : List Text) (lead trail : Trim) (source : Text) : Prop :=
  ∃ t, EndsWith words trail t ∧ source = "\x7b%" ++ (lead.bytes ++ t)

/-- The words that open a verbatim section. -/
def openingWords : List Text := ["verbatim", "raw"]

/-- The words that end a verbatim section. -/
def endingWords : List Text := ["endverbatim", "endraw"]

theorem afterTagEnd_iff {t rest : Text} {trim : Trim} :
    afterTagEnd t = some (trim, rest) ↔
      ∃ blanks, (∀ b ∈ blanks, Lexeme.isBlank b = true) ∧
        t = blanks ++ (trim.bytes ++ ("%\x7d" ++ rest)) := by
  constructor
  · intro h
    obtain ⟨r, hafter, hr⟩ := Option.map_eq_some_iff.mp h
    cases hr
    refine ⟨t.takeWhile Lexeme.isBlank, fun b hb => List.mem_takeWhile_imp hb, ?_⟩
    rw [← Text.after?_eq_some.mp hafter, Trim.bytes_ofHead, List.takeWhile_append_dropWhile]
  · rintro ⟨blanks, hblanks, rfl⟩
    have hstop : ∀ b ∈ (trim.bytes ++ (Text.ofString "%\x7d" ++ rest)).head?,
        Lexeme.isBlank b = false := by
      cases trim <;> exact head?_cons_stop rfl
    have hmarker : Trim.ofHead (trim.bytes ++ (Text.ofString "%\x7d" ++ rest)) = trim := by
      cases trim <;> rfl
    rw [afterTagEnd, dropWhile_run hblanks hstop, hmarker]
    simp [← Trim.length_bytes, Text.after?_eq_some]

theorem afterEither_iff {t word r : Text} :
    afterEither "verbatim" "raw" t = some (word, r) ↔ word ∈ openingWords ∧ t = word ++ r := by
  unfold afterEither
  constructor
  · intro h
    split at h
    · rename_i r' hafter
      cases h
      exact ⟨by decide, Text.after?_eq_some.mp hafter⟩
    · obtain ⟨r', hafter, hr⟩ := Option.map_eq_some_iff.mp h
      cases hr
      exact ⟨by decide, Text.after?_eq_some.mp hafter⟩
  · rintro ⟨hword, rfl⟩
    simp only [openingWords, List.mem_cons, List.not_mem_nil, or_false] at hword
    rcases hword with rfl | rfl
    · rw [Text.after?_eq_some.mpr rfl]
    · have hother : Text.after? "verbatim" (Text.ofString "raw" ++ r) = none := rfl
      rw [hother, Text.after?_eq_some.mpr rfl]
      rfl

/-- Both kinds of words start with a letter, which is neither a blank nor a marker. -/
theorem head?_word {word : Text} (h : word ∈ openingWords ∨ word ∈ endingWords) :
    ∃ b w, word = b :: w ∧ Lexeme.isBlank b = false ∧ Trim.ofByte b = .keep := by
  simp only [openingWords, endingWords, List.mem_cons, List.not_mem_nil, or_false] at h
  rcases h with (rfl | rfl) | (rfl | rfl)
  all_goals exact ⟨_, _, rfl, rfl, rfl⟩

theorem ofByte_of_isBlank {b : UInt8} (h : Lexeme.isBlank b = true) : Trim.ofByte b = .keep := by
  rcases Trim.ofByte_cases b with ⟨rfl, -⟩ | ⟨rfl, -⟩ | hkeep
  · cases h
  · cases h
  · exact hkeep

/-- The marker in front of blanks and a word. -/
theorem ofHead_endsWith {words : List Text} {trail : Trim} {t : Text}
    (hwords : words = openingWords ∨ words = endingWords) (h : EndsWith words trail t)
    (lead : Trim) (rest : Text) : Trim.ofHead (lead.bytes ++ (t ++ rest)) = lead := by
  obtain ⟨before, word, behind, hbefore, hword, -, rfl⟩ := h
  obtain ⟨c, w, rfl, -, hc⟩ := head?_word (by
    rcases hwords with rfl | rfl
    · exact .inl hword
    · exact .inr hword)
  apply Trim.ofHead_bytes
  intro b hb
  cases before with
  | nil =>
    obtain rfl : c = b := by simpa using hb
    exact hc
  | cons d before =>
    obtain rfl : d = b := by simpa using hb
    exact ofByte_of_isBlank (hbefore d (by simp))

theorem dropWhile_word {blanks word : Text} (h : word ∈ openingWords ∨ word ∈ endingWords)
    (hblanks : ∀ b ∈ blanks, Lexeme.isBlank b = true) (rest : Text) :
    (blanks ++ (word ++ rest)).dropWhile Lexeme.isBlank = word ++ rest := by
  obtain ⟨c, w, rfl, hc, -⟩ := head?_word h
  exact dropWhile_run hblanks (head?_cons_stop hc)

/-- The rest of a tag that opens a verbatim section is recognised. -/
theorem verbatimOpen?_iff {t rest : Text} {trail : Trim} :
    (∃ name, verbatimOpen? t = some (name, trail, rest)) ↔
      ∃ s, EndsWith openingWords trail s ∧ t = s ++ rest := by
  constructor
  · rintro ⟨name, h⟩
    obtain ⟨⟨word, r⟩, hword, h⟩ := Option.bind_eq_some_iff.mp h
    obtain ⟨⟨trail', rest'⟩, hend, h⟩ := Option.bind_eq_some_iff.mp h
    cases h
    obtain ⟨hmem, hr⟩ := afterEither_iff.mp hword
    obtain ⟨behind, hbehind, rfl⟩ := afterTagEnd_iff.mp hend
    refine ⟨_, ⟨t.takeWhile Lexeme.isBlank, name, behind, fun b hb => List.mem_takeWhile_imp hb,
      hmem, hbehind, rfl⟩, ?_⟩
    calc t = t.takeWhile Lexeme.isBlank ++ t.dropWhile Lexeme.isBlank :=
          List.takeWhile_append_dropWhile.symm
      _ = _ := by simp [hr]
  · rintro ⟨s, ⟨before, word, behind, hbefore, hword, hbehind, rfl⟩, rfl⟩
    have hend : afterTagEnd (behind ++ (trail.bytes ++ ("%\x7d" ++ rest))) = some (trail, rest) :=
      afterTagEnd_iff.mpr ⟨behind, hbehind, rfl⟩
    refine ⟨word, ?_⟩
    simp only [List.append_assoc]
    rw [verbatimOpen?, dropWhile_word (.inl hword) hbefore, afterEither_iff.mpr ⟨hword, rfl⟩]
    simp [hend]

theorem append_mem_endingWords {word : Text} (h : word ∈ openingWords) :
    "end" ++ word ∈ endingWords := by
  simp only [openingWords, List.mem_cons, List.not_mem_nil, or_false] at h
  rcases h with rfl | rfl <;> decide

theorem eq_append_of_mem_endingWords {word : Text} (h : word ∈ endingWords) :
    ∃ w ∈ openingWords, word = "end" ++ w := by
  simp only [endingWords, List.mem_cons, List.not_mem_nil, or_false] at h
  rcases h with rfl | rfl
  · exact ⟨"verbatim", by decide, by decide⟩
  · exact ⟨"raw", by decide, by decide⟩

/-- A tag that ends a verbatim section is recognised. -/
theorem verbatimEnd?_iff {t rest : Text} {lead trail : Trim} :
    verbatimEnd? t = some (lead, trail, rest) ↔
      ∃ tag, WordTag endingWords lead trail tag ∧ t = tag ++ rest := by
  constructor
  · intro h
    obtain ⟨r, hopener, h⟩ := Option.bind_eq_some_iff.mp h
    obtain ⟨e, hend, h⟩ := Option.bind_eq_some_iff.mp h
    obtain ⟨⟨word, r'⟩, hword, h⟩ := Option.bind_eq_some_iff.mp h
    obtain ⟨⟨trail', rest'⟩, htagEnd, h⟩ := Option.bind_eq_some_iff.mp h
    cases h
    have hr := Text.after?_eq_some.mp hopener
    have he := Text.after?_eq_some.mp hend
    obtain ⟨hmem, rfl⟩ := afterEither_iff.mp hword
    obtain ⟨behind, hbehind, rfl⟩ := afterTagEnd_iff.mp htagEnd
    let inside := r.drop (Trim.ofHead r).width
    refine ⟨_, ⟨_, ⟨inside.takeWhile Lexeme.isBlank, "end" ++ word, behind,
      fun b hb => List.mem_takeWhile_imp hb, append_mem_endingWords hmem, hbehind, rfl⟩, rfl⟩, ?_⟩
    calc t = "\x7b%" ++ ((Trim.ofHead r).bytes ++ inside) := by rw [Trim.bytes_ofHead, hr]
      _ = "\x7b%" ++ ((Trim.ofHead r).bytes ++
            (inside.takeWhile Lexeme.isBlank ++ inside.dropWhile Lexeme.isBlank)) := by
          rw [List.takeWhile_append_dropWhile]
      _ = _ := by simp [inside, he]
  · rintro ⟨tag, ⟨s, hs, rfl⟩, rfl⟩
    have hlead := ofHead_endsWith (.inr rfl) hs lead rest
    obtain ⟨before, word, behind, hbefore, hword, hbehind, rfl⟩ := hs
    have hblanks := dropWhile_word (.inr hword) hbefore
      (behind ++ (trail.bytes ++ ("%\x7d" ++ rest)))
    obtain ⟨w, hw, rfl⟩ := eq_append_of_mem_endingWords hword
    have hend : afterTagEnd (behind ++ (trail.bytes ++ ("%\x7d" ++ rest))) = some (trail, rest) :=
      afterTagEnd_iff.mpr ⟨behind, hbehind, rfl⟩
    have hopen (r : Text) : afterEither "verbatim" "raw" (w ++ r) = some (w, r) :=
      afterEither_iff.mpr ⟨hw, rfl⟩
    simp only [List.append_assoc] at hlead hblanks ⊢
    rw [verbatimEnd?, Text.after?_eq_some.mpr rfl]
    simp [hlead, ← Trim.length_bytes, hblanks, Text.after?_eq_some.mpr rfl, hopen, hend]

/-! ## Verbatim sections -/

/-- A tag that has one of the words in it stands at the front of a text. -/
def StartsTag (words : List Text) (t : Text) : Prop :=
  ∃ lead trail tag, WordTag words lead trail tag ∧ tag <+: t

theorem startsTag_ending_iff {t : Text} :
    StartsTag endingWords t ↔ (verbatimEnd? t).isSome = true := by
  rw [Option.isSome_iff_exists]
  constructor
  · rintro ⟨lead, trail, tag, htag, rest, rfl⟩
    exact ⟨(lead, trail, rest), verbatimEnd?_iff.mpr ⟨tag, htag, rfl⟩⟩
  · rintro ⟨⟨lead, trail, rest⟩, h⟩
    obtain ⟨tag, htag, rfl⟩ := verbatimEnd?_iff.mp h
    exact ⟨lead, trail, tag, htag, rest, rfl⟩

/-- The body of a verbatim section reaches up to the first tag that ends one. -/
theorem firstAt_verbatimBody? {t inner rest : Text} {lead trail : Trim}
    (h : verbatimBody? t = some (inner, lead, trail, rest)) :
    ∃ tag, WordTag endingWords lead trail tag ∧ t = inner ++ (tag ++ rest) ∧
      FirstAt (StartsTag endingWords) inner (tag ++ rest) := by
  fun_induction verbatimBody? t generalizing inner with
  | case1 => cases h
  | case2 b t lead' trail' rest' hend =>
    cases h
    obtain ⟨tag, htag, ht⟩ := verbatimEnd?_iff.mp hend
    exact ⟨tag, htag, ht, .nil ⟨lead, trail, tag, htag, List.prefix_append ..⟩⟩
  | case3 b t hend ih =>
    obtain ⟨⟨inner', r⟩, hbody, hinner⟩ := Option.map_eq_some_iff.mp h
    cases hinner
    obtain ⟨tag, htag, rfl, hfirst⟩ := ih hbody
    refine ⟨tag, htag, rfl, hfirst.cons ?_⟩
    rw [List.cons_append, startsTag_ending_iff, hend]
    simp

/-- A print statement is no such tag. -/
theorem not_startsTag_print (words : List Text) (t : Text) :
    ¬ StartsTag words (TagKind.print.opener ++ t) := by
  rintro ⟨lead, trail, _, ⟨s, -, rfl⟩, rest, hrest⟩
  exact absurd (List.cons.inj (List.cons.inj hrest).2).1 (by decide)

/-- The tag that opens a verbatim section, with the marker in front of its word. -/
theorem wordTag_of_verbatimOpen? {body name content : Text} {trail : Trim}
    (h : verbatimOpen? (body.drop (Trim.ofHead body).width) = some (name, trail, content)) :
    ∃ tag, WordTag openingWords (Trim.ofHead body) trail tag ∧
      "\x7b%" ++ body = tag ++ content := by
  obtain ⟨s, hs, hdrop⟩ := verbatimOpen?_iff.mp ⟨name, h⟩
  refine ⟨_, ⟨s, hs, rfl⟩, ?_⟩
  nth_rewrite 1 [← Trim.bytes_ofHead body, hdrop]
  simp

/-- Where no such tag is recognised, none stands there. -/
theorem not_startsTag_of_verbatimOpen? {body : Text}
    (h : verbatimOpen? (body.drop (Trim.ofHead body).width) = none) :
    ¬ StartsTag openingWords ("\x7b%" ++ body) := by
  rintro ⟨lead, trail, _, ⟨s, hs, rfl⟩, rest, hrest⟩
  have hbody : body = lead.bytes ++ (s ++ rest) := by simpa using hrest.symm
  have hdrop : body.drop (Trim.ofHead body).width = s ++ rest := by
    rw [hbody, ofHead_endsWith (.inl rfl) hs, ← Trim.length_bytes, List.drop_left]
  obtain ⟨name, hopen⟩ := verbatimOpen?_iff.mpr ⟨s, hs, hdrop⟩
  rw [h] at hopen
  cases hopen

end Lexing

end TwigLint
