import TwigLint.Proofs.Lexing.Shape
import TwigLint.Proofs.Lexing.Position
import Mathlib.Data.List.DropRight

/-! # Offsets of tokens

The lexemes of a template lie one behind another in its source, with blanks, texts and comments
between them.  The position of a token is that of the byte at which its lexeme starts, however the
lexer came there.
-/

namespace TwigLint

/-! ## Offsets and positions -/

namespace Text

/-- The byte does not end a line. -/
def staysOnLine (b : UInt8) : Bool := b != '\n'

/-- What the last line of a text holds. -/
def lastLine (t : Text) : Text := t.rtakeWhile staysOnLine

/-- The offset at which the line starts that the given offset is on. -/
def lineStart (t : Text) (o : Nat) : Nat := o - (lastLine (t.take o)).length

/-- The line that the given offset is on. -/
def lineAt (t : Text) (o : Nat) : Text := (t.drop (lineStart t o)).takeWhile staysOnLine

variable {t : Text}

theorem length_lastLine_le (t : Text) : (lastLine t).length ≤ t.length :=
  (List.rtakeWhile_suffix staysOnLine t).length_le

/-- The start of a line, seen from behind it: only the bytes of the line follow. -/
theorem drop_lineStart {o : Nat} (h : o ≤ t.length) :
    (t.take o).drop (lineStart t o) = lastLine (t.take o) := by
  obtain ⟨before, hbefore⟩ := List.rtakeWhile_suffix staysOnLine (t.take o)
  have hlength : (t.take o).length = o := by simp [h]
  have hstart : lineStart t o = before.length := by
    have hsum := congrArg List.length hbefore
    simp only [List.length_append] at hsum
    unfold lineStart lastLine
    omega
  rw [hstart]
  nth_rewrite 1 [← hbefore]
  exact List.drop_left

end Text

namespace Location

/-- The position of the byte at the given offset: one line more than line ends in front of it, and
one column more than bytes between the start of its line and it. -/
def ofOffset (t : Text) (o : Nat) : Location :=
  ⟨1 + Text.countByte '\n' (t.take o), o - Text.lineStart t o + 1⟩

theorem ofOffset_column (t : Text) (o : Nat) (h : o ≤ t.length) :
    (ofOffset t o).column = (Text.lastLine (t.take o)).length + 1 := by
  have hshort := Text.length_lastLine_le (t.take o)
  simp only [List.length_take] at hshort
  simp only [ofOffset, Text.lineStart]
  omega

/-- The position behind a text that starts a source. -/
theorem advance_start (pre : Text) : start.advance pre =
    ⟨1 + Text.countByte '\n' pre, (Text.lastLine pre).length + 1⟩ := by
  induction pre using List.reverseRecOn with
  | nil => rfl
  | append_singleton pre b ih =>
    have hstep : start.advance (pre ++ [b]) = (start.advance pre).step b := by
      simp [advance]
    have hcount : Text.countByte '\n' (pre ++ [b]) =
        Text.countByte '\n' pre + if b == '\n' then 1 else 0 := by
      simp [Text.countByte, List.count_append, List.count_singleton]
    rw [hstep, ih, hcount]
    by_cases hb : b = '\n'
    · subst hb
      simp [step, Text.lastLine, Text.staysOnLine]
      omega
    · have hstays : Text.staysOnLine b = true := by simpa [Text.staysOnLine] using hb
      simp [step, Text.lastLine, hstays, hb]

/-- The position that the lexer keeps is that of the offset it has come to. -/
theorem advance_eq_ofOffset (pre t : Text) :
    start.advance pre = ofOffset (pre ++ t) pre.length := by
  have hcolumn := ofOffset_column (pre ++ t) pre.length (by simp)
  rw [List.take_left] at hcolumn
  rw [advance_start, ← hcolumn]
  simp [ofOffset]

theorem advance_advance (l : Location) (s t : Text) :
    (l.advance s).advance t = l.advance (s ++ t) := by
  simp [advance]

end Location

namespace Lexing

open Segment

/-! ## Lexemes -/

/-- The words one behind another, with blanks between neighbours. -/
inductive Apart : List Text → Text → Prop
  | last (w : Text) : Apart [w] w
  | cons {w blanks source : Text} {ws : List Text} (some_blank : blanks ≠ [])
      (blank : ∀ b ∈ blanks, Lexeme.isBlank b = true) (rest : Apart ws source) :
      Apart (w :: ws) (w ++ blanks ++ source)

/-- What stands between the quotes of a string and the quote that ends it, with the bytes that it
stands for. -/
inductive Quoted (quote : UInt8) : Text → Text → Prop
  | close : Quoted quote [quote] []
  | escaped {source value : Text} (b : UInt8) (rest : Quoted quote source value) :
      Quoted quote ('\\' :: b :: source) (Lexeme.unescape b :: value)
  | plain {b : UInt8} {source value : Text} (not_quote : b ≠ quote) (not_escape : b ≠ '\\')
      (rest : Quoted quote source value) : Quoted quote (b :: source) (b :: value)

/-- The lexemes of a token with the given type and value. -/
inductive Writes : TokenType → Text → Text → Prop
  | opening (kind : TagKind) : Writes kind.startType kind.opener kind.opener
  /-- A closing delimiter is written with the marker in front of it. -/
  | closing (kind : TagKind) (marker : Text) (h : marker ∈ ([[], ['-'], ['~']] : List Text)) :
      Writes kind.endType kind.closer (marker ++ kind.closer)
  | plain {type : TokenType} {value : Text}
      (h : type ∈ [TokenType.name, .number, .operator, .punctuation, .arrow]) (hne : value ≠ []) :
      Writes type value value
  | word {ws : List Text} {source : Text} (listed : ws ∈ Lexeme.wordOperators)
      (h : Apart ws source) : Writes .operator (Text.join " " ws) source
  | string (quote : Quote) {source value : Text} (h : Quoted quote.byte source value) :
      Writes .string value (quote.byte :: source)
  | eof : Writes .eof [] []

theorem Writes.ne_text {type : TokenType} {value lexeme : Text} (h : Writes type value lexeme) :
    type ≠ .text := by
  cases h with
  | opening kind => cases kind <;> simp [TagKind.startType]
  | closing kind => cases kind <;> simp [TagKind.endType]
  | plain h =>
    rintro rfl
    simp at h
  | word | string | eof => simp

theorem closer_ne_nil (kind : TagKind) : kind.closer ≠ [] := by
  cases kind <;> decide

theorem Apart.ne_nil {ws : List Text} {source : Text} (h : Apart ws source)
    (hws : ∀ w ∈ ws, w ≠ []) : source ≠ [] := by
  cases h <;> simp_all

/-- Only the lexeme of the end token is empty. -/
theorem Writes.ne_nil {type : TokenType} {value lexeme : Text} (h : Writes type value lexeme)
    (htype : type ≠ .eof) : lexeme ≠ [] := by
  cases h with
  | opening kind => exact opener_ne_nil kind
  | closing kind => simp [closer_ne_nil]
  | plain h hne => exact hne
  | word listed h =>
    have hwords : ∀ ws ∈ Lexeme.wordOperators, ∀ w ∈ ws, w ≠ [] := by decide
    exact h.ne_nil (hwords _ listed)
  | string => simp
  | eof => exact absurd rfl htype

theorem apart_readWords? {ws : List Text} {t source rest : Text} (hne : ws ≠ [])
    (h : Lexeme.readWords? ws t = some (source, rest)) : Apart ws source := by
  fun_induction Lexeme.readWords? ws t generalizing source rest with
  | case1 t => exact absurd rfl hne
  | case2 =>
    obtain ⟨r, -, hsource⟩ := Option.map_eq_some_iff.mp h
    cases hsource
    exact .last _
  | case3 w v ws t ih =>
    obtain ⟨r, -, h⟩ := Option.bind_eq_some_iff.mp h
    by_cases hblanks : (r.takeWhile Lexeme.isBlank).isEmpty
    · simp [hblanks] at h
    · simp only [hblanks, Bool.false_eq_true, if_false] at h
      obtain ⟨⟨source', rest'⟩, hwords, hsource⟩ := Option.bind_eq_some_iff.mp h
      cases hsource
      exact .cons (by simpa using hblanks) (fun b hb => List.mem_takeWhile_imp hb)
        (ih r (by simp) hwords)

/-- A word operator is one of the list with blanks between its words, and it ends where no word
goes on. -/
theorem apart_wordOperator? {t : Text} {lexeme : Lexeme}
    (h : Lexeme.wordOperator? t = some lexeme) :
    ∃ ws ∈ Lexeme.wordOperators, ∃ behind, Apart ws lexeme.source ∧
      lexeme.value = Text.join " " ws ∧ t = lexeme.source ++ behind ∧
        Lexeme.endsWord behind = true := by
  have hwords : ∀ ws ∈ Lexeme.wordOperators, ws ≠ [] := by decide
  obtain ⟨ws, hmem, hws⟩ := List.exists_of_findSome?_eq_some h
  split at hws
  · rename_i source rest hread
    split at hws
    · rename_i hends
      cases hws
      exact ⟨ws, hmem, rest, apart_readWords? (hwords ws hmem) hread, rfl, (readWords?_eq hread).1,
        hends⟩
    · cases hws
  · cases hws

theorem writes_wordOperator? {t : Text} {lexeme : Lexeme}
    (h : Lexeme.wordOperator? t = some lexeme) :
    Writes lexeme.type lexeme.value lexeme.source := by
  obtain ⟨ws, listed, -, hapart, hvalue, -⟩ := apart_wordOperator? h
  rw [type_wordOperator? h, hvalue]
  exact .word listed hapart

theorem quoted_stringBody? {quote : UInt8} {t value source : Text}
    (h : Lexeme.stringBody? quote t = some (value, source)) : Quoted quote source value := by
  fun_induction Lexeme.stringBody? quote t generalizing value source with
  | case1 => cases h
  | case2 b hquote =>
    cases h
    rw [eq_of_beq hquote]
    exact .close
  | case3 b hquote => cases h
  | case4 b c t hquote =>
    cases h
    rw [eq_of_beq hquote]
    exact .close
  | case5 b c t hquote hescape ih =>
    obtain ⟨⟨value', source'⟩, hbody, hsource⟩ := Option.map_eq_some_iff.mp h
    cases hsource
    rw [eq_of_beq hescape]
    exact .escaped c (ih hbody)
  | case6 b c t hquote hescape ih =>
    obtain ⟨⟨value', source'⟩, hbody, hsource⟩ := Option.map_eq_some_iff.mp h
    cases hsource
    exact .plain (by simpa using hquote) (by simpa using hescape) (ih hbody)

/-- A lexeme that is read is one of its token. -/
theorem writes_read {b : UInt8} {t : Text} {lexeme : Lexeme} (h : Lexeme.read b t = .ok lexeme) :
    Writes lexeme.type lexeme.value lexeme.source := by
  obtain ⟨-, hne⟩ := read_isPrefix h
  cases readsLexeme_of_read h with
  | word hword => exact writes_wordOperator? hword
  | string quote _ hbody => exact .string quote (quoted_stringBody? hbody)
  | _ => exact .plain (by simp) hne

theorem writes_close? {kind : TagKind} {t : Text} {trail : Trim} {source : Text}
    (h : close? kind t = some (trail, source)) : Writes kind.endType kind.closer source := by
  rw [(close?_eq h).1]
  exact .closing kind trail.bytes (by cases trail <;> simp [Trim.bytes])

/-! ## Layout -/

/-- The token stands at an offset of a text, where the lexeme is one of its. -/
structure StandsAt (t : Text) (tok : Token) (o : Nat) (lexeme : Text) : Prop where
  inside : o ≤ t.length
  writes : Writes tok.type tok.value lexeme
  there : lexeme <+: t.drop o
  location : tok.location = Location.ofOffset t o

/-- The tokens stand in a text one behind another, between two offsets. -/
inductive Laid (t : Text) : Nat → List Token → Nat → Prop
  | nil {a b : Nat} (h : a ≤ b) : Laid t a [] b
  | cons {a b o : Nat} {tok : Token} {toks : List Token} {lexeme : Text} (from_start : a ≤ o)
      (stands : StandsAt t tok o lexeme) (hne : lexeme ≠ [])
      (rest : Laid t (o + lexeme.length) toks b) : Laid t a (tok :: toks) b

namespace Laid

variable {t : Text} {a b c : Nat} {toks : List Token}

theorem le (h : Laid t a toks b) : a ≤ b := by
  induction h with
  | nil h => exact h
  | cons from_start stands hne rest ih => omega

theorem before (h : Laid t b toks c) (hab : a ≤ b) : Laid t a toks c := by
  cases h with
  | nil h => exact .nil (hab.trans h)
  | cons from_start stands hne rest => exact .cons (hab.trans from_start) stands hne rest

theorem append {toks' : List Token} (h : Laid t a toks b) (h' : Laid t b toks' c) :
    Laid t a (toks ++ toks') c := by
  induction h with
  | nil hab => exact h'.before hab
  | cons from_start stands hne rest ih => exact .cons from_start stands hne (ih h')

theorem filter_text (h : Laid t a toks b) : toks.filter (·.type != .text) = toks := by
  apply List.filter_eq_self.mpr
  induction h with
  | nil => simp
  | cons from_start stands hne rest ih => simpa [stands.writes.ne_text] using ih

/-- The offsets of tokens that are laid out increase. -/
theorem offsets (h : Laid t a toks b) : ∃ os : List Nat, os.Pairwise (· < ·) ∧
    (∀ o ∈ os, a ≤ o ∧ o < b) ∧
    List.Forall₂ (fun tok o => ∃ lexeme, StandsAt t tok o lexeme) toks os := by
  induction h with
  | nil => exact ⟨[], by simp⟩
  | @cons a b o tok toks lexeme from_start stands hne rest ih =>
    obtain ⟨os, hincreasing, hrange, hstands⟩ := ih
    have hpos : 0 < lexeme.length := List.length_pos_iff.mpr hne
    have hend := rest.le
    refine ⟨o :: os, List.pairwise_cons.mpr ⟨fun o' ho' => ?_, hincreasing⟩, fun o' ho' => ?_,
      .cons ⟨lexeme, stands⟩ hstands⟩
    · have hbehind := (hrange o' ho').1
      omega
    · rcases List.mem_cons.mp ho' with rfl | ho'
      · omega
      · have hbehind := hrange o' ho'
        omega

end Laid

/-! ## Tags -/

/-- The token whose lexeme starts what is left of a text. -/
theorem standsAt_of_prefix {all pre t : Text} (hall : pre ++ t = all) (tok : Token) {lexeme : Text}
    (hlocation : tok.location = Location.start.advance pre)
    (hwrites : Writes tok.type tok.value lexeme) (hlexeme : lexeme <+: t) :
    StandsAt all tok pre.length lexeme := by
  subst hall
  refine ⟨by simp, hwrites, by simpa using hlexeme, ?_⟩
  rw [hlocation, Location.advance_eq_ofOffset pre t]

/-- The tokens that are read of a tag are laid out over the bytes that it takes. -/
theorem ReadsTag.laid {kind : TagKind} {stack : List OpenBracket} {loc : Location} {t : Text}
    {r : TagRest} (h : ReadsTag kind stack loc t r) {all pre : Text} (hall : pre ++ t = all)
    (hloc : loc = Location.start.advance pre) :
    Laid all pre.length r.tokens (pre.length + r.source.length) := by
  induction h generalizing pre with
  | @blank _ _ b _ r _ _ ih =>
    have hlaid := ih (List.append_cons pre b _ ▸ hall) (by simp [hloc, Location.advance])
    have hlength : (b :: r.source).length = 1 + r.source.length := by simp [Nat.add_comm]
    rw [TagRest.consBlank, hlength, ← Nat.add_assoc]
    exact (by simpa using hlaid : Laid all (pre.length + 1) _ _).before (by omega)
  | @close loc t source trail hclose =>
    have hwrites := writes_close? hclose
    have hne : source ≠ [] := hwrites.ne_nil (by cases kind <;> decide)
    have hstands := standsAt_of_prefix hall ⟨kind.endType, kind.closer, loc⟩ hloc hwrites
      (close?_eq hclose).2
    exact .cons (Nat.le_refl _) hstands hne (.nil (Nat.le_refl _))
  | @lexeme _ _ loc _ _ rest lexeme r text _ hread _ _ ih =>
    obtain ⟨hlexeme, hne⟩ := read_isPrefix hread
    have hstands := standsAt_of_prefix hall ⟨lexeme.type, lexeme.value, loc⟩ hloc
      (writes_read hread) hlexeme
    rw [text, ← List.append_assoc] at hall
    have hlaid := ih hall (by rw [hloc, Location.advance_advance])
    apply Laid.cons (Nat.le_refl _) hstands hne
    simpa [TagRest.consToken, Nat.add_assoc] using hlaid

/-! ## Segments -/

/-- A segment takes bytes, and its tokens are laid out over them. -/
structure Holds (all pre : Text) (segment : Segment) : Prop where
  source_ne_nil : segment.source ≠ []
  tokens : ∀ lead toks trail, segment.shape = .tag lead toks trail →
    Laid all pre.length toks (pre.length + segment.source.length)

/-- What stands behind the opening delimiter of a tag and its marker. -/
theorem append_opening {all pre body : Text} {kind : TagKind}
    (hall : pre ++ (kind.opener ++ body) = all) (n : Nat) :
    pre ++ (kind.opener ++ body.take n) ++ body.drop n = all := by
  rw [List.append_assoc, opening_append, hall]

theorem ReadsSegment.holds {all pre t : Text} {segment : Segment}
    (h : ReadsSegment (Location.start.advance pre) t segment) (hall : pre ++ t = all) :
    Holds all pre segment := by
  refine ⟨h.source_ne_nil, fun lead toks trail hshape => ?_⟩
  cases h with
  | @tag kind body _ _ _ hopening hrest =>
    cases hshape
    have hstands := standsAt_of_prefix hall
      ⟨kind.startType, kind.opener, Location.start.advance pre⟩ rfl (.opening kind)
      (List.prefix_append ..)
    have hlaid := hrest.laid (hopening ▸ append_opening hall _) (Location.advance_advance ..)
    apply Laid.cons (Nat.le_refl _) hstands (opener_ne_nil kind)
    simp only [List.length_append, hopening, Nat.add_assoc] at hlaid ⊢
    exact hlaid.before (by omega)
  | text | comment | verbatim => cases hshape

/-! ## Whole templates -/

theorem filter_textToken (before behind : Trim) (start : Location) (t : Text) :
    (textToken before behind start t).filter (·.type != .text) = [] := by
  fun_cases textToken before behind start t <;> simp

/-- The tokens of the segments of a text are laid out over it. -/
theorem Cuts.laid {start : Location} {t : Text} {segments : List Segment}
    (h : Cuts start t segments) {all pre : Text} (hall : pre ++ t = all)
    (hstart : start = Location.start.advance pre) (before : Trim) :
    Laid all pre.length ((Segment.tokens before segments).filter (·.type != .text)) all.length := by
  induction h generalizing pre before with
  | nil => exact .nil (by simp [← hall])
  | @cons _ _ segment _ first _ ih =>
    subst hstart
    have hholds := first.holds hall
    rw [← List.append_assoc] at hall
    have hlaid := ih hall (Location.advance_advance ..) segment.trail
    rw [List.length_append] at hlaid
    rw [Segment.tokens, List.filter_append]
    cases hshape : segment.shape with
    | text =>
      rw [filter_textToken]
      exact hlaid.before (Nat.le_add_right ..)
    | comment => exact hlaid.before (Nat.le_add_right ..)
    | verbatim =>
      rw [filter_textToken]
      exact hlaid.before (Nat.le_add_right ..)
    | tag lead toks trail =>
      have hfirst := hholds.tokens lead toks trail hshape
      rw [hfirst.filter_text]
      exact hfirst.append hlaid

/-- The end token stands behind all others. -/
theorem standsAt_eof (t : Text) :
    StandsAt t ⟨.eof, [], Location.start.advance t⟩ t.length [] := by
  apply standsAt_of_prefix (List.append_nil t) _ rfl .eof
  exact List.prefix_refl []

/-- The tokens of a template other than text stand at increasing offsets of its source, the end
token behind its last byte. -/
theorem ofSource_offsets {source : Text} {s : TokenStream}
    (h : TokenStream.ofSource source = .ok s) :
    let t := source.normalizeNewlines
    ∃ os : List Nat, (os ++ [t.length]).Pairwise (· < ·) ∧
      List.Forall₂ (fun tok o => ∃ lexeme, StandsAt t tok o lexeme)
        (s.toList.filter (·.type != .text)) (os ++ [t.length]) := by
  intro t
  obtain ⟨segments, hcuts, rfl⟩ := cuts_of_ofSource h
  have hlaid := hcuts.laid (List.nil_append t) rfl .keep
  obtain ⟨os, hincreasing, hrange, hstands⟩ := hlaid.offsets
  refine ⟨os, ?_, ?_⟩
  · simpa [List.pairwise_append, hincreasing] using fun o ho => (hrange o ho).2
  · simp only [TokenStream.toList, List.filter_append]
    apply List.rel_append hstands
    exact .cons ⟨[], standsAt_eof t⟩ .nil

end Lexing

end TwigLint
