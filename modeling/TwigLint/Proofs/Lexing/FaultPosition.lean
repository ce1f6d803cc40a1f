import TwigLint.Proofs.Lexing.Offset

/-! # Where the lexer fails

The lexer fails at a byte it has come to, at the opening delimiter of a section or at an open
bracket.  All of these are positions that it has in the source.
-/

namespace TwigLint

namespace Lexing

open Segment

/-- The position of an offset of a text, which may be the one behind its last byte. -/
def OnText (t : Text) (l : Location) : Prop := ∃ o ≤ t.length, l = Location.ofOffset t o

variable {all pre t body : Text} {start : Location} {e : SyntaxError}

theorem onText_of_append (hall : pre ++ t = all) : OnText all (Location.start.advance pre) := by
  subst hall
  exact ⟨pre.length, by simp, Location.advance_eq_ofOffset pre t⟩

/-! ## Brackets -/

section Brackets

variable {stack : List OpenBracket} (hstack : ∀ o ∈ stack, OnText all o.location) {tok : Token}
  (htok : OnText all tok.location)
include hstack htok

theorem onText_brackets_error (h : brackets stack tok = .error e) : OnText all e.location := by
  revert h
  fun_cases brackets stack tok <;> rintro ⟨⟩ <;> simp_all

theorem onText_brackets {stack' : List OpenBracket} (h : brackets stack tok = .ok stack') :
    ∀ o ∈ stack', OnText all o.location := by
  revert h
  fun_cases brackets stack tok <;> rintro ⟨⟩ <;> simp_all

end Brackets

/-! ## Sections -/

theorem bind_eq_error {ε α β : Type} {x : Except ε α} {f : α → Except ε β} {e : ε}
    (h : (x >>= f) = .error e) : x = .error e ∨ ∃ a, x = .ok a ∧ f a = .error e := by
  cases x with
  | error e' =>
    cases h
    exact .inl rfl
  | ok a => exact .inr ⟨a, rfl, h⟩

/-- The inside of a section fails at its opening delimiter, at an open bracket or inside. -/
theorem onText_tagRest {kind : TagKind} {loc : Location} {stack : List OpenBracket}
    (hstart : OnText all start) (hstack : ∀ o ∈ stack, OnText all o.location)
    (hall : pre ++ t = all) (hloc : loc = Location.start.advance pre)
    (h : tagRest kind start stack loc t = .error e) : OnText all e.location := by
  fun_induction tagRest kind start stack loc t generalizing pre with
  | case1 loc o below =>
    cases h
    exact hstack o (List.mem_cons_self ..)
  | case2 loc =>
    cases h
    exact hstart
  | case3 stack loc b t hblank ih =>
    have hbehind : pre ++ [b] ++ t = all := by simpa using hall
    rcases bind_eq_error h with h | ⟨rest, -, h⟩
    · exact ih hstack hbehind (by simp [hloc, Location.advance]) h
    · cases h
  | case4 => cases h
  | case5 =>
    cases h
    rw [hloc]
    exact onText_of_append hall
  | case6 stack loc b t hblank hclose lexeme hread tok =>
    rename_i ih
    have htok : OnText all tok.location := by
      rw [show tok.location = Location.start.advance pre from hloc]
      exact onText_of_append hall
    rw [eq_append_of_read hread, ← List.append_assoc] at hall
    rcases bind_eq_error h with h | ⟨stack', hstack', h⟩
    · exact onText_brackets_error hstack htok h
    · have hopen := onText_brackets hstack htok hstack'
      rcases bind_eq_error h with h | ⟨rest, -, h⟩
      · exact ih stack' hopen hall (by rw [hloc, Location.advance_advance]) h
      · cases h

/-! ## Segments -/

theorem onText_tag {kind : TagKind} (hall : pre ++ (kind.opener ++ body) = all)
    (h : tag kind (Location.start.advance pre) body = .error e) : OnText all e.location := by
  rcases bind_eq_error h with h | ⟨rest, -, h⟩
  · exact onText_tagRest (onText_of_append hall) (by simp) (append_opening hall _)
      (Location.advance_advance ..) h
  · cases h

theorem onText_blockTag (hall : pre ++ (TagKind.block.opener ++ body) = all)
    (h : blockTag (Location.start.advance pre) body = .error e) : OnText all e.location := by
  revert h
  fun_cases blockTag (Location.start.advance pre) body with
  | case1 => exact onText_tag hall
  | case2 =>
    rintro ⟨⟩
    exact onText_of_append hall
  | case3 => rintro ⟨⟩

theorem onText_comment (hall : pre ++ t = all)
    (h : comment (Location.start.advance pre) body = .error e) : OnText all e.location := by
  revert h
  fun_cases comment (Location.start.advance pre) body with
  | case1 =>
    rintro ⟨⟩
    exact onText_of_append hall
  | case2 => rintro ⟨⟩

theorem onText_first {b : UInt8} (hall : pre ++ b :: t = all)
    (h : first (Location.start.advance pre) b t = .error e) : OnText all e.location := by
  revert h
  fun_cases first (Location.start.advance pre) b t with
  | case1 => exact onText_comment hall
  | case2 c body hcomment hblock run hrun =>
    obtain ⟨rfl, -⟩ := opens_of_textRun hrun
    rw [eq_of_beq hblock] at hall
    exact onText_blockTag hall
  | case3 c body hcomment hblock run hrun =>
    obtain ⟨rfl, rfl | rfl | rfl⟩ := opens_of_textRun hrun
    · exact onText_tag hall
    · exact absurd rfl (ne_of_beq_false (Bool.eq_false_iff.mpr hblock))
    · exact absurd rfl (ne_of_beq_false (Bool.eq_false_iff.mpr hcomment))
  | case4 => rintro ⟨⟩
  | case5 => rintro ⟨⟩

/-! ## Whole templates -/

theorem onText_splitFrom (hall : pre ++ t = all) (hstart : start = Location.start.advance pre)
    (h : splitFrom start t = .error e) : OnText all e.location := by
  fun_induction splitFrom start t generalizing pre with
  | case1 => cases h
  | case2 start b t ih =>
    subst hstart
    rcases bind_eq_error h with h | ⟨segment, hfirst, h⟩
    · exact onText_first hall h
    · rw [eq_append_of_first hfirst, ← List.append_assoc] at hall
      rcases bind_eq_error h with h | ⟨rest, -, h⟩
      · exact ih segment hall (Location.advance_advance ..) h
      · cases h

/-- The lexer fails at a position of the source. -/
theorem onText_ofSource {source : Text} (h : TokenStream.ofSource source = .error e) :
    OnText source.normalizeNewlines e.location := by
  rcases bind_eq_error h with h | ⟨segments, -, h⟩
  · exact onText_splitFrom (List.nil_append _) rfl h
  · cases h

/-- Tokens other than text stand at positions of the source. -/
theorem onText_of_mem {source : Text} {s : TokenStream} (h : TokenStream.ofSource source = .ok s)
    {tok : Token} (htok : tok ∈ s.tokens) (htype : tok.type ≠ .text) :
    OnText source.normalizeNewlines tok.location := by
  obtain ⟨os, -, hstands⟩ := ofSource_offsets h
  have hmem : tok ∈ s.toList.filter (·.type != .text) := by
    simp [TokenStream.toList, htok, htype]
  have honText (tok : Token) (o : Nat)
      (hstands : ∃ lexeme, StandsAt source.normalizeNewlines tok o lexeme) :
      OnText source.normalizeNewlines tok.location ∧ True := by
    obtain ⟨lexeme, hlexeme⟩ := hstands
    exact ⟨⟨o, hlexeme.inside, hlexeme.location⟩, trivial⟩
  exact ((List.forall₂_and_left ..).mp (hstands.imp honText)).1 tok hmem

end Lexing

end TwigLint
