import TwigLint.Proofs.Lexing.Shape
import TwigLint.Template.Parser.Basic

/-! # The inside and the outside of sections

Every token of a template says what comes behind it: the inside of a print statement or a tag, or a
statement.  A reader that knows the last token it has read knows where it stands.
-/

namespace TwigLint

namespace TokenType

/-- A statement or the end of the template starts with a token of this type. -/
def startsStatement : TokenType → Bool
  | text | printStart | tagStart | eof => true
  | _ => false

/-- Behind a token of this type comes the inside of a print statement or a tag. -/
def leadsInside : TokenType → Bool
  | text | printEnd | tagEnd | eof => false
  | _ => true

end TokenType

namespace TokenStream

/-- What is left of the stream behind its first `n` tokens. -/
def skip (s : TokenStream) (n : Nat) : TokenStream := { s with tokens := s.tokens.drop n }

/-- The tokens of a template, as far as it matters to a reader: what comes behind each token is what
the token leads to, and the end token is the only one of its type. -/
structure Shaped (s : TokenStream) : Prop where
  eof : s.eof.type = .eof
  ne_eof : ∀ tok ∈ s.tokens, tok.type ≠ .eof
  first : s.current.type.startsStatement = true
  next : ∀ n < s.tokens.length,
    (s.skip (n + 1)).current.type.startsStatement = !(s.skip n).current.type.leadsInside

end TokenStream

namespace Lexing

/-- Tokens that come behind the inside of a section or behind a statement, and what comes behind
them. -/
inductive Alternates : Bool → List Token → Bool → Prop
  | nil (inside : Bool) : Alternates inside [] inside
  | cons {inside last : Bool} {tok : Token} {toks : List Token}
      (starts : tok.type.startsStatement = !inside)
      (rest : Alternates tok.type.leadsInside toks last) : Alternates inside (tok :: toks) last

namespace Alternates

variable {inside middle last : Bool} {ts us : List Token}

theorem append (h : Alternates inside ts middle) (h' : Alternates middle us last) :
    Alternates inside (ts ++ us) last := by
  induction h with
  | nil => exact h'
  | cons starts rest ih => exact .cons starts (ih h')

/-- The current token in front of an end token starts a statement exactly outside of sections. -/
theorem current (h : Alternates inside ts false) {eof : Token} (heof : eof.type = .eof) :
    (ts.headD eof).type.startsStatement = !inside := by
  cases h with
  | nil => simp [heof, TokenType.startsStatement]
  | cons starts => exact starts

theorem next (h : Alternates inside ts false) {eof : Token} (heof : eof.type = .eof) :
    ∀ n < ts.length, ((ts.drop (n + 1)).headD eof).type.startsStatement =
      !((ts.drop n).headD eof).type.leadsInside := by
  intro n hn
  induction n generalizing inside ts with
  | zero =>
    cases h with
    | nil => exact absurd hn (Nat.not_lt_zero _)
    | cons starts rest => exact rest.current heof
  | succ n ih =>
    cases h with
    | nil => exact absurd hn (Nat.not_lt_zero _)
    | cons starts rest => exact ih rest (Nat.lt_of_succ_lt_succ hn)

/-- The inside of a section leads on to its closing delimiter. -/
theorem of_inner {t : Token} {ts : List Token} (hts : ∀ t ∈ ts, isInner t.type = true)
    (hlast : t.type.startsStatement = false) : Alternates true (ts ++ [t]) t.type.leadsInside := by
  induction ts with
  | nil => exact .cons hlast (.nil _)
  | cons u us ih =>
    obtain ⟨hu, hus⟩ := List.forall_mem_cons.mp hts
    have hinner : u.type.startsStatement = false ∧ u.type.leadsInside = true := by
      revert hu
      cases u.type <;> simp [isInner, TokenType.startsStatement, TokenType.leadsInside]
    apply Alternates.cons hinner.1
    rw [hinner.2]
    exact ih hus

end Alternates

theorem alternates_part {w : List Token} (h : w ∈ part) : Alternates false w false := by
  rcases part_cases h with ⟨t, ht, rfl⟩ | ⟨kind, opening, closing, ts, hopening, hts, -, hclosing,
    rfl⟩
  · apply Alternates.cons
    · rw [ht]
      rfl
    · rw [ht]
      exact .nil _
  · have hstart : opening.type.startsStatement = true ∧ opening.type.leadsInside = true := by
      rw [hopening]
      cases kind <;> decide
    have hend : closing.type.startsStatement = false ∧ closing.type.leadsInside = false := by
      rw [hclosing]
      cases kind <;> decide
    apply Alternates.cons hstart.1
    rw [hstart.2, ← hend.2]
    exact .of_inner hts hend.1

theorem alternates_parts {parts : List (List Token)} (h : ∀ w ∈ parts, w ∈ part) :
    Alternates false parts.flatten false := by
  induction parts with
  | nil => exact .nil _
  | cons w rest ih =>
    obtain ⟨hw, hrest⟩ := List.forall_mem_cons.mp h
    exact (alternates_part hw).append (ih hrest)

/-- The tokens of every template lead from one to the next. -/
theorem shaped_ofSource {source : Text} {s : TokenStream}
    (h : TokenStream.ofSource source = .ok s) : s.Shaped := by
  obtain ⟨htokens, heof⟩ := ofSource_eq h
  obtain ⟨parts, heq, hparts⟩ := Language.mem_kstar.mp htokens
  have halternates : Alternates false s.tokens false := heq ▸ alternates_parts hparts
  refine ⟨heof, fun tok htok => ?_, halternates.current heof, halternates.next heof⟩
  rw [heq] at htok
  obtain ⟨w, hw, htok⟩ := List.mem_flatten.mp htok
  exact ne_eof_of_mem_part (hparts w hw) tok htok

end Lexing

end TwigLint
