import TwigLint.Proofs.Lexing.Offset
import TwigLint.Proofs.Engine.Excerpt
import TwigLint.Proofs.Text.Split

/-! # Source lines of tokens

The lexer counts line ends as it goes, and the lines that a message shows are cut out of the source
anew.  Both agree: the line shown for a token is the one on which its lexeme starts, and the column
of the token is where it starts there.
-/

namespace TwigLint

/-! ## Lines -/

namespace Text

theorem staysOnLine_of_mem_lastLine {t : Text} {b : UInt8} (h : b ∈ lastLine t) :
    staysOnLine b = true := List.mem_rtakeWhile_imp h

/-- A line is what stands in front of an offset on it, and what comes from there on. -/
theorem lineAt_eq {t : Text} {o : Nat} (h : o ≤ t.length) :
    lineAt t o = lastLine (t.take o) ++ (t.drop o).takeWhile staysOnLine := by
  have hstart : lineStart t o ≤ (t.take o).length := by simp [lineStart, h]
  have hdrop : t.drop (lineStart t o) = lastLine (t.take o) ++ t.drop o := by
    rw [← drop_lineStart h, ← List.drop_append_of_le_length hstart, List.take_append_drop]
  rw [lineAt, hdrop, List.takeWhile_append_of_pos fun b => staysOnLine_of_mem_lastLine]

theorem staysOnLine_of_not_mem {t : Text} (h : ('\n' : UInt8) ∉ t) :
    ∀ b ∈ t, staysOnLine b = true := by
  intro b hb
  have hne : b ≠ '\n' := fun heq => h (heq ▸ hb)
  simpa [staysOnLine] using hne

theorem lastLine_eq_self {t : Text} (h : ('\n' : UInt8) ∉ t) : lastLine t = t :=
  List.rtakeWhile_eq_self_iff.mpr (staysOnLine_of_not_mem h)

/-- Where a line ends, what stands before it is not on the last line. -/
theorem lastLine_cons {b : UInt8} {t : Text} (h : ('\n' : UInt8) ∈ b :: t) :
    lastLine (b :: t) = lastLine t := by
  simp only [lastLine, List.rtakeWhile, List.reverse_cons]
  by_cases ht : ('\n' : UInt8) ∈ t
  · rw [List.takeWhile_append, if_neg]
    intro hlength
    have hall := (List.takeWhile_prefix staysOnLine).eq_of_length hlength
    have hstays := List.takeWhile_eq_self_iff.mp hall '\n' (by simpa using ht)
    exact absurd hstays (by decide)
  · obtain rfl : '\n' = b := by simpa [ht] using h
    have hstays : ∀ c ∈ t.reverse, staysOnLine c = true := by
      simpa using staysOnLine_of_not_mem ht
    rw [List.takeWhile_append_of_pos hstays, List.takeWhile_eq_self_iff.mpr hstays]
    simp [staysOnLine]

theorem splitOn_head? (sep : UInt8) (t : Text) :
    (splitOn sep t)[0]? = some (t.takeWhile (· != sep)) := by
  induction t with
  | nil => rfl
  | cons b t ih =>
    rw [splitOn_cons]
    by_cases hb : b = sep <;> simp [hb, ih]

/-- The line that an offset is on is the one whose number is that of the line ends before it. -/
theorem splitOn_append (p r : Text) : (splitOn '\n' (p ++ r))[countByte '\n' p]? =
    some (lastLine p ++ r.takeWhile staysOnLine) := by
  induction p with
  | nil => exact splitOn_head? '\n' r
  | cons b p ih =>
    rw [List.cons_append, splitOn_cons]
    by_cases hb : b = '\n'
    · subst hb
      rw [lastLine_cons (List.mem_cons_self ..), ← ih]
      simp [countByte]
    · have hcount : countByte '\n' (b :: p) = countByte '\n' p := by simp [countByte, hb]
      rw [if_neg hb, hcount, List.getElem?_modifyHead, ih]
      by_cases hp : ('\n' : UInt8) ∈ p
      · have hpos : countByte '\n' p ≠ 0 := (List.count_pos_iff.mpr hp).ne'
        rw [if_neg hpos, lastLine_cons (List.mem_cons_of_mem b hp)]
      · have hzero : countByte '\n' p = 0 := List.count_eq_zero.mpr hp
        have hcons : ('\n' : UInt8) ∉ b :: p := by simp [hp, Ne.symm hb]
        rw [if_pos hzero, lastLine_eq_self hp, lastLine_eq_self hcons]
        rfl

/-- The lines of a text, by the offsets on them. -/
theorem getElem?_splitOn {t : Text} {o : Nat} (h : o ≤ t.length) :
    (splitOn '\n' t)[countByte '\n' (t.take o)]? = some (lineAt t o) := by
  rw [lineAt_eq h]
  nth_rewrite 1 [← List.take_append_drop o t]
  exact splitOn_append (t.take o) (t.drop o)

end Text

namespace Excerpt

/-- One line of a source whose lines can be counted. -/
theorem take_line {source : Text} {n : Nat} {line : Text} (h : (lines source)[n]? = some line)
    (hsize : (lines source).length < 0x8000000000000000) :
    take source (1 + n) 1 = .ok line := by
  obtain ⟨hn, rfl⟩ := List.getElem?_eq_some_iff.mp h
  have hlast : (1 + n : Int) ≤ (lines source).toArray.size := by
    simp only [List.size_toArray]
    omega
  have hfirst : ((1 + n : Int) - 1).toNat = n := by omega
  rw [take, ofLines_inside (by omega) hlast (by omega), hfirst, List.drop_eq_getElem_cons hn]
  rfl

end Excerpt

namespace Lexing

/-! ## Tokens -/

/-- The position of a token is that of an offset where one of its lexemes starts.  One line taken
from the source at the line of the token is the line with the offset on it, and it holds the bytes
from the offset on behind as many bytes as the column says. -/
structure Placed (source : Text) (tok : Token) (o : Nat) : Prop where
  stands : ∃ lexeme, StandsAt source.normalizeNewlines tok o lexeme
  line : (Excerpt.lines source).length < 0x8000000000000000 →
    Excerpt.take source tok.location.line 1 = .ok (source.normalizeNewlines.lineAt o)
  column : ∃ before, tok.location.column = before.length + 1 ∧
    source.normalizeNewlines.lineAt o =
      before ++ (source.normalizeNewlines.drop o).takeWhile Text.staysOnLine

theorem StandsAt.placed {source lexeme : Text} {tok : Token} {o : Nat}
    (h : StandsAt source.normalizeNewlines tok o lexeme) : Placed source tok o := by
  constructor
  · exact ⟨lexeme, h⟩
  · intro hsize
    rw [h.location]
    exact Excerpt.take_line (Text.getElem?_splitOn h.inside) hsize
  · refine ⟨Text.lastLine (source.normalizeNewlines.take o), ?_, Text.lineAt_eq h.inside⟩
    rw [h.location, Location.ofOffset_column _ o h.inside]

end Lexing

end TwigLint
