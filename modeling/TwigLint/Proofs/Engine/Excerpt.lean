import TwigLint.Lint.Excerpt
import TwigLint.Proofs.Engine.Arrange

/-! # Ranges of source lines

Taking lines from a source has three outcomes.  There is nothing to show of a line that the source
does not have.  From a line that it has, as many lines are taken as are asked for and are there.
But the number of the last line that is asked for is a sum in 64 bits, and where it overflows the
range ends before it starts.
-/

namespace TwigLint.Excerpt

section

variable {all : Array Text} {line : Int} (length : Int)

theorem ofLines_outside (h : line < 1 ∨ all.size < line) : ofLines all line length = .ok [] := by
  rw [ofLines, if_pos (by simpa using h)]

variable {length} (hfirst : 1 ≤ line) (hlast : line ≤ all.size)

include hfirst hlast

/-- The lines from the given one on are taken. -/
theorem ofLines_inside (h : line - 1 + max length 1 < 0x8000000000000000) :
    ofLines all line length =
      .ok (Text.join "\n" ((all.toList.drop (line - 1).toNat).take (max length 1).toNat)) := by
  have hwrap : wrap64 (line - 1 + max length 1) = line - 1 + max length 1 :=
    Diagnostic.wrap64_of_small (by omega) (by omega)
  have hrange : ¬ (line < 1 ∨ (all.size : Int) < line) := by omega
  have hstop : ¬ min (line - 1 + max length 1) (all.size : Int) < line - 1 := by omega
  rw [ofLines, if_neg (by simpa using hrange), hwrap, if_neg hstop, Array.toList_extract,
    List.extract_eq_take_drop]
  congr 2
  apply List.take_eq_take_iff.mpr
  simp only [List.length_drop, Array.length_toList]
  omega

/-- A sum that overflows wraps around to a negative number, which no range can end with. -/
theorem ofLines_overflow (hline : line < 0x8000000000000000) (hlength : length < 0x8000000000000000)
    (h : 0x8000000000000000 ≤ line - 1 + max length 1) :
    ofLines all line length =
      .error (.badRange (line - 1 + max length 1 - 0x10000000000000000)) := by
  have hwrap : wrap64 (line - 1 + max length 1) =
      line - 1 + max length 1 - 0x10000000000000000 := by
    have hmod : wrap64 (line - 1 + max length 1) =
        wrap64 (line - 1 + max length 1 - 0x10000000000000000) :=
      (Int.sub_bmod_right _ 0x10000000000000000).symm
    rw [hmod, Diagnostic.wrap64_of_small (by omega) (by omega)]
  have hrange : ¬ (line < 1 ∨ (all.size : Int) < line) := by omega
  have hstop : min (line - 1 + max length 1 - 0x10000000000000000) (all.size : Int) =
      line - 1 + max length 1 - 0x10000000000000000 := by omega
  rw [ofLines, if_neg (by simpa using hrange), hwrap, hstop, if_pos (by omega)]

end

/-! ## Lines of a source -/

/-- The lines of a source with the numbers from `first` to `last`, with line ends between them. -/
def between (source : Text) (first last : Int) : Text :=
  Text.join "\n" (((lines source).take last.toNat).drop (first - 1).toNat)

/-- From an empty source nothing is taken, since its only line is empty. -/
theorem ofLines_lines_nil (line : Int) {length : Int} (hlength : length < 0x8000000000000000) :
    ofLines (lines []).toArray line length = .ok [] := by
  have hsize : ((lines []).toArray.size : Int) = 1 := rfl
  by_cases hthere : 1 ≤ line ∧ line ≤ 1
  · obtain rfl : line = 1 := by omega
    have hcount : (max length 1).toNat = (max length 1).toNat - 1 + 1 := by omega
    have hlines : (lines []).toArray.toList.drop (1 - 1 : Int).toNat = [[]] := rfl
    rw [ofLines_inside hthere.1 (hsize ▸ hthere.2) (by omega), hlines, hcount, List.take_succ_cons,
      List.take_nil]
    rfl
  · exact ofLines_outside length (by omega)

/-- As many lines as are asked for, and as are there, have the numbers from the first to the last of
them. -/
theorem join_take_eq_between (source : Text) {line length : Int} (hfirst : 1 ≤ line) :
    Text.join "\n" (((lines source).drop (line - 1).toNat).take (max length 1).toNat) =
      between source line (min (line - 1 + max length 1) (lines source).length) := by
  rw [between, List.drop_take]
  congr 1
  apply List.take_eq_take_iff.mpr
  simp only [List.length_drop]
  omega

/-- Whatever 64-bit numbers are given, the lines that are asked for and that a source has are taken
exactly if the number of the last one that is asked for does not overflow. -/
theorem take_eq_between (source : Text) (line length : Int64) :
    let count : Int := (lines source).length
    let last := line.toInt - 1 + max length.toInt 1
    take source line.toInt length.toInt =
      if source ≠ [] ∧ 1 ≤ line.toInt ∧ line.toInt ≤ count then
        if last < 0x8000000000000000 then .ok (between source line.toInt (min last count))
        else .error (.badRange (last - 0x10000000000000000))
      else .ok [] := by
  intro count last
  have hline := line.toInt_lt
  have hlength := length.toInt_lt
  have hsize : ((lines source).toArray.size : Int) = count := by simp [count]
  rw [take]
  by_cases hsource : source = []
  · rw [if_neg fun h => h.1 hsource, hsource]
    exact ofLines_lines_nil line.toInt hlength
  by_cases hthere : 1 ≤ line.toInt ∧ line.toInt ≤ count
  · obtain ⟨hfirst, hlast⟩ := hthere
    rw [if_pos ⟨hsource, hfirst, hlast⟩]
    by_cases hfits : last < 0x8000000000000000
    · rw [if_pos hfits, ofLines_inside hfirst (hsize ▸ hlast) hfits]
      exact congrArg _ (join_take_eq_between source hfirst)
    · rw [if_neg hfits]
      exact ofLines_overflow hfirst (hsize ▸ hlast) hline hlength (by omega)
  · rw [if_neg fun h => hthere h.2]
    exact ofLines_outside _ (by omega)

/-- The greatest length makes the number of the last line overflow from the second line on. -/
theorem take_eq_between_overflow :
    let source : Text := "\nb"
    let line : Int64 := 2
    let length : Int64 := Int64.maxValue
    (1 ≤ line.toInt ∧ line.toInt ≤ (lines source).length) ∧
      take source line.toInt length.toInt = .error (.badRange (-0x8000000000000000)) := by
  decide +kernel

end TwigLint.Excerpt
