import TwigLint.Files.Path
import TwigLint.Proofs.Text.Split
import Mathlib.Data.List.DropRight

/-! # Clean paths

Cleaning a path works on its elements and leaves the last one alone, if this is a name.  So a clean
path is a folder and a name, and any other name can be put below the folder in its place.
-/

namespace TwigLint.Path

/-- A part of a path between slashes that is not empty. -/
def IsElement (e : Text) : Prop := e ≠ [] ∧ slash ∉ e

/-- An element that names a place in the folder where it stands. -/
structure IsName (e : Text) : Prop where
  isElement : IsElement e
  notHere : e ≠ "."
  notAbove : e ≠ ".."

/-! ## Elements -/

@[simp] theorem elements_nil : elements [] = [] := rfl

theorem elements_append (p q : Text) : elements (p ++ slash :: q) = elements p ++ elements q := by
  simp only [elements, Text.splitOn_eq]
  rw [List.splitOn_append_cons_self, List.filter_append]

theorem elements_of_isElement {e : Text} (h : IsElement e) : elements e = [e] := by
  simp [elements, Text.splitOn_eq, List.splitOn_eq_singleton h.2, h.1]

theorem isElement_of_mem {p e : Text} (h : e ∈ elements p) : IsElement e := by
  rw [elements, List.mem_filter] at h
  exact ⟨by simpa using h.2, Text.not_mem_of_mem_splitOn h.1⟩

/-- Elements, each followed by a slash, below the root if `absolute`. -/
def folder (absolute : Bool) (es : List Text) : Text :=
  (if absolute then [slash] else []) ++ es.flatMap (· ++ [slash])

theorem isAbsolute_of_isElement {e : Text} (h : IsElement e) : isAbsolute e = false := by
  cases e with
  | nil => rfl
  | cons b e =>
    have hb : b ≠ slash := fun heq => h.2 (heq ▸ List.mem_cons_self ..)
    simpa [isAbsolute] using hb

/-! ## The folder of a path -/

/-- A text that can stand in front of an element: empty, or with a slash at its end. -/
def IsLead (p : Text) : Prop := p = [] ∨ ∃ q, p = q ++ [slash]

/-- Every path is a lead and what has no slash. -/
theorem exists_lead (p : Text) : ∃ lead e, p = lead ++ e ∧ IsLead lead ∧ slash ∉ e := by
  refine ⟨p.rdropWhile (· != slash), p.rtakeWhile (· != slash),
    List.rdropWhile_append_rtakeWhile.symm, ?_, fun h => ?_⟩
  · rcases List.eq_nil_or_concat' (p.rdropWhile (· != slash)) with hnil | ⟨q, b, hq⟩
    · exact .inl hnil
    · have hlast := List.rdropWhile_last_not (· != slash) p (by simp [hq])
      simp only [hq] at hlast
      obtain rfl : b = slash := by simpa using hlast
      exact .inr ⟨q, hq⟩
  · simpa using List.mem_rtakeWhile_imp h

variable {lead e e' : Text}

theorem elements_lead (hlead : IsLead lead) (he : IsElement e) :
    elements (lead ++ e) = elements lead ++ [e] := by
  rcases hlead with rfl | ⟨q, rfl⟩
  · exact elements_of_isElement he
  · rw [List.append_assoc, List.singleton_append, elements_append, elements_append,
      elements_of_isElement he, elements_nil, List.append_nil]

theorem isAbsolute_lead (hlead : IsLead lead) (he : IsElement e) :
    isAbsolute (lead ++ e) = isAbsolute lead := by
  rcases hlead with rfl | ⟨q, rfl⟩
  · exact isAbsolute_of_isElement he
  · cases q <;> rfl

theorem base_lead (hlead : IsLead lead) (he : IsElement e) : base (lead ++ e) = e := by
  rw [base, elements_lead hlead he, List.getLast?_concat]

theorem dir_lead (hlead : IsLead lead) (he : slash ∉ e) : dir (lead ++ e) = clean lead := by
  have he' : ∀ b ∈ e.reverse, (b != slash) = true := by
    intro b hb
    have hne : b ≠ slash := fun heq => he (heq ▸ List.mem_reverse.mp hb)
    simpa using hne
  rw [dir, List.reverse_append, List.dropWhile_append_of_pos he']
  rcases hlead with rfl | ⟨q, rfl⟩ <;> simp

/-! ## Cleaning -/

/-- The elements of a path that are left when it is cleaned. -/
def kept (p : Text) : List Text := ((elements p).foldl (addElement (isAbsolute p)) []).reverse

theorem mem_addElement {absolute : Bool} {reversed : List Text} {e e' : Text}
    (h : e' ∈ addElement absolute reversed e) : e' = e ∨ e' ∈ reversed := by
  unfold addElement at h
  grind

theorem isElement_of_mem_kept {p e : Text} (h : e ∈ kept p) : IsElement e := by
  have hfold (es reversed : List Text) (h : e ∈ es.foldl (addElement (isAbsolute p)) reversed) :
      e ∈ es ∨ e ∈ reversed := by
    induction es generalizing reversed with
    | nil => exact .inr h
    | cons e' es ih =>
      rcases ih _ h with h | h
      · exact .inl (List.mem_cons_of_mem _ h)
      · rcases mem_addElement h with rfl | h
        · exact .inl (List.mem_cons_self ..)
        · exact .inr h
  rcases hfold _ _ (List.mem_reverse.mp h) with h | h
  · exact isElement_of_mem h
  · exact absurd h List.not_mem_nil

theorem addElement_of_isName {absolute : Bool} {reversed : List Text} {e : Text} (h : IsName e) :
    addElement absolute reversed e = e :: reversed := by
  simp [addElement, h.notHere, h.notAbove]

/-- Cleaning leaves a name at the end of a path where it is. -/
theorem clean_lead (hlead : IsLead lead) (he : IsName e) :
    clean (lead ++ e) = folder (isAbsolute lead) (kept lead) ++ e := by
  have hfold : ((elements (lead ++ e)).foldl (addElement (isAbsolute lead)) []).reverse =
      kept lead ++ [e] := by
    rw [elements_lead hlead he.isElement, List.foldl_append, List.foldl_cons, List.foldl_nil,
      addElement_of_isName he, List.reverse_cons, kept]
  have hjoin := Text.join_concat [slash] (kept lead) e
  have hne : (Text.join [slash] (kept lead ++ [e])).isEmpty = false := by
    simp [hjoin, he.isElement.1]
  simp only [clean, isAbsolute_lead hlead he.isElement, hfold, hne, folder]
  cases isAbsolute lead <;> simp [hjoin]

/-- The lead of a clean path is a folder of elements that cleaning keeps. -/
theorem lead_eq_folder (hlead : IsLead lead) (he : IsName e)
    (hclean : clean (lead ++ e) = lead ++ e) : lead = folder (isAbsolute lead) (kept lead) :=
  List.append_cancel_right (hclean.symm.trans (clean_lead hlead he))

/-- A folder is its own clean form, but for the slash at the end, unless it is the root or empty. -/
theorem clean_folder_append {p x : Text} {es : List Text} (hkept : kept p = es ++ [x])
    (hx : IsElement x) : clean p ++ [slash] = folder (isAbsolute p) (kept p) := by
  have hjoin := Text.join_concat [slash] es x
  have hne : (Text.join [slash] (es ++ [x])).isEmpty = false := by simp [hjoin, hx.1]
  have hclean :
      clean p = (if isAbsolute p then [slash] else []) ++ Text.join [slash] (es ++ [x]) := by
    have hdef : clean p = if isAbsolute p then slash :: Text.join [slash] (kept p)
        else if (Text.join [slash] (kept p)).isEmpty then "." else Text.join [slash] (kept p) := rfl
    rw [hdef, hkept, hne]
    cases isAbsolute p <;> rfl
  rw [hclean, hkept, folder, hjoin]
  simp

/-- In a clean path another name can stand in the place of the last element. -/
theorem join_clean (hlead : IsLead lead) (he : IsName e) (he' : IsName e')
    (hclean : clean (lead ++ e) = lead ++ e) : join (clean lead) e' = lead ++ e' := by
  have hfolder := lead_eq_folder hlead he hclean
  have hjoin (p : Text) (hp : p ≠ []) : join p e' = clean ((p ++ [slash]) ++ e') := by
    rw [join, if_neg (by simpa using hp)]
    simp
  -- below the root and in the working directory, the lead has no elements
  have hroot : clean ("//" ++ e') = "/" ++ e' := clean_lead (.inr ⟨"/", rfl⟩) he'
  have hhere : clean ("./" ++ e') = e' := clean_lead (.inr ⟨".", rfl⟩) he'
  rcases List.eq_nil_or_concat' (kept lead) with hnil | ⟨es, x, hes⟩
  · rw [hnil] at hfolder
    cases habsolute : isAbsolute lead with
    | true =>
      obtain rfl : lead = "/" := by rw [hfolder, habsolute]; rfl
      exact (hjoin "/" (by decide)).trans hroot
    | false =>
      obtain rfl : lead = [] := by rw [hfolder, habsolute]; rfl
      exact (hjoin "." (by decide)).trans hhere
  · have hx : x ∈ kept lead := by simp [hes]
    have hslash := (clean_folder_append hes (isElement_of_mem_kept hx)).trans hfolder.symm
    have hne : clean lead ≠ [] := by
      intro hempty
      obtain rfl : [slash] = lead := by simpa [hempty] using hslash
      exact List.append_ne_nil_of_right_ne_nil es (List.cons_ne_nil x []) hes.symm
    rw [hjoin _ hne, hslash, clean_lead hlead he', ← hfolder]

end TwigLint.Path
