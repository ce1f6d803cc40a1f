import Mathlib.Data.List.Forall2
import TwigLint.Project.Report
import TwigLint.Proofs.Output.Alignment
import TwigLint.Proofs.Text.Split

/-! # Lines of a table

Cells in which nothing ends a cell or a line come out one behind another on a line of their own.
Flattening a cell takes its tabs and line feeds away, but neither a vertical tab nor a form feed
between other characters.
-/

namespace TwigLint

/-! ## Flattened cells -/

namespace Text

theorem flatten_units (t : Text) : ((units t).map Prod.snd).flatten = t := by
  fun_induction units t with
  | case1 => rfl
  | case2 a t u n hunit ih =>
    rw [List.map_cons, List.flatten_cons, ih, List.cons_append, List.take_append_drop]

theorem mem_of_mem_trimSpace {b : UInt8} {t : Text} (h : b ∈ t.trimSpace) : b ∈ t := by
  obtain ⟨bytes, hbytes, hb⟩ := List.mem_flatten.mp h
  obtain ⟨unit, hunit, rfl⟩ := List.mem_map.mp hbytes
  have hmem : unit ∈ units t := by
    have hkept := (List.dropWhile_sublist _).subset (List.mem_reverse.mp hunit)
    exact (List.dropWhile_sublist _).subset (List.mem_reverse.mp hkept)
  rw [← flatten_units t]
  exact List.mem_flatten.mpr ⟨_, List.mem_map_of_mem hmem, hb⟩

end Text

namespace Table

/-- No cell and no line ends in the text. -/
def IsPlain (t : Text) : Prop := ∀ b ∈ t, endsCell b = false ∧ endsLine b = false

theorem ne_of_mem_flatten {b : UInt8} {t : Text} (h : b ∈ flatten t) : b ≠ '\t' ∧ b ≠ '\n' := by
  rcases Text.mem_of_mem_join h with hb | ⟨cut, hcut, hb⟩
  · obtain rfl : b = ' ' := List.mem_singleton.mp hb
    decide
  · obtain ⟨line, hline, rfl⟩ := List.mem_map.mp hcut
    obtain ⟨c, hc, rfl⟩ := List.mem_map.mp (Text.mem_of_mem_trimSpace hb)
    have hfeed : c ≠ '\n' := fun heq => Text.not_mem_of_mem_splitOn hline (heq ▸ hc)
    by_cases htab : c = '\t'
    · subst htab
      decide
    · simpa [htab] using hfeed

/-- Only two bytes that end a cell or a line can be left in a flattened cell. -/
theorem isPlain_flatten {t : Text} (h : (0x0b : UInt8) ∉ flatten t ∧ (0x0c : UInt8) ∉ flatten t) :
    IsPlain (flatten t) := by
  intro b hb
  obtain ⟨htab, hfeed⟩ := ne_of_mem_flatten hb
  have hvertical : b ≠ 0x0b := fun heq => h.1 (heq ▸ hb)
  have hform : b ≠ 0x0c := fun heq => h.2 (heq ▸ hb)
  simp [endsCell, endsLine, htab, hfeed, hvertical, hform]

/-! ## Shown texts -/

/-- A gap between two cells is blanks, or the tab behind an unfinished passage. -/
def IsGap (t : Text) : Prop := t = [('\t' : UInt8)] ∨ IsBlanks t

theorem Spaced.cons {gap : Text → Prop} {line : Line} {g out : Text} (c : Text) (hg : gap g)
    (h : Spaced gap line out) : Spaced gap (c :: line) (c ++ g ++ out) := by
  obtain ⟨cells, cell, front, rfl, hfront, rfl⟩ := h
  exact ⟨c :: cells, cell, _, rfl, .cons c hg hfront, by simp⟩

theorem LaidOut.eq_of_isPlain {e e' : Bool} {t out : Text} (h : LaidOut e t e' out)
    (ht : IsPlain t) : out = t := by
  induction h with
  | nil => rfl
  | @cons _ _ b _ _ _ hb _ ih =>
    obtain ⟨⟨hcell, hline⟩, ht⟩ := List.forall_mem_cons.mp ht
    rw [ih ht]
    cases hb with
    | kept => rfl
    | gap h => simp [h] at hcell
    | lineBreak h => simp [h] at hline

theorem isGap_of_shownAs {e : Bool} {t : Text} (h : ShownAs e '\t' t) : IsGap t := by
  cases h with
  | kept => exact .inl rfl
  | gap _ ht => exact .inr ht
  | lineBreak h => exact absurd h (by decide)

theorem eq_of_shownAs {e : Bool} {t : Text} (h : ShownAs e '\n' t) : t = [('\n' : UInt8)] := by
  cases h with
  | kept => rfl
  | gap h => exact absurd h (by decide)
  | lineBreak => rfl

/-- Plain cells with tabs between them come out in their order. -/
theorem LaidOut.spaced {e e' : Bool} {cells : Line} {out : Text} (hne : cells ≠ [])
    (hplain : ∀ cell ∈ cells, IsPlain cell) (h : LaidOut e (Text.join "\t" cells) e' out) :
    Spaced IsGap cells out := by
  induction cells generalizing e out with
  | nil => exact absurd rfl hne
  | cons c cells ih =>
    obtain ⟨hc, hplain⟩ := List.forall_mem_cons.mp hplain
    cases cells with
    | nil => exact ⟨[], c, [], rfl, .nil, h.eq_of_isPlain hc⟩
    | cons d cells =>
      have hjoin : Text.join "\t" (c :: d :: cells) =
        c ++ (('\t' : UInt8) :: Text.join "\t" (d :: cells)) := by simp [Text.join]; rfl
      rw [hjoin] at h
      obtain ⟨_, front, back, hfront, hback, rfl⟩ := h.append_inv
      cases hback with
      | cons htab hrest =>
        rw [hfront.eq_of_isPlain hc, ← List.append_assoc]
        exact (ih (List.cons_ne_nil d cells) hplain hrest).cons c (isGap_of_shownAs htab)

/-- Lines come out one after another. -/
theorem LaidOut.lines {e e' : Bool} {lines : List Text} {out : Text}
    (h : LaidOut e (lines.flatMap (· ++ [('\n' : UInt8)])) e' out) :
    ∃ outs, out = outs.flatMap (· ++ [('\n' : UInt8)]) ∧
      List.Forall₂ (fun line shown => ∃ e e', LaidOut e line e' shown) lines outs := by
  induction lines generalizing e out with
  | nil =>
    cases h
    exact ⟨[], rfl, .nil⟩
  | cons line lines ih =>
    rw [List.flatMap_cons, List.append_assoc, List.singleton_append] at h
    obtain ⟨_, front, back, hfront, hback, rfl⟩ := h.append_inv
    cases hback with
    | cons hfeed hrest =>
      obtain ⟨outs, rfl, houts⟩ := ih hrest
      rw [eq_of_shownAs hfeed]
      exact ⟨front :: outs, by simp, .cons ⟨_, _, hfront⟩ houts⟩

/-- A line feed that is shown comes from an end of a line. -/
theorem LaidOut.endsLine_of_mem {e e' : Bool} {t out : Text} {b : UInt8} (h : LaidOut e t e' out)
    (hb : b ∈ out) (hline : endsLine b = true) : ∃ c ∈ t, endsLine c = true := by
  induction h with
  | nil => cases hb
  | @cons _ _ c _ shown _ hc _ ih =>
    rcases List.mem_append.mp hb with hb | hb
    · refine ⟨c, List.mem_cons_self .., ?_⟩
      cases hc with
      | kept => rwa [← List.mem_singleton.mp hb]
      | gap _ ht =>
        obtain ⟨n, -, rfl⟩ := ht
        rw [List.eq_of_mem_replicate hb] at hline
        exact absurd hline (by decide)
      | lineBreak h => exact h
    · obtain ⟨c, hc, hline⟩ := ih hb
      exact ⟨c, List.mem_cons_of_mem _ hc, hline⟩

/-- Without passages no end of a cell is left. -/
theorem LaidOut.not_endsCell_of_mem {e e' : Bool} {t out : Text} {b : UInt8}
    (h : LaidOut e t e' out) (he : e = false) (ht : escape ∉ t) (hb : b ∈ out) :
    endsCell b = false := by
  induction h with
  | nil => cases hb
  | @cons _ _ c _ shown _ hc _ ih =>
    subst he
    rw [List.mem_cons, not_or] at ht
    rcases List.mem_append.mp hb with hb | hb
    · cases hc with
      | kept h =>
        rw [List.mem_singleton.mp hb]
        exact (h.resolve_left Bool.false_ne_true).1
      | gap _ ht =>
        obtain ⟨n, -, rfl⟩ := ht
        rw [List.eq_of_mem_replicate hb]
        decide
      | lineBreak =>
        rw [List.mem_singleton.mp hb]
        decide
    · exact ih (by rw [beq_false_of_ne (Ne.symm ht.1)]; rfl) ht.2 hb

/-! ## Whole tables -/

/-- A single line shows the cells of a row in their order. -/
structure Shows (row : Line) (line : Text) : Prop where
  spaced : Spaced IsGap row line
  single : ('\n' : UInt8) ∉ line

theorem mem_row {row : Line} {b : UInt8} (hb : b ∈ Text.join "\t" row) :
    b = '\t' ∨ ∃ cell ∈ row, b ∈ cell :=
  (Text.mem_of_mem_join hb).imp_left List.mem_singleton.mp

theorem LaidOut.shows {e e' : Bool} {row : Line} {line : Text} (hne : row ≠ [])
    (hplain : ∀ cell ∈ row, IsPlain cell) (h : LaidOut e (Text.join "\t" row) e' line) :
    Shows row line := by
  refine ⟨h.spaced hne hplain, fun hfeed => ?_⟩
  obtain ⟨c, hc, hline⟩ := h.endsLine_of_mem hfeed (by decide)
  rcases mem_row hc with rfl | ⟨cell, hcell, hc⟩
  · exact absurd hline (by decide)
  · exact absurd hline (by simp [(hplain cell hcell c hc).2])

/-- Every row of plain cells comes out on a line of its own, with blanks between its cells if no
cell has the byte that begins a passage. -/
theorem alignText_rows {rows : List Line} (hne : rows ≠ []) (hcells : ∀ row ∈ rows, row ≠ [])
    (hplain : ∀ row ∈ rows, ∀ cell ∈ row, IsPlain cell) :
    ∃ lines, alignText (Text.join "\n" (rows.map (Text.join "\t"))) =
        lines.flatMap (· ++ [('\n' : UInt8)]) ∧ List.Forall₂ Shows rows lines ∧
      ((∀ row ∈ rows, ∀ cell ∈ row, escape ∉ cell) → ∀ line ∈ lines, ('\t' : UInt8) ∉ line) := by
  let texts := rows.map (Text.join "\t")
  obtain ⟨ended, hlaid⟩ := laidOut_alignText (Text.join "\n" texts)
  have htexts : Text.join "\n" texts ++ [('\n' : UInt8)] = texts.flatMap (· ++ [('\n' : UInt8)]) :=
    Text.join_append "\n" (by simpa [texts] using hne)
  rw [htexts] at hlaid
  obtain ⟨lines, hout, hlines⟩ := hlaid.lines
  have hrows := (List.forall₂_and_left rows lines).mpr
    ⟨fun row hrow => hrow, List.forall₂_map_left_iff.mp hlines⟩
  refine ⟨lines, hout, hrows.imp ?_, ?_⟩
  · rintro row line ⟨hrow, _, _, h⟩
    exact h.shows (hcells row hrow) (hplain row hrow)
  · intro hescape line hline htab
    have hpassage : escape ∉ texts.flatMap (· ++ [('\n' : UInt8)]) := by
      intro h
      obtain ⟨text, htext, hb⟩ := List.mem_flatMap.mp h
      obtain ⟨row, hrow, rfl⟩ := List.mem_map.mp htext
      rcases List.mem_append.mp hb with hb | hb
      · rcases mem_row hb with hb | ⟨cell, hcell, hb⟩
        · exact absurd hb (by decide)
        · exact hescape row hrow cell hcell hb
      · exact absurd hb (by decide)
    have hmem : ('\t' : UInt8) ∈ alignText (Text.join "\n" texts) := by
      rw [hout]
      exact List.mem_flatMap.mpr ⟨line, hline, List.mem_append_left _ htab⟩
    exact absurd (hlaid.not_endsCell_of_mem rfl hpassage hmem) (by decide)

end Table

namespace Report

/-- The header of the table of a report. -/
def header : Table.Line := columns.map (·.map Text.toUpper)

/-- The cells of a finding as the table of a report has them. -/
def flatRow (d : Diagnostic) : Table.Line := (row d).map Table.flatten

theorem render_table (r : Report) : OutputFormat.table.render? r.content =
    some (if r.diagnostics = [] then []
      else Table.alignText
        (Text.join "\n" ((header :: r.diagnostics.map flatRow).map (Text.join "\t")))) := by
  have hrows : (r.diagnostics.map row).map (·.map Table.flatten) = r.diagnostics.map flatRow :=
    List.map_map
  rw [content, OutputFormat.render?, Table.render, hrows]
  simp only [List.isEmpty_iff, List.map_eq_nil_iff]
  rfl

theorem isPlain_header : ∀ cell ∈ header, Table.IsPlain cell ∧ Table.escape ∉ cell := by
  have hall : header.all fun cell => cell.all fun b =>
      !Table.endsCell b && !Table.endsLine b && b != Table.escape := by decide
  intro cell hcell
  have hcell := List.all_eq_true.mp (List.all_eq_true.mp hall cell hcell)
  refine ⟨fun b hb => ?_, fun hescape => ?_⟩
  · have hb := hcell b hb
    simp only [Bool.and_eq_true, Bool.not_eq_true'] at hb
    exact hb.1
  · exact absurd (hcell _ hescape) (by decide)

/-- The table of a report has the header and then one line for every finding, with the six cells of
the finding in their order, if flattening leaves neither a vertical tab nor a form feed in a cell;
it never leaves a tab or a line feed.  A report without findings has an empty table. -/
theorem table_line_per_finding (r : Report) :
    (∀ t, ('\t' : UInt8) ∉ Table.flatten t ∧ ('\n' : UInt8) ∉ Table.flatten t) ∧
      (r.diagnostics = [] → OutputFormat.table.render? r.content = some []) ∧
      (r.diagnostics ≠ [] →
        (∀ d ∈ r.diagnostics, ∀ cell ∈ flatRow d, (0x0b : UInt8) ∉ cell ∧ (0x0c : UInt8) ∉ cell) →
        ∃ first lines, OutputFormat.table.render? r.content =
            some ((first :: lines).flatMap (· ++ [('\n' : UInt8)])) ∧
          Table.Shows header first ∧
          List.Forall₂ (fun d line => Table.Shows (flatRow d) line) r.diagnostics lines ∧
          ((∀ d ∈ r.diagnostics, ∀ cell ∈ flatRow d, Table.escape ∉ cell) →
            ∀ line ∈ first :: lines, ('\t' : UInt8) ∉ line)) := by
  refine ⟨fun t => ⟨fun h => (Table.ne_of_mem_flatten h).1 rfl,
    fun h => (Table.ne_of_mem_flatten h).2 rfl⟩, fun h => by simp [render_table, h], ?_⟩
  intro hsome hflat
  let rows := header :: r.diagnostics.map flatRow
  have hcells : ∀ row ∈ rows, row ≠ [] := by
    simp [rows, header, columns, flatRow, row]
  have hplain : ∀ row ∈ rows, ∀ cell ∈ row, Table.IsPlain cell := by
    refine List.forall_mem_cons.mpr ⟨fun cell hcell => (isPlain_header cell hcell).1, ?_⟩
    refine List.forall_mem_map.mpr fun d hd => List.forall_mem_map.mpr fun cell hcell => ?_
    exact Table.isPlain_flatten (hflat d hd _ (List.mem_map_of_mem hcell))
  obtain ⟨lines, hout, hshows, htabs⟩ :=
    Table.alignText_rows (List.cons_ne_nil _ _) hcells hplain
  obtain ⟨first, lines, hfirst, hrest, rfl⟩ := List.forall₂_cons_left_iff.mp hshows
  refine ⟨first, lines, ?_, hfirst, List.forall₂_map_left_iff.mp hrest, fun hescape => htabs ?_⟩
  · rw [render_table, if_neg hsome, hout]
  · refine List.forall_mem_cons.mpr ⟨fun cell hcell => (isPlain_header cell hcell).2, ?_⟩
    exact List.forall_mem_map.mpr hescape

/-- A finding whose message goes on behind a line feed and a tab, and one without a line. -/
theorem table_line_per_finding_wrapped :
    let r : Report := ⟨"run-1", "cli", ⟨2024, 5, 6, 7, 8, 9, 0, none⟩, 0, [⟨"p:card", "p", "card",
      [⟨"p:card", 3, 4, ⟨3⟩, "Unknown\n\tvariable: 'a'.", .template, "name", "a"⟩,
        ⟨"p:card", 0, 0, ⟨4⟩, "Missing title.", .schema, [], []⟩]⟩]⟩
    (∀ d ∈ r.diagnostics, ∀ cell ∈ flatRow d, (0x0b : UInt8) ∉ cell ∧ (0x0c : UInt8) ∉ cell) ∧
      (∃ first lines, OutputFormat.table.render? r.content =
          some ((first :: lines).flatMap (· ++ [('\n' : UInt8)])) ∧
        List.Forall₂ (fun d line => Table.Shows (flatRow d) line) r.diagnostics lines) ∧
      OutputFormat.table.render? r.content = some (Text.ofString <|
        "COMPONENT  SEVERITY  MESSAGE                 TYPE    LINE  SOURCE\n" ++
        "p:card     ERROR     Unknown variable: 'a'.  Twig    3     a\n" ++
        "p:card     WARNING   Missing title.          Schema  -     \n") := by
  intro r
  have hflat : ∀ d ∈ r.diagnostics, ∀ cell ∈ flatRow d,
      (0x0b : UInt8) ∉ cell ∧ (0x0c : UInt8) ∉ cell := by decide +kernel
  obtain ⟨first, lines, htable, -, hlines, -⟩ :=
    (table_line_per_finding r).2.2 (List.cons_ne_nil _ _) hflat
  exact ⟨hflat, ⟨first, lines, htable, hlines⟩, by decide +kernel⟩

/-- There is no header without findings.  A form feed in a message gives a finding two lines, and a
vertical tab in the source gives it a further cell. -/
theorem table_line_per_finding_breaks :
    let report (found : List Diagnostic) : Report :=
      ⟨"run-1", "cli", ⟨2024, 5, 6, 7, 8, 9, 0, none⟩, 0, [⟨"p:card", "p", "card", found⟩]⟩
    let d : Diagnostic :=
      ⟨"p:card", 3, 4, ⟨3⟩, "Unknown\x0cvariable: 'a'.", .template, "name", "b\x0ba"⟩
    OutputFormat.table.render? (report []).content = some [] ∧
      OutputFormat.table.render? (report [d]).content =
        some (Text.ofString <| "COMPONENT  SEVERITY  MESSAGE  TYPE  LINE  SOURCE\n" ++
          "p:card     ERROR     Unknown\n" ++ "variable: 'a'.  Twig  3  b  a\n") := by
  intro report d
  exact ⟨rfl, by decide +kernel⟩

end Report

end TwigLint
