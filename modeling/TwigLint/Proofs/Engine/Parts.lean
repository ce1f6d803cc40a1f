import TwigLint.Proofs.Engine.Findings

/-! # Reports in two parts

A report on a component starts with what was found about its definition, and what was found about
its template comes next.  Each part goes down the lines, without duplicates, and findings on one
line stay in the order in which they were made.
-/

namespace TwigLint

namespace Diagnostic

/-! ## Parts -/

/-- What was found about the definition of a component, and what was found about its template.  No
difference of two lines of a part overflows. -/
structure Parts (id : Text) (ds es : List Diagnostic) : Prop where
  definition : ∀ d ∈ ds, d.id = id ∧ d.origin = .schema
  template : ∀ e ∈ es, e.id = id ∧ e.origin = .template
  definitionLines : ∀ a ∈ ds, ∀ b ∈ ds, a.line - b.line < 0x8000000000000000
  templateLines : ∀ a ∈ es, ∀ b ∈ es, a.line - b.line < 0x8000000000000000

/-- The order by parts, then by lines. -/
def byPart (a b : Diagnostic) : Bool :=
  if (a.origin == .schema) = (b.origin == .schema) then a.line ≤ b.line else a.origin == .schema

theorem byPart_trans (a b c : Diagnostic) (hab : byPart a b = true) (hbc : byPart b c = true) :
    byPart a c = true := by
  grind [byPart]

theorem byPart_total (a b : Diagnostic) : (byPart a b || byPart b a) = true := by
  grind [byPart]

variable {id : Text} {ds es : List Diagnostic}

theorem Parts.dedup (h : Parts id ds es) :
    ∃ ds' es', Diagnostic.dedup (ds ++ es) = ds' ++ es' ∧ Parts id ds' es' := by
  have hdefinition : ∀ d ∈ Diagnostic.dedup ds, d ∈ ds := fun d hd => mem_of_mem_dedup hd
  have htemplate : ∀ e ∈ (Diagnostic.dedup es).filter fun e => !(ds.map key).contains e.key,
      e ∈ es := fun e he => mem_of_mem_dedup (List.mem_filter.mp he).1
  refine ⟨_, _, dedup_append ds es, ?_⟩
  exact {
    definition := fun d hd => h.definition d (hdefinition d hd)
    template := fun d hd => h.template d (htemplate d hd)
    definitionLines := fun a ha b hb =>
      h.definitionLines a (hdefinition a ha) b (hdefinition b hb)
    templateLines := fun a ha b hb => h.templateLines a (htemplate a ha) b (htemplate b hb) }

theorem Parts.group_definition (h : Parts id ds es) {d : Diagnostic} (hd : d ∈ ds) :
    d.group = id ++ 0 :: Origin.schema.name := by
  rw [group, (h.definition d hd).1, (h.definition d hd).2]

theorem Parts.group_template (h : Parts id ds es) {e : Diagnostic} (he : e ∈ es) :
    e.group = id ++ 0 :: Origin.template.name := by
  rw [group, (h.template e he).1, (h.template e he).2]

theorem Parts.group_ne (h : Parts id ds es) {d e : Diagnostic} (hd : d ∈ ds) (he : e ∈ es) :
    d.group ≠ e.group := by
  rw [h.group_definition hd, h.group_template he]
  intro hsame
  have hnames := List.append_cancel_left hsame
  exact absurd hnames (by decide)

/-- The group of the findings about the definition is the first one. -/
theorem Parts.idxOf_definition (h : Parts id ds es) {d : Diagnostic} (hd : d ∈ ds) :
    (groups (ds ++ es)).idxOf d.group = 0 := by
  cases ds with
  | nil => cases hd
  | cons first rest =>
    have hgroup : d.group = first.group := by
      rw [h.group_definition hd, h.group_definition (List.mem_cons_self ..)]
    rw [hgroup, groups, List.cons_append, List.map_cons, List.eraseDups_cons, List.idxOf_cons_self]

/-- The group of the findings about the template comes later. -/
theorem Parts.idxOf_template (h : Parts id ds es) {d e : Diagnostic} (hd : d ∈ ds)
    (he : e ∈ es) : (groups (ds ++ es)).idxOf e.group ≠ 0 := by
  cases ds with
  | nil => cases hd
  | cons first rest =>
    have hgroup : first.group ≠ e.group := h.group_ne (List.mem_cons_self ..) he
    rw [groups, List.cons_append, List.map_cons, List.eraseDups_cons, List.idxOf_cons_ne _ hgroup]
    exact Nat.succ_ne_zero _

theorem before_of_group {a b : Diagnostic} (hgroup : a.group = b.group)
    (hab : a.line - b.line < 0x8000000000000000) (hba : b.line - a.line < 0x8000000000000000)
    (order : List Text) : before order a b = decide (a.line ≤ b.line) := by
  have hwrap : wrap64 (a.line - b.line) = a.line - b.line :=
    wrap64_of_small (by omega) (by omega)
  simp only [before, hgroup, hwrap, Nat.lt_irrefl, decide_false, Bool.false_or,
    beq_self_eq_true, Bool.true_and, decide_eq_decide]
  omega

theorem Parts.before_eq (h : Parts id ds es) {a b : Diagnostic} (ha : a ∈ ds ++ es)
    (hb : b ∈ ds ++ es) : before (groups (ds ++ es)) a b = byPart a b := by
  rcases List.mem_append.mp ha with ha | ha <;> rcases List.mem_append.mp hb with hb | hb
  · have hgroup : a.group = b.group := by rw [h.group_definition ha, h.group_definition hb]
    rw [before_of_group hgroup (h.definitionLines a ha b hb) (h.definitionLines b hb a ha), byPart,
      (h.definition a ha).2, (h.definition b hb).2]
    rfl
  · have hlater := h.idxOf_template ha hb
    rw [before, byPart, (h.definition a ha).2, (h.template b hb).2, h.idxOf_definition ha]
    simp [Nat.pos_of_ne_zero hlater]
  · have hlater := h.idxOf_template hb ha
    rw [before, byPart, (h.definition b hb).2, (h.template a ha).2, h.idxOf_definition hb]
    simp [beq_eq_false_iff_ne.mpr hlater]
  · have hgroup : a.group = b.group := by rw [h.group_template ha, h.group_template hb]
    rw [before_of_group hgroup (h.templateLines a ha b hb) (h.templateLines b hb a ha), byPart,
      (h.template a ha).2, (h.template b hb).2]
    rfl

/-- Sorting two parts sorts by parts, then by lines. -/
theorem Parts.sort_eq (h : Parts id ds es) :
    sort (ds ++ es) = (ds ++ es).mergeSort byPart :=
  sort_eq_of_before fun _ ha _ hb => h.before_eq ha hb

/-! ## Composed reports -/

/-- The report on a component under an identifier, made of what was found about its definition and
about its template. -/
structure Composed (id : Text) (ds es report : List Diagnostic) : Prop where
  /-- All findings are about the component. -/
  id : ∀ d ∈ report, d.id = id
  /-- The part about the definition comes first, and each part goes down the lines. -/
  order : report.Pairwise fun a b =>
    a.origin = .schema ∧ b.origin = .template ∨ a.origin = b.origin ∧ a.line ≤ b.line
  /-- Findings of one part on one line keep their order. -/
  ties : ∀ (origin : Origin) (line : Int), List.Sublist
    (report.filter fun d => d.origin == origin && d.line == line) (ds ++ es)
  /-- There are no duplicates. -/
  keys : (report.map key).Nodup
  /-- Nothing is left out but duplicates. -/
  complete : ∀ d ∈ ds ++ es, ∃ e ∈ report, e.key = d.key

theorem Parts.of_mem (h : Parts id ds es) {d : Diagnostic} (hd : d ∈ ds ++ es) :
    d.id = id ∧ (d.origin = .schema ∨ d.origin = .template) := by
  rcases List.mem_append.mp hd with hd | hd
  · exact ⟨(h.definition d hd).1, .inl (h.definition d hd).2⟩
  · exact ⟨(h.template d hd).1, .inr (h.template d hd).2⟩

end Diagnostic

/-! ## Findings about definitions -/

/-- The finding is about a definition and less severe than critical. -/
def Diagnostic.OfDefinition (d : Diagnostic) : Prop :=
  d.origin = .schema ∧ d.severity.atLeast .critical = false

theorem Diagnostic.OfDefinition.inSchema {id : Text} {line : Int} {severity : Severity}
    {message : Text} (h : severity.atLeast .critical = false) :
    (Diagnostic.inSchema id line severity message).OfDefinition :=
  ⟨rfl, h⟩

theorem Schema.of_mem_checkProperty {id : Text} {p : Property} {x : Diagnostic}
    (h : x ∈ Schema.checkProperty id p) : x.OfDefinition := by
  unfold Schema.checkProperty at h
  rcases List.mem_append.mp h with h | h
  · split at h
    · split at h
      · rw [List.mem_singleton.mp h]
        exact .inSchema (by decide)
      · cases h
    · cases h
  · split at h
    · rw [List.mem_singleton.mp h]
      exact .inSchema (by decide)
    · split at h
      · rw [List.mem_singleton.mp h]
        exact .inSchema (by decide)
      · cases h

theorem Schema.of_mem_check {d : Definition} {x : Diagnostic} (h : x ∈ Schema.check d) :
    x.OfDefinition := by
  simp only [Schema.check, List.mem_append] at h
  rcases h with ((h | h) | h) | h
  · split at h
    · rw [List.mem_singleton.mp h]
      exact .inSchema (by decide)
    · cases h
  · obtain ⟨s, -, rfl⟩ := List.mem_map.mp h
    exact .inSchema (by decide)
  · split at h
    · cases h
    · rw [List.mem_singleton.mp h]
      exact .inSchema (by decide)
  · obtain ⟨p, -, h⟩ := List.mem_flatMap.mp h
    exact of_mem_checkProperty h

namespace Validator

open Diagnostic

/-! ## Arranging parts -/

variable {id : Text} {ds es : List Diagnostic}

theorem arranged_perm (ds : List Diagnostic) : List.Perm (arranged ds) (dedup ds) :=
  List.mergeSort_perm ..

theorem nodup_keys_arranged (ds : List Diagnostic) : ((arranged ds).map key).Nodup :=
  ((arranged_perm ds).map key).nodup_iff.mpr (nodup_keys_dedup ds)

/-- Arranging leaves nothing out but duplicates. -/
theorem exists_key_arranged {d : Diagnostic} (hd : d ∈ ds) :
    ∃ e ∈ arranged ds, e.key = d.key := by
  have hkey : d.key ∈ (dedup ds).map key := mem_keys_dedup.mpr (List.mem_map_of_mem hd)
  obtain ⟨e, he, hsame⟩ := List.mem_map.mp hkey
  exact ⟨e, (arranged_perm ds).mem_iff.mpr he, hsame⟩

theorem arranged_eq (h : Parts id ds es) :
    arranged (ds ++ es) = (dedup (ds ++ es)).mergeSort byPart := by
  obtain ⟨ds', es', hdedup, hparts⟩ := h.dedup
  rw [arranged, hdedup, hparts.sort_eq]

/-- Arranging keeps what is on one line of a part as it is without duplicates. -/
theorem arranged_filter_line (h : Parts id ds es) (origin : Origin) (line : Int) :
    (arranged (ds ++ es)).filter (fun d => d.origin == origin && d.line == line) =
      (dedup (ds ++ es)).filter fun d => d.origin == origin && d.line == line := by
  rw [arranged_eq h]
  refine filter_mergeSort_of_tied byPart_trans byPart_total fun a _ b _ ha hb => ?_
  grind [byPart]

theorem arranged_composed (h : Parts id ds es) : Composed id ds es (arranged (ds ++ es)) where
  id d hd := (h.of_mem (mem_of_mem_arranged hd)).1
  order := by
    rw [arranged_eq h]
    refine (List.pairwise_mergeSort byPart_trans byPart_total _).imp_of_mem ?_
    intro a b ha hb hab
    have ha := (h.of_mem (mem_of_mem_dedup (List.mem_mergeSort.mp ha))).2
    have hb := (h.of_mem (mem_of_mem_dedup (List.mem_mergeSort.mp hb))).2
    grind [byPart]
  ties origin line := by
    rw [arranged_filter_line h]
    exact List.filter_sublist.trans (dedup_sublist _)
  keys := nodup_keys_arranged _
  complete _ hd := exists_key_arranged hd

/-! ## Reports on components -/

theorem of_mem_definitionFindings {d : Definition} {x : Diagnostic}
    (h : x ∈ definitionFindings id d) : x.id = checkedId id d ∧ x.OfDefinition := by
  obtain ⟨y, hy, rfl⟩ := List.mem_map.mp h
  have hy := Schema.of_mem_check hy
  exact ⟨rfl, hy.1, hy.2⟩

theorem ofOptions_default : ∃ v, ofOptions .default = .ok v :=
  ⟨plain [] false, ofOptions_plain [] false⟩

theorem templateFindings_origin {v : Validator}
    (hspeaks : ∀ entry ∈ v.registry.entries, Rules.Speaks entry.2) {d : Definition}
    {x : Diagnostic} (hx : x ∈ v.templateFindings id d) :
    x.id = checkedId id d ∧ x.origin = .template := by
  unfold templateFindings at hx
  split at hx
  · cases hx
  · exact findings_origin hspeaks hx

theorem templateFindings_lines {v : Validator}
    (hspeaks : ∀ entry ∈ v.registry.entries, Rules.Speaks entry.2) {d : Definition}
    {x y : Diagnostic} (hx : x ∈ v.templateFindings id d) (hy : y ∈ v.templateFindings id d) :
    x.line - y.line ≤ (templateSource d).length + 1 := by
  unfold templateFindings at hx hy
  unfold templateSource
  split at hx
  · cases hx
  · rename_i htemplate
    rw [htemplate] at hy ⊢
    exact findings_lines hspeaks hx hy

/-- What was found about a component has two parts, also when lines of source are shown. -/
theorem parts_of_shown {v : Validator}
    (hspeaks : ∀ entry ∈ v.registry.entries, Rules.Speaks entry.2) {d : Definition}
    (hsource : (templateSource d).length + 1 < 0x8000000000000000)
    (hlines : ∀ a ∈ Schema.check d, ∀ b ∈ Schema.check d, a.line - b.line < 0x8000000000000000)
    (hshown : List.Forall₂ Shown (v.templateFindings id d) es) :
    Parts (checkedId id d) (definitionFindings id d) es where
  definition x hx := by
    have hx := of_mem_definitionFindings hx
    exact ⟨hx.1, hx.2.1⟩
  template e he := by
    obtain ⟨x, hx, t, rfl⟩ := mem_of_shown hshown e he
    have hx := templateFindings_origin hspeaks hx
    exact ⟨hx.1, hx.2⟩
  definitionLines a ha b hb := by
    obtain ⟨x, hx, rfl⟩ := List.mem_map.mp ha
    obtain ⟨y, hy, rfl⟩ := List.mem_map.mp hb
    exact hlines x hx y hy
  templateLines a ha b hb := by
    obtain ⟨x, hx, t, rfl⟩ := mem_of_shown hshown a ha
    obtain ⟨y, hy, u, rfl⟩ := mem_of_shown hshown b hb
    have hapart := templateFindings_lines hspeaks hx hy
    change x.line - y.line < _
    omega

/-- The report on a component has all that was found about it but duplicates: first the part about
its definition, then the one about its template, each down the lines.  There is a report exactly
when the numbers of the shown lines of source do not overflow.  The lines of the source have 64-bit
numbers, and no difference of two lines of the definition overflows. -/
theorem component_report_composed {o : LintOptions} {v : Validator} (hv : ofOptions o = .ok v)
    (hlength : o.excerptLength < 0x8000000000000000) (id : Text) {d : Definition}
    (hsource : (templateSource d).length + 1 < 0x8000000000000000)
    (hlines : ∀ a ∈ Schema.check d, ∀ b ∈ Schema.check d,
      a.line - b.line < 0x8000000000000000) :
    ((∃ r, v.checkComponent id d = .ok r) ↔
      ∀ x ∈ v.templateFindings id d, v.Shows (templateSource d) x) ∧
    ∀ r, v.checkComponent id d = .ok r →
      ∃ es, List.Forall₂ Shown (v.templateFindings id d) es ∧
        Composed (checkedId id d) (definitionFindings id d) es r.diagnostics := by
  obtain ⟨hspeaks, hschema, hbound⟩ := ofOptions_built hv
  constructor
  · rw [← excerpted_iff hsource (by omega)]
    constructor
    · rintro ⟨r, hr⟩
      obtain ⟨es, hes, -⟩ := (checkComponent_iff hschema).mp ⟨r, hr, rfl⟩
      exact ⟨es, hes⟩
    · rintro ⟨es, hes⟩
      obtain ⟨r, hr, -⟩ := (checkComponent_iff hschema).mpr ⟨es, hes, rfl⟩
      exact ⟨r, hr⟩
  · intro r hr
    obtain ⟨es, hes, harranged⟩ := (checkComponent_iff hschema).mp ⟨r, hr, rfl⟩
    have hshown := excerpted_shown hes
    rw [← harranged]
    exact ⟨es, hshown, arranged_composed (parts_of_shown hspeaks hsource hlines hshown)⟩

/-- Two findings on one line that are the same, and a definition with two findings. -/
theorem component_report_composed_twice :
    let d : Definition := { Definition.new "p" "c" "c.component.yml" with
      template := some ("c.twig", "\x7b\x7b b \x7d\x7d\x7b\x7b a ?? a \x7d\x7d")
      slots := [⟨"s", [], 5, true⟩]
      variants := [⟨"v", [], 7⟩]
      variantsLine := 7 }
    ∃ v r es, ofOptions .default = .ok v ∧ v.checkComponent [] d = .ok r ∧
      List.Forall₂ Shown (v.templateFindings [] d) es ∧
      Composed (checkedId [] d) (definitionFindings [] d) es r.diagnostics := by
  intro d
  have hsource : (templateSource d).length = 19 := by decide
  have hlines : ∀ a ∈ Schema.check d, ∀ b ∈ Schema.check d,
      a.line - b.line < 0x8000000000000000 := by decide
  obtain ⟨v, hv⟩ := ofOptions_default
  obtain ⟨hreports, hcomposed⟩ :=
    component_report_composed hv (by decide) [] (d := d) (by omega) hlines
  have hlength : v.excerptLength ≤ 1 := (ofOptions_built hv).2.2
  obtain ⟨r, hr⟩ := hreports.mpr fun x _ => shows_of_small (by omega) (by omega) x
  obtain ⟨es, hshown, hreport⟩ := hcomposed r hr
  exact ⟨v, r, es, hv, hr, hshown, hreport⟩

/-- There is no report on a finding below the first line when as many lines as possible are shown,
and properties whose lines are too far apart are in the wrong order. -/
theorem component_report_overflows :
    (∃ v c, ofOptions { LintOptions.default with excerptLength := 0x7fffffffffffffff } = .ok v ∧
      v.checkComponent [] { Definition.new "p" "c" "c.component.yml" with
        template := some ("c.twig", "\n\x7b\x7b a \x7d\x7d") } = .error c) ∧
    ∃ v r a b, ofOptions .default = .ok v ∧
      v.checkComponent [] { Definition.new "p" "c" "c.component.yml" with
        props := [.new "a" 0x7fffffffffffffff, .new "b" (-0x8000000000000000)] } = .ok r ∧
      r.diagnostics = [a, b] ∧ a.origin = b.origin ∧ b.line < a.line := by
  constructor
  · let o : LintOptions := { LintOptions.default with excerptLength := 0x7fffffffffffffff }
    let d : Definition := { Definition.new "p" "c" "c.component.yml" with
      template := some ("c.twig", "\n\x7b\x7b a \x7d\x7d") }
    have hfails : (ofOptions o).toOption.map (fun v => (v.checkComponent [] d).isOk) =
        some false := by
      decide +kernel
    obtain ⟨v, hv, hcheck⟩ := ok_of_toOption_map hfails
    obtain ⟨c, hc⟩ := error_of_isOk hcheck
    exact ⟨v, c, hv, hc⟩
  · let d : Definition := { Definition.new "p" "c" "c.component.yml" with
      props := [.new "a" 0x7fffffffffffffff, .new "b" (-0x8000000000000000)] }
    obtain ⟨v, hv⟩ := ofOptions_default
    have hshown : v.excerpted (templateSource d) (v.templateFindings [] d) = .ok [] := by
      rw [excerpted_eq]
      rfl
    obtain ⟨r, hr, hreport⟩ : ∃ r, v.checkComponent [] d = .ok r ∧
        r.diagnostics = arranged (definitionFindings [] d ++ []) :=
      (checkComponent_iff (ofOptions_built hv).2.1).mpr ⟨[], hshown, rfl⟩
    have hdedup : dedup (definitionFindings [] d) = definitionFindings [] d := by decide
    have hsorted : (definitionFindings [] d).Pairwise fun a b =>
        before (groups (definitionFindings [] d)) a b = true := by
      decide
    rw [List.append_nil, arranged, hdedup, sort, List.mergeSort_of_pairwise hsorted] at hreport
    exact ⟨v, r, _, _, hv, hr, hreport, rfl, by decide⟩

end Validator

end TwigLint
