import Mathlib.Data.List.Induction
import TwigLint.Proofs.Rules.Overlay

/-! # What a table says with an overlay applied

Applying an overlay puts its entries into the table one after another.  Each of them takes its name
out of all buckets first, so that the table says about a name what the last entry of the overlay for
it says, and about any other name what it said before.
-/

namespace TwigLint.Policy

/-! ## Entries -/

/-- An entry of a bucket: a name, its verdict and its hint. -/
abbrev Entry := Text × Verdict × Text

namespace Table

/-- All entries of a table, bucket by bucket. -/
def placed (t : Table) : List Entry :=
  t.ignore.map (·, .ignore, []) ++ t.allow.map (·, .allow, []) ++
    t.retire.map (fun e => (e.1, .retire, e.2)) ++ t.warn.map (fun e => (e.1, .warn, e.2)) ++
    t.forbid.map (fun e => (e.1, .forbid, e.2))

/-- Puts an entry into the bucket for its verdict. -/
def add (t : Table) (e : Entry) : Table :=
  match e.2.1 with
  | .ignore => t.addIgnore e.1
  | .allow => t.addAllow e.1
  | .retire => t.addRetire (e.1, e.2.2)
  | .warn => t.addWarn (e.1, e.2.2)
  | .forbid => t.addForbid (e.1, e.2.2)
  | .unclassified | .gray => t

/-- What a table says about a name, bucket by bucket. -/
def about (t : Table) (name : Text) : List (Verdict × Text) :=
  (t.placed.filter (·.1 == name)).map Prod.snd

end Table

namespace Overlay

/-- The buckets of an overlay, as a table. -/
def buckets (o : Overlay) : Table :=
  ⟨[], o.ignore, o.allow, o.retire.getD [], o.warn.getD [], o.forbid.getD [], false⟩

/-- What the last bucket of an overlay that lists a name says about it. -/
def last? (o : Overlay) (name : Text) : Option (Verdict × Text) :=
  o.buckets.placed.reverse.lookup name

end Overlay

namespace Table

/-- Adding entries changes the buckets only. -/
theorem add_frame (t : Table) (e : Entry) :
    (t.add e).family = t.family ∧ (t.add e).graylist = t.graylist := by
  obtain ⟨name, verdict, hint⟩ := e
  cases verdict <;> exact ⟨rfl, rfl⟩

theorem foldl_add_frame (t : Table) (es : List Entry) :
    (es.foldl add t).family = t.family ∧ (es.foldl add t).graylist = t.graylist := by
  induction es generalizing t with
  | nil => exact ⟨rfl, rfl⟩
  | cons e es ih =>
    obtain ⟨hfamily, hgraylist⟩ := ih (t.add e)
    exact ⟨hfamily.trans (t.add_frame e).1, hgraylist.trans (t.add_frame e).2⟩

/-- An overlay is applied entry by entry. -/
theorem merge_eq (t : Table) (o : Overlay) :
    t.merge o = { o.buckets.placed.foldl add t with graylist := o.graylist.getD t.graylist } := by
  rw [← (t.foldl_add_frame o.buckets.placed).2]
  simp only [merge, placed, Overlay.buckets, List.foldl_append, List.foldl_map, add]

theorem placed_remove (t : Table) (name : Text) :
    (t.remove name).placed = t.placed.filter (·.1 != name) := by
  simp only [placed, remove, withoutName, List.filter_append, List.filter_map]
  rfl

theorem about_eq_append {t : Table} {l₁ l₂ : List Entry} (h : t.placed = l₁ ++ l₂) (name : Text) :
    t.about name = (l₁.filter (·.1 == name)).map Prod.snd ++
      (l₂.filter (·.1 == name)).map Prod.snd := by
  rw [about, h, List.filter_append, List.map_append]

/-- A removed name is in no bucket, and any other name is where it was. -/
theorem about_remove (t : Table) (name other : Text) :
    (t.remove name).about other = if other == name then [] else t.about other := by
  rw [about, placed_remove, List.filter_filter]
  split
  · next h =>
    rw [beq_iff_eq.mp h]
    simp
  · next h =>
    rw [about]
    congr 2
    ext e
    by_cases he : e.1 = other <;> simp_all

/-- An entry comes into its bucket behind all others there. -/
theorem placed_add {e : Entry} {t' : Table} (h : e ∈ t'.placed) (t : Table) :
    ∃ l₁ l₂, (t.remove e.1).placed = l₁ ++ l₂ ∧ (t.add e).placed = l₁ ++ e :: l₂ := by
  obtain ⟨name, verdict, hint⟩ := e
  let r := t.remove name
  let ignored : List Entry := r.ignore.map (·, .ignore, [])
  let allowed : List Entry := r.allow.map (·, .allow, [])
  let retired : List Entry := r.retire.map fun e => (e.1, .retire, e.2)
  let warned : List Entry := r.warn.map fun e => (e.1, .warn, e.2)
  let forbidden : List Entry := r.forbid.map fun e => (e.1, .forbid, e.2)
  cases verdict with
  | unclassified => simp [placed] at h
  | gray => simp [placed] at h
  | ignore =>
    obtain ⟨-, rfl⟩ : name ∈ t'.ignore ∧ hint = [] := by simpa [placed] using h
    refine ⟨ignored, allowed ++ retired ++ warned ++ forbidden, ?_, ?_⟩ <;>
      simp [placed, add, addIgnore, ignored, allowed, retired, warned, forbidden, r]
  | allow =>
    obtain ⟨-, rfl⟩ : name ∈ t'.allow ∧ hint = [] := by simpa [placed] using h
    refine ⟨ignored ++ allowed, retired ++ warned ++ forbidden, ?_, ?_⟩ <;>
      simp [placed, add, addAllow, ignored, allowed, retired, warned, forbidden, r]
  | retire =>
    refine ⟨ignored ++ allowed ++ retired, warned ++ forbidden, ?_, ?_⟩ <;>
      simp [placed, add, addRetire, ignored, allowed, retired, warned, forbidden, r]
  | warn =>
    refine ⟨ignored ++ allowed ++ retired ++ warned, forbidden, ?_, ?_⟩ <;>
      simp [placed, add, addWarn, ignored, allowed, retired, warned, forbidden, r]
  | forbid =>
    refine ⟨ignored ++ allowed ++ retired ++ warned ++ forbidden, [], ?_, ?_⟩ <;>
      simp [placed, add, addForbid, ignored, allowed, retired, warned, forbidden, r]

theorem about_add {e : Entry} {t' : Table} (h : e ∈ t'.placed) (t : Table) (name : Text) :
    (t.add e).about name = if name == e.1 then [e.2] else t.about name := by
  obtain ⟨l₁, l₂, hremove, hadd⟩ := placed_add h t
  have hbefore := (about_eq_append hremove name).symm.trans (about_remove t e.1 name)
  rw [about_eq_append hadd]
  by_cases hname : (name == e.1) = true
  · rw [if_pos hname] at hbefore ⊢
    obtain ⟨h₁, h₂⟩ := List.append_eq_nil_iff.mp hbefore
    rw [h₁, List.filter_cons, if_pos (BEq.symm hname), List.map_cons, h₂]
    rfl
  · rw [if_neg hname] at hbefore ⊢
    rw [List.filter_cons, if_neg fun h => hname (BEq.symm h), hbefore]

/-- The last of several entries for a name counts. -/
theorem about_foldl_add {es : List Entry} {t' : Table} (h : es ⊆ t'.placed) (t : Table)
    (name : Text) :
    (es.foldl add t).about name = match es.reverse.lookup name with
      | some p => [p]
      | none => t.about name := by
  induction es using List.reverseRecOn with
  | nil => rfl
  | append_singleton es e ih =>
    rw [List.foldl_concat, about_add (h (by simp)), ih fun _ he => h (by simp [he]),
      List.reverse_concat, List.lookup_cons]
    cases name == e.1 <;> rfl

/-- A table with an overlay says about a name what the overlay says last, and what it said before if
the overlay says nothing. -/
theorem about_merge (t : Table) (o : Overlay) (name : Text) :
    (t.merge o).about name = match o.last? name with
      | some p => [p]
      | none => t.about name := by
  rw [merge_eq]
  exact about_foldl_add (List.Subset.refl _) t name

/-! ## Answers -/

theorem head?_about (t : Table) (name : Text) :
    (t.about name).head? = t.placed.lookup name := by
  rw [about]
  induction t.placed with
  | nil => rfl
  | cons e es ih =>
    rw [List.lookup_cons, List.filter_cons, BEq.comm]
    cases name == e.1
    · exact ih
    · rfl

theorem lookup_names (names : List Text) (verdict : Verdict) (name : Text) :
    (names.map (·, verdict, ([] : Text))).lookup name =
      if names.contains name then some (verdict, []) else none := by
  induction names with
  | nil => rfl
  | cons n names ih =>
    rw [List.map_cons, List.lookup_cons, List.contains_cons, ih]
    cases name == n <;> rfl

theorem lookup_hints (hs : Hints) (verdict : Verdict) (name : Text) :
    (hs.map fun e => (e.1, verdict, e.2)).lookup name = (hs.lookup name).map (verdict, ·) := by
  induction hs with
  | nil => rfl
  | cons e hs ih =>
    rw [List.map_cons, List.lookup_cons, List.lookup_cons, ih]
    cases name == e.1 <;> rfl

/-- The first bucket that lists a name decides. -/
theorem classify_eq (t : Table) (name : Text) :
    t.classify name = match (t.about name).head? with
      | some (verdict, hint) => t.answer verdict name hint
      | none => t.answer (if t.graylist then .gray else .unclassified) name [] := by
  rw [head?_about, placed, List.lookup_append, List.lookup_append, List.lookup_append,
    List.lookup_append, lookup_names, lookup_names, lookup_hints, lookup_hints, lookup_hints,
    classify]
  split
  · rfl
  · split
    · rfl
    · cases t.retire.lookup name <;> cases t.warn.lookup name <;> cases t.forbid.lookup name <;> rfl

/-- The answer has the verdict and the hint of the entry. -/
theorem answer_of_mem {e : Entry} {t' : Table} (h : e ∈ t'.placed) (t : Table) :
    (t.answer e.2.1 e.1 e.2.2).verdict = e.2.1 ∧ (t.answer e.2.1 e.1 e.2.2).hint = e.2.2 := by
  obtain ⟨name, verdict, hint⟩ := e
  cases verdict with
  | ignore =>
    obtain ⟨-, rfl⟩ : name ∈ t'.ignore ∧ hint = [] := by simpa [placed] using h
    exact ⟨rfl, rfl⟩
  | allow =>
    obtain ⟨-, rfl⟩ : name ∈ t'.allow ∧ hint = [] := by simpa [placed] using h
    exact ⟨rfl, rfl⟩
  | unclassified => simp [placed] at h
  | _ => exact ⟨rfl, rfl⟩

theorem mem_placed_of_last? {o : Overlay} {name : Text} {p : Verdict × Text}
    (h : o.last? name = some p) : (name, p) ∈ o.buckets.placed := by
  obtain ⟨l₁, l₂, heq, -⟩ := List.lookup_eq_some_iff.mp h
  rw [← List.mem_reverse, heq]
  simp

theorem entries_eq (t : Table) : t.entries = t.placed.map fun e => (e.1, e.2.1) := by
  simp [entries, placed, Function.comp_def]

/-- The buckets of a name are those of its entries. -/
theorem filter_entries (t : Table) (name : Text) :
    t.entries.filter (·.1 == name) = (t.about name).map fun p => (name, p.1) := by
  rw [entries_eq, about, List.filter_map, List.map_map]
  apply List.map_congr_left
  intro e he
  rw [← beq_iff_eq.mp (List.mem_filter.mp he).2]
  rfl

theorem about_eq_nil_iff (t : Table) (name : Text) : t.about name = [] ↔ name ∉ t.listed := by
  rw [about, List.map_eq_nil_iff, List.filter_eq_nil_iff, listed, entries_eq]
  simp only [List.map_map, List.mem_map, Function.comp_apply, not_exists, not_and, beq_iff_eq]

/-! ## Overlays -/

theorem answer_merge (t : Table) (o : Overlay) : (t.merge o).answer = t.answer := by
  have hfamily : (t.merge o).family = t.family := by
    rw [merge_eq]
    exact (t.foldl_add_frame _).1
  funext verdict name hint
  simp only [answer, reported, hfamily]

theorem graylist_merge (t : Table) (o : Overlay) :
    (t.merge o).graylist = o.graylist.getD t.graylist := by
  rw [merge_eq]

/-- A second application of an overlay changes no answer. -/
theorem classify_merge_merge (t : Table) (o : Overlay) (name : Text) :
    ((t.merge o).merge o).classify name = (t.merge o).classify name := by
  have habout : ((t.merge o).merge o).about name = (t.merge o).about name := by
    rw [about_merge, about_merge]
    cases o.last? name <;> rfl
  have hgraylist : ((t.merge o).merge o).graylist = (t.merge o).graylist := by
    rw [graylist_merge, graylist_merge]
    cases o.graylist <;> rfl
  rw [classify_eq, classify_eq, habout, hgraylist, answer_merge (t.merge o)]

/-- What an overlay does to the answers of a table.  A name that the overlay lists is in the last of
its buckets that does, and nowhere else, with the hint there.  The answer for any other name stays,
but the overlay can say whether a name in no bucket is gray.  A table without faults has none
afterwards, and the overlay changes nothing when it is applied again. -/
theorem classify_merge (t : Table) (o : Overlay) (name : Text) :
    (∀ verdict hint, o.last? name = some (verdict, hint) →
      (t.merge o).entries.filter (·.1 == name) = [(name, verdict)] ∧
        ((t.merge o).classify name).verdict = verdict ∧
        ((t.merge o).classify name).hint = hint) ∧
    (o.last? name = none →
      (name ∈ t.listed → (t.merge o).classify name = t.classify name) ∧
        (name ∉ t.listed → (t.merge o).classify name =
          t.answer (if o.graylist.getD t.graylist then .gray else .unclassified) name [])) ∧
    (t.complaint? = none → (t.merge o).complaint? = none) ∧
    ((t.merge o).merge o).classify name = (t.merge o).classify name := by
  have habout := about_merge t o name
  refine ⟨?_, ?_, fun h => complaint?_merge h o, classify_merge_merge t o name⟩
  · intro verdict hint hlast
    rw [hlast] at habout
    have hanswer := answer_of_mem (mem_placed_of_last? hlast) (t.merge o)
    rw [filter_entries, classify_eq, habout]
    exact ⟨rfl, hanswer⟩
  · intro hlast
    rw [hlast] at habout
    rw [classify_eq, classify_eq, habout, answer_merge, graylist_merge]
    constructor
    · intro hlisted
      cases hfirst : t.about name with
      | nil => exact absurd hlisted ((t.about_eq_nil_iff name).mp hfirst)
      | cons p ps => rfl
    · intro hlisted
      rw [(t.about_eq_nil_iff name).mpr hlisted]
      rfl

/-- A name that the overlay both ignores and forbids, one that only the table lists, and one that
neither lists. -/
theorem classify_merge_conflict :
    let t : Table := ⟨"filter", [], ["raw"], [], [("e", "Rarely needed.")], [], false⟩
    let o : Overlay := ⟨["raw"], [], none, none, some [("raw", "Unsafe.")], some true⟩
    (t.merge o).entries.filter (·.1 == Text.ofString "raw") = [(Text.ofString "raw", .forbid)] ∧
      ((t.merge o).classify "raw").hint = "Unsafe." ∧
      (t.merge o).classify "e" = t.classify "e" ∧
      (t.merge o).classify "map" = t.answer .gray "map" [] ∧ (t.merge o).complaint? = none := by
  intro t o
  have hraw := (classify_merge t o "raw").1 .forbid "Unsafe." (by decide)
  have he := ((classify_merge t o "e").2.1 (by decide)).1 (by decide)
  have hmap := ((classify_merge t o "map").2.1 (by decide)).2 (by decide)
  have hfaults := (classify_merge t o "raw").2.2.1 ((complaint?_eq_none_iff t).mpr (by decide))
  exact ⟨hraw.1, hraw.2.2, he, hmap, hfaults⟩

end Table

end TwigLint.Policy
