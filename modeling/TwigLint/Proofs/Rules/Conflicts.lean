import Mathlib
import TwigLint.Proofs.Collections.Occurrence
import TwigLint.Proofs.Rules.Overlay
import TwigLint.Proofs.Text.Split

/-! # Names in several buckets

The complaint about a table tells every name that has more than one entry, once, with the bucket of
every entry.  These are the names in different buckets, unless a list has a name twice: that name is
told too, and its bucket is told twice.
-/

namespace TwigLint.Policy

/-- The buckets in the order in which a table is asked. -/
def Verdict.buckets : List Verdict := [.ignore, .allow, .retire, .warn, .forbid]

namespace Table

/-- The names that a bucket lists. -/
def names (t : Table) : Verdict → List Text
  | .ignore => t.ignore
  | .allow => t.allow
  | .retire => t.retire.map Prod.fst
  | .warn => t.warn.map Prod.fst
  | .forbid => t.forbid.map Prod.fst
  | .unclassified | .gray => []

/-- A bucket with hints has one hint for a name. -/
def Keyed (t : Table) : Prop := ∀ v ∈ [Verdict.retire, .warn, .forbid], (t.names v).Nodup

instance (t : Table) : Decidable t.Keyed :=
  inferInstanceAs (Decidable (∀ v ∈ [Verdict.retire, .warn, .forbid], (t.names v).Nodup))

/-- Two different buckets list the name. -/
def Conflicting (t : Table) (name : Text) : Prop :=
  ∃ v w, v ≠ w ∧ name ∈ t.names v ∧ name ∈ t.names w

/-- One bucket lists the name twice. -/
def Repeated (t : Table) (name : Text) : Prop := ∃ v, 2 ≤ (t.names v).count name

/-- The different buckets that list a name. -/
def bucketsOf (t : Table) (name : Text) : List Verdict :=
  Verdict.buckets.filter fun v => (t.names v).contains name

/-- The bucket of every entry for a name. -/
def places (t : Table) (name : Text) : List Verdict :=
  Verdict.buckets.flatMap fun v => List.replicate ((t.names v).count name) v

/-- A name with some buckets, as a complaint shows it. -/
def shown (name : Text) (places : List Verdict) : Text :=
  "'" ++ name ++ "' (" ++ Text.join ", " (places.map Verdict.label) ++ ")"

/-- The complaint about some names. -/
def message (t : Table) (names : List Text) (places : Text → List Verdict) : Text :=
  t.family ++ ": names in more than one bucket: " ++
    Text.join "; " (Text.sort (names.map fun name => shown name (places name)))

/-- There is a complaint if some name is faulty, and it tells the faulty names and no others, each
once with its places. -/
structure Tells (t : Table) (faulty : Text → Prop) (places : Text → List Verdict)
    (complaint : Option Text) : Prop where
  isSome_iff : complaint.isSome ↔ ∃ name, faulty name
  text : ∀ m, complaint = some m →
    ∃ names : List Text, names.Nodup ∧ (∀ name, name ∈ names ↔ faulty name) ∧
      m = t.message names places

/-! ## Entries of a name -/

theorem entries_flatMap (t : Table) :
    t.entries = Verdict.buckets.flatMap fun v => (t.names v).map (·, v) := by
  simp [entries, Verdict.buckets, names, Function.comp_def]

theorem map_filter_entries (t : Table) (name : Text) :
    (t.entries.filter (·.1 == name)).map Prod.snd = t.places name := by
  have hbucket (v : Verdict) : (((t.names v).map (·, v)).filter (·.1 == name)).map Prod.snd =
      List.replicate ((t.names v).count name) v := by
    rw [List.filter_map, List.map_map, List.count_eq_length_filter]
    exact List.map_const'
  rw [entries_flatMap, List.filter_flatMap, List.map_flatMap, places]
  simp only [hbucket]

theorem count_places (t : Table) (name : Text) (v : Verdict) :
    (t.places name).count v = (t.names v).count name := by
  cases v <;> simp [places, Verdict.buckets, names, List.count_replicate]

theorem mem_places {t : Table} {name : Text} {v : Verdict} :
    v ∈ t.places name ↔ name ∈ t.names v := by
  rw [← List.count_pos_iff, count_places, List.count_pos_iff]

/-- A name has more than one entry if two buckets list it, or one of them twice. -/
theorem two_le_length_places {t : Table} {name : Text} :
    2 ≤ (t.places name).length ↔ t.Conflicting name ∨ t.Repeated name := by
  constructor
  · intro h
    obtain ⟨v, others, hplaces⟩ := List.exists_cons_of_length_pos (Nat.lt_of_lt_of_le Nat.two_pos h)
    rw [hplaces, List.length_cons] at h
    obtain ⟨w, rest, rfl⟩ := List.exists_cons_of_length_pos (Nat.lt_of_succ_lt_succ h)
    by_cases hvw : v = w
    · refine .inr ⟨v, ?_⟩
      rw [← count_places, hplaces, hvw, List.count_cons_self, List.count_cons_self]
      omega
    · exact .inl ⟨v, w, hvw, mem_places.mp (by simp [hplaces]), mem_places.mp (by simp [hplaces])⟩
  · rintro (⟨v, w, hvw, hv, hw⟩ | ⟨v, hv⟩)
    · have hnodup : [v, w].Nodup := by simp [hvw]
      refine (hnodup.subperm fun u hu => ?_).length_le
      rcases List.mem_pair.mp hu with rfl | rfl
      · exact mem_places.mpr hv
      · exact mem_places.mpr hw
    · rw [← count_places] at hv
      exact hv.trans List.count_le_length

theorem mem_listed {t : Table} {name : Text} : name ∈ t.listed ↔ t.places name ≠ [] := by
  rw [← map_filter_entries, Ne, List.map_eq_nil_iff, List.filter_eq_nil_iff, listed, List.mem_map]
  simp

/-- A complaint tells every name with more than one entry. -/
theorem tells_complaint? (t : Table) :
    t.Tells (fun name => t.Conflicting name ∨ t.Repeated name) t.places t.complaint? := by
  let told := t.listed.eraseDups.filter fun name => 2 ≤ (t.places name).length
  have hmem (name : Text) : name ∈ told ↔ t.Conflicting name ∨ t.Repeated name := by
    rw [List.mem_filter, List.mem_eraseDups, mem_listed, decide_eq_true_eq, two_le_length_places,
      and_iff_right_iff_imp, ← two_le_length_places]
    intro h hnil
    simp [hnil] at h
  have hconflicts : t.conflicts = Text.sort (told.map fun name => shown name (t.places name)) := by
    rw [conflicts, buckets, List.filter_map, List.map_map]
    simp only [map_filter_entries]
    rfl
  have hempty : t.conflicts.isEmpty = true ↔ told = [] := by
    rw [List.isEmpty_iff, hconflicts, Text.sort_eq_nil, List.map_eq_nil_iff]
  constructor
  · rw [complaint?]
    simp only [← hmem]
    split
    · next h => simp [hempty.mp h]
    · next h => simpa using List.exists_mem_of_ne_nil told (mt hempty.mpr h)
  · intro m hm
    rw [complaint?] at hm
    split at hm
    · cases hm
    · refine ⟨told, (nodup_eraseDups _).filter _, hmem, ?_⟩
      rw [message, ← hconflicts, Option.some.inj hm]

/-! ## The order of the entries -/

/-- What is told decides the complaint. -/
theorem Tells.unique {t t' : Table} {faulty : Text → Prop} {places : Text → List Verdict}
    {complaint complaint' : Option Text} (hfamily : t.family = t'.family)
    (h : t.Tells faulty places complaint) (h' : t'.Tells faulty places complaint') :
    complaint = complaint' := by
  have hsome : complaint.isSome = complaint'.isSome :=
    Bool.eq_iff_iff.mpr (h.isSome_iff.trans h'.isSome_iff.symm)
  cases complaint with
  | none => exact (Option.not_isSome_iff_eq_none.mp (by simp [← hsome])).symm
  | some m =>
    obtain ⟨m', rfl⟩ := Option.isSome_iff_exists.mp (hsome.symm.trans rfl)
    obtain ⟨names, hnodup, hmem, rfl⟩ := h.text m rfl
    obtain ⟨names', hnodup', hmem', rfl⟩ := h'.text m' rfl
    have hperm : List.Perm names names' :=
      (List.perm_ext_iff_of_nodup hnodup hnodup').mpr fun name =>
        (hmem name).trans (hmem' name).symm
    rw [message, message, hfamily, Text.sort_eq_of_perm (hperm.map _)]

theorem complaint?_of_perm {t t' : Table} (hfamily : t'.family = t.family)
    (h : ∀ v, List.Perm (t'.names v) (t.names v)) : t'.complaint? = t.complaint? := by
  have hcount (v : Verdict) (name : Text) : (t'.names v).count name = (t.names v).count name :=
    (h v).count_eq name
  have hplaces : t'.places = t.places := by
    funext name
    simp only [places, hcount]
  have hfaulty (name : Text) : t'.Conflicting name ∨ t'.Repeated name ↔
      t.Conflicting name ∨ t.Repeated name := by
    rw [← two_le_length_places, ← two_le_length_places, hplaces]
  have htells := t'.tells_complaint?
  simp only [hfaulty, hplaces] at htells
  exact htells.unique hfamily t.tells_complaint?

/-! ## Repeated names -/

theorem bucketsOf_sublist (t : Table) (name : Text) :
    List.Sublist (t.bucketsOf name) (t.places name) := by
  rw [bucketsOf, places]
  induction Verdict.buckets with
  | nil => exact List.Sublist.refl _
  | cons v vs ih =>
    rw [List.filter_cons, List.flatMap_cons]
    split
    · next hv =>
      have hcount : 1 ≤ (t.names v).count name :=
        List.count_pos_iff.mpr (List.contains_iff_mem.mp hv)
      have hv' : v ∈ List.replicate ((t.names v).count name) v := by
        rw [List.mem_replicate]
        exact ⟨by omega, rfl⟩
      exact (List.singleton_sublist.mpr hv').append ih
    · exact ih.trans (List.sublist_append_right _ _)

theorem mem_bucketsOf {t : Table} {name : Text} {v : Verdict} :
    v ∈ t.bucketsOf name ↔ name ∈ t.names v := by
  rw [bucketsOf, List.mem_filter, List.contains_iff_mem]
  cases v <;> simp [Verdict.buckets, names]

/-- The entries for a name are in different buckets unless one of them lists it twice. -/
theorem bucketsOf_eq_places {t : Table} {name : Text} :
    t.bucketsOf name = t.places name ↔ ¬ t.Repeated name := by
  have hnodup : (t.bucketsOf name).Nodup := List.Nodup.filter _ (by decide)
  constructor
  · rintro h ⟨v, hv⟩
    have hone := List.nodup_iff_count_le_one.mp hnodup v
    rw [h, count_places] at hone
    omega
  · intro h
    have hnodup' : (t.places name).Nodup := List.nodup_iff_count_le_one.mpr fun v => by
      rw [count_places]
      exact Nat.le_of_not_lt fun hv => h ⟨v, hv⟩
    refine ((t.bucketsOf_sublist name).eq_of_length ?_)
    refine ((List.perm_ext_iff_of_nodup hnodup hnodup').mpr fun v => ?_).length_eq
    rw [mem_bucketsOf, mem_places]

/-! ## The complaint that is due -/

/-- The length of what a complaint tells of a name. -/
def lengthOf (places : Text → List Verdict) (name : Text) : Nat := (shown name (places name)).length

theorem length_shown (name : Text) (places : List Verdict) : (shown name places).length =
    (Text.join ", " (places.map Verdict.label)).length + name.length + 5 := by
  have hopening : (Text.ofString "' (").length = 3 := rfl
  have hquote : (Text.ofString "'").length = 1 := rfl
  have hclosing : (Text.ofString ")").length = 1 := rfl
  simp only [shown, List.length_append, hopening, hquote, hclosing]
  omega

theorem length_shown_le (name : Text) {vs ws : List Verdict} (h : List.Sublist vs ws) :
    (shown name vs).length ≤ (shown name ws).length := by
  have hjoin := Text.length_join_le ", " (h.map Verdict.label)
  rw [length_shown, length_shown]
  omega

theorem length_shown_lt (name : Text) {vs ws : List Verdict} (h : List.Sublist vs ws)
    (hne : vs ≠ []) (hlt : vs ≠ ws) : (shown name vs).length < (shown name ws).length := by
  have hsep : (Text.ofString ", ") ≠ [] := List.cons_ne_nil _ _
  have hlength : vs.length < ws.length :=
    Nat.lt_of_le_of_ne h.length_le fun heq => hlt (h.eq_of_length heq)
  have hjoin := Text.length_join_lt hsep (h.map Verdict.label) (by simpa using hne)
    (by simpa using hlength)
  rw [length_shown, length_shown]
  omega

theorem length_message (t : Table) (names : List Text) (places : Text → List Verdict) :
    (t.message names places).length = (t.message [] places).length +
      (names.map (lengthOf places)).sum + (names.length - 1) * 2 := by
  let told := names.map fun name => shown name (places name)
  have hsum : ((Text.sort told).map List.length).sum = (names.map (lengthOf places)).sum := by
    have hperm : List.Perm (Text.sort told) told := List.mergeSort_perm told Text.le
    rw [(hperm.map _).sum_eq, List.map_map]
    rfl
  have hlength : (Text.sort told).length = names.length := by
    rw [Text.sort, List.length_mergeSort, List.length_map]
  have hsep : (Text.ofString "; ").length = 2 := rfl
  simp only [message, List.length_append, Text.length_join, hsep]
  rw [hlength, hsum]
  simp [Text.sort]
  omega

/-- A complaint that tells more names, or more places of a name, is longer. -/
theorem length_message_lt (t : Table) {names names' : List Text}
    {places places' : Text → List Verdict} (hne : names ≠ []) (hsub : List.Subperm names names')
    (hplaces : ∀ name ∈ names, List.Sublist (places name) (places' name))
    (hmore : names.length < names'.length ∨
      ∃ name ∈ names, places name ≠ [] ∧ places name ≠ places' name) :
    (t.message names places).length < (t.message names' places').length := by
  have hlengths : ∀ name ∈ names, lengthOf places name ≤ lengthOf places' name := fun name hname =>
    length_shown_le name (hplaces name hname)
  have hfewer : (names.map (lengthOf places')).sum ≤ (names'.map (lengthOf places')).sum := by
    obtain ⟨kept, hkept, hsublist⟩ := hsub
    rw [← (hkept.map _).sum_eq]
    exact (hsublist.map _).sum_le_sum fun _ _ => Nat.zero_le _
  have hlength := hsub.length_le
  have hpos := List.length_pos_iff.mpr hne
  have hempty : (t.message [] places).length = (t.message [] places').length := rfl
  rw [length_message, length_message t names', hempty]
  rcases hmore with hmore | ⟨name, hname, hsome, hdifferent⟩
  · have hsum := List.sum_le_sum hlengths
    omega
  · have hsum := List.sum_lt_sum _ _ hlengths
      ⟨name, hname, length_shown_lt name (hplaces name hname) hsome hdifferent⟩
    omega

/-- A repeated name makes a complaint longer than the one about the names in different buckets. -/
theorem length_message_lt_of_repeated {t : Table} {name : Text} (h : t.Repeated name)
    {due told : List Text} (hne : due ≠ []) (hnodup : due.Nodup)
    (hdue : ∀ other, other ∈ due ↔ t.Conflicting other)
    (htold : ∀ other, other ∈ told ↔ t.Conflicting other ∨ t.Repeated other) :
    (t.message due t.bucketsOf).length < (t.message told t.places).length := by
  have hsubset : due ⊆ told := fun other hother => (htold other).mpr (.inl ((hdue other).mp hother))
  refine t.length_message_lt hne (hnodup.subperm hsubset)
    (fun other _ => t.bucketsOf_sublist other) ?_
  by_cases hname : name ∈ due
  · -- its bucket is told twice
    obtain ⟨v, -, -, hv, -⟩ := (hdue name).mp hname
    exact .inr ⟨name, hname, List.ne_nil_of_mem (mem_bucketsOf.mpr hv),
      fun heq => bucketsOf_eq_places.mp heq h⟩
  · -- it is told besides
    have hcons : (name :: due) ⊆ told := List.cons_subset.mpr ⟨(htold name).mpr (.inr h), hsubset⟩
    exact .inl ((List.nodup_cons.mpr ⟨hname, hnodup⟩).subperm hcons).length_le

/-- The complaint is the one about the names in different buckets, each with its different buckets,
exactly if no bucket lists a name twice. -/
theorem tells_conflicting_iff (t : Table) :
    t.Tells t.Conflicting t.bucketsOf t.complaint? ↔ ∀ name, ¬ t.Repeated name := by
  have hcomplaint := t.tells_complaint?
  constructor
  · intro h name hrepeated
    have hsome := hcomplaint.isSome_iff.mpr ⟨name, .inr hrepeated⟩
    obtain ⟨other, hother⟩ := h.isSome_iff.mp hsome
    obtain ⟨m, hm⟩ := Option.isSome_iff_exists.mp hsome
    obtain ⟨told, -, htold, htext⟩ := hcomplaint.text m hm
    obtain ⟨due, hnodup, hdue, htext'⟩ := h.text m hm
    have hne : due ≠ [] := List.ne_nil_of_mem ((hdue other).mpr hother)
    have hlonger := length_message_lt_of_repeated hrepeated hne hnodup hdue htold
    rw [← htext, ← htext'] at hlonger
    exact Nat.lt_irrefl _ hlonger
  · intro h
    have hplaces : t.bucketsOf = t.places := funext fun name => bucketsOf_eq_places.mpr (h name)
    simpa only [h, or_false, ← hplaces] using hcomplaint

theorem Keyed.repeated_iff {t : Table} (h : t.Keyed) :
    (∀ name, ¬ t.Repeated name) ↔ t.ignore.Nodup ∧ t.allow.Nodup := by
  have honce (v : Verdict) : (t.names v).Nodup ↔ ∀ name, ¬ 2 ≤ (t.names v).count name := by
    simp only [List.nodup_iff_count_le_one, not_le, Nat.lt_succ_iff]
  have hall : (∀ name, ¬ t.Repeated name) ↔ ∀ v, (t.names v).Nodup := by
    simp only [honce, Repeated, not_exists]
    exact forall_comm
  rw [hall]
  refine ⟨fun h => ⟨h .ignore, h .allow⟩, fun ⟨hignore, hallow⟩ v => ?_⟩
  cases v with
  | ignore => exact hignore
  | allow => exact hallow
  | retire => exact h .retire (by simp)
  | warn => exact h .warn (by simp)
  | forbid => exact h .forbid (by simp)
  | unclassified | gray => exact List.nodup_nil

/-- What the complaint about a table tells.  These are the names in different buckets and no others,
each once with its different buckets, exactly if neither list has a name twice.  In every case they
are the names with more than one entry, each with the bucket of every entry, and the order of the
entries does not matter. -/
theorem complaint_tells_conflicts {t : Table} (h : t.Keyed) :
    (t.Tells t.Conflicting t.bucketsOf t.complaint? ↔ t.ignore.Nodup ∧ t.allow.Nodup) ∧
      t.Tells (fun name => t.Conflicting name ∨ t.Repeated name) t.places t.complaint? ∧
      ∀ t' : Table, t'.family = t.family → (∀ v, List.Perm (t'.names v) (t.names v)) →
        t'.complaint? = t.complaint? :=
  ⟨t.tells_conflicting_iff.trans h.repeated_iff, t.tells_complaint?,
    fun _ hfamily hnames => complaint?_of_perm hfamily hnames⟩

/-- Two names are in different buckets, and a third one has a hint only. -/
theorem complaint_tells_conflicts_two :
    let t : Table := ⟨"Twig filter", [], ["escape", "map"], [],
      [("escape", []), ("map", []), ("e", [])], [], false⟩
    t.Keyed ∧ t.Tells t.Conflicting t.bucketsOf t.complaint? ∧
      t.complaint? = some (Text.ofString <|
        "Twig filter: names in more than one bucket: " ++
        "'escape' (allow, warn); 'map' (allow, warn)") := by
  intro t
  have hkeyed : t.Keyed := by decide
  exact ⟨hkeyed, (complaint_tells_conflicts hkeyed).1.mpr (by decide), by cbv⟩

/-- A list has a name twice, and no other bucket has it. -/
theorem complaint_tells_conflicts_repeated :
    let t : Table := ⟨"Twig filter", [], ["map", "map"], [], [], [], false⟩
    t.Keyed ∧ (¬ ∃ name, t.Conflicting name) ∧
      t.complaint? = some
        (Text.ofString "Twig filter: names in more than one bucket: 'map' (allow, allow)") := by
  intro t
  refine ⟨by decide, ?_, by cbv⟩
  rintro ⟨name, v, w, hvw, hv, hw⟩
  cases v <;> cases w <;> simp_all [names, t]

end Table

end TwigLint.Policy
