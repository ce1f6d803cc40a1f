import Mathlib
import TwigLint.Proofs.Engine.Arrange

/-! # Sorted findings

Findings are sorted by their groups, in the order in which these first appear, and then by lines.  A
sorted list is determined by what it has in each place of this order, and there sorting changes
nothing.  So sorting again changes nothing, and it does not matter whether duplicates are dropped
before or behind.
-/

namespace TwigLint.Diagnostic

/-! ## Sorted lists -/

section Ties

variable {α : Type} {le : α → α → Bool}

/-- Neither of two entries is in front of the other. -/
def tied (le : α → α → Bool) (a b : α) : Bool := le a b && le b a

theorem mem_of_filter_tied (total : ∀ a b, (le a b || le b a) = true) {l m : List α} {a : α}
    (h : l.filter (tied le a) = m.filter (tied le a)) (ha : a ∈ l) : a ∈ m := by
  have hself : tied le a a = true := by simpa [tied] using total a a
  exact (List.mem_filter.mp (h ▸ List.mem_filter.mpr ⟨ha, hself⟩)).1

/-- The first entry of a sorted list is in front of the first entry of another one with the same
tied entries. -/
theorem le_of_filter_tied (total : ∀ a b, (le a b || le b a) = true) {l m : List α} {a b : α}
    (h : (a :: l).filter (tied le a) = (b :: m).filter (tied le a))
    (hm : ∀ c ∈ m, le b c = true) : le b a = true := by
  rcases List.mem_cons.mp (mem_of_filter_tied total h (List.mem_cons_self ..)) with rfl | ham
  · simpa using total a a
  · exact hm a ham

/-- A sorted list is determined by its tied entries. -/
theorem eq_of_filter_tied (total : ∀ a b, (le a b || le b a) = true) {l m : List α}
    (hl : l.Pairwise fun a b => le a b = true) (hm : m.Pairwise fun a b => le a b = true)
    (h : ∀ a, l.filter (tied le a) = m.filter (tied le a)) : l = m := by
  induction l generalizing m with
  | nil =>
    cases m with
    | nil => rfl
    | cons b m =>
      exact absurd (mem_of_filter_tied total (h b).symm (List.mem_cons_self ..)) (by simp)
  | cons a l ih =>
    cases m with
    | nil => exact absurd (mem_of_filter_tied total (h a) (List.mem_cons_self ..)) (by simp)
    | cons b m =>
      obtain ⟨hal, hltail⟩ := List.pairwise_cons.mp hl
      obtain ⟨hbm, hmtail⟩ := List.pairwise_cons.mp hm
      have hself : le a a = true := by simpa using total a a
      -- both lists start with a least entry
      have hba : le b a = true := le_of_filter_tied total (h a) hbm
      have hab : le a b = true := le_of_filter_tied total (h b).symm hal
      have hhead := h a
      rw [List.filter_cons_of_pos (by simp [tied, hself]),
        List.filter_cons_of_pos (by simp [tied, hab, hba])] at hhead
      obtain rfl := (List.cons.inj hhead).1
      refine congrArg (a :: ·) (ih hltail hmtail fun c => ?_)
      have hc := h c
      by_cases hca : tied le c a = true
      · rw [List.filter_cons_of_pos hca, List.filter_cons_of_pos hca] at hc
        exact (List.cons.inj hc).2
      · rwa [List.filter_cons_of_neg hca, List.filter_cons_of_neg hca] at hc

end Ties

/-! ## Groups and duplicates -/

/-- The component and the origin of a finding. -/
def home (d : Diagnostic) : Text × Origin := (d.id, d.origin)

/-- All of a finding but its rule and its excerpt. -/
def content (d : Diagnostic) : Text × Origin × Int × Int × Severity × Text :=
  (d.id, d.origin, d.line, d.column, d.severity, d.message)

/-- The place in a list where a finding with the component and the origin of the given one first
appears. -/
def appearance (ds : List Diagnostic) (d : Diagnostic) : Nat := (ds.map home).idxOf d.home

/-- The findings are about templates and definitions, and no difference of two lines overflows. -/
structure Plain (ds : List Diagnostic) : Prop where
  origin : ∀ d ∈ ds, d.origin = .template ∨ d.origin = .schema
  line : ∀ d ∈ ds, -0x4000000000000000 < d.line ∧ d.line < 0x4000000000000000

theorem Plain.subset {ds es : List Diagnostic} (h : Plain es) (hsubset : ds ⊆ es) : Plain ds :=
  ⟨fun d hd => h.origin d (hsubset hd), fun d hd => h.line d (hsubset hd)⟩

theorem name_inj {o p : Origin} (ho : o = .template ∨ o = .schema)
    (hp : p = .template ∨ p = .schema) : o.name = p.name ↔ o = p := by
  rcases ho with rfl | rfl <;> rcases hp with rfl | rfl <;> decide

theorem group_eq_iff {d e : Diagnostic} (hd : d.origin = .template ∨ d.origin = .schema)
    (he : e.origin = .template ∨ e.origin = .schema) : d.group = e.group ↔ d.home = e.home := by
  rw [home, home, Prod.mk.injEq]
  constructor
  · intro h
    have hlast : (d.group).getLast? = (e.group).getLast? := congrArg _ h
    have horigin : d.origin = e.origin := by
      -- the last letter of a group tells the two origins apart
      have htemplate : ((0 :: Origin.template.name : Text)).getLast? = some 0x65 := by decide
      have hschema : ((0 :: Origin.schema.name : Text)).getLast? = some 0x61 := by decide
      simp only [group, List.getLast?_append] at hlast
      rcases hd with hd | hd <;> rcases he with he | he <;>
        simp [hd, he, htemplate, hschema] at hlast ⊢
    rw [group, group, horigin] at h
    exact ⟨List.append_cancel_right h, horigin⟩
  · rintro ⟨hid, horigin⟩
    rw [group, group, hid, horigin]

theorem key_eq_iff {d e : Diagnostic} (hd : d.origin = .template ∨ d.origin = .schema)
    (he : e.origin = .template ∨ e.origin = .schema) : d.key = e.key ↔ d.content = e.content := by
  simp only [key, content, Prod.mk.injEq, name_inj hd he]
  tauto

theorem Plain.dedup_eq {ds : List Diagnostic} (h : Plain ds) :
    dedup ds = firsts (fun a b => a.content == b.content) ds := by
  rw [dedup_eq_firsts]
  refine firsts_congr fun a ha b hb => ?_
  rw [Bool.eq_iff_iff, beq_iff_eq, beq_iff_eq]
  exact key_eq_iff (h.origin a ha) (h.origin b hb)

/-- Duplicates are in one group. -/
theorem group_of_key {d e : Diagnostic} (h : d.key = e.key) : d.group = e.group := by
  simp only [key, Prod.mk.injEq] at h
  rw [group, group, h.2.2.2.1, h.2.2.2.2.1]

/-- No group disappears with the duplicates, and none moves. -/
theorem groups_dedup (ds : List Diagnostic) : groups (dedup ds) = groups ds := by
  induction ds using List.reverseRecOn with
  | nil => rfl
  | append_singleton ds d ih =>
    have hmem (g : Text) : g ∈ (dedup ds).map group ↔ g ∈ ds.map group := by
      have hgroups : g ∈ groups (dedup ds) ↔ g ∈ groups ds := by rw [ih]
      rwa [groups, groups, List.mem_eraseDups, List.mem_eraseDups] at hgroups
    rw [dedup_append, dedup_cons, dedup_nil, List.filter_nil]
    by_cases hkey : d.key ∈ ds.map key
    · obtain ⟨e, he, hed⟩ := List.mem_map.mp hkey
      have hgroup : d.group ∈ ds.map group := List.mem_map.mpr ⟨e, he, group_of_key hed⟩
      rw [List.filter_cons_of_neg (by simpa using hkey), List.filter_nil, List.append_nil, ih,
        groups, groups, List.map_append, List.map_singleton, eraseDups_concat,
        if_pos (List.contains_iff_mem.mpr hgroup), List.append_nil]
    · have hcontains : ((dedup ds).map group).contains d.group =
          (ds.map group).contains d.group := by
        rw [Bool.eq_iff_iff, List.contains_iff_mem, List.contains_iff_mem, hmem]
      rw [List.filter_cons_of_pos (by simpa using hkey), List.filter_nil, groups, groups,
        List.map_append, List.map_append, List.map_singleton, eraseDups_concat, eraseDups_concat,
        hcontains]
      exact congrArg (· ++ _) ih

/-! ## The order by ranks -/

/-- The order by groups, as they are listed, and then by lines. -/
def byRank (order : List Text) (a b : Diagnostic) : Bool :=
  order.idxOf a.group < order.idxOf b.group ||
    (order.idxOf a.group == order.idxOf b.group && a.line ≤ b.line)

theorem byRank_iff {order : List Text} {a b : Diagnostic} :
    byRank order a b = true ↔ order.idxOf a.group < order.idxOf b.group ∨
      order.idxOf a.group = order.idxOf b.group ∧ a.line ≤ b.line := by
  simp [byRank]

theorem byRank_trans (order : List Text) (a b c : Diagnostic) (hab : byRank order a b = true)
    (hbc : byRank order b c = true) : byRank order a c = true := by
  rw [byRank_iff] at *
  omega

theorem byRank_total (order : List Text) (a b : Diagnostic) :
    (byRank order a b || byRank order b a) = true := by
  rw [Bool.or_eq_true, byRank_iff, byRank_iff]
  omega

theorem Plain.sort_eq {ds : List Diagnostic} (h : Plain ds) :
    sort ds = ds.mergeSort (byRank (groups ds)) := by
  refine sort_eq_of_before fun a ha b hb => ?_
  have hla := h.line a ha
  have hlb := h.line b hb
  have hwrap : wrap64 (a.line - b.line) = a.line - b.line :=
    wrap64_of_small (by omega) (by omega)
  have hline : (a.line - b.line ≤ 0) = (a.line ≤ b.line) := by
    rw [eq_iff_iff]
    omega
  simp only [before, byRank, hwrap, hline]

theorem Plain.plain_sort {ds : List Diagnostic} (h : Plain ds) : Plain (sort ds) :=
  h.subset fun _ hd => List.mem_mergeSort.mp hd

theorem Plain.plain_dedup {ds : List Diagnostic} (h : Plain ds) : Plain (dedup ds) :=
  h.subset (dedup_sublist ds).subset

theorem Plain.pairwise_sort {ds : List Diagnostic} (h : Plain ds) :
    (sort ds).Pairwise fun a b => byRank (groups ds) a b = true := by
  rw [h.sort_eq]
  exact List.pairwise_mergeSort (byRank_trans _) (byRank_total _) ds

/-- No group moves when the list is sorted. -/
theorem Plain.groups_sort {ds : List Diagnostic} (h : Plain ds) :
    groups (sort ds) = groups ds := by
  let earlier (a b : Text) : Prop := (groups ds).idxOf a < (groups ds).idxOf b
  have : Std.Antisymm earlier := ⟨fun a b hab hba => absurd hab (Nat.lt_asymm hba)⟩
  have : Std.Irrefl earlier := ⟨fun a => Nat.lt_irrefl _⟩
  have hmem (g : Text) : g ∈ groups (sort ds) ↔ g ∈ groups ds := by
    simp [groups, sort]
  have hranks : ((sort ds).map group).Pairwise fun a b =>
      (groups ds).idxOf a ≤ (groups ds).idxOf b := by
    refine List.pairwise_map.mpr (h.pairwise_sort.imp fun hab => ?_)
    rw [byRank_iff] at hab
    omega
  have hsublist : List.Sublist (groups (sort ds)) ((sort ds).map group) := by
    rw [groups, eraseDups_eq_firsts]
    exact firsts_sublist _ _
  have hsorted : (groups (sort ds)).Pairwise earlier := by
    refine ((hranks.sublist hsublist).and (nodup_eraseDups _)).imp_of_mem
      fun {a b} ha _ hab => Nat.lt_of_le_of_ne hab.1 fun hidx => hab.2 ?_
    exact (List.idxOf_inj ((hmem a).mp ha)).mp hidx
  exact hsorted.eq_of_mem_iff (pairwise_idxOf (nodup_eraseDups _)) fun {g} => hmem g

/-- Findings that are in one place of the order keep theirs. -/
theorem Plain.filter_sort {ds : List Diagnostic} (h : Plain ds) {p : Diagnostic → Bool}
    (hp : ∀ a ∈ ds, ∀ b ∈ ds, p a = true → p b = true → byRank (groups ds) a b = true) :
    (sort ds).filter p = ds.filter p := by
  rw [h.sort_eq]
  exact filter_mergeSort_of_tied (byRank_trans _) (byRank_total _) hp

theorem Plain.sort_sort {ds : List Diagnostic} (h : Plain ds) : sort (sort ds) = sort ds := by
  rw [h.plain_sort.sort_eq, h.groups_sort]
  exact List.mergeSort_of_pairwise h.pairwise_sort

/-- Duplicates can be dropped before sorting or behind. -/
theorem Plain.sort_dedup {ds : List Diagnostic} (h : Plain ds) :
    sort (dedup ds) = dedup (sort ds) := by
  have hsorted := h.plain_dedup.pairwise_sort
  rw [groups_dedup] at hsorted
  refine eq_of_filter_tied (byRank_total (groups ds)) hsorted
    (h.pairwise_sort.sublist (dedup_sublist _)) fun a => ?_
  have htied {b c : Diagnostic} (hb : tied (byRank (groups ds)) a b = true)
      (hc : tied (byRank (groups ds)) a c = true) : byRank (groups ds) b c = true := by
    rw [tied, Bool.and_eq_true] at hb hc
    exact byRank_trans _ _ _ _ hb.2 hc.1
  have hkeys {b c : Diagnostic} (hbc : b.key = c.key) :
      tied (byRank (groups ds)) a b = tied (byRank (groups ds)) a c := by
    have hline : b.line = c.line := congrArg Prod.fst hbc
    simp only [tied, byRank, group_of_key hbc, hline]
  calc (sort (dedup ds)).filter (tied (byRank (groups ds)) a)
    _ = (dedup ds).filter (tied (byRank (groups ds)) a) :=
      h.plain_dedup.filter_sort fun b _ c _ hb hc => by
        rw [groups_dedup]
        exact htied hb hc
    _ = dedup (ds.filter (tied (byRank (groups ds)) a)) :=
      (dedup_filter fun b _ c _ hbc => hkeys hbc).symm
    _ = dedup ((sort ds).filter (tied (byRank (groups ds)) a)) := by
      rw [h.filter_sort fun b _ c _ hb hc => htied hb hc]
    _ = (dedup (sort ds)).filter (tied (byRank (groups ds)) a) :=
      dedup_filter fun b _ c _ hbc => hkeys hbc

/-- A finding's group first appears where its component and its origin do. -/
theorem Plain.idxOf_group {ds : List Diagnostic} (h : Plain ds) {d : Diagnostic}
    (hd : d.origin = .template ∨ d.origin = .schema) :
    (ds.map group).idxOf d.group = appearance ds d := by
  induction ds with
  | nil => rfl
  | cons e ds ih =>
    have hiff : (e.group == d.group) = (e.home == d.home) := by
      rw [Bool.eq_iff_iff, beq_iff_eq, beq_iff_eq]
      exact group_eq_iff (h.origin e (List.mem_cons_self ..)) hd
    have ih := ih (h.subset (List.subset_cons_self e ds))
    rw [appearance] at ih ⊢
    rw [List.map_cons, List.map_cons, List.idxOf_cons, List.idxOf_cons, hiff, ih]

theorem Plain.rank_lt_iff {ds : List Diagnostic} (h : Plain ds) {a b : Diagnostic} (ha : a ∈ ds)
    (hb : b ∈ ds) : (groups ds).idxOf a.group < (groups ds).idxOf b.group ↔
      appearance ds a < appearance ds b := by
  rw [groups, idxOf_eraseDups_lt_iff (List.mem_map_of_mem ha) (List.mem_map_of_mem hb),
    h.idxOf_group (h.origin a ha), h.idxOf_group (h.origin b hb)]

theorem Plain.byRank_iff_appearance {ds : List Diagnostic} (h : Plain ds) {a b : Diagnostic}
    (ha : a ∈ ds) (hb : b ∈ ds) : byRank (groups ds) a b = true ↔
      appearance ds a < appearance ds b ∨
        appearance ds a = appearance ds b ∧ a.line ≤ b.line := by
  have hab := h.rank_lt_iff ha hb
  have hba := h.rank_lt_iff hb ha
  rw [byRank_iff]
  omega

/-- Sorting rearranges a list by the first appearances of its groups and then by lines, and what is
in one group and on one line keeps its order.  Of duplicates the first one is kept.  Doing either
again changes nothing, and they can be done in any order. -/
theorem sort_dedup_laws {ds : List Diagnostic} (h : Plain ds) :
    (sort ds).Perm ds ∧
    ((sort ds).Pairwise fun a b => appearance ds a < appearance ds b ∨
      appearance ds a = appearance ds b ∧ a.line ≤ b.line) ∧
    (∀ (id : Text) (origin : Origin) (line : Int),
      (sort ds).filter (fun d => d.home == (id, origin) && d.line == line) =
        ds.filter fun d => d.home == (id, origin) && d.line == line) ∧
    dedup ds = firsts (fun a b => a.content == b.content) ds ∧
    sort (sort ds) = sort ds ∧ dedup (dedup ds) = dedup ds ∧
    sort (dedup ds) = dedup (sort ds) := by
  have hmem {d : Diagnostic} (hd : d ∈ sort ds) : d ∈ ds := List.mem_mergeSort.mp hd
  refine ⟨List.mergeSort_perm .., ?_,
    fun id origin line => h.filter_sort fun a ha b hb hpa hpb => ?_,
    h.dedup_eq, h.sort_sort, dedup_dedup ds, h.sort_dedup⟩
  · exact h.pairwise_sort.imp_of_mem fun ha hb hab =>
      (h.byRank_iff_appearance (hmem ha) (hmem hb)).mp hab
  · rw [Bool.and_eq_true, beq_iff_eq, beq_iff_eq] at hpa hpb
    have happears : appearance ds a = appearance ds b := by
      rw [appearance, appearance, hpa.1, hpb.1]
    exact (h.byRank_iff_appearance ha hb).mpr (.inr ⟨happears, by omega⟩)

/-- Two components, whose findings take turns, and a finding that is repeated under another rule. -/
def interleaved : List Diagnostic :=
  let a : Diagnostic := ⟨"a", 7, 2, .error, "m", .template, "r", "x"⟩
  let b : Diagnostic := ⟨"b", -1, 0, .warning, "m", .schema, "r", []⟩
  [a, b, { a with line := 3 }, { a with rule := "s" }, { b with origin := .template }]

theorem sort_dedup_laws_interleaved :
    Plain interleaved ∧ sort (dedup interleaved) = dedup (sort interleaved) ∧
      (sort interleaved).map (fun d => (d.id, d.line, d.rule)) =
        ([("a", 3, "r"), ("a", 7, "r"), ("a", 7, "s"), ("b", -1, "r"), ("b", -1, "r")] :
          List (Text × Int × Text)) := by
  have hplain : Plain interleaved := ⟨by decide, by decide⟩
  have hlaws := sort_dedup_laws hplain
  exact ⟨hplain, hlaws.2.2.2.2.2.2, by cbv⟩

end TwigLint.Diagnostic
