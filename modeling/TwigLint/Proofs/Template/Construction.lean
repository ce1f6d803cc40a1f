import TwigLint.Proofs.Template.Tree
import TwigLint.Proofs.Text.Decimal
import Mathlib.Data.List.Nodup

/-! # Construction of nodes

Nodes are built part by part from the names of slots, or as lists.  However this is done, a slot
that is filled again keeps its place, absent children leave no gap, and so no name occurs twice: a
child is found under the name of its slot.
-/

namespace TwigLint

/-! ## Names of slots -/

namespace Slot

/-- The slot is the one that its name stands for. -/
def Proper (slot : Slot) : Prop := ofLabel slot.label = slot

theorem label_ofLabel (s : String) : (ofLabel s).label = s := by
  unfold ofLabel
  split
  · rename_i slot _ hfound
    simpa using List.find?_some hfound
  · rename_i n _ _
    split
    · rename_i hnumber
      exact eq_of_beq hnumber
    · rfl
  · rfl

theorem proper_ofLabel (s : String) : (ofLabel s).Proper := by
  rw [Proper, label_ofLabel]

/-- No slot that has a constructor of its own is called by a number. -/
theorem proper_item (n : Nat) : (item n).Proper := by
  have hwords : ∀ slot ∈ named, (slot.label : Text).toNat? = none := by decide
  have hnumber : ((toString n : String) : Text).toNat? = some n := Text.toNat?_ofNat n
  have hnone : named.find? (·.label == toString n) = none := by
    apply List.find?_eq_none.mpr
    intro slot hslot hsame
    have hword := hwords slot hslot
    rw [eq_of_beq hsame, hnumber] at hword
    cases hword
  change ofLabel (toString n) = item n
  rw [ofLabel, hnone, hnumber]
  simp

theorem Proper.eq_of_label {slot slot' : Slot} (h : slot.Proper) (h' : slot'.Proper)
    (heq : slot.label = slot'.label) : slot = slot' := by
  rw [← h, heq, h']

end Slot

namespace Node

/-- The names of the slots in their order. -/
def names (n : Node) : List String := n.slots.map Slot.label

/-- The child in the slot with the given name. -/
def named? (n : Node) (name : String) : Option Node := n.child? (.ofLabel name)

/-! ## Building -/

/-- What a node is built from: a child, which may be absent, or an attribute, each with the name
under which it is kept. -/
inductive Part where
  | child (name : String) (child : Option Node)
  | attr (name : String) (value : Value)

/-- The node with one more part. -/
def add (n : Node) : Part → Node
  | .child name child => n.withChild (.ofLabel name) child
  | .attr name value => n.withAttr (.ofLabel name) value

/-- The node with the given parts. -/
def build (kind : Kind) (location : Location) (parts : List Part) : Node :=
  parts.foldl add (leaf kind location)

/-- The tree is built from parts and lists. -/
inductive Constructed : Node → Prop
  | build {kind : Kind} {location : Location} {parts : List Part}
      (children : ∀ name child, .child name (some child) ∈ parts → Constructed child) :
      Constructed (build kind location parts)
  | list {kind : Kind} {location : Location} {entries : List (Option Node)}
      (children : ∀ child, some child ∈ entries → Constructed child) :
      Constructed (list kind location entries)

/-! ## Slots of a node -/

/-- No slot occurs twice, and every slot is the one that its name stands for. -/
structure Orderly (n : Node) : Prop where
  nodup : n.slots.Nodup
  proper : ∀ slot ∈ n.slots, slot.Proper

theorem map_fst_setEntry {α β : Type} [DecidableEq α] (a : α) (b : β) (entries : List (α × β)) :
    (setEntry a b entries).map Prod.fst =
      if a ∈ entries.map Prod.fst then entries.map Prod.fst else entries.map Prod.fst ++ [a] := by
  fun_induction setEntry a b entries <;> grind

theorem Orderly.withChild {n : Node} (h : n.Orderly) {slot : Slot} (hslot : slot.Proper)
    (child : Option Node) : (n.withChild slot child).Orderly := by
  cases child with
  | none => exact h
  | some child =>
    have hslots : (n.withChild slot (some child)).slots =
        if slot ∈ n.slots then n.slots else n.slots ++ [slot] :=
      map_fst_setEntry slot child n.children
    by_cases hmem : slot ∈ n.slots
    · rw [if_pos hmem] at hslots
      exact ⟨hslots ▸ h.nodup, hslots ▸ h.proper⟩
    · rw [if_neg hmem] at hslots
      constructor
      · rw [hslots]
        simpa using h.nodup.concat hmem
      · rw [hslots]
        simpa [or_imp, forall_and, hslot] using h.proper

theorem Orderly.add {n : Node} (h : n.Orderly) (part : Part) : (n.add part).Orderly := by
  cases part with
  | child name child => exact h.withChild (Slot.proper_ofLabel name) child
  | attr name value => exact ⟨h.nodup, h.proper⟩

theorem orderly_build (kind : Kind) (location : Location) (parts : List Part) :
    (build kind location parts).Orderly := by
  have hfold (n : Node) (h : n.Orderly) : (parts.foldl Node.add n).Orderly := by
    induction parts generalizing n with
    | nil => exact h
    | cons part parts ih => exact ih (n.add part) (h.add part)
  exact hfold (leaf kind location) ⟨List.nodup_nil, by simp [leaf, slots]⟩

theorem slot_of_mem_items {index : Nat} {entries : List (Option Node)} {slot : Slot}
    (h : slot ∈ (items index entries).map Prod.fst) : ∃ i, index ≤ i ∧ slot = .item i := by
  fun_induction items index entries with
  | case1 => simp at h
  | case2 index rest ih => exact ih h
  | case3 index child rest ih =>
    rcases List.mem_cons.mp h with rfl | h
    · exact ⟨index, Nat.le_refl _, rfl⟩
    · obtain ⟨i, hi, hslot⟩ := ih h
      exact ⟨i, by omega, hslot⟩

theorem orderly_list (kind : Kind) (location : Location) (entries : List (Option Node)) :
    (list kind location entries).Orderly := by
  have hnodup (index : Nat) : ((items index entries).map Prod.fst).Nodup := by
    fun_induction items index entries with
    | case1 => exact List.nodup_nil
    | case2 index rest ih => exact ih
    | case3 index child rest ih =>
      apply List.nodup_cons.mpr
      constructor
      · intro hmem
        obtain ⟨i, hi, hslot⟩ := slot_of_mem_items hmem
        simp only [Slot.item.injEq] at hslot
        omega
      · exact ih
  constructor
  · exact hnodup 0
  · intro slot hslot
    obtain ⟨i, -, rfl⟩ := slot_of_mem_items hslot
    exact Slot.proper_item i

theorem mem_children_build {kind : Kind} {location : Location} {parts : List Part}
    {entry : Slot × Node} (h : entry ∈ (build kind location parts).children) :
    ∃ name, .child name (some entry.2) ∈ parts := by
  have hfold (parts : List Part) (n : Node) (h : entry ∈ (parts.foldl add n).children) :
      (∃ name, .child name (some entry.2) ∈ parts) ∨ entry ∈ n.children := by
    induction parts generalizing n with
    | nil => exact .inr h
    | cons part parts ih =>
      rcases ih (n.add part) h with ⟨name, hname⟩ | h
      · exact .inl ⟨name, List.mem_cons_of_mem _ hname⟩
      · cases part with
        | attr name value => exact .inr h
        | child name child =>
          rcases mem_children_withChild h with ⟨-, hchild⟩ | h
          · rw [Option.mem_def.mp hchild]
            exact .inl ⟨name, List.mem_cons_self ..⟩
          · exact .inr h
  rcases hfold parts (leaf kind location) h with h | h
  · exact h
  · simp [leaf] at h

/-- Every node of a constructed tree is orderly. -/
theorem Constructed.orderly {root : Node} (h : Constructed root) : ∀ n ∈ root.nodes, n.Orderly := by
  induction h with
  | @build kind location parts children ih =>
    intro n hn
    rcases mem_nodes.mp hn with rfl | ⟨entry, hentry, hn⟩
    · exact orderly_build kind location parts
    · obtain ⟨name, hname⟩ := mem_children_build hentry
      exact ih name entry.2 hname n hn
  | @list kind location entries children ih =>
    intro n hn
    rcases mem_nodes.mp hn with rfl | ⟨entry, hentry, hn⟩
    · exact orderly_list kind location entries
    · exact ih entry.2 (mem_items hentry) n hn

/-! ## Children by name -/

theorem lookup_of_nodup {α β : Type} [DecidableEq α] {entries : List (α × β)}
    (h : (entries.map Prod.fst).Nodup) {entry : α × β} (hentry : entry ∈ entries) :
    entries.lookup entry.1 = some entry.2 := by
  induction entries with
  | nil => simp at hentry
  | cons first rest ih =>
    obtain ⟨hfirst, hrest⟩ := List.nodup_cons.mp h
    rcases List.mem_cons.mp hentry with rfl | hentry
    · exact List.lookup_cons_self
    · have hne : entry.1 ≠ first.1 := fun heq =>
        hfirst (heq ▸ List.mem_map_of_mem hentry)
      rw [List.lookup_cons, beq_false_of_ne hne]
      exact ih hrest hentry

namespace Orderly

variable {n : Node} (h : n.Orderly)

include h

theorem child?_eq {entry : Slot × Node} (hentry : entry ∈ n.children) :
    n.child? entry.1 = some entry.2 := lookup_of_nodup h.nodup hentry

theorem named?_eq {entry : Slot × Node} (hentry : entry ∈ n.children) :
    n.named? entry.1.label = some entry.2 := by
  have hproper := h.proper entry.1 (List.mem_map_of_mem hentry)
  rw [named?, hproper, h.child?_eq hentry]

theorem nodup_names : n.names.Nodup := by
  apply h.nodup.map_on
  intro slot hslot slot' hslot' heq
  exact (h.proper slot hslot).eq_of_label (h.proper slot' hslot') heq

/-- The children are those found under the names of the slots, in their order. -/
theorem map_named? : n.names.map n.named? = n.children.map fun entry => some entry.2 := by
  simp only [names, slots, List.map_map]
  exact List.map_congr_left fun entry hentry => h.named?_eq hentry

end Orderly

end Node

end TwigLint
