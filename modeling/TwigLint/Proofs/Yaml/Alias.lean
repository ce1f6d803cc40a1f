import TwigLint.Yaml.Dynamic

/-! # Nodes without aliases

An alias that does not stand inside its own collection can be replaced by the node it stands for.
Whoever follows aliases reads the same then, as long as the mappings in the node do not depend on
how their keys are written: which keys merge other mappings, and which of them are repeated.
-/

namespace TwigLint.Yaml.Node

variable {n k v : Node}

/-- What holds of a node follows from what holds of its parts and of what it stands for. -/
theorem induction {P : Node → Prop} (scalar : ∀ line tag t, P (.scalar line tag t))
    (sequence : ∀ line tag ns, (∀ n ∈ ns, P n) → P (.sequence line tag ns))
    (mapping : ∀ line tag es, (∀ e ∈ es, P e.1 ∧ P e.2) → P (.mapping line tag es))
    (aliasOf : ∀ index line anchor target, P target → P (.aliasOf index line anchor target))
    (loop : ∀ index line anchor target, P (.loop index line anchor target)) (n : Node) : P n :=
  Node.rec (motive_1 := P) (motive_2 := fun ns => ∀ n ∈ ns, P n)
    (motive_3 := fun es => ∀ e ∈ es, P e.1 ∧ P e.2) (motive_4 := fun e => P e.1 ∧ P e.2)
    scalar sequence mapping aliasOf loop
    (by simp) (fun _ _ hn hns => List.forall_mem_cons.mpr ⟨hn, hns⟩)
    (by simp) (fun _ _ he hes => List.forall_mem_cons.mpr ⟨he, hes⟩) (fun _ _ hk hv => ⟨hk, hv⟩) n

/-! ## Replacing aliases -/

mutual

/-- The node with what they stand for in place of the aliases; only an alias that stands inside its
own collection is left. -/
def unalias : Node → Node
  | .scalar line tag t => .scalar line tag t
  | .sequence line tag ns => .sequence line tag (unaliasItems ns)
  | .mapping line tag es => .mapping line tag (unaliasEntries es)
  | .aliasOf _ _ _ target => unalias target
  | .loop index line anchor target => .loop index line anchor target

def unaliasItems : List Node → List Node
  | [] => []
  | n :: rest => unalias n :: unaliasItems rest

def unaliasEntries : List (Node × Node) → List (Node × Node)
  | [] => []
  | (k, v) :: rest => (unalias k, unalias v) :: unaliasEntries rest

end

theorem unaliasItems_eq (ns : List Node) : unaliasItems ns = ns.map unalias := by
  induction ns with
  | nil => rfl
  | cons n ns ih => rw [unaliasItems, ih, List.map_cons]

theorem unaliasEntries_eq (es : List (Node × Node)) :
    unaliasEntries es = es.map (Prod.map unalias unalias) := by
  induction es with
  | nil => rfl
  | cons e es ih => rw [unaliasEntries, ih, List.map_cons, Prod.map]

@[simp] theorem unalias_scalar (line : Nat) (tag : Tag) (t : Text) :
    (scalar line tag t).unalias = scalar line tag t := rfl

@[simp] theorem unalias_sequence (line : Nat) (tag : Tag) (ns : List Node) :
    (sequence line tag ns).unalias = sequence line tag (ns.map unalias) := by
  rw [unalias, unaliasItems_eq]

@[simp] theorem unalias_mapping (line : Nat) (tag : Tag) (es : List (Node × Node)) :
    (mapping line tag es).unalias = mapping line tag (es.map (Prod.map unalias unalias)) := by
  rw [unalias, unaliasEntries_eq]

@[simp] theorem unalias_aliasOf (index line : Nat) (anchor : Text) (target : Node) :
    (aliasOf index line anchor target).unalias = target.unalias := rfl

/-- An alias has the tag of the node it stands for. -/
@[simp] theorem tag_unalias (n : Node) : n.unalias.tag = n.tag := by
  induction n using induction with
  | scalar | loop => rfl
  | sequence | mapping => simp [tag]
  | aliasOf _ _ _ _ ih => exact ih

/-! ## Aliases -/

/-- The node is an alias. -/
def isAlias : Node → Bool
  | .aliasOf .. | .loop .. => true
  | _ => false

mutual

/-- The aliases in a node and in the nodes that they stand for, by the places where they start. -/
def aliasIndices : Node → List Nat
  | .scalar .. => []
  | .sequence _ _ ns => itemIndices ns
  | .mapping _ _ es => entryIndices es
  | .aliasOf index _ _ target => index :: aliasIndices target
  | .loop index _ _ _ => [index]

def itemIndices : List Node → List Nat
  | [] => []
  | n :: rest => aliasIndices n ++ itemIndices rest

def entryIndices : List (Node × Node) → List Nat
  | [] => []
  | (k, v) :: rest => aliasIndices k ++ aliasIndices v ++ entryIndices rest

end

theorem mem_itemIndices {i : Nat} {ns : List Node} (hn : n ∈ ns) (hi : i ∈ n.aliasIndices) :
    i ∈ itemIndices ns := by
  induction ns with
  | nil => cases hn
  | cons m ns ih =>
    rw [itemIndices, List.mem_append]
    obtain rfl | hn := List.mem_cons.mp hn
    · exact .inl hi
    · exact .inr (ih hn)

theorem mem_entryIndices {i : Nat} {es : List (Node × Node)} (he : (k, v) ∈ es)
    (hi : i ∈ k.aliasIndices ∨ i ∈ v.aliasIndices) : i ∈ entryIndices es := by
  induction es with
  | nil => cases he
  | cons e es ih =>
    rw [entryIndices, List.mem_append, List.mem_append]
    obtain rfl | he := List.mem_cons.mp he
    · exact .inl hi
    · exact .inr (ih he)

/-! ## Transparent nodes -/

/-- A key that is written as another one, which counts as a repetition. -/
def repeats (k other : Node) : Bool :=
  Decode.keysDistinct.kindOf k == Decode.keysDistinct.kindOf other && k.value == other.value

/-- A key and its value merge the same mappings with and without aliases: an alias is no key that
merges, and an alias of a sequence cannot be merged. -/
def mergesAlike (k v : Node) : Bool :=
  k.unalias.isMerge == k.isMerge && !(k.isMerge && v.isAlias && v.unalias.isSequence)

mutual

/-- No alias in the node stands inside the node it stands for or for another alias, and no mapping
in it has other keys to merge or other repetitions without aliases. -/
def isTransparent : Node → Bool
  | .scalar .. => true
  | .sequence _ _ ns => itemsTransparent ns
  | .mapping _ _ es => entriesTransparent es
  | .aliasOf index _ _ target =>
    isTransparent target && !target.isAlias && !target.aliasIndices.contains index
  | .loop .. => false

def itemsTransparent : List Node → Bool
  | [] => true
  | n :: rest => isTransparent n && itemsTransparent rest

def entriesTransparent : List (Node × Node) → Bool
  | [] => true
  | (k, v) :: rest =>
    isTransparent k && isTransparent v && mergesAlike k v &&
      rest.all (fun e => k.repeats e.1 == k.unalias.repeats e.1.unalias) && entriesTransparent rest

end

@[simp] theorem isTransparent_sequence (line : Nat) (tag : Tag) (ns : List Node) :
    (sequence line tag ns).isTransparent = true ↔ ∀ n ∈ ns, n.isTransparent = true := by
  rw [isTransparent]
  induction ns with
  | nil => simp [itemsTransparent]
  | cons n ns ih => simp [itemsTransparent, ih]

@[simp] theorem isTransparent_mapping (line : Nat) (tag : Tag) (es : List (Node × Node)) :
    (mapping line tag es).isTransparent = true ↔ entriesTransparent es = true := by
  rw [isTransparent]

theorem isTransparent_aliasOf {index line : Nat} {anchor : Text} {target : Node} :
    (aliasOf index line anchor target).isTransparent = true ↔
      target.isTransparent = true ∧ target.isAlias = false ∧ index ∉ target.aliasIndices := by
  rw [isTransparent]
  simp [and_assoc]

theorem isTransparent_of_mem {es : List (Node × Node)} (h : entriesTransparent es = true)
    (he : (k, v) ∈ es) :
    k.isTransparent = true ∧ v.isTransparent = true ∧ mergesAlike k v = true := by
  induction es with
  | nil => cases he
  | cons e es ih =>
    obtain ⟨key, value⟩ := e
    simp only [entriesTransparent, Bool.and_eq_true] at h
    obtain he | he := List.mem_cons.mp he
    · cases he
      exact ⟨h.1.1.1.1, h.1.1.1.2, h.1.1.2⟩
    · exact ih h.2 he

theorem isMerge_unalias (h : mergesAlike k v = true) : k.unalias.isMerge = k.isMerge := by
  simp only [mergesAlike, Bool.and_eq_true, beq_iff_eq] at h
  exact h.1

/-- Nothing transparent is left of an alias. -/
theorem isAlias_unalias (h : n.isTransparent = true) : n.unalias.isAlias = false := by
  induction n using induction with
  | scalar => rfl
  | sequence | mapping => simp [isAlias]
  | aliasOf _ _ _ _ ih => exact ih (isTransparent_aliasOf.mp h).1
  | loop => cases h

end TwigLint.Yaml.Node

/-! ## The law of following aliases -/

namespace TwigLint.Yaml.Decode

/-- A reading follows aliases: it gives for a node what it gives for the node without them, but may
refuse the node for having too many. -/
structure FollowsAliases {α : Type} (read : Node → Decode α) : Prop where
  forth {n : Node} (h : n.isTransparent = true) (loops loops' : Loops) (a : α) :
    (read n).complete loops = .ok a → (read n.unalias).complete loops' = .ok a
  back {n : Node} (h : n.isTransparent = true) (loops loops' : Loops) (a : α) :
    (read n.unalias).complete loops' = .ok a →
      (read n).complete loops = .ok a ∨ (read n).complete loops = .error .tooManyAliases

/-- Aliases are followed wherever a definition takes a value: a list of texts, a list of values, or
a value. -/
structure ValuesFollowAliases : Prop where
  texts : FollowsAliases texts
  dataList : FollowsAliases dataList
  data : FollowsAliases data

end TwigLint.Yaml.Decode
