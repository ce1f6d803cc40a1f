import TwigLint.Component.Load
import TwigLint.Proofs.Yaml.Alias

/-! # Places in the document of a definition

What a definition says is found by the keys of its mappings.  An alias is followed where a value is
read whose type is not known, and where a list of texts is.  Anywhere else an alias has no keys, and
only its name is taken for its text.
-/

namespace TwigLint.Definition

/-! ## Places -/

/-- What a node of the document of a definition is read as. -/
inductive Place where
  | document
  | props
  | properties
  | property
  /-- The schema of an object, of which only the keys are read. -/
  | names
  | slots
  | slot
  | variants
  | variant
  /-- A text, also every key. -/
  | word
  /-- A text or a list of texts. -/
  | types
  /-- A value that is read with its aliases. -/
  | value
  | ignored
  deriving DecidableEq

namespace Place

/-- The place of what stands under a key. -/
def under : Place → Text → Place
  | .document, key =>
    if key == "name" then .word
    else if key == "props" then .props
    else if key == "slots" then .slots
    else if key == "variants" then .variants
    else .ignored
  | .props, key =>
    if key == "required" then .value
    else if key == "properties" then .properties
    else .ignored
  | .properties, _ => .property
  | .property, key =>
    if key == "title" then .word
    else if key == "type" then .types
    else if key == "$ref" then .word
    else if key == "enum" then .value
    else if key == "default" then .value
    else if key == "properties" then .names
    else if key == "items" then .property
    else .ignored
  | .slots, _ => .slot
  | .slot, key => if key == "title" || key == "required" then .word else .ignored
  | .variants, _ => .variant
  | .variant, key => if key == "title" then .word else .ignored
  | _, _ => .ignored

/-- A mapping at the place is read by its keys. -/
def hasKeys : Place → Bool
  | .word | .types | .value | .ignored => false
  | _ => true

/-- Of an alias at the place only the name is taken. -/
def takesName : Place → Bool
  | .value | .ignored => false
  | _ => true

/-- A node at the place is read with its aliases. -/
def follows (place : Place) (n : Yaml.Node) : Bool :=
  place == .value || place == .types && n.isSequence

theorem takesName_of_hasKeys {place : Place} (h : place.hasKeys = true) :
    place.takesName = true := by
  cases place <;> first | rfl | cases h

end Place

mutual

/-- The nodes that are found by keys, each with its place. -/
def occupants (place : Place) : Yaml.Node → List (Place × Yaml.Node)
  | .mapping line tag es =>
    (place, .mapping line tag es) :: if place.hasKeys then occupantsOf place es else []
  | n => [(place, n)]

def occupantsOf (place : Place) : List (Yaml.Node × Yaml.Node) → List (Place × Yaml.Node)
  | [] => []
  | (k, v) :: rest => (.word, k) :: occupants (place.under k.value) v ++ occupantsOf place rest

end

mutual

/-- The node at a place as it is read: an alias of which only the name is taken is a text, and any
other one is the node that it stands for. -/
def spelled (place : Place) : Yaml.Node → Yaml.Node
  | .mapping line tag es =>
    if place.hasKeys then .mapping line tag (spelledEntries place es)
    else (Yaml.Node.mapping line tag es).unalias
  | n => if n.isAlias && place.takesName then .scalar n.line .str n.value else n.unalias

def spelledEntries (place : Place) : List (Yaml.Node × Yaml.Node) → List (Yaml.Node × Yaml.Node)
  | [] => []
  | (k, v) :: rest =>
    (spelled .word k, spelled (place.under k.value) v) :: spelledEntries place rest

end

/-- The entry of a mapping at a place as it is read. -/
def spelledEntry (place : Place) (e : Yaml.Node × Yaml.Node) : Yaml.Node × Yaml.Node :=
  (spelled .word e.1, spelled (place.under e.1.value) e.2)

theorem spelledEntries_eq (place : Place) (es : List (Yaml.Node × Yaml.Node)) :
    spelledEntries place es = es.map (spelledEntry place) := by
  induction es with
  | nil => rfl
  | cons e es ih => rw [spelledEntries, ih, List.map_cons, spelledEntry]

section Spelled

variable {place : Place} {n : Yaml.Node} {line : Nat} {tag : Yaml.Tag}
  {es : List (Yaml.Node × Yaml.Node)}

theorem spelled_mapping (h : place.hasKeys = true) :
    spelled place (.mapping line tag es) = .mapping line tag (es.map (spelledEntry place)) := by
  rw [spelled, if_pos h, spelledEntries_eq]

theorem spelled_eq_scalar (halias : n.isAlias = true) (h : place.takesName = true) :
    spelled place n = .scalar n.line .str n.value := by
  cases n with
  | scalar | sequence | mapping => cases halias
  | aliasOf | loop => simp [spelled, halias, h]

theorem spelled_of_follows (h : place.follows n = true) : spelled place n = n.unalias := by
  simp only [Place.follows, Bool.or_eq_true, Bool.and_eq_true, beq_iff_eq] at h
  obtain rfl | ⟨rfl, hlist⟩ := h
  · cases n <;> simp [spelled, Place.takesName, Place.hasKeys]
  · cases n with
    | sequence => rfl
    | _ => cases hlist

theorem spelled_mapping_of_not (h : place.hasKeys = false) :
    spelled place (.mapping line tag es) = (Yaml.Node.mapping line tag es).unalias := by
  rw [spelled, h]
  rfl

/-- What is read of a node besides its entries. -/
theorem spelled_surface (place : Place) (h : place.takesName = true) (n : Yaml.Node) :
    (spelled place n).line = n.line ∧ (spelled place n).value = n.value ∧
      (spelled place n).isMapping = n.isMapping ∧ (spelled place n).isNull = n.isNull ∧
      (spelled place n).isSequence = n.isSequence := by
  cases n with
  | scalar => exact ⟨rfl, rfl, rfl, rfl, rfl⟩
  | sequence => exact ⟨rfl, rfl, rfl, rfl, rfl⟩
  | mapping =>
    cases hkeys : place.hasKeys with
    | true => rw [spelled_mapping hkeys]; exact ⟨rfl, rfl, rfl, rfl, rfl⟩
    | false => rw [spelled_mapping_of_not hkeys]; exact ⟨rfl, rfl, rfl, rfl, rfl⟩
  | aliasOf | loop => rw [spelled_eq_scalar rfl h]; exact ⟨rfl, rfl, rfl, rfl, rfl⟩

theorem entries_spelled (h : place.hasKeys = true) (n : Yaml.Node) :
    (spelled place n).entries = n.entries.map (spelledEntry place) := by
  cases n with
  | scalar | sequence => rfl
  | mapping => rw [spelled_mapping h]; rfl
  | aliasOf | loop => rw [spelled_eq_scalar rfl (Place.takesName_of_hasKeys h)]; rfl

theorem key_spelledEntry (place : Place) (e : Yaml.Node × Yaml.Node) :
    (spelledEntry place e).1.value = e.1.value ∧ (spelledEntry place e).1.line = e.1.line := by
  obtain ⟨hline, hvalue, -⟩ := spelled_surface .word rfl e.1
  exact ⟨hvalue, hline⟩

theorem under?_spelled (place : Place) (key : Text) (es : List (Yaml.Node × Yaml.Node)) :
    under? key (es.map (spelledEntry place)) = (under? key es).map (spelled (place.under key)) := by
  have hkeys : (fun e : Yaml.Node × Yaml.Node => e.1.value == key) ∘ spelledEntry place =
      fun e => e.1.value == key := by
    funext e
    simp only [Function.comp, (key_spelledEntry place e).1]
  rw [under?, under?, List.filter_map, hkeys, List.getLast?_map, Option.map_map, Option.map_map]
  refine Option.map_congr fun e he => ?_
  have hkey := (List.mem_filter.mp (List.mem_of_getLast? he)).2
  rw [Function.comp, Function.comp, spelledEntry, eq_of_beq hkey]

theorem map_key_spelled (place : Place) (es : List (Yaml.Node × Yaml.Node)) :
    (es.map (spelledEntry place)).map (·.1.value) = es.map (·.1.value) := by
  rw [List.map_map]
  exact List.map_congr_left fun e _ => (key_spelledEntry place e).1

theorem textUnder_spelled {key : Text} (h : place.hasKeys = true)
    (hkey : (place.under key).takesName = true) (n : Yaml.Node) :
    textUnder key (spelled place n) = textUnder key n := by
  rw [textUnder, textUnder, entries_spelled h, under?_spelled, Option.map_map]
  refine congrArg (Option.getD · []) (Option.map_congr fun v _ => ?_)
  exact (spelled_surface _ hkey v).2.1

/-! ## What stands in a document -/

theorem mem_occupantsOf {es : List (Yaml.Node × Yaml.Node)} {e : Yaml.Node × Yaml.Node}
    (he : e ∈ es) {o : Place × Yaml.Node}
    (ho : o = (.word, e.1) ∨ o ∈ occupants (place.under e.1.value) e.2) :
    o ∈ occupantsOf place es := by
  induction es with
  | nil => cases he
  | cons e' es ih =>
    rw [occupantsOf, List.cons_append, List.mem_cons, List.mem_append]
    obtain rfl | he := List.mem_cons.mp he
    · exact ho.imp_right .inl
    · exact .inr (.inr (ih he))

/-- Below a mapping stand its keys, and what stands below its values. -/
theorem mem_occupants (h : place.hasKeys = true) {e : Yaml.Node × Yaml.Node} (he : e ∈ n.entries)
    {o : Place × Yaml.Node} (ho : o = (.word, e.1) ∨ o ∈ occupants (place.under e.1.value) e.2) :
    o ∈ occupants place n := by
  cases n with
  | scalar | sequence | aliasOf | loop => cases he
  | mapping line tag es =>
    rw [occupants, if_pos h]
    exact List.mem_cons_of_mem _ (mem_occupantsOf he ho)

theorem mem_occupants_self (place : Place) (n : Yaml.Node) : (place, n) ∈ occupants place n := by
  cases n <;> simp [occupants]

theorem occupants_word (n : Yaml.Node) : occupants .word n = [(.word, n)] := by
  cases n <;> rfl

/-- Without an alias of which only the name is taken, a node is read as the one without aliases. -/
theorem spelled_eq_unalias (n : Yaml.Node)
    (h : ∀ o ∈ occupants place n, o.1.takesName = true → o.2.isAlias = false) :
    spelled place n = n.unalias := by
  induction n using Yaml.Node.induction generalizing place with
  | scalar | sequence => rfl
  | aliasOf | loop =>
    have hname : place.takesName = false := Bool.eq_false_iff.mpr fun htakes =>
      Bool.noConfusion (h _ (mem_occupants_self place _) htakes)
    simp [spelled, hname]
  | mapping line tag es ih =>
    cases hkeys : place.hasKeys with
    | false => exact spelled_mapping_of_not hkeys
    | true =>
      rw [spelled_mapping hkeys, Yaml.Node.unalias_mapping]
      refine congrArg _ (List.map_congr_left fun e he => ?_)
      have hkey : spelled .word e.1 = e.1.unalias := by
        refine (ih e he).1 fun o ho => h o (mem_occupants hkeys he (.inl ?_))
        rw [occupants_word] at ho
        exact List.mem_singleton.mp ho
      have hvalue : spelled (place.under e.1.value) e.2 = e.2.unalias :=
        (ih e he).2 fun o ho => h o (mem_occupants hkeys he (.inr ho))
      exact Prod.ext hkey hvalue

theorem mem_of_under? {key : Text} {es : List (Yaml.Node × Yaml.Node)} {v : Yaml.Node}
    (h : under? key es = some v) : ∃ e ∈ es, e.1.value = key ∧ e.2 = v := by
  obtain ⟨e, he, rfl⟩ := Option.map_eq_some_iff.mp h
  obtain ⟨hmem, hkey⟩ := List.mem_filter.mp (List.mem_of_getLast? he)
  exact ⟨e, hmem, eq_of_beq hkey, rfl⟩

end Spelled

end TwigLint.Definition
