import TwigLint.Proofs.Component.Agreement
import TwigLint.Proofs.Component.Place
import TwigLint.Proofs.Component.Reading
import TwigLint.Proofs.Yaml.Following

/-! # Aliases in definitions

A definition is read as the one in which each alias is replaced: by its name where only that is
taken, and by what it stands for otherwise.  So aliases do not matter where they are followed.  Of
the readings of values nothing is used here but that they follow aliases.
-/

namespace TwigLint.Definition

open Yaml (Loops Decode)

variable {α : Type}

/-- A value is refused because of its many aliases. -/
def Refused (loops : Loops) (n : Yaml.Node) : Prop :=
  (Decode.texts n).complete loops = .error .tooManyAliases ∨
    (Decode.dataList n).complete loops = .error .tooManyAliases ∨
    (Decode.data n).complete loops = .error .tooManyAliases

/-- A node that is read with its aliases can be replaced by the node without them, and is refused
only where that is excused. -/
def Fits (excused : Prop) (loops : Loops) (o : Place × Yaml.Node) : Prop :=
  o.1.follows o.2 = true → o.2.isTransparent = true ∧ (Refused loops o.2 → excused)

section Lifting

variable {excused : Prop} {loops loops' : Loops} {place : Place} {n : Yaml.Node}

/-- What is read with its aliases is read alike without them. -/
theorem lifts_decoded {read : Yaml.Node → Decode (Option α)} {empty : α}
    (hread : Decode.FollowsAliases read) (h : Fits excused loops (place, n))
    (hplace : place.follows n = true) (what : Text)
    (hmany : (read n).complete loops = .error .tooManyAliases → Refused loops n) :
    Lifts excused (decoded loops n what empty read)
      (decoded loops' (spelled place n) what empty read) := by
  obtain ⟨hn, hrefused⟩ := h hplace
  rw [spelled_of_follows hplace]
  exact .decoded ⟨hread.forth hn loops loops', hread.back hn loops loops'⟩ fun htooMany =>
    hrefused (hmany htooMany)

theorem lifts_expectMapping (place : Place) (h : place.takesName = true) (n : Yaml.Node)
    (what : Text) :
    Lifts excused (expectMapping n what) (expectMapping (spelled place n) what) := by
  obtain ⟨-, -, hmapping, hnull, -⟩ := spelled_surface place h n
  rw [expectMapping, expectMapping, hmapping, hnull]
  split
  · exact .pure _
  · exact .complain _ _ _ _

theorem lifts_mappingOf (h : place.hasKeys = true) (n : Yaml.Node) (what : Text)
    {f f' : List (Yaml.Node × Yaml.Node) → Shaped α}
    (hf : Lifts excused (f n.entries) (f' (n.entries.map (spelledEntry place)))) :
    Lifts excused (mappingOf n what >>= f) (mappingOf (spelled place n) what >>= f') := by
  rw [mappingOf, mappingOf, bind_assoc, bind_assoc, entries_spelled h]
  simp only [pure_bind]
  exact (lifts_expectMapping place (Place.takesName_of_hasKeys h) n what).bind fun _ => hf

theorem lifts_typesOf (law : Decode.ValuesFollowAliases) (h : Fits excused loops (.types, n))
    (name : Text) :
    Lifts excused (typesOf loops name n) (typesOf loops' name (spelled .types n)) := by
  obtain ⟨-, hvalue, -, -, hlist⟩ := spelled_surface .types rfl n
  rw [typesOf, typesOf, hlist, hvalue]
  split
  · rename_i hsequence
    exact lifts_decoded law.texts h (by rw [Place.follows, hsequence]; rfl) _ .inl
  · exact .pure _

/-- A field of a property, and a property among its fields, are read alike. -/
structure FieldLifts (excused : Prop) (loops loops' : Loops) (e : Yaml.Node × Yaml.Node) :
    Prop where
  fits : Fits excused loops (Place.property.under e.1.value, e.2)
  items : e.1.value = Text.ofString "items" → ∀ name line,
    Lifts excused (property loops name line e.2) (property loops' name line (spelled .property e.2))

theorem lifts_propertyFields (law : Decode.ValuesFollowAliases)
    {es : List (Yaml.Node × Yaml.Node)} (h : ∀ e ∈ es, FieldLifts excused loops loops' e)
    (name : Text) (p : Property) :
    Lifts excused (propertyFields loops name p es)
      (propertyFields loops' name p (es.map (spelledEntry .property))) := by
  induction es generalizing p with
  | nil => exact .pure _
  | cons e es ih =>
    obtain ⟨he, hes⟩ := List.forall_mem_cons.mp h
    obtain ⟨k, v⟩ := e
    obtain ⟨hkey, hline⟩ := key_spelledEntry .property (k, v)
    obtain ⟨hfits, hitems⟩ := he
    dsimp only at hkey hline hfits hitems
    rw [List.map_cons]
    unfold propertyFields
    simp only [hkey, hline]
    simp only [spelledEntry]
    refine .ite (fun htitle => ?_) fun htitle => .ite (fun htype => ?_) fun htype =>
      .ite (fun href => ?_) fun href => .ite (fun henum => ?_) fun henum =>
      .ite (fun hdefault => ?_) fun hdefault => .ite (fun hproperties => ?_) fun hproperties =>
      .ite (fun hitem => ?_) fun hitem => ?_
    · have hplace : Place.property.under k.value = .word := by simp [Place.under, *]
      rw [hplace, (spelled_surface .word rfl v).2.1]
      exact (Lifts.pure _).bind (ih hes)
    · have hplace : Place.property.under k.value = .types := by simp [Place.under, *]
      rw [hplace] at hfits ⊢
      exact (lifts_typesOf law hfits name).bind fun _ => (Lifts.pure _).bind (ih hes)
    · have hplace : Place.property.under k.value = .word := by simp [Place.under, *]
      rw [hplace, (spelled_surface .word rfl v).2.1]
      exact (Lifts.pure _).bind (ih hes)
    · have hplace : Place.property.under k.value = .value := by simp [Place.under, *]
      rw [hplace] at hfits ⊢
      exact Lifts.bind (lifts_decoded law.dataList hfits rfl _ (.inr ∘ .inl)) fun _ =>
        (Lifts.pure _).bind (ih hes)
    · have hplace : Place.property.under k.value = .value := by simp [Place.under, *]
      rw [hplace] at hfits ⊢
      exact Lifts.bind (lifts_decoded law.data hfits rfl _ (.inr ∘ .inr)) fun _ =>
        (Lifts.pure _).bind (ih hes)
    · have hplace : Place.property.under k.value = .names := by simp [Place.under, *]
      rw [hplace, entries_spelled rfl, map_key_spelled]
      exact (Lifts.pure _).bind (ih hes)
    · have hplace : Place.property.under k.value = .property := by simp [Place.under, *]
      rw [hplace]
      exact (hitems (eq_of_beq hitem) _ _).bind fun _ => (Lifts.pure _).bind (ih hes)
    · exact (Lifts.pure _).bind (ih hes)

/-- A property is read alike, together with the properties of its items. -/
theorem lifts_property (law : Decode.ValuesFollowAliases) (n : Yaml.Node)
    (h : ∀ o ∈ occupants .property n, Fits excused loops o) (name : Text) (line : Nat) :
    Lifts excused (property loops name line n)
      (property loops' name line (spelled .property n)) := by
  induction n using Yaml.Node.induction generalizing name line with
  | mapping nodeLine tag es ih =>
    rw [spelled_mapping rfl]
    refine lifts_propertyFields law (fun e he => ⟨?_, fun hitems name line => ?_⟩) name _
    · exact h _ (mem_occupants rfl he (.inr (mem_occupants_self _ _)))
    · have hplace : Place.property.under e.1.value = .property := by rw [hitems]; decide
      refine (ih e he).2 (fun o ho => h o (mem_occupants rfl he (.inr ?_))) name line
      rwa [hplace]
  | scalar | sequence =>
    exact (lifts_expectMapping .property rfl _ _).bind fun _ => .pure _
  | aliasOf | loop =>
    refine Lifts.bind ?_ fun _ => .pure _
    exact lifts_expectMapping .property rfl _ _

theorem lifts_properties (law : Decode.ValuesFollowAliases) {es : List (Yaml.Node × Yaml.Node)}
    (h : ∀ e ∈ es, ∀ o ∈ occupants .property e.2, Fits excused loops o) (required : List Text) :
    Lifts excused (properties loops required es)
      (properties loops' required (es.map (spelledEntry .properties))) := by
  induction es with
  | nil => exact .pure _
  | cons e es ih =>
    obtain ⟨he, hes⟩ := List.forall_mem_cons.mp h
    obtain ⟨k, v⟩ := e
    obtain ⟨hkey, hline⟩ := key_spelledEntry .properties (k, v)
    rw [List.map_cons]
    unfold properties
    simp only [hkey, hline]
    exact (lifts_property law v he _ _).bind fun _ => (ih hes).bind fun _ => .pure _

theorem lifts_readRequired (law : Decode.ValuesFollowAliases) {e : Yaml.Node × Yaml.Node}
    (h : Fits excused loops (Place.props.under e.1.value, e.2)) (d : Definition) :
    Lifts excused (readRequired loops d e) (readRequired loops' d (spelledEntry .props e)) := by
  obtain ⟨hkey, hline⟩ := key_spelledEntry .props e
  rw [readRequired, readRequired, hkey, hline]
  refine .ite (fun hrequired => ?_) fun _ => .pure _
  have hplace : Place.props.under e.1.value = .value := by simp [Place.under, *]
  rw [spelledEntry, hplace]
  rw [hplace] at h
  exact (lifts_decoded law.texts h rfl _ .inl).bind fun _ => .pure _

theorem lifts_readProps (law : Decode.ValuesFollowAliases)
    (h : ∀ o ∈ occupants .props n, Fits excused loops o) (d : Definition) :
    Lifts excused (readProps loops d n) (readProps loops' d (spelled .props n)) := by
  refine lifts_mappingOf rfl n _ (.bind (.foldlM (fun e he d => ?_) d) fun d => ?_)
  · exact lifts_readRequired law (h _ (mem_occupants rfl he (.inr (mem_occupants_self _ _)))) d
  · rw [under?_spelled]
    cases hv : under? "properties" n.entries with
    | none => exact .pure _
    | some v =>
      obtain ⟨e, he, hkey, rfl⟩ := mem_of_under? hv
      have hplace : Place.props.under e.1.value = .properties := by rw [hkey]; decide
      refine lifts_mappingOf rfl e.2 _
        (.bind (lifts_properties law (fun p hp o ho => ?_) _) fun _ => .pure _)
      exact h o (mem_occupants rfl he (.inr (hplace ▸ mem_occupants rfl hp (.inr ho))))

theorem lifts_slotsOf (n : Yaml.Node) :
    Lifts excused (slotsOf n) (slotsOf (spelled .slots n)) := by
  refine lifts_mappingOf rfl n _ ?_
  rw [List.map_map]
  refine .pure_of_eq (List.map_congr_left fun e _ => ?_)
  obtain ⟨hkey, hline⟩ := key_spelledEntry .slots e
  have htitle : textUnder "title" (spelled .slot e.2) = textUnder "title" e.2 :=
    textUnder_spelled rfl (by decide) e.2
  have hrequired : textUnder "required" (spelled .slot e.2) = textUnder "required" e.2 :=
    textUnder_spelled rfl (by decide) e.2
  simp only [Function.comp]
  rw [hkey, hline]
  simp only [spelledEntry]
  rw [show Place.slots.under e.1.value = .slot from rfl, htitle, hrequired]

theorem lifts_variantsOf (n : Yaml.Node) :
    Lifts excused (variantsOf n) (variantsOf (spelled .variants n)) := by
  refine lifts_mappingOf rfl n _ ?_
  rw [List.map_map]
  refine .pure_of_eq (List.map_congr_left fun e _ => ?_)
  obtain ⟨hkey, hline⟩ := key_spelledEntry .variants e
  have htitle : textUnder "title" (spelled .variant e.2) = textUnder "title" e.2 :=
    textUnder_spelled rfl (by decide) e.2
  simp only [Function.comp]
  rw [hkey, hline]
  simp only [spelledEntry]
  rw [show Place.variants.under e.1.value = .variant from rfl, htitle]

theorem lifts_readSection (law : Decode.ValuesFollowAliases) {e : Yaml.Node × Yaml.Node}
    (h : ∀ o ∈ occupants (Place.document.under e.1.value) e.2, Fits excused loops o)
    (d : Definition) :
    Lifts excused (readSection loops d e) (readSection loops' d (spelledEntry .document e)) := by
  obtain ⟨hkey, hline⟩ := key_spelledEntry .document e
  unfold readSection
  simp only [hkey, hline]
  simp only [spelledEntry]
  refine .ite (fun hname => ?_) fun hname => .ite (fun hprops => ?_) fun hprops =>
    .ite (fun hslots => ?_) fun hslots => .ite (fun hvariants => ?_) fun hvariants => .pure _
  · have hplace : Place.document.under e.1.value = .word := by simp [Place.under, *]
    rw [hplace, (spelled_surface .word rfl e.2).2.1]
    exact .pure _
  · have hplace : Place.document.under e.1.value = .props := by simp [Place.under, *]
    rw [hplace] at h ⊢
    exact lifts_readProps law h _
  · have hplace : Place.document.under e.1.value = .slots := by simp [Place.under, *]
    rw [hplace]
    exact (lifts_slotsOf e.2).bind fun _ => .pure _
  · have hplace : Place.document.under e.1.value = .variants := by simp [Place.under, *]
    rw [hplace]
    exact (lifts_variantsOf e.2).bind fun _ => .pure _

/-- A definition says what its document says as it is read, unless a value is refused. -/
theorem ofDocument_spelled (law : Decode.ValuesFollowAliases) {root : Yaml.Node}
    (h : ∀ o ∈ occupants .document root, Fits excused loops o) (loops' : Loops)
    (start : Definition) :
    (∀ d, ofDocument start (some ⟨root, loops⟩) = .ok d →
      ofDocument start (some ⟨spelled .document root, loops'⟩) = .ok d) ∧
    ∀ d, ofDocument start (some ⟨spelled .document root, loops'⟩) = .ok d →
      ofDocument start (some ⟨root, loops⟩) = .ok d ∨ excused := by
  have hmapping : (spelled .document root).isMapping = root.isMapping :=
    (spelled_surface .document rfl root).2.2.1
  have hsections : Lifts excused (root.entries.foldlM (readSection loops) start)
      ((spelled .document root).entries.foldlM (readSection loops') start) := by
    rw [entries_spelled rfl]
    exact .foldlM (fun e he d => lifts_readSection law
      (fun o ho => h o (mem_occupants rfl he (.inr ho))) d) start
  simp only [ofDocument_eq_ok, hmapping]
  constructor
  · rintro d ⟨hroot, hgives⟩
    exact ⟨hroot, hsections.forth hgives⟩
  · rintro d ⟨hroot, hgives⟩
    exact (hsections.back hgives).imp_left fun hgives => ⟨hroot, hgives⟩

end Lifting

/-- Aliases may be replaced by what they stand for in a definition, if none stands where only its
name is taken and the values that are read with their aliases do not depend on them.  Both ways it
is the same definition, or none; only a value with too many aliases can be refused that could be
read without them. -/
theorem aliases_transparent {root : Yaml.Node}
    (hnames : ∀ o ∈ occupants .document root, o.1.takesName = true → o.2.isAlias = false)
    (hvalues : ∀ o ∈ occupants .document root, o.1.follows o.2 = true → o.2.isTransparent = true)
    (start : Definition) (loops loops' : Loops) :
    (∀ d, ofDocument start (some ⟨root, loops⟩) = .ok d →
      ofDocument start (some ⟨root.unalias, loops'⟩) = .ok d) ∧
    ∀ d, ofDocument start (some ⟨root.unalias, loops'⟩) = .ok d →
      ofDocument start (some ⟨root, loops⟩) = .ok d ∨
        ∃ o ∈ occupants .document root, o.1.follows o.2 = true ∧ Refused loops o.2 := by
  rw [← spelled_eq_unalias root hnames]
  exact ofDocument_spelled Decode.valuesFollowAliases (fun o ho hread => ⟨hvalues o ho hread,
    fun hmany => ⟨o, ho, hread, hmany⟩⟩) loops' start

/-- A document with aliases where values are read: in place of a list of texts, as one of them, and
as a mapping that is merged. -/
def sharingDocument : Yaml.Node :=
  let text (line : Nat) (t : String) : Yaml.Node := .scalar line .str t
  let size : Yaml.Node := .mapping 4 .map [
    (text 4 "type", .sequence 4 .seq [.aliasOf 70 4 "t" (text 1 "object")]),
    (text 5 "default", .mapping 5 .map [
      (.scalar 5 .merge "<<", .aliasOf 90 5 "d" (.mapping 1 .map [(text 1 "k", text 1 "v")]))])]
  .mapping 1 .map [(text 1 "props", .mapping 2 .map [
    (text 2 "required", .aliasOf 50 2 "r" (.sequence 1 .seq [text 1 "size"])),
    (text 3 "properties", .mapping 3 .map [(text 3 "size", size)])])]

/-- The definition in it. -/
def sharingDefinition : Definition :=
  { new "p" "c" "c.component.yml" with
    propsLine := 1
    requiredLine := 2
    requiredProps := ["size"]
    props := [{ Property.new "size" 3 with
      types := ["object"]
      default? := some (.map [("k", .text "v")])
      required := true }] }

theorem aliases_transparent_merge :
    ofDocument (new "p" "c" "c.component.yml") (some ⟨sharingDocument, ⟨0, []⟩⟩) =
      .ok sharingDefinition ∧
    ofDocument (new "p" "c" "c.component.yml") (some ⟨sharingDocument.unalias, ⟨0, []⟩⟩) =
      .ok sharingDefinition := by
  have hread : ofDocument (new "p" "c" "c.component.yml") (some ⟨sharingDocument, ⟨0, []⟩⟩) =
      .ok sharingDefinition := rfl
  exact ⟨hread, (aliases_transparent (by decide) (by decide) _ _ _).1 _ hread⟩

/-- A document with the label of its component behind an alias. -/
def labelDocument : Yaml.Node :=
  .mapping 1 .map [
    (.scalar 1 .str "x", .scalar 1 .str "Card"),
    (.scalar 2 .str "name", .aliasOf 18 2 "a" (.scalar 1 .str "Card"))]

/-- The label is the name of the anchor. -/
theorem label_behind_alias :
    ofDocument (new "p" "c" "c.component.yml") (some ⟨labelDocument, ⟨0, []⟩⟩) =
      .ok { new "p" "c" "c.component.yml" with label := "a" } ∧
    ofDocument (new "p" "c" "c.component.yml") (some ⟨labelDocument.unalias, ⟨0, []⟩⟩) =
      .ok { new "p" "c" "c.component.yml" with label := "Card" } ∧
    Text.ofString "a" ≠ "Card" :=
  ⟨rfl, rfl, by decide⟩

end TwigLint.Definition
