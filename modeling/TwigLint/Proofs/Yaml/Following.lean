import TwigLint.Proofs.Yaml.Alias

/-! # Following aliases

Two readings side by side: of a node, and of the same node without aliases.  They give the same
value or both fail, except that the first one may be refused for its many aliases: it counts the
nodes behind an alias once more for each time it follows it.
-/

namespace TwigLint.Yaml

/-- The progress after one more node. -/
def Progress.counted (p : Progress) : Progress :=
  { p with
    visits := p.visits + 1
    repeats := if p.entered.isEmpty then p.repeats else p.repeats + 1 }

/-- None of the aliases in a node is being followed. -/
def Node.Outside (n : Node) (entered : List Nat) : Prop := ∀ i ∈ n.aliasIndices, i ∉ entered

namespace Node.Outside

variable {n k v : Node} {entered : List Nat}

theorem item {line : Nat} {tag : Tag} {ns : List Node}
    (h : (sequence line tag ns).Outside entered) (hn : n ∈ ns) : n.Outside entered :=
  fun i hi => h i (by rw [aliasIndices]; exact mem_itemIndices hn hi)

theorem entry {line : Nat} {tag : Tag} {es : List (Node × Node)}
    (h : (mapping line tag es).Outside entered) (he : (k, v) ∈ es) :
    k.Outside entered ∧ v.Outside entered :=
  ⟨fun i hi => h i (by rw [aliasIndices]; exact mem_entryIndices he (.inl hi)),
    fun i hi => h i (by rw [aliasIndices]; exact mem_entryIndices he (.inr hi))⟩

theorem index {index line : Nat} {anchor : Text} {target : Node}
    (h : (aliasOf index line anchor target).Outside entered) : index ∉ entered :=
  h index (by rw [aliasIndices]; exact List.mem_cons_self)

theorem target {index line : Nat} {anchor : Text} {target : Node}
    (h : (aliasOf index line anchor target).Outside entered)
    (hindex : index ∉ target.aliasIndices) : target.Outside (index :: entered) := by
  intro i hi hmem
  obtain rfl | hmem := List.mem_cons.mp hmem
  · exact hindex hi
  · exact h i (by rw [aliasIndices]; exact List.mem_cons_of_mem _ hi) hmem

end Node.Outside

namespace Decode

open Yaml.Node (unalias)

variable {α β : Type} {entered : List Nat} {p p' : Progress}

/-- Progress of a reading inside the aliases `entered`, and of one that has met no alias so far. -/
structure Abreast (entered : List Nat) (p p' : Progress) : Prop where
  entered : p.entered = entered
  outside : p'.entered = []
  first : p'.repeats = 0
  mismatches : p.mismatches = [] ↔ p'.mismatches = []

theorem visit_of_not_alias {read : Node → Decode α} {n : Node} (h : n.isAlias = false) :
    visit read n = (do count; read n) := by
  cases n with
  | scalar | sequence | mapping => rfl
  | aliasOf | loop => cases h

theorem run_count (p : Progress) : count.run p =
    if isExcessive p.counted.repeats p.counted.visits then .error .tooManyAliases
    else .ok ((), p.counted) := by
  have hrun : count.run p = StateT.run (if isExcessive p.counted.repeats p.counted.visits then
      throw .tooManyAliases else pure ()) p.counted := by
    simp only [count, StateT.run_bind, StateT.run_get, StateT.run_set, pure_bind]
    rfl
  rw [hrun]
  split <;> rfl

theorem keysDistinct_cons (k v : Node) (es : List (Node × Node)) :
    keysDistinct ((k, v) :: es) = (do
      let repeated := es.filter fun e => k.repeats e.1
      for e in repeated do note (.repeatedKey e.1.line e.1.value k.line)
      return (← keysDistinct es) && repeated.isEmpty) := rfl

/-- What two readings come to: the same value, two failures, or too many aliases in the first. -/
inductive Outcomes (entered : List Nat) :
    Except Error (α × Progress) → Except Error (α × Progress) → Prop
  | same {a : α} {p p' : Progress} (h : Abreast entered p p') :
    Outcomes entered (.ok (a, p)) (.ok (a, p'))
  | failed {e e' : Error} : Outcomes entered (.error e) (.error e')
  | refused {r : Except Error (α × Progress)} : Outcomes entered (.error .tooManyAliases) r

/-- The second reading does without aliases what the first one does inside some. -/
def Alike (entered : List Nat) (m m' : Decode α) : Prop :=
  ∀ p p', Abreast entered p p' → Outcomes entered (m.run p) (m'.run p')

namespace Alike

variable {m m' : Decode α}

theorem pure (a : α) : Alike entered (pure a) (pure a) := fun _ _ h => .same h

theorem throw (e e' : Error) : Alike entered (throw e : Decode α) (throw e') :=
  fun _ _ _ => .failed

theorem bind {f f' : α → Decode β} (h : Alike entered m m') (hf : ∀ a, Alike entered (f a) (f' a)) :
    Alike entered (m >>= f) (m' >>= f') := by
  intro p p' hp
  rw [StateT.run_bind, StateT.run_bind]
  have hm := h p p' hp
  generalize m.run p = r, m'.run p' = r' at hm ⊢
  cases hm with
  | same hq => exact hf _ _ _ hq
  | failed => exact .failed
  | refused => exact .refused

theorem map (f : α → β) (h : Alike entered m m') : Alike entered (f <$> m) (f <$> m') := by
  rw [← bind_pure_comp, ← bind_pure_comp]
  exact h.bind fun _ => pure _

theorem note (w w' : Mismatch) : Alike entered (note w) (note w') :=
  fun _ _ h => .same ⟨h.entered, h.outside, h.first, by simp⟩

/-! ## Aliases -/

/-- Reading a node on one side only does no harm where it is the first one. -/
theorem count_left (h : Alike entered m m') : Alike entered (do count; m) m' := by
  intro p p' hp
  rw [StateT.run_bind, run_count]
  split
  · exact .refused
  · exact h _ _ ⟨hp.entered, hp.outside, hp.first, hp.mismatches⟩

theorem count_both (h : Alike entered m m') : Alike entered (do count; m) (do count; m') := by
  refine count_left fun p p' hp => ?_
  have hfirst : p'.counted.repeats = 0 := by simp [Progress.counted, hp.outside, hp.first]
  -- Outside of aliases there are never too many of them.
  have hfew : isExcessive p'.counted.repeats p'.counted.visits = false := by rw [hfirst]; rfl
  rw [StateT.run_bind, run_count, hfew]
  exact h _ _ ⟨hp.entered, hp.outside, hfirst, hp.mismatches⟩

/-- What an alias stands for is read in its place, if the alias is not being followed. -/
theorem follow {index : Nat} (name : Text) (hindex : index ∉ entered)
    (h : Alike (index :: entered) m m') : Alike entered (follow index name m) m' := by
  intro p p' hp
  have hnot : p.entered.contains index = false := by simpa [hp.entered] using hindex
  have hm := h { p with entered := index :: p.entered } p'
    ⟨by rw [hp.entered], hp.outside, hp.first, hp.mismatches⟩
  have hrun : (Decode.follow index name m).run p =
      (m.run { p with entered := index :: p.entered }).bind fun r =>
        .ok (r.1, { r.2 with entered := r.2.entered.drop 1 }) := by
    simp only [Decode.follow, StateT.run_bind, StateT.run_get, pure_bind, hnot]
    rfl
  rw [hrun]
  generalize m.run { p with entered := index :: p.entered } = r, m'.run p' = r' at hm ⊢
  cases hm with
  | same hq => exact .same ⟨by rw [hq.entered, List.drop_one, List.tail_cons], hq.outside, hq.first,
      hq.mismatches⟩
  | failed => exact .failed
  | refused => exact .refused

/-- Readings that start outside of aliases end alike. -/
theorem complete (h : Alike [] m m') (loops loops' : Loops) :
    (∀ a, m.complete loops = .ok a → m'.complete loops' = .ok a) ∧
      ∀ a, m'.complete loops' = .ok a →
        m.complete loops = .ok a ∨ m.complete loops = .error .tooManyAliases := by
  have hm := h ⟨loops, [], 0, 0, []⟩ ⟨loops', [], 0, 0, []⟩ ⟨rfl, rfl, rfl, Iff.rfl⟩
  unfold Decode.complete
  generalize m.run ⟨loops, [], 0, 0, []⟩ = r, m'.run ⟨loops', [], 0, 0, []⟩ = r' at hm ⊢
  cases hm with
  | @same b q q' hq =>
    by_cases hnone : q.mismatches = []
    · have hnone' := hq.mismatches.mp hnone
      simp [hnone, hnone', Pure.pure, Except.pure, Bind.bind, Except.bind]
    · have hsome' := mt hq.mismatches.mpr hnone
      simp [hnone, hsome', MonadExcept.throw, throwThe, MonadExceptOf.throw, Bind.bind, Except.bind]
  | failed => exact ⟨nofun, nofun⟩
  | refused => exact ⟨nofun, fun _ _ => .inr rfl⟩

/-! ## Nodes -/

theorem scalarValue (tag : Tag) (t : Text) :
    Alike entered (scalarValue tag t) (scalarValue tag t) := by
  unfold Decode.scalarValue
  split <;> split
  · exact pure _
  · exact throw _ _
  · exact pure _
  · exact throw _ _

theorem wrongType (n n' : Node) (type : Text) :
    Alike entered (wrongType n type : Decode (Option α)) (wrongType n' type) :=
  (note _ _).bind fun _ => pure none

theorem notes (w w' : Node × Node → Mismatch) (f : Node × Node → Node × Node)
    (es : List (Node × Node)) :
    Alike entered
      (forIn es PUnit.unit fun e _ => do Decode.note (w e); return .yield PUnit.unit)
      (forIn (es.map f) PUnit.unit fun e _ => do Decode.note (w' e); return .yield PUnit.unit) := by
  induction es with
  | nil => exact pure _
  | cons e es ih =>
    simp only [List.map_cons, List.forIn_cons, bind_assoc, pure_bind]
    exact (note _ _).bind fun _ => ih

theorem keysDistinct {es : List (Node × Node)} (h : Node.entriesTransparent es = true) :
    Alike entered (keysDistinct es) (keysDistinct (es.map (Prod.map unalias unalias))) := by
  induction es with
  | nil => exact pure _
  | cons e es ih =>
    obtain ⟨k, v⟩ := e
    simp only [Node.entriesTransparent, Bool.and_eq_true, List.all_eq_true, beq_iff_eq] at h
    have hrepeated : (es.map (Prod.map unalias unalias)).filter
          (fun e => k.unalias.repeats e.1) =
        (es.filter fun e => k.repeats e.1).map (Prod.map unalias unalias) := by
      rw [List.filter_map]
      exact congrArg _ (List.filter_congr fun e he => (h.1.2 e he).symm)
    rw [List.map_cons, Prod.map, keysDistinct_cons, keysDistinct_cons, hrepeated]
    refine (notes _ _ _ _).bind fun _ => (ih h.2).bind fun b => ?_
    rw [List.isEmpty_map]
    exact pure _

/-! ## Values of a known type -/

/-- A mapping is refused alike where another value is wanted. -/
theorem refuseMapping {es : List (Node × Node)} (h : Node.entriesTransparent es = true)
    (n n' : Node) (type : Text) :
    Alike entered
      (do
        if ← Decode.keysDistinct es then Decode.wrongType n type else return (none : Option α))
      (do
        if ← Decode.keysDistinct (es.map (Prod.map unalias unalias)) then Decode.wrongType n' type
        else return none) := by
  refine (keysDistinct h).bind fun b => ?_
  cases b with
  | true => exact wrongType n n' type
  | false => exact pure none

theorem visit {read read' : Node → Decode α} {n : Node} (hn : n.isTransparent = true)
    (hout : n.Outside entered)
    (h : ∀ (m : Node) (entered : List Nat), m.isTransparent = true → m.isAlias = false →
      m.Outside entered → Alike entered (read m) (read' m.unalias)) :
    Alike entered (visit read n) (visit read' n.unalias) := by
  cases hkind : n.isAlias with
  | false =>
    rw [visit_of_not_alias hkind, visit_of_not_alias (Node.isAlias_unalias hn)]
    exact count_both (h n entered hn hkind hout)
  | true =>
    cases n with
    | scalar | sequence | mapping => cases hkind
    | loop => cases hn
    | aliasOf index line anchor target =>
      obtain ⟨htarget, hdirect, hindex⟩ := Node.isTransparent_aliasOf.mp hn
      rw [Node.unalias_aliasOf, visit_of_not_alias (Node.isAlias_unalias htarget)]
      refine count_left (follow anchor hout.index (count_both ?_))
      exact h target _ htarget hdirect (hout.target hindex)

theorem scalar {type : Text} {pick : Text → ScalarValue → Option α} {n : Node}
    (hn : n.isTransparent = true) (hout : n.Outside entered) :
    Alike entered (scalar type pick n) (scalar type pick n.unalias) := by
  refine visit hn hout fun m entered hm hdirect _ => ?_
  cases m with
  | aliasOf | loop => cases hdirect
  | sequence => rw [Node.unalias_sequence]; exact wrongType _ _ _
  | scalar line tag t =>
    refine (scalarValue tag t).bind fun value => ?_
    cases value with
    | null => exact pure _
    | _ =>
      dsimp only
      split
      · exact pure _
      · exact wrongType _ _ _
  | mapping line tag es =>
    rw [Node.unalias_mapping]
    exact refuseMapping ((Node.isTransparent_mapping line tag es).mp hm) _ _ type

theorem items {item item' : Node → Decode (Option α)} {ns : List Node}
    (h : ∀ n ∈ ns, Alike entered (item n) (item' n.unalias)) :
    Alike entered (items item ns) (items item' (ns.map unalias)) := by
  induction ns with
  | nil => exact pure _
  | cons n ns ih =>
    obtain ⟨hn, hns⟩ := List.forall_mem_cons.mp h
    exact hn.bind fun _ => (ih hns).bind fun _ => pure _

theorem list {type : Text} {item item' : Node → Decode (Option α)}
    (h : ∀ (n : Node) (entered : List Nat), n.isTransparent = true → n.Outside entered →
      Alike entered (item n) (item' n.unalias))
    {n : Node} (hn : n.isTransparent = true) (hout : n.Outside entered) :
    Alike entered (list type item n) (list type item' n.unalias) := by
  refine visit hn hout fun m entered hm hdirect hout => ?_
  cases m with
  | aliasOf | loop => cases hdirect
  | scalar line tag t =>
    refine (scalarValue tag t).bind fun value => ?_
    cases value with
    | null => exact pure _
    | _ => exact wrongType _ _ _
  | sequence line tag ns =>
    rw [Node.unalias_sequence]
    refine map some (items fun n hmem => ?_)
    exact h n entered ((Node.isTransparent_sequence line tag ns).mp hm n hmem) (hout.item hmem)
  | mapping line tag es =>
    rw [Node.unalias_mapping]
    exact refuseMapping ((Node.isTransparent_mapping line tag es).mp hm) _ _ type

/-! ## Dynamic values -/

variable {again again' : Reentry}

/-- The node has the same dynamic value without aliases, wherever it stands. -/
def Value (again again' : Reentry) (n : Node) : Prop :=
  ∀ entered, n.Outside entered → Alike entered (value again n) (value again' n.unalias)

/-- The node merges the same entries without aliases.  A sequence of mappings can only be merged
where it is written down. -/
def Source (again again' : Reentry) (n : Node) : Prop :=
  ∀ entered textual isItem r, n.Outside entered →
    (isItem = false → (n.isAlias && n.unalias.isSequence) = false) →
    Alike entered (source again textual isItem r n) (source again' textual isItem r n.unalias)

theorem isHidden (hidden : Hidden) (key : Data) :
    Alike entered (isHidden hidden key) (isHidden hidden key) := by
  unfold Decode.isHidden
  split
  · exact pure _
  split
  · exact throw _ _
  split <;> exact pure _

theorem checkKey (key : Data) : Alike entered (checkKey key) (checkKey key) := by
  unfold Decode.checkKey
  split
  · exact throw _ _
  · exact pure _

theorem valueItems {ns : List Node}
    (h : ∀ n ∈ ns, Alike entered (value again n) (value again' n.unalias)) :
    Alike entered (valueItems again ns) (valueItems again' (ns.map unalias)) := by
  induction ns with
  | nil => exact pure _
  | cons n ns ih =>
    obtain ⟨hn, hns⟩ := List.forall_mem_cons.mp h
    exact hn.bind fun _ => (ih hns).bind fun _ => pure _

theorem sourceItems {ns : List Node} {textual : Bool}
    (h : ∀ n ∈ ns, ∀ r, Alike entered (source again textual true r n)
      (source again' textual true r n.unalias)) (r : Reading) :
    Alike entered (sourceItems again textual r ns)
      (sourceItems again' textual r (ns.map unalias)) := by
  induction ns generalizing r with
  | nil => exact pure _
  | cons n ns ih =>
    obtain ⟨hn, hns⟩ := List.forall_mem_cons.mp h
    exact (hn r).bind fun r => ih hns r

/-- The parts of an entry are read the same without aliases. -/
structure Entry (again again' : Reentry) (entered : List Nat) (e : Node × Node) : Prop where
  merge : e.1.unalias.isMerge = e.1.isMerge
  text : Alike entered (text e.1) (Decode.text e.1.unalias)
  key : Alike entered (value again e.1) (value again' e.1.unalias)
  value : Alike entered (value again e.2) (Decode.value again' e.2.unalias)
  source : e.1.isMerge = true → ∀ textual r, Alike entered (source again textual false r e.2)
    (Decode.source again' textual false r e.2.unalias)

variable {es : List (Node × Node)}

theorem ownEntries (h : ∀ e ∈ es, Entry again again' entered e) (textual : Bool) (r : Reading) :
    Alike entered (ownEntries again textual r es)
      (ownEntries again' textual r (es.map (Prod.map unalias unalias))) := by
  induction es generalizing r with
  | nil => exact pure _
  | cons e es ih =>
    obtain ⟨he, hes⟩ := List.forall_mem_cons.mp h
    obtain ⟨k, v⟩ := e
    rw [List.map_cons, Prod.map]
    unfold Decode.ownEntries
    rw [he.merge]
    split
    · exact ih hes r
    cases textual
    case' true => refine (he.text.map _).bind fun key? => ?_
    case' false => refine he.key.bind fun key? => ?_
    -- What follows the key is the same for both kinds of keys.
    all_goals
      cases key? with
      | none => exact ih hes r
      | some key =>
        refine (isHidden r.2 key).bind fun found => ?_
        obtain ⟨seen, hidden⟩ := found
        cases seen with
        | true => exact ih hes _
        | false => exact (checkKey key).bind fun _ => he.value.bind fun _ => ih hes _

theorem keyValues (h : ∀ e ∈ es, Entry again again' entered e) :
    Alike entered (keyValues again es)
      (keyValues again' (es.map (Prod.map unalias unalias))) := by
  induction es with
  | nil => exact pure _
  | cons e es ih =>
    obtain ⟨he, hes⟩ := List.forall_mem_cons.mp h
    obtain ⟨k, v⟩ := e
    rw [List.map_cons, Prod.map]
    unfold Decode.keyValues
    refine he.key.bind fun key? => ?_
    cases key? with
    | none => exact (ih hes).bind fun _ => pure _
    | some key =>
      dsimp only
      split
      · exact (throw _ _).bind fun _ => (ih hes).bind fun _ => pure _
      · exact (ih hes).bind fun _ => pure _

theorem mergedEntries (h : ∀ e ∈ es, Entry again again' entered e) (textual : Bool) (r : Reading)
    (keys : List Data) :
    Alike entered (mergedEntries again textual r keys es)
      (mergedEntries again' textual r keys (es.map (Prod.map unalias unalias))) := by
  induction es with
  | nil => exact pure _
  | cons e es ih =>
    obtain ⟨he, hes⟩ := List.forall_mem_cons.mp h
    obtain ⟨k, v⟩ := e
    rw [List.map_cons, Prod.map]
    unfold Decode.mergedEntries
    rw [he.merge]
    split
    · rename_i hmerge
      exact (he.source hmerge _ _).bind fun _ => pure _
    · exact ih hes

theorem keysTextual_unalias (es : List (Node × Node)) :
    keysTextual (es.map (Prod.map unalias unalias)) = keysTextual es := by
  simp [keysTextual, List.all_map, Function.comp_def]

theorem anyMerge_unalias (h : ∀ e ∈ es, Entry again again' entered e) :
    (es.map (Prod.map unalias unalias)).any (·.1.isMerge) = es.any (·.1.isMerge) := by
  induction es with
  | nil => rfl
  | cons e es ih =>
    obtain ⟨he, hes⟩ := List.forall_mem_cons.mp h
    rw [List.map_cons, List.any_cons, List.any_cons, ih hes]
    exact congrArg (· || _) he.merge

/-- The entries of a mapping are read alike if its parts are. -/
theorem entry {line : Nat} {tag : Tag} {e : Node × Node}
    (ht : Node.entriesTransparent es = true) (hout : (Node.mapping line tag es).Outside entered)
    (he : e ∈ es) (hkey : Value again again' e.1) (hvalue : Value again again' e.2)
    (hsource : Source again again' e.2) : Entry again again' entered e := by
  obtain ⟨k, v⟩ := e
  obtain ⟨hk, hv, hmerges⟩ := Node.isTransparent_of_mem ht he
  obtain ⟨houtk, houtv⟩ := hout.entry he
  refine ⟨Node.isMerge_unalias hmerges, scalar hk houtk, hkey _ houtk, hvalue _ houtv, ?_⟩
  intro hmerge textual r
  refine hsource _ textual false r houtv fun _ => ?_
  simp only [Node.mergesAlike, hmerge, Bool.true_and, Bool.and_eq_true] at hmerges
  simpa [Bool.and_eq_false_iff, Decidable.imp_iff_not_or] using hmerges.2

/-! ### Mappings -/

section

variable {line : Nat} {tag : Tag} (ht : Node.entriesTransparent es = true)
  (hes : ∀ e ∈ es, Entry again again' entered e)
include ht hes

theorem value_mapping : Alike entered (value again (.mapping line tag es))
    (Decode.value again' (Node.mapping line tag es).unalias) := by
  rw [Node.unalias_mapping]
  unfold Decode.value
  refine count_both ((keysDistinct ht).bind fun b => ?_)
  cases b with
  | false => exact pure _
  | true =>
    dsimp only
    rw [keysTextual_unalias, anyMerge_unalias hes]
    refine (ownEntries hes _ _).bind fun own => ?_
    by_cases hany : es.any (·.1.isMerge)
    · simp only [hany, if_true]
      refine (keyValues hes).bind fun keys => ?_
      exact (mergedEntries hes _ _ keys).bind fun _ => pure _
    · simp only [hany]
      exact (pure _).bind fun keys => (mergedEntries hes _ _ keys).bind fun _ => pure _

theorem source_mapping (textual isItem : Bool) (r : Reading) :
    Alike entered (source again textual isItem r (.mapping line tag es))
      (Decode.source again' textual isItem r (Node.mapping line tag es).unalias) := by
  rw [Node.unalias_mapping]
  unfold Decode.source
  refine count_both ((keysDistinct ht).bind fun b => ?_)
  cases b with
  | false => exact pure _
  | true => exact (ownEntries hes _ _).bind fun own => mergedEntries hes _ _ _

end

/-! ### Sequences -/

section

variable {line : Nat} {tag : Tag} {ns : List Node}

theorem value_sequence (h : ∀ n ∈ ns, Value again again' n) :
    Value again again' (.sequence line tag ns) := by
  intro entered hout
  rw [Node.unalias_sequence]
  exact count_both (bind (valueItems fun n hn => h n hn entered (hout.item hn)) fun _ => pure _)

theorem source_sequence (h : ∀ n ∈ ns, Source again again' n) :
    Source again again' (.sequence line tag ns) := by
  intro entered textual isItem r hout _
  rw [Node.unalias_sequence]
  cases isItem with
  | true => exact throw _ _
  | false =>
    refine sourceItems (fun n hn r => ?_) r
    exact h n hn entered textual true r (hout.item hn) (by simp)

end

/-! ### Aliases -/

section

variable {index line : Nat} {anchor : Text} {target : Node}
  (hn : (Node.aliasOf index line anchor target).isTransparent = true)
include hn

theorem value_aliasOf (h : Value again again' target) :
    Value again again' (.aliasOf index line anchor target) := by
  obtain ⟨-, -, hindex⟩ := Node.isTransparent_aliasOf.mp hn
  intro entered hout
  exact count_left (follow anchor hout.index (h _ (hout.target hindex)))

/-- An alias of a mapping is followed as an item of a sequence is. -/
theorem source_aliasOf (h : Source again again' target) :
    Source again again' (.aliasOf index line anchor target) := by
  obtain ⟨-, hdirect, hindex⟩ := Node.isTransparent_aliasOf.mp hn
  intro entered textual isItem r hout hwritten
  unfold Decode.source
  rw [Node.unalias_aliasOf]
  cases target with
  | aliasOf | loop => cases hdirect
  | scalar => exact throw _ _
  | sequence line tag ns =>
    cases isItem with
    | true => exact throw _ _
    | false => simp [Node.isAlias, Node.isSequence] at hwritten
  | mapping line tag es =>
    refine count_left (follow anchor hout.index ?_)
    exact h _ textual true r (hout.target hindex) (by simp)

end

/-- The dynamic value of a node is that of the node without aliases. -/
theorem value_and_source (again again' : Reentry) {n : Node} (hn : n.isTransparent = true) :
    Value again again' n ∧ Source again again' n := by
  induction n using Node.induction with
  | loop => cases hn
  | scalar line tag t =>
    refine ⟨fun entered _ => ?_, fun entered textual isItem r _ _ => throw _ _⟩
    exact count_both ((scalarValue tag t).bind fun _ => pure _)
  | sequence line tag ns ih =>
    rw [Node.isTransparent_sequence] at hn
    exact ⟨value_sequence fun n hmem => (ih n hmem (hn n hmem)).1,
      source_sequence fun n hmem => (ih n hmem (hn n hmem)).2⟩
  | mapping line tag es ih =>
    rw [Node.isTransparent_mapping] at hn
    have hentries (entered : List Nat) (hout : (Node.mapping line tag es).Outside entered) :
        ∀ e ∈ es, Entry again again' entered e := by
      intro e he
      obtain ⟨hk, hv, -⟩ := Node.isTransparent_of_mem hn he
      exact entry hn hout he ((ih e he).1 hk).1 ((ih e he).2 hv).1 ((ih e he).2 hv).2
    exact ⟨fun entered hout => value_mapping hn (hentries entered hout),
      fun entered textual isItem r hout _ =>
        source_mapping hn (hentries entered hout) textual isItem r⟩
  | aliasOf index line anchor target ih =>
    obtain ⟨htarget, -, -⟩ := Node.isTransparent_aliasOf.mp hn
    exact ⟨value_aliasOf hn (ih htarget).1, source_aliasOf hn (ih htarget).2⟩

theorem texts {n : Node} (hn : n.isTransparent = true) (hout : n.Outside entered) :
    Alike entered (texts n) (texts n.unalias) :=
  list (fun _ _ => scalar) hn hout

theorem data {n : Node} (hn : n.isTransparent = true) (hout : n.Outside entered) :
    Alike entered (data n) (data n.unalias) := fun p p' hp =>
  (value_and_source (reentry p.loops.count) (reentry p'.loops.count) hn).1 entered hout p p' hp

theorem dataList {n : Node} (hn : n.isTransparent = true) (hout : n.Outside entered) :
    Alike entered (dataList n) (dataList n.unalias) :=
  list (fun _ _ => data) hn hout

/-- A reading that is alike with and without aliases follows them. -/
theorem followsAliases {read : Node → Decode α}
    (h : ∀ n : Node, n.isTransparent = true → n.Outside [] → Alike [] (read n) (read n.unalias)) :
    FollowsAliases read where
  forth hn loops loops' := ((h _ hn fun _ _ => List.not_mem_nil).complete loops loops').1
  back hn loops loops' := ((h _ hn fun _ _ => List.not_mem_nil).complete loops loops').2

end Alike

theorem valuesFollowAliases : ValuesFollowAliases where
  texts := Alike.followsAliases fun _ => Alike.texts
  dataList := Alike.followsAliases fun _ => Alike.dataList
  data := Alike.followsAliases fun _ => Alike.data

end Decode

end TwigLint.Yaml
