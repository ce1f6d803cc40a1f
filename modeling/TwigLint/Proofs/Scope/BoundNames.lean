import TwigLint.Proofs.Grammar.BuiltParser
import TwigLint.Proofs.Grammar.StmtReading
import TwigLint.Proofs.Lexing.NameReading
import TwigLint.Proofs.Scope.Account
import TwigLint.Proofs.Scope.Lookup
import TwigLint.Proofs.Scope.Trace

/-! # Names that tags bind

A tag can bind every name that is not reserved.  An expression that consists of such a name alone is
a reference to it, unless the name is the word for a constant in upper case: these words are not
reserved.  A reference refers to the binding that the tag has made or reused, from wherever nothing
hides it.
-/

namespace TwigLint

/-! ## Meanings of names -/

/-- The name that an operation binds in the innermost scope, whatever is visible there. -/
def ScopeOp.bound? : ScopeOp → Option Text
  | .declare name _ | .declareParam name _ | .declareImport name _ | .inject name => some name
  | _ => none

namespace Tracker

/-- Operations at whose end a name means what it meant before them: they do not bind it, apart from
assignments, and open no isolated scope.  In scopes that are closed again anything can happen. -/
inductive Spares (name : Text) : List ScopeOp → Prop
  | nil : Spares name []
  | change {op : ScopeOp} {ops : List ScopeOp} (h : op.isChange = true)
      (other : op.bound? ≠ some name) (rest : Spares name ops) : Spares name (op :: ops)
  | enter {owner : Option Node} {ops : List ScopeOp} (rest : Spares name ops) :
      Spares name (.push false owner :: ops)
  | scope {isolated : Bool} {owner : Option Node} {ops ops' : List ScopeOp} (inner : Matched ops)
      (rest : Spares name ops') : Spares name (.push isolated owner :: ops ++ .pop :: ops')

/-- The name refers to the binding at a position, which is not one that the runtime provides. -/
structure Refers (t : Tracker) (name : Text) (i : Nat) : Prop where
  resolves : t.resolve? name = some i
  declared : ∃ b, t.store[i]? = some b ∧ b.kind ≠ .injected

namespace Refers

variable {t : Tracker} {name : Text} {i : Nat}

/-- A name means the same as long as the same bindings are in sight. -/
theorem of_resolve? {t' : Tracker} (h : Refers t name i) (hstore : StoreKept t t')
    (hresolve : t'.resolve? name = t.resolve? name) : Refers t' name i := by
  obtain ⟨b, hb, hkind⟩ := h.declared
  obtain ⟨b', hb', hlater⟩ := hstore i b hb
  refine ⟨hresolve.trans h.resolves, b', hb', ?_⟩
  rw [hlater.2]
  exact hkind

theorem bindName (h : Refers t name i) {b : Binding} (hb : b.name ≠ name) (seq : Nat) :
    Refers { t.bindName b with seq } name i :=
  h.of_resolve? (storeKept_push rfl) (resolve?_bindName_of_ne hb)

theorem change (h : Refers t name i) {op : ScopeOp} (hop : op.isChange = true)
    (hother : op.bound? ≠ some name) : Refers (t.apply op) name i := by
  have hkept : StoreKept t (t.apply op) := (changes_apply hop t).continues.store
  cases op with
  | push isolated owner => cases hop
  | pop => cases hop
  | declare other line | declareParam other line | declareImport other line =>
    exact h.bindName (fun hname => hother (congrArg some hname)) _
  | inject other =>
    exact h.bindName (b := .provided other) (fun hname => hother (congrArg some hname)) t.seq
  | assign other line =>
    simp only [apply, assign]
    split
    · rename_i b hb
      split
      · rename_i hinjected
        refine h.bindName ?_ _
        -- the name itself is not one that the runtime provides
        rintro rfl
        obtain ⟨c, hc, hkind⟩ := h.declared
        rw [lookup?, h.resolves, Option.bind_some, hc] at hb
        exact hkind (Option.some.inj hb ▸ hinjected)
      · exact h
    · rename_i hnone
      refine h.bindName ?_ _
      rintro rfl
      obtain ⟨c, hc, -⟩ := h.declared
      rw [lookup?, h.resolves, Option.bind_some, hc] at hnone
      cases hnone
  | use other =>
    refine h.of_resolve? hkept ?_
    simp only [apply, use]
    split <;> rfl

/-- Where nothing hides a name, it refers to the binding to which it referred. -/
theorem run (h : Refers t name i) {ops : List ScopeOp} (hops : Spares name ops) :
    Refers (t.run ops) name i := by
  induction hops generalizing t with
  | nil => exact h
  | change hop hother _ ih => exact ih (h.change hop hother)
  | enter _ ih =>
    exact ih (h.of_resolve? (fun _ b hb => ⟨b, hb, .refl b⟩) (resolve?_push t _ name))
  | @scope isolated owner ops ops' inner _ ih =>
    have hpop := (inner.continues (t.push isolated owner)).pop
    have hresolve : ((t.push isolated owner).run ops).pop.resolve? name = t.resolve? name := by
      rw [resolve?, scopes, hpop.2, hpop.1.outer, hpop.1.injected, resolve?, scopes]
    rw [List.cons_append, run_cons, run_append, run_cons]
    exact ih (h.of_resolve? hpop.1.store hresolve)

end Refers

/-- Between the two trackers, the name of a node has been bound: to a new binding on the line of the
node, or to the one to which it referred, and it refers to that binding. -/
structure Declares (t t' : Tracker) (b : Node) (i : Nat) : Prop where
  refers : Refers t' b.name i
  binding : ∃ c, t'.store[i]? = some c ∧ c.name = b.name ∧
    (i = t.store.size ∧ c.line = b.line ∧ c.used = false ∨ t.resolve? b.name = some i)

theorem refers_declare (t : Tracker) (name : Text) (line : Int) {kind : BindingKind}
    (hkind : kind ≠ .injected) :
    Refers (t.declare name line kind) name t.store.size ∧
      (t.declare name line kind).store[t.store.size]? =
        some ⟨name, line, t.seq + 1, false, kind⟩ := by
  have hnew : (t.declare name line kind).store[t.store.size]? =
      some ⟨name, line, t.seq + 1, false, kind⟩ := Array.getElem?_push_size
  exact ⟨⟨t.resolve?_bindName ⟨name, line, t.seq + 1, false, kind⟩, _, hnew, hkind⟩, hnew⟩

theorem declares_onEnter {t : Tracker} (ht : t.Named) {b : Node} (hb : b.kind = .assignName)
    (around : List Node) : ∃ i, t.Declares (t.run (t.onEnter b around)) b i := by
  have hdeclare {t' : Tracker} {kind : BindingKind} (hkind : kind ≠ .injected)
      (h : t' = t.declare b.name b.line kind) : ∃ i, t.Declares t' b i := by
    obtain ⟨hrefers, hnew⟩ := t.refers_declare b.name b.line hkind
    exact ⟨t.store.size, h ▸ hrefers, _, h ▸ hnew, rfl, .inl ⟨rfl, rfl, rfl⟩⟩
  have henter : t.run (t.onEnter b around) = t.apply (bindTarget b around) := by
    simp only [onEnter, hb, run_cons, run_nil]
  have hcases := bindTarget_cases b around
  simp only [List.mem_cons, List.not_mem_nil, or_false] at hcases
  rcases hcases with hop | hop | hop | hop <;> rw [hop] at henter
  · exact hdeclare (by decide) henter
  · exact hdeclare (by decide) henter
  · exact hdeclare (by decide) henter
  · change _ = t.assign b.name b.line at henter
    unfold assign at henter
    split at henter
    · rename_i c hc
      split at henter
      · exact hdeclare (by decide) henter
      · rename_i hkind
        -- the name is visible and not one that the runtime provides, so its binding is reused
        obtain ⟨i, hi, hstore⟩ := Option.bind_eq_some_iff.mp hc
        obtain ⟨c', hc', hname⟩ := ht.resolve? hi
        obtain rfl : c = c' := Option.some.inj (hstore ▸ hc')
        rw [henter]
        exact ⟨i, ⟨hi, c, hstore, hkind⟩, c, hstore, hname, .inr hi⟩
    · exact hdeclare (by decide) henter

end Tracker

/-! ## Names that stand alone -/

/-- The nodes of the names that a tag binds: the targets of an assignment or a loop, the aliases of
an import, and the parameters of a macro. -/
def Node.boundNames (n : Node) : List Node :=
  match n.kind with
  | .forTag => (n.child? .keyTarget).toList ++ (n.child? .valueTarget).toList
  | .setTag | .macroTag | .importTag | .fromTag =>
    (n.child? .targets).toList.flatMap fun list => list.children.map Prod.snd
  | _ => []

namespace Parser

open Grammar Lexing

/-- The template that prints one value. -/
def printTree (value : Node) : Node :=
  ⟨.template, .start, [], [(.body, .listOf .body .start
    [⟨.print, .start, [], [(.expr, value)]⟩])]⟩

/-- A name that stands alone is read as the given tree: as a whole expression, in front of whatever
cannot continue it, and as the only thing that a template prints. -/
structure ReadAs (x : Text) (tree : Location → Node) : Prop where
  expression (limit levels precedence : Nat) (l : Location) (s : TokenStream) (h : Ends s.current) :
    (expression limit (levels + 1) precedence).run (s.prepend [⟨.name, x, l⟩]) = .ok (tree l, s)
  template (limit : Nat) : parseTemplate (limit + 1) (printSource x) = .ok (printTree (tree ⟨1, 4⟩))

theorem readAs_atom {e : Expr} (ha : e.isAtom = true) {x : Text} (hx : IsName x)
    {tree : Location → Node} (htokens : ∀ loc, e.operand.tokens loc = [⟨.name, x, loc 0⟩])
    (hvalue : ∀ loc, e.operand.value loc = tree (loc 0)) : ReadAs x tree := by
  have hlevels (levels : Nat) : e.groupedDepth e.depth ≤ levels + 1 := by
    rw [Expr.groupedDepth, if_pos ha]
    exact Nat.succ_le_succ (Nat.zero_le levels)
  have hread (limit levels precedence : Nat) :
      Reads (expression limit (levels + 1) precedence) e.operand Ends :=
    (readsPart_expression (expr_reads limit e) (hlevels levels)).operand precedence
  constructor
  · intro limit levels precedence l s hs
    have hrun := hread limit levels precedence (fun _ => l) s hs
    rwa [htokens, hvalue] at hrun
  · intro limit
    obtain ⟨l, l', hstream⟩ := hx.printed
    have hprint : ∀ m ∈ [printed e.operand], ReadsStatement (Parser.expression (limit + 1)
        (limit + 1) 0) (nestedTag (limit + 1) (limit + 1)) [] m := by
      intro m hm
      rw [List.mem_singleton.mp hm]
      refine readsStatement_printed (Reads.mono (hread (limit + 1) limit 0) fun t ht => ?_)
      exact .of_type (by simp [ht]) (by simp [ht]) (by simp [ht])
    let loc : Layout := fun k => [.start, ⟨1, 4⟩, l].getD k l'
    have hrun := template_reads hprint loc
    have htemplate : ((document [printed e.operand]).atEnd loc).prepend
        ((document [printed e.operand]).tokens loc) = ⟨[⟨.printStart, "\x7b\x7b", .start⟩,
          ⟨.name, x, ⟨1, 4⟩⟩, ⟨.printEnd, "\x7d\x7d", l⟩], ⟨.eof, [], l'⟩⟩ := by
      simp [document, printed, Phrase.series, Phrase.atEnd, htokens]
      rfl
    have hresult : (document [printed e.operand]).value loc = printTree (tree ⟨1, 4⟩) := by
      simp [document, printed, Phrase.series, hvalue]
      rfl
    rw [htemplate, hresult] at hrun
    simp [parseTemplate, hstream, hrun]

/-- Only tags bind names in this way. -/
theorem Category.eq_statement {c : Category} {kind : Kind} (h : c.admits kind = true)
    (htag : kind ∈ [Kind.forTag, .setTag, .macroTag, .importTag, .fromTag]) : c = .statement := by
  simp only [List.mem_cons, List.not_mem_nil, or_false] at htag
  rcases htag with rfl | rfl | rfl | rfl | rfl <;> cases c <;> first | rfl | cases h

theorem Built.target_of_mem {Q : Token → Prop} {c : Category} {n b : Node} (h : Built Q c n)
    (hb : b ∈ n.boundNames) : Built Q .target b := by
  have hlist (hkind : n.kind ∈ [Kind.setTag, .macroTag, .importTag, .fromTag])
      (hb : b ∈ (n.child? .targets).toList.flatMap fun list => list.children.map Prod.snd) :
      Built Q .target b := by
    obtain ⟨list, hchild, hb⟩ := List.mem_flatMap.mp hb
    obtain ⟨entry, hentry, rfl⟩ := List.mem_map.mp hb
    obtain rfl := Category.eq_statement h.kind (List.mem_cons_of_mem _ hkind)
    have htargets := h.child (Node.mem_children_of_child? (Option.mem_toList.mp hchild))
    have hbelow : Category.below .statement n.kind .targets = .targets := by
      simp only [List.mem_cons, List.not_mem_nil, or_false] at hkind
      rcases hkind with hkind | hkind | hkind | hkind <;> rw [hkind] <;> rfl
    rw [hbelow] at htargets
    exact htargets.child hentry
  unfold Node.boundNames at hb
  split at hb
  · rename_i hkind
    obtain rfl := Category.eq_statement h.kind (hkind ▸ List.mem_cons_self ..)
    -- both targets of a loop stand in the same category
    rcases List.mem_append.mp hb with hb | hb <;>
      have hchild := h.child (Node.mem_children_of_child? (Option.mem_toList.mp hb)) <;>
      rwa [hkind] at hchild
  · exact hlist (by simp [*]) hb
  · exact hlist (by simp [*]) hb
  · exact hlist (by simp [*]) hb
  · exact hlist (by simp [*]) hb
  · cases hb

/-- What a tag binds is a name of the source, and it is not reserved. -/
theorem of_mem_boundNames {limit : Nat} {source : Text} {root : Node}
    (h : parseTemplate limit source = .ok root) {n b : Node} (hn : n ∈ root.nodes)
    (hb : b ∈ n.boundNames) : b.kind = .assignName ∧ IsName b.name ∧ b.name ∉ reservedNames := by
  have hroot := built_of_parseTemplate h (Q := fun tok => tok.type = .name → IsName tok.value)
    fun stream hstream tok htok => isName_of_mem hstream htok
  obtain ⟨c, hbuilt⟩ := hroot.of_mem_nodes hn
  have htarget := hbuilt.target_of_mem hb
  obtain ⟨tok, htok, hname⟩ := htarget.bound
  rw [hname]
  exact ⟨eq_of_beq htarget.kind, htok.token htok.type, htok.unreserved⟩

/-- A word that is not reserved and no word for a constant in upper case is an identifier. -/
theorem readAs_reference {x : Text} (hx : IsName x) (hfree : x ∉ reservedNames)
    (hupper : ∀ k : Keyword, x ≠ k.text true) : ReadAs x fun l => reference ⟨.name, x, l⟩ := by
  have hlower : ∀ k : Keyword, k.text false ∈ reservedNames := by
    intro k
    cases k <;> decide
  let n : Identifier := ⟨x, fun k upper hword => by
    cases upper with
    | true => exact hupper k hword
    | false => exact hfree (hword ▸ hlower k)⟩
  exact readAs_atom (e := .name n) rfl hx (fun _ => rfl) fun _ => rfl

theorem readAs_constant (k : Keyword) (hx : IsName (k.text true)) :
    ReadAs (k.text true) fun l => constant l k.value :=
  readAs_atom (e := .keyword k true) rfl hx (fun _ => rfl) fun _ => rfl

open Tracker

/-- A name that a tag binds can be read back exactly if it is no word for a constant in upper case:
standing alone, it is read as a reference to the name, else as the constant.  And wherever nothing
hides the name, a reference refers to the binding that the tag has made or reused. -/
theorem bound_name_reads_back {limit : Nat} {source : Text} {root : Node}
    (h : parseTemplate limit source = .ok root) {n b : Node} (hn : n ∈ root.nodes)
    (hb : b ∈ n.boundNames) :
    ((∀ k : Keyword, b.name ≠ k.text true) → ReadAs b.name fun l => reference ⟨.name, b.name, l⟩) ∧
    (∀ k : Keyword, b.name = k.text true → ReadAs b.name fun l => constant l k.value) ∧
    ∀ (t : Tracker) (around : List Node), t.Named →
      ∃ i, t.Declares (t.run (t.onEnter b around)) b i ∧
        ∀ ops, Spares b.name ops → ∀ (l : Location) (inside : List Node),
          let u := (t.run (t.onEnter b around)).run ops
          u.resolve? b.name = some i ∧
          u.run (u.onEnter (reference ⟨.name, b.name, l⟩) inside) =
            { u with store := u.store.modify i fun c => { c with used := true } } := by
  obtain ⟨hkind, hname, hfree⟩ := of_mem_boundNames h hn hb
  refine ⟨readAs_reference hname hfree, fun k hk => ?_, fun t around ht => ?_⟩
  · rw [hk] at hname ⊢
    exact readAs_constant k hname
  · obtain ⟨i, hi⟩ := declares_onEnter ht hkind around
    refine ⟨i, hi, fun ops hops l inside => ?_⟩
    have hresolves := (hi.refers.run hops).resolves
    refine ⟨hresolves, ?_⟩
    change ((t.run (t.onEnter b around)).run ops).use b.name = _
    rw [use, hresolves]

theorem exists_boundName (limit : Nat) (source name : Text)
    (h : (parseTemplate limit source).toOption.any (fun root =>
      root.nodes.any fun n => n.boundNames.any fun b => b.name == name) = true) :
    ∃ root n b, parseTemplate limit source = .ok root ∧ n ∈ root.nodes ∧ b ∈ n.boundNames ∧
      b.name = name := by
  cases hroot : parseTemplate limit source with
  | error e =>
    rw [hroot] at h
    cases h
  | ok root =>
    rw [hroot] at h
    obtain ⟨n, hn, hnode⟩ := List.any_eq_true.mp h
    obtain ⟨b, hb, hname⟩ := List.any_eq_true.mp hnode
    exact ⟨root, n, b, rfl, hn, hb, eq_of_beq hname⟩

/-- The alias of an imported macro. -/
theorem bound_name_reads_back_alias :
    ∃ root n b, parseTemplate 8 "\x7b% from 'forms' import input as field %\x7d" = .ok root ∧
      n ∈ root.nodes ∧ b ∈ n.boundNames ∧ b.name = "field" ∧
      (ReadAs "field" fun l => reference ⟨.name, "field", l⟩) ∧
      ∃ i, (Tracker.new [] [] true).Declares
        ((Tracker.new [] [] true).run ((Tracker.new [] [] true).onEnter b [n])) b i := by
  obtain ⟨root, n, b, hroot, hn, hb, hname⟩ := exists_boundName 8
    "\x7b% from 'forms' import input as field %\x7d" "field" (by decide +kernel)
  obtain ⟨hreads, -, hdeclares⟩ := bound_name_reads_back hroot hn hb
  obtain ⟨i, hi, -⟩ := hdeclares (.new [] [] true) [n] (named_new [] [] true)
  rw [hname] at hreads
  refine ⟨root, n, b, hroot, hn, hb, hname, hreads fun k => ?_, i, hi⟩
  cases k <;> decide

/-- A word for a constant in upper case can be bound, and it is read as the constant. -/
theorem bound_name_reads_back_upper :
    (∃ root n b, parseTemplate 8 "\x7b% set TRUE = 1 %\x7d" = .ok root ∧ n ∈ root.nodes ∧
      b ∈ n.boundNames ∧ b.name = "TRUE") ∧
    (expression 1 1 0).run ⟨[⟨.name, "TRUE", .start⟩], ⟨.eof, [], ⟨1, 5⟩⟩⟩ =
      .ok (constant .start (.bool true), ⟨[], ⟨.eof, [], ⟨1, 5⟩⟩⟩) ∧
    ¬ ReadAs "TRUE" fun l => reference ⟨.name, "TRUE", l⟩ := by
  refine ⟨exists_boundName _ _ _ (by decide +kernel), rfl, fun h => ?_⟩
  have hend : Ends ⟨.eof, [], ⟨1, 5⟩⟩ := .of_type nofun nofun nofun
  cases h.expression 1 0 0 .start ⟨[], ⟨.eof, [], ⟨1, 5⟩⟩⟩ hend

end Parser

end TwigLint
