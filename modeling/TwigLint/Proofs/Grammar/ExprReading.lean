import TwigLint.Proofs.Grammar.Construct
import TwigLint.Proofs.Grammar.Body
import Mathlib.Order.MinMax

/-! # Reading expressions

Every expression is read back as the tree that its grammar gives it, as soon as the depth limit
leaves a level for each level of nesting.
-/

namespace TwigLint.Parser

open Grammar

variable {sub : Nat → Parser Node} {e : Expr}

/-! ## Whole expressions -/

theorem reads_atom (ha : e.isAtom = true) : Reads (expressionOver sub 0) e.phrase Closes := by
  intro loc s hs
  rw [← operand_of_isAtom ha]
  have hop : (operand sub).run (s.prepend (e.operand.tokens loc)) = .ok (e.operand.value loc, s) :=
    operand_alone e (by simp [ha]) loc s fun m hm =>
      hs.ends.noMark m (List.mem_append_left ["?"] hm)
  exact expressionOver_stop (arrowAhead_operand e loc hs.ends.notArrow) hop hs.ends

theorem reads_level {limit d : Nat} {m : Phrase Node}
    (h : ∀ l, d ≤ l → Reads (expressionOver (expression limit l) 0) m Closes) :
    ∀ levels, d + 1 ≤ levels → Reads (expression limit levels 0) m Closes := by
  intro levels hl
  cases levels with
  | zero => omega
  | succ l => exact h l (by omega)

theorem ReadsItems.cons {item : Parser Node} {close : String} {m : Phrase Node}
    {ms : List (Phrase Node)} (h : ReadsItem item close m) (hs : ReadsItems item close ms) :
    ReadsItems item close (m :: ms) :=
  List.forall_mem_cons.mpr ⟨h, hs⟩

mutual

theorem expr_reads (limit : Nat) : (e : Expr) → ∀ levels, e.depth ≤ levels →
    Reads (expression limit levels 0) e.phrase Closes
  | .text _ => reads_level fun _ (_ : 0 ≤ _) => reads_atom rfl
  | .int _ => reads_level fun _ (_ : 0 ≤ _) => reads_atom rfl
  | .keyword _ _ => reads_level fun _ (_ : 0 ≤ _) => reads_atom rfl
  | .name _ => reads_level fun _ (_ : 0 ≤ _) => reads_atom rfl
  | .array items => reads_level fun l h => reads_array (elements_read limit items l h)
  | .hash entries => reads_level fun l h => reads_hash (entries_read limit entries l h)
  | .call f args => reads_level fun l h => reads_call f (args_read limit args l h)
  | .filter e _ args => reads_level fun l h =>
    reads_filter (readsPart_expression (expr_reads limit e) (le_of_max_le_left h))
      (optional_read limit args l (le_of_max_le_right h))
  | .test e negated name args => reads_level fun l h =>
    reads_test (readsPart_expression (expr_reads limit e) (le_of_max_le_left h)) negated name
      (optional_read limit args l (le_of_max_le_right h))
  | .member e key => reads_level fun _ h =>
    reads_member (readsPart_expression (expr_reads limit e) h) key
  | .index e key => reads_level fun _ h =>
    reads_index (readsPart_expression (expr_reads limit e) h) key
  | .method e key args => reads_level fun l h =>
    reads_method (readsPart_expression (expr_reads limit e) (le_of_max_le_left h)) key
      (args_read limit args l (le_of_max_le_right h))
  | .subscript e key => reads_level fun _ h =>
    reads_subscript (readsPart_expression (expr_reads limit e) (le_of_max_le_left h))
      (readsPart_expression (expr_reads limit key) (le_of_max_le_right h))
  | .slice e start length => reads_level fun l h =>
    reads_slice (readsPart_expression (expr_reads limit e) (le_of_max_le_left h))
      (bound_read limit start l (le_of_max_le_left (le_of_max_le_right h)))
      (bound_read limit length l (le_of_max_le_right (le_of_max_le_right h)))
  | .unary op e => reads_level fun _ h =>
    reads_unary (readsPart_expression (expr_reads limit e) h) op
  | .binary op left right => reads_level fun _ h =>
    reads_binary (readsPart_expression (expr_reads limit left) (le_of_max_le_left h))
      (readsPart_expression (expr_reads limit right) (le_of_max_le_right h)) op
  | .ternary c m n => reads_level fun _ h =>
    reads_ternary (readsPart_expression (expr_reads limit c) (le_of_max_le_left h))
      (readsPart_expression (expr_reads limit m) (le_of_max_le_left (le_of_max_le_right h)))
      (readsPart_expression (expr_reads limit n) (le_of_max_le_right (le_of_max_le_right h)))
  | .ternaryThen c m => reads_level fun _ h =>
    reads_ternaryThen (readsPart_expression (expr_reads limit c) (le_of_max_le_left h))
      (readsPart_expression (expr_reads limit m) (le_of_max_le_right h))
  | .ternaryElse c n => reads_level fun _ h =>
    reads_ternaryElse (readsPart_expression (expr_reads limit c) (le_of_max_le_left h))
      (readsPart_expression (expr_reads limit n) (le_of_max_le_right h))
  | .coalesce left right => reads_level fun _ h =>
    reads_coalesce (readsPart_expression (expr_reads limit left) (le_of_max_le_left h))
      (readsPart_expression (expr_reads limit right) (le_of_max_le_right h))
  | .arrow params body => reads_level fun _ h =>
    reads_arrow (readsPart_expression (expr_reads limit body) h) params

theorem bound_read (limit : Nat) : (x : Option Expr) → ∀ levels, Expr.optionalDepth x ≤ levels →
    ∀ e ∈ x, ReadsPart (expression limit levels) e
  | none => fun _ _ _ he => nomatch he
  | some e => fun _ h _ he => Option.some.inj he ▸ readsPart_expression (expr_reads limit e) h

theorem element_reads (limit : Nat) : (x : Element) → ∀ levels, x.depth ≤ levels →
    ReadsItem (element (expression limit levels 0)) "]" x.phrase
  | .plain e => fun _ h => readsItem_plain (readsPart_expression (expr_reads limit e) h)
  | .spread e => fun _ h => readsItem_spread (readsPart_expression (expr_reads limit e) h)

theorem elements_read (limit : Nat) : (xs : List Element) → ∀ levels, Element.depths xs ≤ levels →
    ReadsItems (element (expression limit levels 0)) "]" (Element.phrases xs)
  | [] => fun _ _ _ hm => nomatch hm
  | x :: xs => fun l h => .cons (element_reads limit x l (le_of_max_le_left h))
    (elements_read limit xs l (le_of_max_le_right h))

theorem entry_reads (limit : Nat) : (x : Entry) → ∀ levels, x.depth ≤ levels →
    ReadsItem (hashEntry (expression limit levels 0)) "\x7d" x.phrase
  | .spread e => fun _ h => readsItem_spreadEntry (readsPart_expression (expr_reads limit e) h)
  | .short n => fun _ _ => readsItem_short n
  | .text key e => fun _ h => readsItem_textKey (readsPart_expression (expr_reads limit e) h) key
  | .int key e => fun _ h => readsItem_intKey (readsPart_expression (expr_reads limit e) h) key
  | .label key e => fun _ h => readsItem_labelKey (readsPart_expression (expr_reads limit e) h) key
  | .computed key e => fun _ h =>
    readsItem_computed (readsPart_expression (expr_reads limit key) (le_of_max_le_left h))
      (readsPart_expression (expr_reads limit e) (le_of_max_le_right h))

theorem entries_read (limit : Nat) : (xs : List Entry) → ∀ levels, Entry.depths xs ≤ levels →
    ReadsItems (hashEntry (expression limit levels 0)) "\x7d" (Entry.phrases xs)
  | [] => fun _ _ _ hm => nomatch hm
  | x :: xs => fun l h => .cons (entry_reads limit x l (le_of_max_le_left h))
    (entries_read limit xs l (le_of_max_le_right h))

theorem arg_reads (limit : Nat) : (x : Arg) → ∀ levels, x.depth ≤ levels →
    ReadsItem (argument (expression limit levels 0)) ")" x.phrase
  | .positional e => fun _ h => readsItem_positional (readsPart_expression (expr_reads limit e) h)
  | .named name colon e => fun _ h =>
    readsItem_named (readsPart_expression (expr_reads limit e) h) name colon

theorem args_read (limit : Nat) : (xs : List Arg) → ∀ levels, Arg.depths xs ≤ levels →
    ReadsItems (argument (expression limit levels 0)) ")" (Arg.phrases xs)
  | [] => fun _ _ _ hm => nomatch hm
  | x :: xs => fun l h => .cons (arg_reads limit x l (le_of_max_le_left h))
    (args_read limit xs l (le_of_max_le_right h))

theorem optional_read (limit : Nat) : (x : Option (List Arg)) → ∀ levels,
    Arg.optionalDepth x ≤ levels →
    ∀ as ∈ x, ReadsItems (argument (expression limit levels 0)) ")" (Arg.phrases as)
  | none => fun _ _ _ has => nomatch has
  | some as => fun l h _ has => Option.some.inj has ▸ args_read limit as l h

end

/-- A print statement of any expression, with parentheses around its compound parts, is parsed to
the tree that the grammar gives the expression, and nothing is left. -/
theorem template_reads_expression (e : Expr) (limit : Nat) (h : e.depth ≤ limit) (loc : Layout) :
    (template limit).run
        (((document [printed e.phrase]).atEnd loc).prepend
          ((document [printed e.phrase]).tokens loc)) =
      .ok ((document [printed e.phrase]).value loc, (document [printed e.phrase]).atEnd loc) := by
  have hexpr : Reads (expression limit limit 0) e.phrase fun t => t.type = .printEnd :=
    Reads.mono (expr_reads limit e limit h) fun t ht => .inr ht
  have hprint : ReadsStatement (expression limit limit 0) (nestedTag limit limit) []
      (printed e.phrase) :=
    readsStatement_printed hexpr
  apply template_reads
  simpa using hprint

/-- `a ?: b` repeats its condition. -/
theorem template_reads_expression_elvis :
    (template 2).run
        ⟨[⟨.printStart, "\x7b\x7b", ⟨1, 0⟩⟩, ⟨.name, "a", ⟨1, 1⟩⟩, ⟨.punctuation, "?", ⟨1, 2⟩⟩,
          ⟨.punctuation, ":", ⟨1, 3⟩⟩, ⟨.name, "b", ⟨1, 4⟩⟩, ⟨.printEnd, "\x7d\x7d", ⟨1, 5⟩⟩],
          ⟨.eof, [], ⟨1, 6⟩⟩⟩ =
      .ok (⟨.template, ⟨1, 0⟩, [], [(.body, ⟨.body, ⟨1, 0⟩, [], [(.item 0, ⟨.print, ⟨1, 0⟩, [],
        [(.expr, ⟨.conditional, ⟨1, 1⟩, [],
          [(.expr1, ⟨.name, ⟨1, 1⟩, [(.name, .text "a")], []⟩),
            (.expr2, ⟨.name, ⟨1, 1⟩, [(.name, .text "a")], []⟩),
            (.expr3, ⟨.name, ⟨1, 4⟩, [(.name, .text "b")], []⟩)]⟩)]⟩)]⟩)]⟩,
        ⟨[], ⟨.eof, [], ⟨1, 6⟩⟩⟩) :=
  template_reads_expression
    (.ternaryElse (.name ⟨"a", by intro k upper; cases k <;> cases upper <;> decide⟩)
      (.name ⟨"b", by intro k upper; cases k <;> cases upper <;> decide⟩)) 2 (by decide)
    fun k => ⟨1, k⟩

end TwigLint.Parser
