import TwigLint.Proofs.Grammar.Operand

/-! # Precedence and associativity

Binary operators over names, written with as few parentheses as the table of operators allows: an
operand stands in parentheses if its operator binds less strongly, or as strongly on the side to
which the operator does not associate.  Precedence climbing reads back exactly this tree.
-/

namespace TwigLint.Grammar

open Phrase

/-! ## Strength -/

namespace BinaryOperator

/-- The least strength of an operator in the right operand that needs no parentheses. -/
def next (op : BinaryOperator) : Nat :=
  if op.strength.rightAssociative then op.strength.precedence else op.strength.precedence + 1

theorem mem_table (op : BinaryOperator) : (op.text, op.strength) ∈ Parser.binaryOperators := by
  obtain ⟨l₁, l₂, h, -⟩ := List.lookup_eq_some_iff.mp op.listed
  simp [h]

theorem precedence_le_next (op : BinaryOperator) : op.strength.precedence ≤ op.next := by
  unfold next
  split <;> omega

theorem next_pos (op : BinaryOperator) : 0 < op.next := by
  have hpos : ∀ x ∈ Parser.binaryOperators, 0 < x.2.precedence := by decide
  exact Nat.lt_of_lt_of_le (hpos _ op.mem_table) op.precedence_le_next

/-- Operators of the same strength associate to the same side. -/
theorem associativity_eq {o op : BinaryOperator}
    (h : o.strength.precedence = op.strength.precedence) :
    o.strength.rightAssociative = op.strength.rightAssociative := by
  have hsame : ∀ x ∈ Parser.binaryOperators, ∀ y ∈ Parser.binaryOperators,
      x.2.precedence = y.2.precedence → x.2.rightAssociative = y.2.rightAssociative := by
    decide
  exact hsame _ o.mem_table _ op.mem_table h

end BinaryOperator

/-! ## Trees of operators -/

/-- Binary operators over names. -/
inductive Operation where
  | name (n : Identifier)
  | node (op : BinaryOperator) (left right : Operation)

namespace Operation

/-- The tree has to stand in parentheses on the left of the operator. -/
def groupedLeft (op : BinaryOperator) : Operation → Bool
  | name _ => false
  | node o _ _ => o.strength.precedence < op.strength.precedence ||
    (o.strength.precedence == op.strength.precedence && op.strength.rightAssociative)

/-- The tree has to stand in parentheses on the right of the operator. -/
def groupedRight (op : BinaryOperator) : Operation → Bool
  | name _ => false
  | node o _ _ => o.strength.precedence < op.strength.precedence ||
    (o.strength.precedence == op.strength.precedence && !op.strength.rightAssociative)

/-- An operator and its right operand behind the left operand `m`. -/
def tail (op : BinaryOperator) (right : Phrase Node) (m : Node) : Phrase Node := do
  let l ← word .operator op.text
  let n ← right
  return ⟨.binary, l, [(.operator, .text op.text)], [(.left, m), (.right, n)]⟩

/-- The tokens of a tree, with as few parentheses as possible, and its nodes. -/
def phrase : Operation → Phrase Node
  | name n => (Expr.name n).phrase
  | node op left right => do
    let m ← parensIf (left.groupedLeft op) left.phrase
    tail op (parensIf (right.groupedRight op) right.phrase) m

/-- The levels of nesting in the tokens of a tree. -/
def depth : Operation → Nat
  | name _ => 1
  | node op left right =>
    max (if left.groupedLeft op then left.depth + 1 else left.depth)
      ((if right.groupedRight op then right.depth + 1 else right.depth) + 1)

theorem depth_pos (t : Operation) : 0 < t.depth := by
  cases t with
  | name n => simp [depth]
  | node op left right =>
    exact Nat.lt_of_lt_of_le (Nat.succ_pos _) (Nat.le_max_right _ _)

/-- No operator of the tree outside of parentheses is weaker than `p`. -/
def AtLeast (p : Nat) : Operation → Prop
  | name _ => True
  | node op _ _ => p ≤ op.strength.precedence

/-- An operator weaker than `p` behind the tree does not belong to its right operand. -/
def ClosedAt (p : Nat) : Operation → Prop
  | name _ => True
  | node op _ _ => p ≤ op.next

theorem atLeast_zero (t : Operation) : t.AtLeast 0 := by
  cases t with
  | name n => trivial
  | node op left right => exact Nat.zero_le _

theorem AtLeast.closedAt {p : Nat} {t : Operation} (h : t.AtLeast p) : t.ClosedAt p := by
  cases t with
  | name n => trivial
  | node op left right => exact Nat.le_trans h op.precedence_le_next

theorem node_of_groupedLeft {op : BinaryOperator} {t : Operation} (h : t.groupedLeft op = true) :
    ∃ o left right, t = node o left right := by
  cases t with
  | name n => simp [groupedLeft] at h
  | node o left right => exact ⟨o, left, right, rfl⟩

theorem node_of_groupedRight {op : BinaryOperator} {t : Operation} (h : t.groupedRight op = true) :
    ∃ o left right, t = node o left right := by
  cases t with
  | name n => simp [groupedRight] at h
  | node o left right => exact ⟨o, left, right, rfl⟩

theorem atLeast_left {op : BinaryOperator} {t : Operation} (h : t.groupedLeft op = false) {p : Nat}
    (hp : p ≤ op.strength.precedence) : t.AtLeast p := by
  cases t with
  | name n => trivial
  | node o left right =>
    simp [groupedLeft] at h
    exact Nat.le_trans hp h.1

theorem closedAt_left {op : BinaryOperator} {t : Operation} (h : t.groupedLeft op = false) :
    t.ClosedAt (op.strength.precedence + 1) := by
  cases t with
  | name n => trivial
  | node o left right =>
    simp [groupedLeft] at h
    obtain ⟨hle, hassoc⟩ := h
    simp only [ClosedAt, BinaryOperator.next]
    split
    case isTrue hright =>
      have hne : o.strength.precedence ≠ op.strength.precedence := by
        intro he
        rw [BinaryOperator.associativity_eq he, hassoc he] at hright
        exact absurd hright (by simp)
      omega
    case isFalse => omega

theorem atLeast_right {op : BinaryOperator} {t : Operation} (h : t.groupedRight op = false) :
    t.AtLeast op.next := by
  cases t with
  | name n => trivial
  | node o left right =>
    simp [groupedRight] at h
    simp only [AtLeast, BinaryOperator.next]
    split
    case isTrue => exact h.1
    case isFalse hleft =>
      have hne : o.strength.precedence ≠ op.strength.precedence := fun he => hleft (h.2 he)
      omega

end Operation

end TwigLint.Grammar

namespace TwigLint.Parser

open Grammar

/-! ## Tokens behind a tree -/

/-- The token cannot continue an expression of operators at least as strong as `p`. -/
structure Stops (p : Nat) (t : Token) : Prop where
  notArrow : t.type ≠ .arrow
  noMark : ∀ m ∈ ["(", ".", "[", "|"], t.is .punctuation (m : String) = false
  weaker : t.type = .operator → ∀ o, binaryOperators.lookup t.value = some o → o.precedence < p

theorem Stops.mono {p q : Nat} {t : Token} (h : Stops p t) (hpq : p ≤ q) : Stops q t :=
  ⟨h.notArrow, h.noMark, fun ht o ho => Nat.lt_of_lt_of_le (h.weaker ht o ho) hpq⟩

theorem Ends.stops {t : Token} (h : Ends t) (p : Nat) : Stops p t :=
  ⟨h.notArrow, fun m hm => h.noMark m (List.mem_append_left ["?"] hm),
    fun ht => absurd ht h.notOperator⟩

theorem stops_operator (op : BinaryOperator) {p : Nat} (hp : op.strength.precedence < p)
    (l : Location) : Stops p ⟨.operator, op.text, l⟩ := by
  refine ⟨by simp, fun m _ => by simp, fun _ o ho => ?_⟩
  rw [op.listed] at ho
  exact Option.some.inj ho ▸ hp

/-- Behind a left operand comes the operator, which is not stronger than itself. -/
theorem stops_tail (op : BinaryOperator) (right : Phrase Node) (m : Node) (loc : Layout)
    (s : TokenStream) :
    Stops (op.strength.precedence + 1)
      (s.prepend ((Operation.tail op right m).tokens loc)).current :=
  stops_operator op (Nat.lt_succ_self _) _

theorem binaryStep_stops (sub : Nat → Parser Node) {p : Nat} (n : Node) {s : TokenStream}
    (h : Stops p s.current) : (binaryStep sub p n).run s = .ok (none, s) := by
  by_cases ht : s.current.type = .operator
  · cases ho : binaryOperators.lookup s.current.value with
    | none => simp [binaryStep, ht, ho]
    | some o => simp [binaryStep, ht, ho, h.weaker ht o ho]
  · exact binaryStep_stop sub p n ht

/-! ## No arrow ahead -/

theorem paramsThenArrow_node (op : BinaryOperator) (left right : Operation) (loc : Layout)
    (s : TokenStream) :
    paramsThenArrow (s.prepend ((Operation.node op left right).phrase.tokens loc)).tokens =
      false := by
  induction left generalizing op right loc s with
  | name n => exact paramsThenArrow_cons_cons (by simp [CommaOr]) _ _
  | node o left' right' ih _ =>
    rw [Operation.phrase, Phrase.bind_tokens, TokenStream.prepend_append]
    cases Operation.groupedLeft op (.node o left' right') with
    | false => exact ih o right' loc _
    | true => exact paramsThenArrow_cons (t := ⟨.punctuation, "(", _⟩) (by simp) _

theorem arrowAhead_parensIf (b : Bool) {t : Operation}
    (h : ∀ loc (s : TokenStream), s.current.type ≠ .arrow →
      arrowAhead (s.prepend (t.phrase.tokens loc)) = false)
    (hb : b = true → ∃ op left right, t = .node op left right) (loc : Layout) {s : TokenStream}
    (hs : s.current.type ≠ .arrow) :
    arrowAhead (s.prepend ((Phrase.parensIf b t.phrase).tokens loc)) = false := by
  cases b with
  | false => exact h loc s hs
  | true =>
    obtain ⟨op, left, right, rfl⟩ := hb rfl
    simp [Phrase.parensIf, Phrase.parens, arrowAhead_paren, paramsThenArrow_node]

theorem arrowAhead_operation (t : Operation) (loc : Layout) (s : TokenStream)
    (hs : s.current.type ≠ .arrow) : arrowAhead (s.prepend (t.phrase.tokens loc)) = false := by
  induction t generalizing loc s with
  | name n => exact arrowAhead_operand (.name n) loc hs
  | node op left right ih _ =>
    rw [Operation.phrase, Phrase.bind_tokens, TokenStream.prepend_append]
    exact arrowAhead_parensIf _ ih Operation.node_of_groupedLeft loc
      (stops_tail op _ _ _ s).notArrow

/-! ## Climbing -/

/-- The tree is read from its first operand on: the loop over its operators comes to its root. -/
def Climbs (limit : Nat) (t : Operation) : Prop :=
  ∀ (levels p q : Nat) (loc : Layout) (s : TokenStream), t.depth ≤ levels + 1 → t.AtLeast p →
    t.ClosedAt q → Stops q s.current →
    ∃ first s₁, (operand (expression limit levels)).run (s.prepend (t.phrase.tokens loc)) =
        .ok (first, s₁) ∧
      ∀ n s', Loop (binaryStep (expression limit levels) p) (t.phrase.value loc) s n s' →
        Loop (binaryStep (expression limit levels) p) first s₁ n s'

variable {limit : Nat} {t : Operation}

theorem Climbs.expression (h : Climbs limit t) {levels p : Nat} (hd : t.depth ≤ levels)
    (hp : t.AtLeast p) (loc : Layout) {s : TokenStream} (hs : Stops p s.current)
    (hq : p = 0 → s.current.is .punctuation "?" = false) :
    (Parser.expression limit levels p).run (s.prepend (t.phrase.tokens loc)) =
      .ok (t.phrase.value loc, s) := by
  cases levels with
  | zero => exact absurd hd (Nat.not_le.mpr t.depth_pos)
  | succ levels =>
    obtain ⟨first, s₁, hop, hloop⟩ := h levels p p loc s hd hp hp.closedAt hs
    have harrow := arrowAhead_operation t loc s hs.notArrow
    have hbin := hloop _ _ (.stop (binaryStep_stops _ _ hs))
    by_cases hzero : p = 0
    · subst hzero
      exact expressionOver_zero harrow hop hbin (.stop (conditionalStep_stop _ _ (hq rfl)))
    · exact expressionOver_pos hzero harrow hop hbin

theorem Climbs.parens (h : Climbs limit t) {levels : Nat} (hd : t.depth ≤ levels) (loc : Layout)
    {s : TokenStream}
    (hs : ∀ m ∈ ["(", ".", "[", "|"], s.current.is .punctuation (m : String) = false) :
    (operand (Parser.expression limit levels)).run
        (s.prepend ((Phrase.parens t.phrase).tokens loc)) =
      .ok ((Phrase.parens t.phrase).value loc, s) := by
  have hin : Reads (Parser.expression limit levels 0) t.phrase Closes := fun loc s hs =>
    h.expression hd t.atLeast_zero loc (hs.ends.stops 0) fun _ => hs.ends.noMark "?" (by simp)
  rw [operand_parens hin]
  exact postfixes_stop _ _ fun m hm => hs m (List.mem_cons_of_mem _ hm)

theorem Climbs.right (h : Climbs limit t) {levels : Nat} {op : BinaryOperator}
    (hd : (if t.groupedRight op then t.depth + 1 else t.depth) ≤ levels) (loc : Layout)
    {s : TokenStream} (hs : Stops op.next s.current) :
    (Parser.expression limit levels op.next).run
        (s.prepend ((Phrase.parensIf (t.groupedRight op) t.phrase).tokens loc)) =
      .ok ((Phrase.parensIf (t.groupedRight op) t.phrase).value loc, s) := by
  have hnext : op.next ≠ 0 := Nat.pos_iff_ne_zero.mp op.next_pos
  cases hg : t.groupedRight op with
  | false =>
    simp only [hg] at hd
    exact h.expression hd (Operation.atLeast_right hg) loc hs fun h0 => absurd h0 hnext
  | true =>
    simp only [hg] at hd
    cases levels with
    | zero => exact absurd hd (by simp)
    | succ levels =>
      have harrow := arrowAhead_parensIf true (arrowAhead_operation t)
        (fun _ => Operation.node_of_groupedRight hg) loc hs.notArrow
      exact expressionOver_pos hnext harrow (h.parens (Nat.le_of_succ_le_succ hd) loc hs.noMark)
        (.stop (binaryStep_stops _ _ hs))

/-- The operator at the root takes what stands on its left. -/
theorem Climbs.tail (h : Climbs limit t) {levels p : Nat} {op : BinaryOperator}
    (hd : (if t.groupedRight op then t.depth + 1 else t.depth) ≤ levels)
    (hp : p ≤ op.strength.precedence) (m : Node) (loc : Layout) {s : TokenStream}
    (hs : Stops op.next s.current) :
    (binaryStep (Parser.expression limit levels) p m).run (s.prepend
        ((Operation.tail op (.parensIf (t.groupedRight op) t.phrase) m).tokens loc)) =
      .ok (some ((Operation.tail op (.parensIf (t.groupedRight op) t.phrase) m).value loc), s) := by
  have hright := fun loc => h.right hd loc hs
  simp only [BinaryOperator.next] at hright
  obtain ⟨his, hisNot, hcoalesce⟩ := op.plain
  simp [Operation.tail, binaryStep, op.listed, Nat.not_lt.mpr hp, his, hisNot, hcoalesce, hright]
  rfl

theorem climbs_operation (limit : Nat) (t : Operation) : Climbs limit t := by
  induction t with
  | name n =>
    intro levels p q loc s _ _ _ hs
    exact ⟨_, s, operand_alone (.name n) (by simp [Expr.isAtom]) loc s hs.noMark, fun n s' h => h⟩
  | node op left right ihl ihr =>
    intro levels p q loc s hd hp hq hs
    obtain ⟨hleft, hright⟩ := Nat.max_le.mp hd
    have hroot := fun m loc => ihr.tail (Nat.le_of_succ_le_succ hright) hp m loc (hs.mono hq)
    rw [Operation.phrase, Phrase.bind_tokens, Phrase.bind_value, TokenStream.prepend_append]
    have hnext (m : Node) (loc : Layout) (n : Node) (s' : TokenStream)
        (h : Loop (binaryStep (Parser.expression limit levels) p)
          ((Operation.tail op (.parensIf (right.groupedRight op) right.phrase) m).value loc)
          s n s') :
        Loop (binaryStep (Parser.expression limit levels) p) m (s.prepend
          ((Operation.tail op (.parensIf (right.groupedRight op) right.phrase) m).tokens loc))
          n s' :=
      .next (hroot m loc) (by simp [Operation.tail]) h
    cases hg : left.groupedLeft op with
    | false =>
      simp only [hg] at hleft
      obtain ⟨first, s₁, hop, hloop⟩ := ihl levels p (op.strength.precedence + 1) loc _ hleft
        (Operation.atLeast_left hg hp) (Operation.closedAt_left hg)
        (stops_tail op _ _ _ s)
      exact ⟨first, s₁, hop, fun n s' h => hloop n s' (hnext _ _ n s' h)⟩
    | true =>
      simp only [hg] at hleft
      exact ⟨_, _, ihl.parens (Nat.le_of_succ_le_succ hleft) loc
        (stops_tail op _ _ _ s).noMark, hnext _ _⟩

/-- A tree of binary operators, written with as few parentheses as possible, is parsed to exactly
this tree, and exactly its tokens are consumed. -/
theorem expression_reads_operation (t : Operation) (limit levels : Nat) (h : t.depth ≤ levels)
    (loc : Layout) (s : TokenStream) (hs : Ends s.current) :
    (expression limit levels 0).run (s.prepend (t.phrase.tokens loc)) =
      .ok (t.phrase.value loc, s) := by
  have hquestion : s.current.is .punctuation "?" = false := hs.noMark "?" (by simp)
  exact (climbs_operation limit t).expression h t.atLeast_zero loc (hs.stops 0) fun _ => hquestion

/-- `a - (b - c)` keeps its parentheses, because `-` associates to the left. -/
theorem expression_reads_operation_minus :
    (expression 4 4 0).run
        ⟨[⟨.name, "a", ⟨1, 0⟩⟩, ⟨.operator, "-", ⟨1, 1⟩⟩, ⟨.punctuation, "(", ⟨1, 2⟩⟩,
          ⟨.name, "b", ⟨1, 3⟩⟩, ⟨.operator, "-", ⟨1, 4⟩⟩, ⟨.name, "c", ⟨1, 5⟩⟩,
          ⟨.punctuation, ")", ⟨1, 6⟩⟩], ⟨.eof, [], ⟨1, 7⟩⟩⟩ =
      .ok (⟨.binary, ⟨1, 1⟩, [(.operator, .text "-")],
        [(.left, ⟨.name, ⟨1, 0⟩, [(.name, .text "a")], []⟩),
          (.right, ⟨.binary, ⟨1, 4⟩, [(.operator, .text "-")],
            [(.left, ⟨.name, ⟨1, 3⟩, [(.name, .text "b")], []⟩),
              (.right, ⟨.name, ⟨1, 5⟩, [(.name, .text "c")], []⟩)]⟩)]⟩,
        ⟨[], ⟨.eof, [], ⟨1, 7⟩⟩⟩) :=
  expression_reads_operation
    (.node ⟨"-", ⟨30, false⟩, rfl, by decide⟩
      (.name ⟨"a", by intro k upper; cases k <;> cases upper <;> decide⟩)
      (.node ⟨"-", ⟨30, false⟩, rfl, by decide⟩
        (.name ⟨"b", by intro k upper; cases k <;> cases upper <;> decide⟩)
        (.name ⟨"c", by intro k upper; cases k <;> cases upper <;> decide⟩)))
    4 4 (by decide) (fun k => ⟨1, k⟩) ⟨[], ⟨.eof, [], ⟨1, 7⟩⟩⟩
    (.of_type (by decide) (by decide) (by decide))

end TwigLint.Parser
