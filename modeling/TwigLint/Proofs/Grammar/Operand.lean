import TwigLint.Proofs.Grammar.Expr
import TwigLint.Proofs.Grammar.Reading

/-! # Operands

An operand is a constant, a name, or an expression in parentheses.  It is read as one operand of
whatever stands around it, and is never taken for the start of an arrow function.
-/

namespace TwigLint.Parser

open Grammar

/-! ## Tokens behind an expression -/

/-- The token cannot continue an operand. -/
structure Ends (t : Token) : Prop where
  notOperator : t.type ≠ .operator
  notArrow : t.type ≠ .arrow
  noMark : ∀ m ∈ ["(", ".", "[", "|", "?"], t.is .punctuation (m : String) = false

/-- The token closes an expression. -/
def Closes (t : Token) : Prop := t.is .punctuation ")" = true ∨ t.type = .printEnd

@[simp] theorem ends_mark (m : String) (l : Location) :
    Ends ⟨.punctuation, m, l⟩ ↔ m ∉ ["(", ".", "[", "|", "?"] := by
  constructor
  · intro h hm
    simpa using h.noMark m hm
  · intro h
    refine ⟨by simp, by simp, fun k hk => ?_⟩
    have hne : m ≠ k := fun he => h (he ▸ hk)
    simp [hne]

theorem Ends.of_type {t : Token} (ho : t.type ≠ .operator) (ha : t.type ≠ .arrow)
    (hp : t.type ≠ .punctuation) : Ends t :=
  ⟨ho, ha, fun m _ => by simp [Token.is, hp]⟩

@[simp] theorem ends_name (v : Text) (l : Location) : Ends ⟨.name, v, l⟩ :=
  .of_type (by simp) (by simp) (by simp)

@[simp] theorem ends_tagEnd (v : Text) (l : Location) : Ends ⟨.tagEnd, v, l⟩ :=
  .of_type (by simp) (by simp) (by simp)

theorem Ends.postfixes {t : Token} (h : Ends t) :
    ∀ m ∈ [".", "[", "|"], t.is .punctuation (m : String) = false :=
  fun m hm => h.noMark m (List.mem_cons_of_mem _ (List.mem_append_left ["?"] hm))

theorem Closes.ends {t : Token} (h : Closes t) : Ends t := by
  rcases h with h | h
  · rw [Token.eq_of_is h]
    simp
  · exact .of_type (by simp [h]) (by simp [h]) (by simp [h])

theorem CommaOr.ends {t : Token} {close : String} (hclose : close ∈ [")", "]", "\x7d"])
    (h : CommaOr close t) : Ends t := by
  rcases h with h | h
  · rw [Token.eq_of_is h]
    simp
  · rw [Token.eq_of_is h, ends_mark]
    simp only [List.mem_cons, List.not_mem_nil, or_false] at hclose
    rcases hclose with rfl | rfl | rfl <;> simp

theorem postfixStep_stop (expr : Parser Node) (n : Node) {s : TokenStream}
    (h : ∀ m ∈ [".", "[", "|"], s.current.is .punctuation (m : String) = false) :
    (postfixStep expr n).run s = .ok (none, s) := by
  simp at h
  simp [postfixStep, h]

theorem postfixes_stop (expr : Parser Node) (n : Node) {s : TokenStream}
    (h : ∀ m ∈ [".", "[", "|"], s.current.is .punctuation (m : String) = false) :
    (postfixes expr n).run s = .ok (n, s) :=
  (Loop.stop (postfixStep_stop expr n h)).extend

theorem binaryStep_stop (sub : Nat → Parser Node) (p : Nat) (n : Node) {s : TokenStream}
    (h : s.current.type ≠ .operator) : (binaryStep sub p n).run s = .ok (none, s) := by
  simp [binaryStep, h]

theorem conditionalStep_stop (expr : Parser Node) (n : Node) {s : TokenStream}
    (h : s.current.is .punctuation "?" = false) :
    (conditionalStep expr n).run s = .ok (none, s) := by
  simp [conditionalStep, h]

theorem keywordLiteral?_text (k : Keyword) (upper : Bool) :
    keywordLiteral? (k.text upper) = some k.value := by
  cases k <;> cases upper <;> rfl

theorem keywordLiteral?_identifier (n : Identifier) : keywordLiteral? n.text = none := by
  have h (k : Keyword) : n.text ≠ k.text false ∧ n.text ≠ k.text true :=
    ⟨n.notKeyword k false, n.notKeyword k true⟩
  have ht : n.text ≠ "true" ∧ n.text ≠ "TRUE" := h .true
  have hf : n.text ≠ "false" ∧ n.text ≠ "FALSE" := h .false
  have hl : n.text ≠ "null" ∧ n.text ≠ "NULL" := h .null
  have hn : n.text ≠ "none" ∧ n.text ≠ "NONE" := h .none
  simp [keywordLiteral?, ht, hf, hl, hn]

theorem numberValue_ofNat (n : IntLiteral) : numberValue (Text.ofNat n) = .int n := by
  simp [numberValue, Text.toInt64?_ofNat n.isLt]

/-! ## Operands -/

variable {sub : Nat → Parser Node}

@[simp] theorem grouped_phrase (e : Expr) : e.grouped e.phrase = e.operand := rfl

theorem operand_of_isAtom {e : Expr} (h : e.isAtom = true) : e.operand = e.phrase := by
  simp [Expr.operand, Expr.grouped, h]

theorem operand_of_compound {e : Expr} (h : e.isAtom = false) : e.operand = .parens e.phrase := by
  simp [Expr.operand, Expr.grouped, h]

/-- What stands in parentheses is an operand. -/
theorem operand_parens {m : Phrase Node} (h : Reads (sub 0) m Closes) (loc : Layout)
    (s : TokenStream) :
    (operand sub).run (s.prepend ((Phrase.parens m).tokens loc)) =
      (postfixes (sub 0) ((Phrase.parens m).value loc)).run s := by
  have hc : ∀ l : Location, Closes ((s.prepend [⟨.punctuation, ")", l⟩]).current) := by
    intro l
    exact .inl (by simp)
  simp [operand, Phrase.parens, h _ _ (hc _)]

theorem operand_run (e : Expr) (h : e.isAtom = false → Reads (sub 0) e.phrase Closes) (loc : Layout)
    (s : TokenStream) (hs : s.current.is .punctuation "(" = false) :
    (operand sub).run (s.prepend (e.operand.tokens loc)) =
      (postfixes (sub 0) (e.operand.value loc)).run s := by
  by_cases ha : e.isAtom
  · rw [operand_of_isAtom ha]
    cases e with
    | text t => simp [operand, primary]; rfl
    | int n => simp [operand, primary, numberValue_ofNat]; rfl
    | keyword k upper => simp [operand, primary, keywordLiteral?_text]; rfl
    | name n => simp [operand, primary, keywordLiteral?_identifier, hs]; rfl
    | _ => simp [Expr.isAtom] at ha
  · simp only [Bool.not_eq_true] at ha
    rw [operand_of_compound ha]
    exact operand_parens (h ha) loc s

/-- An operand without accesses, subscripts and filters behind it. -/
theorem operand_alone (e : Expr) (h : e.isAtom = false → Reads (sub 0) e.phrase Closes)
    (loc : Layout) (s : TokenStream)
    (hs : ∀ m ∈ ["(", ".", "[", "|"], s.current.is .punctuation (m : String) = false) :
    (operand sub).run (s.prepend (e.operand.tokens loc)) = .ok (e.operand.value loc, s) := by
  rw [operand_run e h loc s (hs "(" (by simp))]
  exact postfixes_stop _ _ fun m hm => hs m (List.mem_cons_of_mem _ hm)

/-! ## No arrow ahead -/

theorem operand_starts (e : Expr) :
    e.operand.Starts fun t => t.type = .name ∨ t.type = .string ∨ t.type = .number ∨
      t.is .punctuation "(" = true := by
  by_cases ha : e.isAtom
  · rw [operand_of_isAtom ha]
    cases e with
    | text t => exact .bind (.word fun _ => by simp) _
    | int n => exact .bind (.word fun _ => by simp) _
    | keyword k upper => exact .bind (.word fun _ => by simp) _
    | name n => exact .bind (.word fun _ => by simp) _
    | _ => simp [Expr.isAtom] at ha
  · simp only [Bool.not_eq_true] at ha
    rw [operand_of_compound ha]
    exact .bind (.word fun _ => by simp) _

theorem operand_starts_not (e : Expr) {m : String} (hm : m ≠ "(") :
    e.operand.Starts fun t => t.is .punctuation m = false := by
  refine (operand_starts e).mono fun t ht => ?_
  rcases ht with h | h | h | h
  · simp [Token.is, h]
  · simp [Token.is, h]
  · simp [Token.is, h]
  · rw [Token.eq_of_is h]
    simp [hm.symm]

theorem operand_current (e : Expr) (loc : Layout) (s : TokenStream) {m : String} (hm : m ≠ "(") :
    (s.prepend (e.operand.tokens loc)).current.is .punctuation m = false :=
  (operand_starts_not e hm).current loc s

theorem operand_not_operator (e : Expr) (loc : Layout) (s : TokenStream) :
    (s.prepend (e.operand.tokens loc)).current.type ≠ .operator := by
  rcases (operand_starts e).current loc s with h | h | h | h
  · simp [h]
  · simp [h]
  · simp [h]
  · simp [Token.type_of_is h]

theorem atom_tokens {e : Expr} (h : e.isAtom = true) (loc : Layout) :
    ∃ t, e.operand.tokens loc = [t] ∧ t.is .punctuation "(" = false := by
  rw [operand_of_isAtom h]
  cases e with
  | text t => exact ⟨_, rfl, by simp⟩
  | int n => exact ⟨_, rfl, by simp⟩
  | keyword k upper => exact ⟨_, rfl, by simp⟩
  | name n => exact ⟨_, rfl, by simp⟩
  | _ => simp [Expr.isAtom] at h

theorem paramsThenArrow_cons {t : Token} (h : t.type ≠ .name) (ts : List Token) :
    paramsThenArrow (t :: ts) = false := by
  cases ts <;> simp [paramsThenArrow, h]

theorem paramsThenArrow_cons_cons {u : Token} (h : ¬ CommaOr ")" u) (t : Token) (ts : List Token) :
    paramsThenArrow (t :: u :: ts) = false := by
  simp only [CommaOr, not_or, Bool.not_eq_true] at h
  simp [paramsThenArrow, h]

/-- Behind an operand comes neither the end of parameters nor a further one. -/
theorem paramsThenArrow_operand (e : Expr) (loc : Layout) {s : TokenStream} {t : Token}
    {ts : List Token} (ht : ¬ CommaOr ")" t) :
    paramsThenArrow ((s.prepend (t :: ts)).prepend (e.operand.tokens loc)).tokens = false := by
  by_cases ha : e.isAtom
  · obtain ⟨u, hu, -⟩ := atom_tokens ha loc
    rw [hu]
    exact paramsThenArrow_cons_cons ht _ _
  · simp only [Bool.not_eq_true] at ha
    rw [operand_of_compound ha]
    exact paramsThenArrow_cons (by simp) _

theorem paramsThenArrow_bind {α : Type} (e : Expr) {type : TokenType} {value : Text}
    (h : ∀ l, ¬ CommaOr ")" ⟨type, value, l⟩) (f : Node → Location → Phrase α) (loc : Layout)
    (s : TokenStream) :
    paramsThenArrow (s.prepend ((do
      let n ← e.operand
      let l ← Phrase.word type value
      f n l).tokens loc)).tokens = false := by
  rw [Phrase.bind_tokens, TokenStream.prepend_append]
  exact paramsThenArrow_operand e loc (h _)

/-- What stands in parentheses is no list of parameters. -/
theorem paramsThenArrow_phrase {e : Expr} (h : e.isAtom = false) (loc : Layout) (s : TokenStream) :
    paramsThenArrow (s.prepend (e.phrase.tokens loc)).tokens = false := by
  cases e with
  | text t => simp [Expr.isAtom] at h
  | int n => simp [Expr.isAtom] at h
  | keyword k upper => simp [Expr.isAtom] at h
  | name n => simp [Expr.isAtom] at h
  | array items => exact paramsThenArrow_cons (by simp) _
  | hash entries => exact paramsThenArrow_cons (by simp) _
  | call f args => exact paramsThenArrow_cons_cons (by simp [CommaOr]) _ _
  | filter e name args => exact paramsThenArrow_bind e (by simp [CommaOr]) _ loc s
  | test e negated name args => exact paramsThenArrow_bind e (by simp [CommaOr]) _ loc s
  | member e key => exact paramsThenArrow_bind e (by simp [CommaOr]) _ loc s
  | index e key => exact paramsThenArrow_bind e (by simp [CommaOr]) _ loc s
  | method e key args => exact paramsThenArrow_bind e (by simp [CommaOr]) _ loc s
  | subscript e key => exact paramsThenArrow_bind e (by simp [CommaOr]) _ loc s
  | slice e start length => exact paramsThenArrow_bind e (by simp [CommaOr]) _ loc s
  | unary op e => exact paramsThenArrow_cons (by simp) _
  | binary op left right => exact paramsThenArrow_bind left (by simp [CommaOr]) _ loc s
  | ternary c m n => exact paramsThenArrow_bind c (by simp [CommaOr]) _ loc s
  | ternaryThen c m => exact paramsThenArrow_bind c (by simp [CommaOr]) _ loc s
  | ternaryElse c n => exact paramsThenArrow_bind c (by simp [CommaOr]) _ loc s
  | coalesce left right => exact paramsThenArrow_bind left (by simp [CommaOr]) _ loc s
  | arrow params body =>
    cases params with
    | bare name => exact paramsThenArrow_cons_cons (by simp [CommaOr]) _ _
    | listed first rest => exact paramsThenArrow_cons (by simp) _

theorem arrowAhead_paren (s : TokenStream) (l : Location) (ts : List Token) :
    arrowAhead (s.prepend (⟨.punctuation, "(", l⟩ :: ts)) =
      paramsThenArrow (s.prepend ts).tokens := by
  simp [arrowAhead]
  rfl

/-- An operand is no arrow function. -/
theorem arrowAhead_operand (e : Expr) (loc : Layout) {s : TokenStream}
    (hs : s.current.type ≠ .arrow) : arrowAhead (s.prepend (e.operand.tokens loc)) = false := by
  by_cases ha : e.isAtom
  · obtain ⟨t, ht, hp⟩ := atom_tokens ha loc
    rw [ht]
    by_cases hn : t.type = .name <;> simp [arrowAhead, hn, hs, hp]
  · simp only [Bool.not_eq_true] at ha
    have hin := paramsThenArrow_phrase ha
    rw [operand_of_compound ha]
    simp [Phrase.parens, arrowAhead_paren, hin]

/-! ## Parts of an expression -/

/-- The parser for the expressions inside another one reads `e` as a part of it, and what stands in
the parentheses of `e`. -/
structure ReadsPart (sub : Nat → Parser Node) (e : Expr) : Prop where
  operand : ∀ p, Reads (sub p) e.operand Ends
  inside : e.isAtom = false → Reads (sub 0) e.phrase Closes

theorem expressionOver_zero {k m n : Node} {s s₁ s₂ s₃ : TokenStream}
    (harrow : arrowAhead s = false) (hop : (operand sub).run s = .ok (k, s₁))
    (hbin : Loop (binaryStep sub 0) k s₁ m s₂) (hcond : Loop (conditionalStep (sub 0)) m s₂ n s₃) :
    (expressionOver sub 0).run s = .ok (n, s₃) := by
  simp [expressionOver, harrow, hop, hbin.extend, hcond.extend]

theorem expressionOver_pos {p : Nat} (hp : p ≠ 0) {m n : Node} {s s₁ s₂ : TokenStream}
    (harrow : arrowAhead s = false) (hop : (operand sub).run s = .ok (m, s₁))
    (hbin : Loop (binaryStep sub p) m s₁ n s₂) : (expressionOver sub p).run s = .ok (n, s₂) := by
  simp [expressionOver, harrow, hop, hbin.extend, hp]

/-- An operand with nothing behind it is a whole expression. -/
theorem expressionOver_stop {p : Nat} {n : Node} {s s' : TokenStream}
    (harrow : arrowAhead s = false) (hop : (operand sub).run s = .ok (n, s'))
    (hs : Ends s'.current) : (expressionOver sub p).run s = .ok (n, s') := by
  have hbin := Loop.stop (binaryStep_stop sub p n hs.notOperator)
  by_cases hp : p = 0
  · subst hp
    exact expressionOver_zero harrow hop hbin
      (.stop (conditionalStep_stop _ n (hs.noMark "?" (by simp))))
  · exact expressionOver_pos hp harrow hop hbin

/-- Parts are read by the parser for whole expressions as soon as it has the levels for them. -/
theorem readsPart_expression {limit levels : Nat} {e : Expr}
    (h : ∀ levels, e.depth ≤ levels → Reads (expression limit levels 0) e.phrase Closes)
    (hl : e.groupedDepth e.depth ≤ levels) : ReadsPart (expression limit levels) e := by
  constructor
  · intro p loc s hs
    cases levels with
    | zero =>
      simp only [Expr.groupedDepth] at hl
      split at hl <;> omega
    | succ levels =>
      have hin : e.isAtom = false → Reads (expression limit levels 0) e.phrase Closes := by
        intro ha
        apply h
        simp [Expr.groupedDepth, ha] at hl
        exact hl
      have hop := operand_alone e hin loc s fun m hm => hs.noMark m (List.mem_append_left ["?"] hm)
      exact expressionOver_stop (arrowAhead_operand e loc hs.notArrow) hop hs
  · intro ha
    apply h
    simp [Expr.groupedDepth, ha] at hl
    omega

end TwigLint.Parser
