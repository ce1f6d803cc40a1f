import TwigLint.Proofs.Grammar.Operand

/-! # Constructs

Each way to build an expression from others is read back, provided that its parts are.  A construct
stands in front of a token that closes it, so that no operator, access or argument behind it can be
taken for a part of it.
-/

namespace TwigLint.Parser

open Grammar

variable {sub : Nat → Parser Node}

/-! ## Postfixes -/

variable {e : Expr}

/-- An operand with one access, subscript or filter behind it. -/
theorem reads_postfix (he : ReadsPart sub e) (tail : Node → Phrase Node)
    (hstart : ∀ n, (tail n).Starts fun t => t.is .punctuation "(" = false ∧ t.type ≠ .arrow)
    (hstep : ∀ n loc s, Ends s.current →
      (postfixStep (sub 0) n).run (s.prepend ((tail n).tokens loc)) =
        .ok (some ((tail n).value loc), s)) :
    Reads (expressionOver sub 0) (e.operand >>= tail) Closes := by
  intro loc s hs
  have hfirst := (hstart (e.operand.value loc)).current (loc.shift (e.operand.tokens loc).length) s
  have hshorter :=
    (hstart (e.operand.value loc)).shorter (loc.shift (e.operand.tokens loc).length) s
  rw [Phrase.bind_tokens, TokenStream.prepend_append]
  have hop := operand_run e he.inside loc _ hfirst.1
  rw [postfixes, (Loop.next (hstep _ _ s hs.ends) hshorter
    (.stop (postfixStep_stop _ _ hs.ends.postfixes))).extend] at hop
  exact expressionOver_stop (arrowAhead_operand e loc hfirst.2) hop hs.ends

/-- An item of a list in brackets is read, and does not start with the closing bracket. -/
structure ReadsItem (item : Parser Node) (close : String) (m : Phrase Node) : Prop where
  reads : Reads item m (CommaOr close)
  starts : m.Starts fun t => t.is .punctuation close = false

/-- All items of a list in brackets are read. -/
def ReadsItems (item : Parser Node) (close : String) (ms : List (Phrase Node)) : Prop :=
  ∀ m ∈ ms, ReadsItem item close m

variable {expr : Parser Node}

theorem ReadsItems.commaList {item : Parser Node} {close : String} {ms : List (Phrase Node)}
    (h : ReadsItems item close ms) (missing : SyntaxFault) (hclose : close ≠ ",") (loc : Layout)
    (s : TokenStream) (l : Location) (ts : List Token) :
    (Parser.commaList close missing item).run
        ((s.prepend (⟨.punctuation, close, l⟩ :: ts)).prepend ((Phrase.commas ms).tokens loc)) =
      .ok ((Phrase.commas ms).value loc, s.prepend ts) :=
  commaList_reads missing hclose (fun m hm => (h m hm).reads) (fun m hm => (h m hm).starts) loc
    (s.prepend ts) l

theorem arguments_reads {args : List Arg} (h : ReadsItems (argument expr) ")" (Arg.phrases args)) :
    Reads (arguments expr) (bracketed "(" ")" .arguments (Arg.phrases args)) fun _ => True := by
  intro loc s _
  simp [arguments, bracketed, h.commaList]

theorem bracketed_starts (opening closing : String) (kind : Kind) (ms : List (Phrase Node)) :
    (bracketed opening closing kind ms).Starts fun t => t.is .punctuation opening = true :=
  .bind (.word fun _ => by simp) _

theorem optionalArguments_reads {args : Option (List Arg)}
    (h : ∀ as ∈ args, ReadsItems (argument expr) ")" (Arg.phrases as)) (l : Location) :
    Reads (optionalArguments expr l) (Arg.optional l args)
      fun t => t.is .punctuation "(" = false := by
  intro loc s hs
  cases args with
  | none => simp [optionalArguments, hs]; rfl
  | some as =>
    have ha := arguments_reads (h as rfl) loc s trivial
    have hp := (bracketed_starts "(" ")" .arguments (Arg.phrases as)).current loc s
    simp [optionalArguments, ha, hp]

theorem reads_filter (he : ReadsPart sub e) {name : Text} {args : Option (List Arg)}
    (ha : ∀ as ∈ args, ReadsItems (argument (sub 0)) ")" (Arg.phrases as)) :
    Reads (expressionOver sub 0) (Expr.filter e name args).phrase Closes := by
  refine reads_postfix he _ (fun n => .bind (.word (by simp)) _) fun n loc s hs => ?_
  have hargs := optionalArguments_reads ha
  simp [postfixStep, filterOf, hargs, hs.noMark "(" (by simp)]
  rfl

theorem reads_member (he : ReadsPart sub e) (key : Label) :
    Reads (expressionOver sub 0) (Expr.member e key).phrase Closes := by
  refine reads_postfix he _ (fun n => .bind (.word (by simp)) _) fun n loc s hs => ?_
  have hparen := hs.noMark "(" (by simp)
  cases key with
  | name t => simp [postfixStep, dotAccess, Label.phrase, isWordToken, hparen]; rfl
  | operator t ht => simp [postfixStep, dotAccess, Label.phrase, isWordToken, ht, hparen]; rfl

theorem reads_index (he : ReadsPart sub e) (key : IntLiteral) :
    Reads (expressionOver sub 0) (Expr.index e key).phrase Closes := by
  refine reads_postfix he _ (fun n => .bind (.word (by simp)) _) fun n loc s hs => ?_
  have hparen := hs.noMark "(" (by simp)
  simp [postfixStep, dotAccess, isWordToken, numberValue_ofNat, hparen]
  rfl

theorem reads_method (he : ReadsPart sub e) (key : Label) {args : List Arg}
    (ha : ReadsItems (argument (sub 0)) ")" (Arg.phrases args)) :
    Reads (expressionOver sub 0) (Expr.method e key args).phrase Closes := by
  refine reads_postfix he _ (fun n => .bind (.word (by simp)) _) fun n loc s hs => ?_
  have hargs := arguments_reads ha
  have hparen := (bracketed_starts "(" ")" .arguments (Arg.phrases args)).current
  cases key with
  | name t => simp [postfixStep, dotAccess, Label.phrase, isWordToken, hparen, hargs]; rfl
  | operator t ht =>
    simp [postfixStep, dotAccess, Label.phrase, isWordToken, ht, hparen, hargs]
    rfl

theorem reads_subscript (he : ReadsPart sub e) {key : Expr} (hk : ReadsPart sub key) :
    Reads (expressionOver sub 0) (Expr.subscript e key).phrase Closes := by
  refine reads_postfix he _ (fun n => .bind (.word (by simp)) _) fun n loc s hs => ?_
  have hkey := hk.operand 0
  simp [postfixStep, subscript, operand_current, hkey]
  rfl

theorem reads_slice (he : ReadsPart sub e) {start length : Option Expr}
    (hs : ∀ x ∈ start, ReadsPart sub x) (hl : ∀ x ∈ length, ReadsPart sub x) :
    Reads (expressionOver sub 0) (Expr.slice e start length).phrase Closes := by
  refine reads_postfix he _ (fun n => .bind (.word (by simp)) _) fun n loc s _ => ?_
  cases start with
  | none =>
    cases length with
    | none => simp [postfixStep, subscript]; rfl
    | some y =>
      have hy := (hl y rfl).operand 0
      simp [postfixStep, subscript, operand_current, hy]
      rfl
  | some x =>
    have hx := (hs x rfl).operand 0
    cases length with
    | none => simp [postfixStep, subscript, operand_current, hx]; rfl
    | some y =>
      have hy := (hl y rfl).operand 0
      simp [postfixStep, subscript, operand_current, hx, hy]
      rfl

/-! ## Operators -/

/-- An operand with one binary operator or test behind it. -/
theorem reads_operation (he : ReadsPart sub e) (tail : Node → Phrase Node)
    (hstart : ∀ n, (tail n).Starts fun t => t.type = .operator)
    (hstep : ∀ n loc s, Closes s.current →
      (binaryStep sub 0 n).run (s.prepend ((tail n).tokens loc)) =
        .ok (some ((tail n).value loc), s)) :
    Reads (expressionOver sub 0) (e.operand >>= tail) Closes := by
  intro loc s hs
  have hfirst := (hstart (e.operand.value loc)).current (loc.shift (e.operand.tokens loc).length) s
  have hshorter :=
    (hstart (e.operand.value loc)).shorter (loc.shift (e.operand.tokens loc).length) s
  rw [Phrase.bind_tokens, TokenStream.prepend_append]
  have hop := operand_alone e he.inside loc _ fun m _ => by
    rw [Token.is, hfirst]
    rfl
  exact expressionOver_zero (arrowAhead_operand e loc (by simp [hfirst])) hop
    (.next (hstep _ _ s hs) hshorter (.stop (binaryStep_stop sub 0 _ hs.ends.notOperator)))
    (.stop (conditionalStep_stop _ _ (hs.ends.noMark "?" (by simp))))

theorem reads_binary (he : ReadsPart sub e) {right : Expr} (hr : ReadsPart sub right)
    (op : BinaryOperator) :
    Reads (expressionOver sub 0) (Expr.binary op e right).phrase Closes := by
  refine reads_operation he _ (fun n => .bind (.word (by simp)) _) fun n loc s hs => ?_
  have hright := fun p loc => hr.operand p loc s hs.ends
  obtain ⟨his, hisNot, hcoalesce⟩ := op.plain
  simp [binaryStep, op.listed, his, hisNot, hcoalesce, hright]
  rfl

theorem reads_coalesce (he : ReadsPart sub e) {right : Expr} (hr : ReadsPart sub right) :
    Reads (expressionOver sub 0) (Expr.coalesce e right).phrase Closes := by
  refine reads_operation he _ (fun n => .bind (.word (by simp)) _) fun n loc s hs => ?_
  have hright := fun p loc => hr.operand p loc s hs.ends
  have hlisted : binaryOperators.lookup (Text.ofString "??") = some ⟨300, true⟩ := rfl
  simp [binaryStep, hlisted, hright]
  rfl

theorem Closes.not_name {t : Token} (h : Closes t) : t.type ≠ .name := by
  rcases h with h | h
  · simp [Token.type_of_is h]
  · simp [h]

theorem optional_current (args : Option (List Arg)) (l : Location) (loc : Layout)
    {s : TokenStream} (hs : s.current.type ≠ .name) :
    (s.prepend ((Arg.optional l args).tokens loc)).current.type ≠ .name := by
  cases args with
  | none => exact hs
  | some as => simp [Token.type_of_is ((bracketed_starts "(" ")" .arguments _).current loc s),
      Arg.optional]

/-- A test name of one word does not swallow what stands behind it. -/
theorem testOf_run (expr : Parser Node) (op : Token) (n : Node) (name : TestName) (loc : Layout)
    {s : TokenStream} (hs : s.current.type ≠ .name) :
    (testOf expr op n).run (s.prepend (name.phrase.tokens loc)) = (do
      let args ← optionalArguments expr (name.phrase.value loc)
      let result := test op.location name.text n args
      return if op.value == "is not" then unary op.location "not" result else result :
        Parser Node).run s := by
  cases name with
  | single t =>
    have hsecond (w : Text) : s.current.is .name w = false := by simp [Token.is, hs]
    cases h : secondWords.lookup t <;> simp [testOf, TestName.phrase, TestName.text, h, hsecond]
  | sameAs => simp [testOf, TestName.phrase, TestName.text, secondWords, List.lookup_cons]; rfl
  | divisibleBy => simp [testOf, TestName.phrase, TestName.text, secondWords, List.lookup_cons]; rfl

theorem reads_test (he : ReadsPart sub e) (negated : Bool) (name : TestName)
    {args : Option (List Arg)}
    (ha : ∀ as ∈ args, ReadsItems (argument (sub 0)) ")" (Arg.phrases as)) :
    Reads (expressionOver sub 0) (Expr.test e negated name args).phrase Closes := by
  refine reads_operation he _ (fun n => .bind (.word (by simp)) _) fun n loc s hs => ?_
  have hargs := fun l loc => optionalArguments_reads ha l loc s (hs.ends.noMark "(" (by simp))
  have hname := fun l loc => optional_current args l loc hs.not_name
  have his : binaryOperators.lookup (Text.ofString "is") = some ⟨100, false⟩ := rfl
  have hisNot : binaryOperators.lookup (Text.ofString "is not") = some ⟨100, false⟩ := rfl
  cases negated with
  | false => simp [binaryStep, his, testOf_run, hname, hargs]; rfl
  | true => simp [binaryStep, hisNot, testOf_run, hname, hargs]; rfl

/-- An operand with one ternary operator behind it. -/
theorem reads_conditional (he : ReadsPart sub e) (tail : Node → Phrase Node)
    (hstart : ∀ n, (tail n).Starts fun t => t.is .punctuation "?" = true)
    (hstep : ∀ n loc s, Closes s.current →
      (conditionalStep (sub 0) n).run (s.prepend ((tail n).tokens loc)) =
        .ok (some ((tail n).value loc), s)) :
    Reads (expressionOver sub 0) (e.operand >>= tail) Closes := by
  intro loc s hs
  have hfirst := (hstart (e.operand.value loc)).current (loc.shift (e.operand.tokens loc).length) s
  have hshorter :=
    (hstart (e.operand.value loc)).shorter (loc.shift (e.operand.tokens loc).length) s
  rw [Phrase.bind_tokens, TokenStream.prepend_append]
  have hop := operand_alone e he.inside loc _ fun m hm => by
    rw [Token.eq_of_is hfirst, Token.is_mk]
    revert m
    decide
  have htype := Token.type_of_is hfirst
  exact expressionOver_zero (arrowAhead_operand e loc (by simp [htype])) hop
    (.stop (binaryStep_stop sub 0 _ (by simp [htype])))
    (.next (hstep _ _ s hs) hshorter
      (.stop (conditionalStep_stop _ _ (hs.ends.noMark "?" (by simp)))))

theorem Closes.not_colon {t : Token} (h : Closes t) : t.is .punctuation ":" = false := by
  rcases h with h | h
  · rw [Token.eq_of_is h]
    simp
  · simp [Token.is, h]

theorem reads_ternary (he : ReadsPart sub e) {consequent alternative : Expr}
    (hc : ReadsPart sub consequent) (ha : ReadsPart sub alternative) :
    Reads (expressionOver sub 0) (Expr.ternary e consequent alternative).phrase Closes := by
  refine reads_conditional he _ (fun n => .bind (.word (by simp)) _) fun n loc s hs => ?_
  have hthen := hc.operand 0
  have helse := fun loc => ha.operand 0 loc s hs.ends
  simp [conditionalStep, operand_current, hthen, helse]
  rfl

theorem reads_ternaryThen (he : ReadsPart sub e) {consequent : Expr}
    (hc : ReadsPart sub consequent) :
    Reads (expressionOver sub 0) (Expr.ternaryThen e consequent).phrase Closes := by
  refine reads_conditional he _ (fun n => .bind (.word (by simp)) _) fun n loc s hs => ?_
  have hthen := fun loc => hc.operand 0 loc s hs.ends
  simp [conditionalStep, operand_current, hthen, hs.not_colon]
  rfl

theorem reads_ternaryElse (he : ReadsPart sub e) {alternative : Expr}
    (ha : ReadsPart sub alternative) :
    Reads (expressionOver sub 0) (Expr.ternaryElse e alternative).phrase Closes := by
  refine reads_conditional he _ (fun n => .bind (.word (by simp)) _) fun n loc s hs => ?_
  have helse := fun loc => ha.operand 0 loc s hs.ends
  simp [conditionalStep, helse]
  rfl

theorem reads_unary (he : ReadsPart sub e) (op : UnaryOperator) :
    Reads (expressionOver sub 0) (Expr.unary op e).phrase Closes := by
  intro loc s hs
  have hoperand := fun loc => he.operand op.precedence loc s hs.ends
  have hstop := fun n => postfixes_stop (sub 0) n hs.ends.postfixes
  refine expressionOver_stop ?_ ?_ hs.ends
  · simp [arrowAhead]
  · simp [operand, op.listed, hoperand, hstop]
    rfl

/-! ## Brackets -/

theorem reads_array {items : List Element}
    (h : ReadsItems (element (sub 0)) "]" (Element.phrases items)) :
    Reads (expressionOver sub 0) (Expr.array items).phrase Closes := by
  intro loc s hs
  have hstop := fun n => postfixes_stop (sub 0) n hs.ends.postfixes
  refine expressionOver_stop ?_ ?_ hs.ends
  · simp [bracketed, arrowAhead]
  · simp [bracketed, operand, primary, array, h.commaList, hstop]

theorem reads_hash {entries : List Entry}
    (h : ReadsItems (hashEntry (sub 0)) "\x7d" (Entry.phrases entries)) :
    Reads (expressionOver sub 0) (Expr.hash entries).phrase Closes := by
  intro loc s hs
  have hstop := fun n => postfixes_stop (sub 0) n hs.ends.postfixes
  refine expressionOver_stop ?_ ?_ hs.ends
  · simp [bracketed, arrowAhead]
  · simp [bracketed, operand, primary, hash, h.commaList, hstop]

theorem reads_call (f : Identifier) {args : List Arg}
    (h : ReadsItems (argument (sub 0)) ")" (Arg.phrases args)) :
    Reads (expressionOver sub 0) (Expr.call f args).phrase Closes := by
  intro loc s hs
  have hargs := arguments_reads h
  have hparen := (bracketed_starts "(" ")" .arguments (Arg.phrases args)).current
  have hstop := fun n => postfixes_stop (sub 0) n hs.ends.postfixes
  refine expressionOver_stop ?_ ?_ hs.ends
  · simp [arrowAhead, Token.type_of_is (hparen _ _)]
  · simp [operand, primary, keywordLiteral?_identifier, hparen, hargs, hstop]
    rfl

/-! ## Arrow functions -/

theorem paramsThenArrow_commas (first : Text) (rest : List Text) (loc : Layout) (s : TokenStream)
    (l l' : Location) (ts : List Token) :
    paramsThenArrow (((s.prepend (⟨.arrow, "=>", l'⟩ :: ts)).prepend
      [⟨.punctuation, ")", l⟩]).prepend
        ((Phrase.commas ((first :: rest).map bound)).tokens loc)).tokens = true := by
  induction rest generalizing first loc with
  | nil => simp [Phrase.commas, Phrase.commaTail, bound, TokenStream.prepend, paramsThenArrow]
  | cons second rest ih =>
    have hrest := ih second ((loc.shift 1).shift 1)
    simp only [TokenStream.prepend] at hrest ⊢
    simpa [Phrase.commas, Phrase.commaTail, bound, paramsThenArrow] using hrest

/-- Parameters behind the first are read with the closing parenthesis. -/
theorem paramStep_loop (names : List Text) (acc : List Node) (loc : Layout) (s : TokenStream)
    (l : Location) :
    Loop paramStep acc ((s.prepend [⟨.punctuation, ")", l⟩]).prepend
        ((Phrase.commaTail (names.map bound)).tokens loc))
      (((Phrase.commaTail (names.map bound)).value loc).reverse ++ acc) s := by
  induction names generalizing acc loc with
  | nil => exact .stop (by simp [paramStep, Phrase.commaTail])
  | cons name names ih =>
    simp only [List.map_cons, Phrase.commaTail, Phrase.bind_tokens, Phrase.bind_value,
      Phrase.pure_value, Phrase.pure_tokens, List.append_nil, List.reverse_cons, List.append_assoc,
      TokenStream.prepend_append]
    refine .next ?_ ?_ (ih _ _)
    · simp [paramStep, bound]
      rfl
    · simp only [TokenStream.length_prepend, Phrase.mark_tokens, List.length_singleton]
      omega

theorem paramStep_commas (first : Text) (rest : List Text) (loc : Layout) (s : TokenStream)
    (l : Location) :
    Loop paramStep [] ((s.prepend [⟨.punctuation, ")", l⟩]).prepend
        ((Phrase.commas ((first :: rest).map bound)).tokens loc))
      ((Phrase.commas ((first :: rest).map bound)).value loc).reverse s := by
  simp only [List.map_cons, Phrase.commas, Phrase.bind_tokens, Phrase.bind_value,
    Phrase.pure_value, Phrase.pure_tokens, List.append_nil, List.reverse_cons,
    TokenStream.prepend_append]
  refine .next ?_ ?_ (paramStep_loop _ _ _ _ l)
  · simp [paramStep, bound]
    rfl
  · simp [bound]

theorem arrowParams_reads (params : Params) : Reads arrowParams params.phrase fun _ => True := by
  intro loc s _
  cases params with
  | bare name => simp [arrowParams, Params.phrase, bound]; rfl
  | listed first rest =>
    have hloop := fun s l => (paramStep_commas first rest (loc.shift 1) s l).extend
    simp only [List.map_cons] at hloop
    simp [arrowParams, Params.phrase, hloop]

theorem params_starts (params : Params) : params.phrase.Starts fun _ => True := by
  cases params with
  | bare name => exact .bind (.bind (.word fun _ => trivial) _) _
  | listed first rest => exact .bind (.word fun _ => trivial) _

theorem arrowAhead_params (params : Params) (loc : Layout) (s : TokenStream) (l : Location)
    (ts : List Token) :
    arrowAhead ((s.prepend (⟨.arrow, "=>", l⟩ :: ts)).prepend (params.phrase.tokens loc)) =
      true := by
  cases params with
  | bare name => simp [arrowAhead, Params.phrase, bound]
  | listed first rest =>
    have hahead := paramsThenArrow_commas first rest (loc.shift 1) s
    simp only [List.map_cons] at hahead
    simp [Params.phrase, arrowAhead_paren, hahead]

theorem reads_arrow {body : Expr} (hb : ReadsPart sub body) (params : Params) :
    Reads (expressionOver sub 0) (Expr.arrow params body).phrase Closes := by
  intro loc s hs
  have hbody := fun loc => hb.operand 0 loc s hs.ends
  have hparams := fun loc s => arrowParams_reads params loc s trivial
  simp [expressionOver, arrow, hparams, hbody, arrowAhead_params,
    (params_starts params).location]
  rfl

/-! ## Items -/

theorem readsItem_plain (h : ReadsPart sub e) :
    ReadsItem (element (sub 0)) "]" (Element.plain e).phrase := by
  refine ⟨fun loc s hs => ?_, operand_starts_not e (by simp)⟩
  have hoperand := fun loc => h.operand 0 loc s (hs.ends (by simp))
  simp [element, Token.is, operand_not_operator, hoperand]

theorem readsItem_spread (h : ReadsPart sub e) :
    ReadsItem (element (sub 0)) "]" (Element.spread e).phrase := by
  refine ⟨fun loc s hs => ?_, .bind (.word fun _ => by simp) _⟩
  have hoperand := fun loc => h.operand 0 loc s (hs.ends (by simp))
  simp [element, hoperand]
  rfl

/-- An operand in front of a comma or parenthesis does not look like a named argument. -/
theorem argument_operand (e : Expr) (loc : Layout) {s : TokenStream} (hs : CommaOr ")" s.current) :
    (argument expr).run (s.prepend (e.operand.tokens loc)) =
      expr.run (s.prepend (e.operand.tokens loc)) := by
  by_cases ha : e.isAtom
  · obtain ⟨t, ht, -⟩ := atom_tokens ha loc
    simp [argument, ht, hs.not_mark]
  · simp only [Bool.not_eq_true] at ha
    rw [operand_of_compound ha]
    simp [argument, Phrase.parens]

theorem readsItem_positional (h : ReadsPart sub e) :
    ReadsItem (argument (sub 0)) ")" (Arg.positional e).phrase := by
  refine ⟨fun loc s hs => ?_, operand_starts_not e (by simp)⟩
  simp [argument_operand e loc hs, h.operand 0 loc s (hs.ends (by simp))]

theorem readsItem_named (h : ReadsPart sub e) (name : Text) (colon : Bool) :
    ReadsItem (argument (sub 0)) ")" (Arg.named name colon e).phrase := by
  refine ⟨fun loc s hs => ?_, .bind (.word fun _ => by simp) _⟩
  have hoperand := fun loc => h.operand 0 loc s (hs.ends (by simp))
  cases colon <;> simp [argument, hoperand] <;> rfl

theorem readsItem_spreadEntry (h : ReadsPart sub e) :
    ReadsItem (hashEntry (sub 0)) "\x7d" (Entry.spread e).phrase := by
  refine ⟨fun loc s hs => ?_, .bind (.word fun _ => by simp) _⟩
  have hoperand := fun loc => h.operand 0 loc s (hs.ends (by simp))
  simp [hashEntry, element, hoperand]
  rfl

theorem readsItem_short (n : Identifier) :
    ReadsItem (hashEntry (sub 0)) "\x7d" (Entry.short n).phrase := by
  refine ⟨fun loc s hs => ?_, .bind (.word fun _ => by simp) _⟩
  rcases hs with h | h
  · simp [hashEntry, isWordToken, h]; rfl
  · simp [hashEntry, isWordToken, h]; rfl

theorem readsItem_textKey (h : ReadsPart sub e) (key : Text) :
    ReadsItem (hashEntry (sub 0)) "\x7d" (Entry.text key e).phrase := by
  refine ⟨fun loc s hs => ?_, .bind (.word fun _ => by simp) _⟩
  have hoperand := fun loc => h.operand 0 loc s (hs.ends (by simp))
  simp [hashEntry, hashValue, hoperand]
  rfl

theorem readsItem_intKey (h : ReadsPart sub e) (key : IntLiteral) :
    ReadsItem (hashEntry (sub 0)) "\x7d" (Entry.int key e).phrase := by
  refine ⟨fun loc s hs => ?_, .bind (.word fun _ => by simp) _⟩
  have hoperand := fun loc => h.operand 0 loc s (hs.ends (by simp))
  simp [hashEntry, hashValue, numberValue_ofNat, hoperand]
  rfl

theorem readsItem_labelKey (h : ReadsPart sub e) (key : Label) :
    ReadsItem (hashEntry (sub 0)) "\x7d" (Entry.label key e).phrase := by
  cases key with
  | name t =>
    refine ⟨fun loc s hs => ?_, .bind (.bind (.word fun _ => by simp) _) _⟩
    have hoperand := fun loc => h.operand 0 loc s (hs.ends (by simp))
    simp [hashEntry, hashValue, Label.phrase, isWordToken, hoperand]
    rfl
  | operator t ht =>
    refine ⟨fun loc s hs => ?_, .bind (.bind (.word fun _ => by simp) _) _⟩
    have hoperand := fun loc => h.operand 0 loc s (hs.ends (by simp))
    have hdots : t ≠ "..." := by
      rintro rfl
      exact absurd ht (by decide)
    simp [hashEntry, hashValue, Label.phrase, isWordToken, ht, hdots, hoperand]
    rfl

theorem readsItem_computed {key : Expr} (hk : ReadsPart sub key) (h : ReadsPart sub e) :
    ReadsItem (hashEntry (sub 0)) "\x7d" (Entry.computed key e).phrase := by
  refine ⟨fun loc s hs => ?_, .bind (.word fun _ => by simp) _⟩
  have hkey := hk.operand 0
  have hoperand := fun loc => h.operand 0 loc s (hs.ends (by simp))
  simp [hashEntry, hashValue, isWordToken, hkey, hoperand]
  rfl

end TwigLint.Parser
