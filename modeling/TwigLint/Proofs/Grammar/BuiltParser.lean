import TwigLint.Template.Parser.Statement
import TwigLint.Proofs.Grammar.Built
import TwigLint.Proofs.Grammar.Yields

/-! # What the parser builds

Every parser for a part of a template builds a tree for such a part, of the tokens that it reads,
when the parsers inside it do.  The proof follows the parser.
-/

namespace TwigLint

namespace Parser

open Node

variable {Q : Token → Prop}

/-- On tokens with the property `Q`, the parser builds a tree for such a part. -/
abbrev Builds (Q : Token → Prop) (c : Category) (p : Parser Node) : Prop :=
  Yields Q p (Built Q c)

/-! ## Expressions -/

section Expressions

variable {expr : Parser Node} (hexpr : Builds Q .expression expr)
include hexpr

theorem argument_builds : Builds Q .expression (argument expr) := by
  refine .bind .stream fun s _ => .ite ?_ hexpr
  refine .bind .next fun name hname => .bind .next fun _ _ => hexpr.bind fun value hvalue => ?_
  exact .pure (((plain_leaf .expression .namedArgument rfl (.of hname)).withAttr .name
    _).withChild .value hvalue).built

theorem arguments_builds : Builds Q .expression (arguments expr) := by
  refine .bind .expect fun opening hopening => ?_
  exact ((argument_builds hexpr).commaList _ _).bind fun items hitems =>
    .pure (built_list (.of hopening) rfl hitems)

theorem optionalArguments_builds {l : Location} (hl : Placed Q l) :
    Builds Q .expression (optionalArguments expr l) :=
  .bind .atToken fun _ _ => .ite (arguments_builds hexpr) (.pure (built_none hl))

theorem testOf_builds {operator : Token} (hoperator : Q operator) {node : Node}
    (hnode : Built Q .expression node) : Builds Q .expression (testOf expr operator node) := by
  refine .bind .expect fun first hfirst => ?_
  have hrest (name : Text) : Builds Q .expression (do
      let args ← optionalArguments expr first.location
      let result := test operator.location name node args
      return if operator.value == "is not" then unary operator.location "not" result
        else result) := by
    refine (optionalArguments_builds hexpr (.of hfirst)).bind fun args hargs => .pure ?_
    have htest := built_test (.of hoperator) hnode hargs name
    split
    · exact built_unary (.of hoperator) htest "not"
    · exact htest
  cases secondWords.lookup first.value with
  | some second =>
    refine .bind .accept fun _ _ => .ite (.pure_bind ?_) (.pure_bind ?_)
    all_goals exact hrest _
  | none => exact .pure_bind (hrest _)

theorem element_builds : Builds Q .expression (element expr) := by
  refine .bind .current fun tok htok => .bind .accept fun _ _ => .ite ?_ hexpr
  refine hexpr.bind fun node hnode => .pure ?_
  exact ((plain_leaf .expression .spread rfl (.of htok)).withChild .node hnode).built

theorem array_builds {opening : Token} (hopening : Q opening) :
    Builds Q .expression (array expr opening) :=
  ((element_builds hexpr).commaList _ _).bind fun _ hitems =>
    .pure (built_list (.of hopening) rfl hitems)

theorem hashValue_builds {key : Node} (hkey : Built Q .expression key) :
    Builds Q .expression (hashValue expr key) := by
  refine .bind .accept fun _ _ => .ite (.bind .current fun _ _ => .fail_bind _ _) ?_
  exact hexpr.bind fun value hvalue => .pure (built_pair hkey hvalue)

theorem hashEntry_builds : Builds Q .expression (hashEntry expr) := by
  refine .bind .current fun tok htok => ?_
  refine .ite (element_builds hexpr) (.ite ?_ (.ite ?_ (.ite ?_ (.ite ?_ ?_))))
  · exact .bind .next fun _ _ => hashValue_builds hexpr (built_constant (.of htok) _)
  · exact .bind .next fun _ _ => hashValue_builds hexpr (built_constant (.of htok) _)
  · have hkey := built_constant (.of htok) (.text tok.value)
    refine .bind .next fun _ _ => .bind .atToken fun _ _ => .bind .atToken fun _ _ => ?_
    exact .ite (.pure (built_pair hkey (built_reference (.of htok)))) (hashValue_builds hexpr hkey)
  · refine .bind .next fun _ _ => hexpr.bind fun key hkey => .bind .expect fun _ _ => ?_
    exact hashValue_builds hexpr hkey
  · exact .fail _ _

theorem hash_builds {opening : Token} (hopening : Q opening) :
    Builds Q .expression (hash expr opening) :=
  ((hashEntry_builds hexpr).commaList _ _).bind fun _ hentries =>
    .pure (built_list (.of hopening) rfl hentries)

theorem dotAccess_builds {dot : Token} (hdot : Q dot) {node : Node}
    (hnode : Built Q .expression node) : Builds Q .expression (dotAccess expr dot node) := by
  refine .bind .next fun tok htok => ?_
  refine .ite (.pure_bind ?_) (.ite (.pure_bind ?_) (.fail_bind _ _))
  all_goals
    have hkey := built_constant (Q := Q) (.of htok)
    refine .bind .atToken fun _ _ => .ite ?_ ?_
    · refine (arguments_builds hexpr).bind fun args hargs => .pure ?_
      exact built_getAttr (.of hdot) hnode (hkey _) _ (by simpa)
    · exact .pure (built_getAttr (.of hdot) hnode (hkey _) _ (by simp))

theorem filterOf_builds {node : Option Node} (hnode : ∀ n ∈ node, Built Q .expression n) :
    Builds Q .expression (filterOf expr node) := by
  refine .bind .expect fun name hname => ?_
  exact (optionalArguments_builds hexpr (.of hname)).bind fun args hargs =>
    .pure (built_filter (.of hname) hargs _ hnode)

theorem subscript_builds {opening : Token} (hopening : Q opening) {node : Node}
    (hnode : Built Q .expression node) : Builds Q .expression (subscript expr opening node) := by
  have hslice {key length : Node} (hkey : Built Q .expression key)
      (hlength : Built Q .expression length) : Built Q .expression
        (filter opening.location "slice" node
          (listOf .arguments opening.location [key, length])) := by
    refine built_filter (.of hopening) (built_list (.of hopening) rfl ?_) _ (by simpa)
    simp [hkey, hlength]
  have hrest {key : Node} (hkey : Built Q .expression key) : Builds Q .expression (do
      if ← accept .punctuation ":" then
        let length ←
          if ← atToken .punctuation "]" then pure (constant opening.location .null) else expr
        let _ ← expectMark "]"
        return filter opening.location "slice" node
          (.listOf .arguments opening.location [key, length])
      let _ ← expectMark "]"
      return getAttr opening.location "array" node key none) := by
    refine .bind .accept fun _ _ => .ite (.bind .atToken fun _ _ => .ite (.pure_bind ?_) ?_) ?_
    · exact .bind .expect fun _ _ => .pure (hslice hkey (built_constant (.of hopening) _))
    · exact hexpr.bind fun length hlength => .bind .expect fun _ _ => .pure (hslice hkey hlength)
    · exact .bind .expect fun _ _ => .pure (built_getAttr (.of hopening) hnode hkey _ (by simp))
  refine .bind .atToken fun _ _ => .ite (.pure_bind ?_) (hexpr.bind fun key hkey => hrest hkey)
  exact hrest (built_constant (.of hopening) _)

theorem postfixStep_builds {node : Node} (hnode : Built Q .expression node) :
    Yields Q (postfixStep expr node)
      fun next => ∀ n ∈ next, Built Q .expression n := by
  have hfilter : Builds Q .expression (filterOf expr (some node)) :=
    filterOf_builds hexpr (by simpa)
  refine .bind .current fun tok htok => .ite ?_ (.ite ?_ (.ite ?_ (.pure (by simp))))
  · exact .bind .next fun _ _ => (dotAccess_builds hexpr htok hnode).bind fun n hn =>
      .pure (by simpa)
  · exact .bind .next fun _ _ => (subscript_builds hexpr htok hnode).bind fun n hn =>
      .pure (by simpa)
  · exact .bind .next fun _ _ => hfilter.bind fun n hn => .pure (by simpa)

theorem postfixes_builds {node : Node} (hnode : Built Q .expression node) :
    Builds Q .expression (postfixes expr node) :=
  .extend (fun _ h => postfixStep_builds hexpr h) hnode

theorem primary_builds : Builds Q .expression (primary expr) := by
  have hleaf {node : Node} (hnode : Built Q .expression node) := postfixes_builds hexpr hnode
  refine .bind .next fun tok htok => ?_
  cases tok.type with
  | name =>
    cases keywordLiteral? tok.value with
    | some v => exact .pure_bind (hleaf (built_constant (.of htok) v))
    | none =>
      refine .bind .atToken fun _ _ => .ite ?_ (.pure_bind (hleaf (built_reference (.of htok))))
      refine (arguments_builds hexpr).bind fun args hargs => .pure_bind (hleaf ?_)
      exact (((plain_leaf .expression .function rfl (.of htok)).withAttr .name _).withChild
        .arguments hargs).built
  | number => exact .pure_bind (hleaf (built_constant (.of htok) _))
  | string => exact .pure_bind (hleaf (built_constant (.of htok) _))
  | punctuation =>
    refine .ite ?_ (.ite ?_ (.fail_bind _ _))
    · exact (array_builds hexpr htok).bind fun node hnode => hleaf hnode
    · exact (hash_builds hexpr htok).bind fun node hnode => hleaf hnode
  | _ => exact .fail_bind _ _

theorem conditionalStep_builds {condition : Node} (h : Built Q .expression condition) :
    Yields Q (conditionalStep expr condition)
      fun next => ∀ n ∈ next, Built Q .expression n := by
  refine .bind .accept fun _ _ => .ite (.pure (by simp)) (.bind .accept fun _ _ => .ite ?_ ?_)
  · refine hexpr.bind fun alternative ha => .pure ?_
    simpa using built_conditional h.location h h (some alternative) (by simpa)
  · refine hexpr.bind fun consequent hc => .bind .accept fun _ _ => .ite ?_ (.pure ?_)
    · refine hexpr.bind fun alternative ha => .pure ?_
      simpa using built_conditional h.location h hc (some alternative) (by simpa)
    · simpa using built_conditional h.location h hc none (by simp)

end Expressions

theorem paramStep_builds {params : List Node} (hparams : ∀ n ∈ params, Built Q .parameter n) :
    Yields Q (paramStep params)
      fun next => ∀ ns ∈ next, ∀ n ∈ ns, Built Q .parameter n := by
  refine .bind .accept fun _ _ => .ite (.pure (by simp)) (.bind .accept fun _ _ => ?_)
  refine .bind .expect fun tok htok => .pure ?_
  simpa using ⟨built_parameter (.of htok), hparams⟩

theorem arrowParams_builds :
    Yields Q arrowParams
      fun params => ∀ n ∈ params, Built Q .parameter n := by
  refine .bind .atType fun _ _ => .ite (.bind .next fun tok htok => .pure ?_) ?_
  · simpa using built_parameter (.of htok)
  · refine .bind .expect fun _ _ => ?_
    refine (Yields.extend (fun _ h => paramStep_builds h) (by simp)).bind fun params hparams => ?_
    exact .pure (by simpa using hparams)

theorem arrow_builds {expr : Parser Node} (hexpr : Builds Q .expression expr) :
    Builds Q .expression (arrow expr) := by
  refine .bind .current fun start hstart => arrowParams_builds.bind fun params hparams => ?_
  refine .bind .expect fun _ _ => hexpr.bind fun body hbody => .pure ?_
  exact (((plain_leaf .expression .arrow rfl (.of hstart)).withChild .params
    (built_parameters (.of hstart) hparams)).withChild .expr hbody).built

section Operators

variable {sub : Nat → Parser Node} (hsub : ∀ precedence, Builds Q .expression (sub precedence))
include hsub

theorem operand_builds : Builds Q .expression (operand sub) := by
  have hrest {node : Node} (hnode : Built Q .expression node) := postfixes_builds (hsub 0) hnode
  refine .bind .current fun tok htok => ?_
  split
  · refine .bind .next fun _ _ => (hsub _).bind fun node hnode => ?_
    exact hrest (built_unary (.of htok) hnode _)
  · refine .bind .accept fun _ _ => .ite ?_ (primary_builds (hsub 0))
    refine (hsub 0).bind fun node hnode => .bind .accept fun _ _ => .ite ?_ (hrest hnode)
    exact .bind .current fun _ _ => .fail_bind _ _

theorem binaryStep_builds (precedence : Nat) {left : Node} (hleft : Built Q .expression left) :
    Yields Q (binaryStep sub precedence left)
      fun next => ∀ n ∈ next, Built Q .expression n := by
  refine .bind .current fun tok htok => ?_
  split
  · exact .pure (by simp)
  · refine .ite (.pure (by simp)) (.bind .next fun _ _ => .ite ?_ ?_)
    · exact (testOf_builds (hsub 0) htok hleft).bind fun n hn => .pure (by simpa)
    · refine (hsub _).bind fun right hright => .pure ?_
      split
      · simpa using built_nullCoalesce (.of htok) hleft hright
      · simpa using built_binary (.of htok) hleft hright tok.value

theorem expressionOver_builds (precedence : Nat) :
    Builds Q .expression (expressionOver sub precedence) := by
  refine .bind .stream fun s _ => .ite (arrow_builds (hsub 0)) ?_
  refine (operand_builds hsub).bind fun first hfirst => ?_
  have hbinary : Builds Q .expression (extend (binaryStep sub precedence) first) :=
    .extend (fun _ h => binaryStep_builds hsub precedence h) hfirst
  refine hbinary.bind fun node hnode => .ite ?_ (.pure hnode)
  exact .extend (fun _ h => conditionalStep_builds (hsub 0) h) hnode

end Operators

theorem expression_builds (limit levels precedence : Nat) :
    Builds Q .expression (expression limit levels precedence) := by
  induction levels generalizing precedence with
  | zero => exact .bind .current fun _ _ => .fail _ _
  | succ levels ih => exact expressionOver_builds ih precedence

/-! ## Statements -/

theorem expectTarget_builds : Yields Q expectTarget (Bindable Q) :=
  .bind .expectName fun _ htok => .orFail fun hname => .pure ⟨htok.1, htok.2, by simpa using hname⟩

theorem targetStep_builds {targets : List Node} (htargets : ∀ n ∈ targets, Built Q .target n) :
    Yields Q (targetStep targets)
      fun next => ∀ ns ∈ next, ∀ n ∈ ns, Built Q .target n := by
  refine .bind .accept fun _ _ => .ite ?_ (.pure (by simp))
  refine expectTarget_builds.bind fun tok htok => .pure ?_
  simpa using ⟨htok.target, htargets⟩

theorem targetNames_builds :
    Yields Q targetNames
      fun targets => ∀ n ∈ targets, Built Q .target n := by
  refine expectTarget_builds.bind fun first hfirst => ?_
  have hsingle : ∀ n ∈ [target first], Built Q .target n := by
    simpa using hfirst.target
  refine (Yields.extend (fun _ h => targetStep_builds h) hsingle).bind fun names hnames => ?_
  exact .pure (by simpa using hnames)

theorem importedName_builds : Builds Q .target importedName := by
  refine .bind .expectName fun name hname => .bind .accept fun _ _ => ?_
  have hbinds (bound : Token) (hbound : Q bound ∧ bound.type = .name) : Builds Q .target (do
      if reservedNames.contains bound.value then failAt bound (.reservedTarget bound.value)
      return (target bound).withAttr .macroName (.text name.value)) :=
    .orFail fun hfree => .pure
      (Bindable.imported ⟨hbound.1, hbound.2, by simpa using hfree⟩ name.value)
  exact .ite (.bind .expectName hbinds) (.pure_bind (hbinds name hname))

theorem importStep_builds {names : List Node} (hnames : ∀ n ∈ names, Built Q .target n) :
    Yields Q (importStep names)
      fun next => ∀ ns ∈ next, ∀ n ∈ ns, Built Q .target n := by
  refine .bind .accept fun _ _ => .ite ?_ (.pure (by simp))
  exact importedName_builds.bind fun name hname => .pure (by simpa using ⟨hname, hnames⟩)

section Statements

variable {expr : Parser Node} (hexpr : Builds Q .expression expr)
include hexpr

theorem valueStep_builds {values : List Node} (hvalues : ∀ n ∈ values, Built Q .expression n) :
    Yields Q (valueStep expr values)
      fun next => ∀ ns ∈ next, ∀ n ∈ ns, Built Q .expression n := by
  refine .bind .accept fun _ _ => .ite ?_ (.pure (by simp))
  exact hexpr.bind fun value hvalue => .pure (by simpa using ⟨hvalue, hvalues⟩)

/-- The options of a tag that includes a template. -/
theorem inclusion_builds {kind : Kind} (hadmits : Category.admits .statement kind = true)
    (hslots : ∀ slot ∈ [.template, .context], Category.below .statement kind slot = .expression)
    {tok : Token} (htok : Q tok) :
    Yields Q (inclusion expr kind tok) (Plain Q .statement kind) := by
  have hslot {slot : Slot} (h : slot ∈ [.template, .context]) {n : Node}
      (hn : Built Q .expression n) : Built Q (Category.below .statement kind slot) n :=
    (hslots slot h).symm ▸ hn
  refine hexpr.bind fun template htemplate => ?_
  have hrest (ignoreMissing : Bool) : Yields Q (do
      let context ← if ← accept .name "with" then pure (some (← expr)) else pure none
      let only ← accept .name "only"
      expectTagEnd
      return ((((Node.leaf kind tok.location).withAttr .ignoreMissing
        (.bool ignoreMissing)).withAttr .only (.bool only)).withChild .template
          template).withChild .context context) (Plain Q .statement kind) := by
    have hleaf := plain_leaf .statement kind (plain_statement hadmits) (.of htok)
    have hignore := hleaf.withAttr .ignoreMissing (.bool ignoreMissing)
    have htag (only : Bool) := (hignore.withAttr .only (.bool only)).withChild .template
      (hslot (by simp) htemplate)
    refine .bind .accept fun _ _ => .ite (hexpr.bind fun context hcontext => .pure_bind ?_)
      (.pure_bind ?_)
    · refine .bind .accept fun only _ => .bind .expectTagEnd fun _ _ => .pure ?_
      exact (htag only).withChild .context (hslot (by simp) hcontext)
    · exact .bind .accept fun only _ => .bind .expectTagEnd fun _ _ => .pure (htag only)
  refine .bind .accept fun _ _ => .ite (.bind .expect fun _ _ => .pure_bind ?_) (.pure_bind ?_)
  all_goals exact hrest _

theorem filterStep_builds {node : Node} (hnode : Built Q .expression node) :
    Yields Q (filterStep expr node)
      fun next => ∀ n ∈ next, Built Q .expression n := by
  refine .bind .accept fun _ _ => .ite ?_ (.pure (by simp))
  exact (filterOf_builds hexpr (by simpa)).bind fun n hn => .pure (by simpa)

theorem param_builds : Builds Q .target (param expr) := by
  refine expectTarget_builds.bind fun tok htok => ?_
  have hrest (marked : Bool) : Builds Q .target (do
      let value ← if marked then pure (some (← expr)) else pure none
      return (target tok).withChild .value value) := by
    refine .ite (hexpr.bind fun value hvalue => .pure_bind (.pure ?_)) (.pure_bind (.pure ?_))
    · exact htok.withDefault hvalue
    · exact htok.target
  refine .bind .accept fun _ _ => .ite (.pure_bind (hrest true)) ?_
  exact .bind .accept fun marked _ => hrest marked

theorem importTag_builds {tok : Token} (htok : Q tok) :
    Builds Q .statement (importTag expr tok) := by
  refine hexpr.bind fun template htemplate => .bind .expect fun _ _ => ?_
  refine .bind .current fun start hstart => targetNames_builds.bind fun names hnames => ?_
  refine .bind .expectTagEnd fun _ _ => .ite (.fail_bind _ _) (.pure ?_)
  exact (((plain_leaf .statement .importTag rfl (.of htok)).withChild .template htemplate).withChild
    .targets (built_targets (.of hstart) hnames)).built

theorem fromTag_builds {tok : Token} (htok : Q tok) :
    Builds Q .statement (fromTag expr tok) := by
  refine hexpr.bind fun template htemplate => .bind .expect fun start hstart => ?_
  refine importedName_builds.bind fun first hfirst => ?_
  refine (Yields.extend (fun _ h => importStep_builds h) (by simpa)).bind fun names hnames => ?_
  refine .bind .expectTagEnd fun _ _ => .pure ?_
  exact (((plain_leaf .statement .fromTag rfl (.of htok)).withChild .template htemplate).withChild
    .targets (built_targets (.of hstart) (by simpa using hnames))).built

/-- A tag with an expression where only such stand. -/
theorem simpleTag_builds {kind : Kind} (hkind : Category.admits .statement kind = true)
    {slot : Slot} (hslot : Category.below .statement kind slot = .expression) {tok : Token}
    (htok : Q tok) : Builds Q .statement (simpleTag expr kind slot tok) := by
  refine hexpr.bind fun value hvalue => .bind .expectTagEnd fun _ _ => .pure ?_
  have hleaf := plain_leaf .statement kind (plain_statement hkind) (.of htok)
  exact (hleaf.withChild slot (hslot ▸ hvalue)).built

variable {sub : BodyParser}
  (hsub : ∀ opened ends, Yields Q (sub opened ends)
    fun r => Built Q .statement r.1)
include hsub

omit hexpr in
theorem closedBody_builds (tok : Token) (tag : Text) :
    Builds Q .statement (closedBody sub tok tag) :=
  (hsub _ _).bind fun _ hr => .bind .expectTagEnd fun _ _ => .pure hr

theorem setTag_builds {tok : Token} (htok : Q tok) :
    Builds Q .statement (setTag expr sub tok) := by
  refine .bind .current fun start hstart => targetNames_builds.bind fun names hnames => ?_
  have htargets := built_targets (.of hstart) hnames
  refine .bind .accept fun _ _ => .ite ?_ ?_
  · refine .bind .current fun start hstart => hexpr.bind fun first hfirst => ?_
    refine (Yields.extend (fun _ h => valueStep_builds hexpr h) (by simpa)).bind
      fun values hvalues => .bind .expectTagEnd fun _ _ => .ite (.fail_bind _ _) (.pure ?_)
    have hreverse : ∀ n ∈ values.reverse, Built Q .expression n := by simpa using hvalues
    have hlist := (plain_listOf .statement .arguments rfl (.of hstart) fun _ => hreverse).built
    exact (((plain_leaf .statement .setTag rfl (.of htok)).withChild .values hlist).withChild
      .targets htargets).built
  · refine .ite (.fail_bind _ _) (.bind .expectTagEnd fun _ _ => ?_)
    refine (closedBody_builds hsub tok "set").bind fun body hbody => .pure ?_
    exact ((((plain_leaf .statement .setTag rfl (.of htok)).withAttr .capture _).withChild
      .values hbody).withChild .targets htargets).built

theorem forTag_builds {tok : Token} (htok : Q tok) :
    Builds Q .statement (forTag expr sub tok) := by
  refine targetNames_builds.bind fun names hnames => .bind .expect fun _ _ => ?_
  refine hexpr.bind fun seq hseq => .bind .expectTagEnd fun _ _ => ?_
  refine (hsub _ _).bind fun body hbody => ?_
  have hloop {key elseBody : Option Node} {value : Node} (hkey : ∀ n ∈ key, Built Q .target n)
      (hvalue : Built Q .target value) (helse : ∀ n ∈ elseBody, Built Q .statement n) :=
    ((((((plain_leaf .statement .forTag rfl (.of htok)).withChild .seq hseq).withOption .keyTarget
      hkey).withChild .valueTarget hvalue).withChild .body hbody).withOption .elseBody helse).built
  -- what follows the loop is the same with and without an alternative
  refine .ite (.bind .expectTagEnd fun _ _ => (hsub _ _).bind fun alternative ha => .pure_bind ?_)
    (.pure_bind ?_)
  all_goals
    refine .bind .expectTagEnd fun _ _ => ?_
    split
    · exact .pure_bind (.pure (hloop (by simp) (hnames _ (by simp)) (by simp [*])))
    · have hkey := hnames _ (List.mem_cons_self ..)
      exact .pure_bind (.pure (hloop (by simpa) (hnames _ (by simp)) (by simp [*])))
    · exact .fail_bind _ _

theorem branch_builds (tok : Token) :
    Yields Q (branch expr sub tok) fun r => Built Q .statement r.1 := by
  refine hexpr.bind fun condition hcondition => .bind .expectTagEnd fun _ _ => ?_
  exact (hsub _ _).bind fun r hr => .pure (built_branch hcondition hr)

/-- The branches and the alternative that have been read are statements. -/
def Branches.Built (Q : Token → Prop) (b : Branches) : Prop :=
  (∀ n ∈ b.tests, Parser.Built Q .statement n) ∧ ∀ n ∈ b.alternative, Parser.Built Q .statement n

theorem branchStep_builds (tok : Token) {b : Branches} (hb : b.Built Q) :
    Yields Q (branchStep expr sub tok b)
      fun next => ∀ b' ∈ next, b'.Built Q := by
  obtain ⟨htests, halternative⟩ := hb
  refine .ite ?_ (.ite (.bind .expectTagEnd fun _ _ => ?_) (.pure (by simp)))
  · refine (branch_builds hexpr hsub tok).bind fun r hr => .pure ?_
    simpa [Branches.Built] using ⟨⟨hr, htests⟩, halternative⟩
  · refine (hsub _ _).bind fun r hr => .pure ?_
    simpa [Branches.Built] using ⟨htests, hr⟩

theorem ifTag_builds {tok : Token} (htok : Q tok) :
    Builds Q .statement (ifTag expr sub tok) := by
  refine (branch_builds hexpr hsub tok).bind fun first hfirst => ?_
  have hloop : Yields Q
      (extend (branchStep expr sub tok) ⟨[first.1], none, first.2⟩) (Branches.Built Q) :=
    .extend (fun _ h => branchStep_builds hexpr hsub tok h)
      (by simpa [Branches.Built] using hfirst)
  refine hloop.bind fun b hb => .bind .expectTagEnd fun _ _ => .pure ?_
  exact (((plain_leaf .statement .ifTag rfl (.of htok)).withChild .tests
    (built_body (.of htok) (by simpa using hb.1))).withOption .elseBody hb.2).built

theorem embedTag_builds {tok : Token} (htok : Q tok) :
    Builds Q .statement (embedTag expr sub tok) := by
  refine (inclusion_builds hexpr rfl (by decide) htok).bind fun node hnode => ?_
  exact (closedBody_builds hsub tok "embed").bind fun body hbody =>
    .pure (hnode.withChild .body hbody).built

omit hexpr hsub in
theorem endName_builds {tag name : Text} :
    Yields Q (endName tag name) fun _ => True := by
  refine .bind .atType fun _ _ => .ite (.bind .next fun _ _ => ?_) (.pure trivial)
  exact .ite (.fail _ _) (.pure trivial)

theorem blockTag_builds {tok : Token} (htok : Q tok) :
    Builds Q .statement (blockTag expr sub tok) := by
  refine .bind .expect fun name hname => ?_
  have hblock {body : Node} (hbody : Built Q .statement body) :=
    (((plain_leaf .statement .blockTag rfl (.of htok)).withAttr .name (.text
      name.value)).withChild .body hbody).built
  refine .bind .atType fun _ _ => .ite ?_ ?_
  · refine .bind .next fun _ _ => (hsub _ _).bind fun r hr => ?_
    exact endName_builds.bind fun _ _ => .bind .expectTagEnd fun _ _ =>
      .pure_bind (.pure (hblock hr))
  · refine hexpr.bind fun value hvalue => .bind .expectTagEnd fun _ _ => .pure_bind (.pure ?_)
    have hprint := ((plain_leaf .statement .print rfl hvalue.location).withChild .expr hvalue).built
    exact hblock (built_body (.of htok) (by simpa))

theorem transTag_builds {tok : Token} (htok : Q tok) :
    Builds Q .statement (transTag expr sub tok) := by
  refine .bind .accept fun _ _ => ?_
  -- what is read behind the context, with one or without
  extract_lets finish rest
  have hrest {context : Option Node} (hcontext : ∀ n ∈ context, Built Q .expression n) :
      Builds Q .statement (rest context) := by
    refine .bind .expectTagEnd fun _ _ => (hsub _ _).bind fun r hr => ?_
    have htag := ((plain_leaf .statement .transTag rfl (.of htok)).withOption .context
      hcontext).withChild .body hr
    refine .ite (hexpr.bind fun count hcount => .bind .expectTagEnd fun _ _ => ?_) ?_
    · refine (hsub _ _).bind fun plural hplural => .pure_bind (.bind .expectTagEnd fun _ _ => ?_)
      exact .pure ((htag.withChild .count hcount).withChild .plural hplural).built
    · exact .pure_bind (.bind .expectTagEnd fun _ _ => .pure htag.built)
  refine .ite (hexpr.bind fun context hcontext => .pure_bind ?_) ?_
  · exact hrest (by simpa)
  · exact .pure_bind (hrest (by simp))

theorem applyTag_builds {tok : Token} (htok : Q tok) :
    Builds Q .statement (applyTag expr sub tok) := by
  refine (filterOf_builds hexpr (by simp)).bind fun first hfirst => ?_
  have hloop := Yields.extend (fun _ h => filterStep_builds hexpr h) hfirst
  refine hloop.bind fun filters hfilters => .bind .expectTagEnd fun _ _ => ?_
  refine (closedBody_builds hsub tok "apply").bind fun body hbody => ?_
  exact .pure (((plain_leaf .statement .applyTag rfl (.of htok)).withChild .filters
    hfilters).withChild .body hbody).built

theorem withTag_builds {tok : Token} (htok : Q tok) :
    Builds Q .statement (withTag expr sub tok) := by
  have hrest {context : Option Node} (hcontext : ∀ n ∈ context, Built Q .expression n) :
      Builds Q .statement (do
        let only ← accept .name "only"
        expectTagEnd
        let body ← closedBody sub tok "with"
        return (((Node.leaf .withTag tok.location).withAttr .only (.bool only)).withChild .context
          context).withChild .body body) := by
    refine .bind .accept fun only _ => .bind .expectTagEnd fun _ _ => ?_
    refine (closedBody_builds hsub tok "with").bind fun body hbody => .pure ?_
    exact ((((plain_leaf .statement .withTag rfl (.of htok)).withAttr .only _).withOption
      .context hcontext).withChild .body hbody).built
  refine .bind .atType fun _ _ => .bind .atToken fun _ _ => .ite (.pure_bind ?_) ?_
  · exact hrest (by simp)
  · exact hexpr.bind fun context hcontext => .pure_bind (hrest (by simpa))

theorem macroTag_builds {tok : Token} (htok : Q tok) :
    Builds Q .statement (macroTag expr sub tok) := by
  refine .bind .expect fun name _ => .bind .expect fun opening hopening => ?_
  refine ((param_builds hexpr).commaList _ _).bind fun params hparams => ?_
  refine .bind .expectTagEnd fun _ _ => (hsub _ _).bind fun r hr => ?_
  refine endName_builds.bind fun _ _ => .bind .expectTagEnd fun _ _ => .pure ?_
  exact ((((plain_leaf .statement .macroTag rfl (.of htok)).withAttr .name _).withChild
    .targets (built_targets (.of hopening) hparams)).withChild .body hr).built

theorem autoescapeTag_builds {tok : Token} (htok : Q tok) :
    Builds Q .statement (autoescapeTag expr sub tok) := by
  have hrest {strategy : Option Node} (hstrategy : ∀ n ∈ strategy, Built Q .expression n) :
      Builds Q .statement (do
        expectTagEnd
        let body ← closedBody sub tok "autoescape"
        return ((Node.leaf .autoescapeTag tok.location).withChild .expr strategy).withChild .body
          body) := by
    refine .bind .expectTagEnd fun _ _ => (closedBody_builds hsub tok _).bind fun body hbody => ?_
    exact .pure (((plain_leaf .statement .autoescapeTag rfl (.of htok)).withOption .expr
      hstrategy).withChild .body hbody).built
  refine .bind .atType fun _ _ => .ite (.pure_bind (hrest (by simp))) ?_
  exact hexpr.bind fun strategy hstrategy => .pure_bind (hrest (by simpa))

theorem tag_builds {tok : Token} (htok : Q tok) (name : Token) :
    Builds Q .statement (tag expr sub tok name) := by
  have hsandbox : Builds Q .statement (do
      expectTagEnd
      return (Node.leaf .sandboxTag tok.location).withChild .body
        (← closedBody sub tok "sandbox")) :=
    .bind .expectTagEnd fun _ _ => (closedBody_builds hsub tok _).bind fun body hbody =>
      .pure ((plain_leaf .statement .sandboxTag rfl (.of htok)).withChild .body hbody).built
  refine .ite (setTag_builds hexpr hsub htok) ?_
  refine .ite (forTag_builds hexpr hsub htok) ?_
  refine .ite (ifTag_builds hexpr hsub htok) ?_
  refine .ite (simpleTag_builds hexpr rfl rfl htok) ?_
  refine .ite (.bind .expectTagEnd fun _ _ => ?_) ?_
  · exact .pure (plain_leaf .statement .flushTag rfl (.of htok)).built
  refine .ite hsandbox ?_
  refine .ite ((inclusion_builds hexpr rfl (by decide) htok).mono fun _ h => h.built) ?_
  refine .ite (embedTag_builds hexpr hsub htok) ?_
  refine .ite (simpleTag_builds hexpr rfl rfl htok) ?_
  refine .ite (blockTag_builds hexpr hsub htok) ?_
  refine .ite (transTag_builds hexpr hsub htok) ?_
  refine .ite (applyTag_builds hexpr hsub htok) ?_
  refine .ite (withTag_builds hexpr hsub htok) ?_
  refine .ite (macroTag_builds hexpr hsub htok) ?_
  refine .ite (importTag_builds hexpr htok) ?_
  refine .ite (fromTag_builds hexpr htok) ?_
  refine .ite (autoescapeTag_builds hexpr hsub htok) ?_
  exact .ite (.fail _ _) (.fail _ _)

end Statements

/-! ## Bodies -/

section Bodies

variable {expr : Parser Node} (hexpr : Builds Q .expression expr)
  {nested : Token → Token → Parser Node}
  (hnested : ∀ tok name, Q tok → Builds Q .statement (nested tok name))
include hexpr hnested

theorem bodyStep_builds (opened : Option Opened) (ends : List Text) {state : BodyState}
    (h : ∀ n ∈ state.nodes, Built Q .statement n) :
    Yields Q (bodyStep expr nested opened ends state)
      fun next => ∀ b ∈ next, ∀ n ∈ b.nodes, Built Q .statement n := by
  have hmore {node : Node} (hnode : Built Q .statement node) :
      ∀ b ∈ some { state with nodes := node :: state.nodes },
        ∀ n ∈ b.nodes, Built Q .statement n := by
    simpa using ⟨hnode, h⟩
  refine .ite (.pure (by simp)) (.bind .current fun tok htok => ?_)
  cases tok.type with
  | eof =>
    cases opened with
    | some o => exact .fail _ _
    | none => exact .pure (by simp)
  | text =>
    refine .bind .next fun _ _ => .pure (hmore ?_)
    exact ((plain_leaf .statement .text rfl (.of htok)).withAttr .data _).built
  | printStart =>
    refine .bind .next fun _ _ => hexpr.bind fun value hvalue => .bind .expect fun _ _ => ?_
    exact .pure (hmore ((plain_leaf .statement .print rfl (.of htok)).withChild .expr hvalue).built)
  | tagStart =>
    refine .bind .next fun _ _ => .bind .atType fun _ _ => ?_
    refine .ite (.bind .current fun _ _ => .fail_bind _ _) (.bind .next fun name _ => ?_)
    refine .ite (.pure (by simpa)) ?_
    exact (hnested tok name htok).bind fun node hnode => .pure (hmore hnode)
  | _ => exact .fail _ _

theorem bodyOver_builds (opened : Option Opened) (ends : List Text) :
    Yields Q (bodyOver expr nested opened ends)
      fun r => Built Q .statement r.1 := by
  have hloop : Yields Q
      (extend (bodyStep expr nested opened ends) ⟨[], none⟩)
      fun b => ∀ n ∈ b.nodes, Built Q .statement n :=
    .extend (fun _ h => bodyStep_builds hexpr hnested opened ends h) (by simp)
  refine .bind .current fun start hstart => hloop.bind fun b hb => .pure ?_
  exact built_body (.of hstart) (by simpa using hb)

end Bodies

theorem body_builds (limit levels : Nat) (opened : Option Opened) (ends : List Text) :
    Yields Q (body limit levels opened ends)
      fun r => Built Q .statement r.1 := by
  induction levels generalizing opened ends with
  | zero =>
    exact bodyOver_builds (expression_builds limit 0 0) (fun _ _ _ => .fail _ _) opened ends
  | succ levels ih =>
    have hnested (tok name : Token) (htok : Q tok) :=
      tag_builds (expression_builds limit levels 0) ih htok name
    exact bodyOver_builds (expression_builds limit (levels + 1) 0) hnested opened ends

theorem template_builds (limit : Nat) : Builds Q .statement (template limit) := by
  refine .bind .current fun start hstart => (body_builds limit limit none []).bind fun r hr => ?_
  exact .pure ((plain_leaf .statement .template rfl (.of hstart)).withChild .body hr).built

end Parser

/-- The parser builds every tree of tokens of the source. -/
theorem built_of_parseTemplate {limit : Nat} {source : Text} {root : Node}
    (h : parseTemplate limit source = .ok root) {Q : Token → Prop}
    (hQ : ∀ stream, TokenStream.ofSource source = .ok stream → ∀ tok ∈ stream.toList, Q tok) :
    Parser.Built Q .statement root := by
  simp only [parseTemplate, bind, Except.bind] at h
  split at h
  · cases h
  · rename_i stream hstream
    split at h
    · cases h
    · rename_i r hrun
      cases h
      exact (Parser.template_builds limit stream (hQ stream hstream) r.1 r.2 hrun).1

end TwigLint
