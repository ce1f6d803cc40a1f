import TwigLint.Proofs.Grammar.Stmt
import TwigLint.Proofs.Grammar.ExprReading

/-! # Tags

Each tag is read back, provided that the expressions and the bodies in it are.  No tag has the name
of an end tag, so a body goes on until the tag that really ends it.
-/

namespace TwigLint.Parser

open Grammar

/-! ## Expressions in parentheses -/

theorem paramsThenArrow_single (t : Token) (l : Location) {s : TokenStream}
    (hs : s.current.type ≠ .arrow) :
    paramsThenArrow (s.prepend [t, ⟨.punctuation, ")", l⟩]).tokens = false := by
  obtain ⟨_ | ⟨u, us⟩, eof⟩ := s
  · simp [TokenStream.prepend, paramsThenArrow]
  · have hu : u.type ≠ .arrow := hs
    simp [TokenStream.prepend, paramsThenArrow, hu]

theorem arrowAhead_enclosed (e : Expr) (loc : Layout) {s : TokenStream}
    (hs : s.current.type ≠ .arrow) : arrowAhead (s.prepend ((enclosed e).tokens loc)) = false := by
  by_cases ha : e.isAtom
  · obtain ⟨t, ht, -⟩ := atom_tokens ha (loc.shift 1)
    rw [operand_of_isAtom ha] at ht
    simp [enclosed, Phrase.parens, ht, arrowAhead_paren, paramsThenArrow_single, hs]
  · simp only [Bool.not_eq_true] at ha
    simpa [enclosed, operand_of_compound ha] using arrowAhead_operand e loc hs

theorem enclosed_current (e : Expr) (loc : Layout) (s : TokenStream) :
    (s.prepend ((enclosed e).tokens loc)).current = ⟨.punctuation, "(", loc 0⟩ := by
  simp [enclosed, Phrase.parens]

/-- An expression in parentheses is read by the parser for the expressions of tags. -/
theorem enclosed_reads {limit levels : Nat} {e : Expr} (h : e.enclosedDepth ≤ levels) :
    Reads (expression limit levels 0) (enclosed e) Ends := by
  intro loc s hs
  cases levels with
  | zero => exact absurd h (Nat.not_succ_le_zero _)
  | succ levels =>
    have hin := expr_reads limit e levels (Nat.le_of_succ_le_succ h)
    have hop := operand_parens hin loc s
    rw [postfixes_stop _ _ hs.postfixes] at hop
    exact expressionOver_stop (arrowAhead_enclosed e loc hs.notArrow) hop hs

/-! ## Lists without brackets -/

/-- One more item after a comma. -/
def commaStep {α : Type} (item : Parser α) (items : List α) : Parser (Option (List α)) := do
  if ← accept .punctuation "," then return some ((← item) :: items)
  return none

variable {α : Type} {item : Parser α} {follow : Token → Prop}

theorem commaStep_loop {ms : List (Phrase α)} (hm : ∀ m ∈ ms, Reads item m follow)
    (hcomma : ∀ l, follow ⟨.punctuation, ",", l⟩) (acc : List α) (loc : Layout) {s : TokenStream}
    (hs : follow s.current) (hend : s.current.is .punctuation "," = false) :
    Loop (commaStep item) acc (s.prepend ((Phrase.commaTail ms).tokens loc))
      (((Phrase.commaTail ms).value loc).reverse ++ acc) s := by
  induction ms generalizing acc loc with
  | nil => exact .stop (by simp [commaStep, Phrase.commaTail, hend])
  | cons m ms ih =>
    have hitem := hm m (by simp)
    have hfollow := fun loc => commaTail_current ms hcomma loc hs
    simp only [Phrase.commaTail, Phrase.bind_tokens, Phrase.bind_value, Phrase.pure_value,
      Phrase.pure_tokens, List.append_nil, List.reverse_cons, List.append_assoc]
    refine .next ?_ ?_ (ih (fun m h => hm m (by simp [h])) _ _)
    · simp [commaStep, hitem _ _ (hfollow _)]
    · simp only [TokenStream.length_prepend, List.length_append, Phrase.mark_tokens,
        List.length_singleton]
      omega

theorem commas_first {m : Phrase α} (hm : Reads item m follow)
    (hcomma : ∀ l, follow ⟨.punctuation, ",", l⟩) (ms : List (Phrase α)) (loc : Layout)
    (s : TokenStream) (hs : follow s.current) :
    item.run (s.prepend ((Phrase.commas (m :: ms)).tokens loc)) =
      .ok (m.value loc,
        s.prepend ((Phrase.commaTail ms).tokens (loc.shift (m.tokens loc).length))) := by
  simp [Phrase.commas, hm _ _ (commaTail_current ms hcomma _ hs)]

theorem commas_rest {ms : List (Phrase α)} (hm : ∀ x ∈ ms, Reads item x follow)
    (hcomma : ∀ l, follow ⟨.punctuation, ",", l⟩) (m : Phrase α) (loc : Layout) (s : TokenStream)
    (hs : follow s.current) (hend : s.current.is .punctuation "," = false) :
    (extend (commaStep item) [m.value loc]).run
        (s.prepend ((Phrase.commaTail ms).tokens (loc.shift (m.tokens loc).length))) =
      .ok (((Phrase.commas (m :: ms)).value loc).reverse, s) := by
  simp [Phrase.commas, (commaStep_loop hm hcomma _ _ hs hend).extend]

theorem commas_length (ms : List (Phrase α)) (loc : Layout) :
    ((Phrase.commas ms).value loc).length = ms.length := by
  have htail (ms : List (Phrase α)) (loc : Layout) :
      ((Phrase.commaTail ms).value loc).length = ms.length := by
    induction ms generalizing loc with
    | nil => rfl
    | cons m ms ih => simp [Phrase.commaTail, ih]
  cases ms with
  | nil => rfl
  | cons m ms => simp [Phrase.commas, htail]

/-! ## Bodies -/

/-- The names of the tags that end a body. -/
def endTags : List Text :=
  ["endset", "else", "endfor", "elseif", "endif", "endsandbox", "endembed", "endblock", "plural",
    "endtrans", "endapply", "endwith", "endmacro", "endautoescape"]

/-- The parser for bodies reads the statements up to any of the tags that it is to end with. -/
def ReadsBody (sub : BodyParser) (ms : List (Phrase Node)) : Prop :=
  ∀ opened ends last, last ∈ ends → (∀ t ∈ ends, t ∈ endTags) → ∀ loc s,
    (sub opened ends).run (s.prepend ((closed last ms).tokens loc)) =
      .ok (((closed last ms).value loc, last), s)

variable {expr : Parser Node} {sub : BodyParser} {ends : List Text} {ms : List (Phrase Node)}

theorem closedBody_reads (h : ReadsBody sub ms) (tok : Token) (tag last : String)
    (hlast : ("end" : Text) ++ (tag : Text) = last) (hend : (last : Text) ∈ endTags) :
    Reads (closedBody sub tok tag) (block last ms) fun _ => True := by
  intro loc s _
  have hbody := h (some ⟨tok, tag⟩) [last] last (by simp) (by simp [hend])
  simp [closedBody, hlast, block, tagEnd, hbody]

/-- A tag is a statement if what stands behind its name is read. -/
theorem readsStatement_tagged {e : Parser Node} {nested : Token → Token → Parser Node}
    {name : String} {rest : Location → Phrase Node} (hname : (name : Text) ∉ endTags)
    (hends : ∀ t ∈ ends, t ∈ endTags)
    (h : ∀ tok l, Reads (nested tok ⟨.name, name, l⟩) (rest tok.location) fun _ => True) :
    ReadsStatement e nested ends (tagged name rest) := by
  have hnot : (name : Text) ∉ ends := fun hmem => hname (hends _ hmem)
  refine ⟨.bind (.word fun _ => trivial) _, fun opened nodes loc s => ?_⟩
  have hrest := fun l loc' => h ⟨.tagStart, "\x7b%", loc 0⟩ l loc' s trivial
  simp [bodyStep, tagged, hnot, hrest]

/-! ## Names that are bound -/

theorem expectTarget_run (t : Target) (l : Location) (ts : List Token) (s : TokenStream) :
    expectTarget.run (s.prepend (⟨.name, t.text, l⟩ :: ts)) =
      .ok (⟨.name, t.text, l⟩, s.prepend ts) := by
  simp [expectTarget, t.notReserved]

/-- A name that is bound, as a node. -/
def targetName : Parser Node := do return target (← expectTarget)

theorem targetStep_eq : targetStep = commaStep targetName := by
  funext targets
  simp [targetStep, commaStep, targetName]

theorem targetNames_eq : targetNames = (do
    let first ← targetName
    return (← extend (commaStep targetName) [first]).reverse) := by
  simp [targetNames, targetStep_eq, targetName]

/-- One or more names are read up to a token that is no comma. -/
theorem targetNames_reads {β : Type} (f : β → Target) (x : β) (xs : List β) :
    Reads targetNames (.commas ((x :: xs).map fun y => bound (f y).text))
      fun t => t.is .punctuation "," = false := by
  intro loc s hs
  have hitem (y : β) : Reads targetName (bound (f y).text) fun _ => True := by
    intro loc s _
    simp [targetName, bound, expectTarget_run]
    rfl
  have hfirst := commas_first (hitem x) (fun _ => trivial) (xs.map fun y => bound (f y).text) loc s
    trivial
  have hrest := commas_rest (List.forall_mem_map.mpr fun y (_ : y ∈ xs) => hitem y)
    (fun _ => trivial) (bound (f x).text) loc s trivial hs
  simp [targetNames_eq, hfirst, hrest]

theorem targetNames_one (t : Target) (l : Location) (ts : List Token) (s : TokenStream)
    (hs : (s.prepend ts).current.is .punctuation "," = false) :
    targetNames.run (s.prepend (⟨.name, t.text, l⟩ :: ts)) =
      .ok ([target ⟨.name, t.text, l⟩], s.prepend ts) :=
  targetNames_reads id t [] (fun _ => l) (s.prepend ts) hs

theorem targetNames_two (t u : Target) (l l' l'' : Location) (ts : List Token) (s : TokenStream)
    (hs : (s.prepend ts).current.is .punctuation "," = false) :
    targetNames.run (s.prepend
        (⟨.name, t.text, l⟩ :: ⟨.punctuation, ",", l'⟩ :: ⟨.name, u.text, l''⟩ :: ts)) =
      .ok ([target ⟨.name, t.text, l⟩, target ⟨.name, u.text, l''⟩], s.prepend ts) :=
  targetNames_reads id t [u] (fun k => if k = 0 then l else if k = 1 then l' else l'')
    (s.prepend ts) hs

/-! ## Tags -/

section Tags

variable {print : Parser Node} {e : Expr} {body : List Stmt}

theorem reads_capture (hends : ∀ t ∈ ends, t ∈ endTags) (name : Target)
    (h : ReadsBody sub (Stmt.phrases body)) :
    ReadsStatement print (tag expr sub) ends (Stmt.captureTag name body).phrase := by
  rw [Stmt.phrase]
  refine readsStatement_tagged (by decide) hends fun tok l loc s _ => ?_
  have hbody := closedBody_reads h tok "set" "endset" rfl (by decide)
  simp [tag, setTag, tagEnd, hbody, targetNames_one, bound]
  rfl

theorem valueStep_eq (expr : Parser Node) : valueStep expr = commaStep expr := rfl

theorem reads_set (hends : ∀ t ∈ ends, t ∈ endTags) (first : Target × Expr)
    (rest : List (Target × Expr))
    (h : ∀ a ∈ first :: rest, Reads expr (enclosed a.2) Ends) :
    ReadsStatement print (tag expr sub) ends (Stmt.setTag first rest).phrase := by
  rw [Stmt.phrase]
  refine readsStatement_tagged (by decide) hends fun tok l loc s _ => ?_
  have hnames := targetNames_reads Prod.fst first rest
  have hfirst := commas_first (h first (by simp)) (by simp) (rest.map fun a => enclosed a.2)
  have hrest := commas_rest (List.forall_mem_map.mpr fun a (ha : a ∈ rest) =>
    h a (List.mem_cons_of_mem _ ha)) (by simp) (enclosed first.2)
  simp only [List.map_cons] at hnames
  simp [tag, setTag, tagEnd, hnames, hfirst, valueStep_eq, hrest, commas_length]
  rfl

theorem reads_do (hends : ∀ t ∈ ends, t ∈ endTags) (he : Reads expr (enclosed e) Ends) :
    ReadsStatement print (tag expr sub) ends (Stmt.doTag e).phrase := by
  rw [Stmt.phrase]
  refine readsStatement_tagged (by decide) hends fun tok l loc s _ => ?_
  simp [tag, simpleTag, tagEnd, he]
  rfl

theorem reads_extends (hends : ∀ t ∈ ends, t ∈ endTags) (he : Reads expr (enclosed e) Ends) :
    ReadsStatement print (tag expr sub) ends (Stmt.extendsTag e).phrase := by
  rw [Stmt.phrase]
  refine readsStatement_tagged (by decide) hends fun tok l loc s _ => ?_
  simp [tag, simpleTag, tagEnd, he]
  rfl

theorem reads_flush (hends : ∀ t ∈ ends, t ∈ endTags) :
    ReadsStatement print (tag expr sub) ends Stmt.flushTag.phrase := by
  rw [Stmt.phrase]
  refine readsStatement_tagged (by decide) hends fun tok l loc s _ => ?_
  simp [tag, tagEnd]
  rfl

theorem reads_for (hends : ∀ t ∈ ends, t ∈ endTags) (key : Option Target) (value : Target)
    (he : Reads expr (enclosed e) Ends) (h : ReadsBody sub (Stmt.phrases body))
    {otherwise : Option (List Stmt)}
    (ho : ∀ b ∈ otherwise, ReadsBody sub (Stmt.phrases b)) :
    ReadsStatement print (tag expr sub) ends (Stmt.forTag key value e body otherwise).phrase := by
  rw [Stmt.phrase]
  refine readsStatement_tagged (by decide) hends fun tok l loc s _ => ?_
  have hend := h (some ⟨tok, "for"⟩) ["else", "endfor"] "endfor" (by simp) (by simp [endTags])
  have helse := h (some ⟨tok, "for"⟩) ["else", "endfor"] "else" (by simp) (by simp [endTags])
  cases otherwise with
  | none =>
    cases key with
    | none =>
      simp [tag, forTag, key?, bound, targetNames_one, he, tagEnd, loopBody, block,
        hend]
      rfl
    | some k =>
      simp [tag, forTag, key?, bound, targetNames_two, he, tagEnd, loopBody, block,
        hend]
      rfl
  | some b =>
    have hother := ho b rfl (some ⟨tok, "for"⟩) ["endfor"] "endfor" (by simp) (by simp [endTags])
    cases key with
    | none =>
      simp [tag, forTag, key?, bound, targetNames_one, he, tagEnd, loopBody, block,
        helse, hother]
      rfl
    | some k =>
      simp [tag, forTag, key?, bound, targetNames_two, he, tagEnd, loopBody, block,
        helse, hother]
      rfl

/-- The parts of the further branches of a conditional are read. -/
def ReadsAlternatives (expr : Parser Node) (sub : BodyParser) : Alternatives → Prop
  | .done => True
  | .elseTag body => ReadsBody sub (Stmt.phrases body)
  | .elseifTag condition body rest =>
    Reads expr (enclosed condition) Ends ∧ ReadsBody sub (Stmt.phrases body) ∧
      ReadsAlternatives expr sub rest

theorem branch_run (tok : Token) (he : Reads expr (enclosed e) Ends)
    (h : ReadsBody sub (Stmt.phrases body)) (rest : Alternatives) (loc : Layout) (s : TokenStream) :
    (branch expr sub tok).run (s.prepend ((guarded e rest.last (Stmt.phrases body)).tokens loc)) =
      .ok (((guarded e rest.last (Stmt.phrases body)).value loc, rest.last), s) := by
  have hlast : rest.last ∈ [("elseif" : Text), ("else" : Text), ("endif" : Text)] := by
    cases rest <;> simp [Alternatives.last]
  have hbody := h (some ⟨tok, "if"⟩) ["elseif", "else", "endif"] rest.last hlast
    (by simp [endTags])
  simp [branch, guarded, tagEnd, he, hbody]
  rfl

/-- Branch after branch, up to the alternative if there is one. -/
theorem branchStep_loop (tok : Token) : (rest : Alternatives) → ReadsAlternatives expr sub rest →
    ∀ (tests : List Node) (loc : Layout) (s : TokenStream),
    Loop (branchStep expr sub tok) ⟨tests, none, rest.last⟩ (s.prepend (rest.phrase.tokens loc))
      ⟨(rest.phrase.value loc).1.reverse ++ tests, (rest.phrase.value loc).2, "endif"⟩ s
  | .done, _, tests, loc, s => .stop (by simp [branchStep, Alternatives.last])
  | .elseTag body, h, tests, loc, s => by
    have hbody := h (some ⟨tok, "if"⟩) ["endif"] "endif" (by simp) (by simp [endTags])
    have hstop (b : Branches) (hb : b.last = "endif") : Loop (branchStep expr sub tok) b s b s :=
      .stop (by simp [branchStep, hb])
    refine .next ?_ ?_ (hstop ⟨_, _, "endif"⟩ rfl)
    · simp [branchStep, Alternatives.last, tagEnd, hbody]
    · simp [tagEnd]
  | .elseifTag condition body rest, ⟨he, h, hr⟩, tests, loc, s => by
    have hlast : (Alternatives.elseifTag condition body rest).last = "elseif" := rfl
    simp only [Alternatives.phrase, Phrase.bind_tokens, Phrase.bind_value, Phrase.pure_value,
      Phrase.pure_tokens, List.append_nil, List.reverse_cons, List.append_assoc,
      TokenStream.prepend_append]
    refine .next ?_ ?_ (branchStep_loop tok rest hr _ _ s)
    · simp [branchStep, hlast, branch_run tok he h rest]
    · simp [guarded, tagEnd]
      omega

theorem reads_if (hends : ∀ t ∈ ends, t ∈ endTags) (he : Reads expr (enclosed e) Ends)
    (h : ReadsBody sub (Stmt.phrases body)) {rest : Alternatives}
    (hr : ReadsAlternatives expr sub rest) :
    ReadsStatement print (tag expr sub) ends (Stmt.ifTag e body rest).phrase := by
  rw [Stmt.phrase]
  refine readsStatement_tagged (by decide) hends fun tok l loc s _ => ?_
  have hfirst := branch_run tok he h rest
  have hloop := fun tests loc s => (branchStep_loop tok rest hr tests loc s).extend
  simp [tag, ifTag, tagEnd, hfirst, hloop]
  cases (rest.phrase.value _).2 <;> rfl

theorem reads_sandbox (hends : ∀ t ∈ ends, t ∈ endTags) (h : ReadsBody sub (Stmt.phrases body)) :
    ReadsStatement print (tag expr sub) ends (Stmt.sandboxTag body).phrase := by
  rw [Stmt.phrase]
  refine readsStatement_tagged (by decide) hends fun tok l loc s _ => ?_
  have hbody := closedBody_reads h tok "sandbox" "endsandbox" rfl (by decide)
  simp [tag, tagEnd, hbody]
  rfl

/-- The template and the options of `include` and `embed`. -/
theorem inclusion_reads {i : Inclusion} (ht : Reads expr (enclosed i.template) Ends)
    (hc : ∀ c ∈ i.context, Reads expr (enclosed c) Ends) (kind : Kind) (tok : Token) :
    Reads (inclusion expr kind tok) (i.phrase kind tok.location) fun _ => True := by
  intro loc s _
  obtain ⟨template, ignoreMissing, context, only⟩ := i
  cases context with
  | none =>
    cases ignoreMissing <;> cases only <;>
      simp [inclusion, Inclusion.phrase, context?, wordIf, tagEnd, ht] <;> rfl
  | some c =>
    have hcontext := hc c rfl
    cases ignoreMissing <;> cases only <;>
      simp [inclusion, Inclusion.phrase, context?, wordIf, tagEnd, ht, hcontext] <;> rfl

theorem reads_include (hends : ∀ t ∈ ends, t ∈ endTags) {i : Inclusion}
    (ht : Reads expr (enclosed i.template) Ends)
    (hc : ∀ c ∈ i.context, Reads expr (enclosed c) Ends) :
    ReadsStatement print (tag expr sub) ends (Stmt.includeTag i).phrase := by
  rw [Stmt.phrase]
  refine readsStatement_tagged (by decide) hends fun tok l loc s _ => ?_
  simpa [tag] using inclusion_reads ht hc .includeTag tok loc s trivial

theorem reads_embed (hends : ∀ t ∈ ends, t ∈ endTags) {i : Inclusion}
    (ht : Reads expr (enclosed i.template) Ends)
    (hc : ∀ c ∈ i.context, Reads expr (enclosed c) Ends)
    (h : ReadsBody sub (Stmt.phrases body)) :
    ReadsStatement print (tag expr sub) ends (Stmt.embedTag i body).phrase := by
  rw [Stmt.phrase]
  refine readsStatement_tagged (by decide) hends fun tok l loc s _ => ?_
  have hoptions := inclusion_reads ht hc .embedTag tok
  have hbody := closedBody_reads h tok "embed" "endembed" rfl (by decide)
  have hchild (loc : Layout) (n : Node) :
      ((i.phrase .embedTag tok.location).value loc).withChild .body n =
        { (i.phrase .embedTag tok.location).value loc with
          children := ((i.phrase .embedTag tok.location).value loc).children ++ [(.body, n)] } := by
    obtain ⟨template, ignoreMissing, context, only⟩ := i
    cases context <;> rfl
  simp [tag, embedTag, hoptions, hbody, hchild]

theorem reads_shortBlock (hends : ∀ t ∈ ends, t ∈ endTags) (name : Text)
    (he : Reads expr (enclosed e) Ends) :
    ReadsStatement print (tag expr sub) ends (Stmt.shortBlockTag name e).phrase := by
  rw [Stmt.phrase]
  refine readsStatement_tagged (by decide) hends fun tok l loc s _ => ?_
  simp [tag, blockTag, tagEnd, enclosed_current, he]
  rfl

theorem reads_block (hends : ∀ t ∈ ends, t ∈ endTags) (name : Text) (endName : Bool)
    (h : ReadsBody sub (Stmt.phrases body)) :
    ReadsStatement print (tag expr sub) ends (Stmt.blockTag name body endName).phrase := by
  rw [Stmt.phrase]
  refine readsStatement_tagged (by decide) hends fun tok l loc s _ => ?_
  have hbody := h (some ⟨tok, "block"⟩) ["endblock"] "endblock" (by simp) (by simp [endTags])
  cases endName <;> simp [tag, blockTag, Parser.endName, namedBlock, wordIf, tagEnd, hbody] <;> rfl

theorem reads_trans (hends : ∀ t ∈ ends, t ∈ endTags) {context : Option Expr}
    (hc : ∀ c ∈ context, Reads expr (enclosed c) Ends) (h : ReadsBody sub (Stmt.phrases body)) :
    ReadsStatement print (tag expr sub) ends (Stmt.transTag context body).phrase := by
  rw [Stmt.phrase]
  refine readsStatement_tagged (by decide) hends fun tok l loc s _ => ?_
  have hbody := h (some ⟨tok, "trans"⟩) ["plural", "endtrans"] "endtrans" (by simp)
    (by simp [endTags])
  cases context with
  | none => simp [tag, transTag, context?, block, tagEnd, hbody]; rfl
  | some c =>
    have hcontext := hc c rfl
    simp [tag, transTag, context?, block, tagEnd, hcontext, hbody]
    rfl

theorem reads_plural (hends : ∀ t ∈ ends, t ∈ endTags) {context : Option Expr}
    (hc : ∀ c ∈ context, Reads expr (enclosed c) Ends) (h : ReadsBody sub (Stmt.phrases body))
    (he : Reads expr (enclosed e) Ends) {plural : List Stmt}
    (hp : ReadsBody sub (Stmt.phrases plural)) :
    ReadsStatement print (tag expr sub) ends (Stmt.pluralTag context body e plural).phrase := by
  rw [Stmt.phrase]
  refine readsStatement_tagged (by decide) hends fun tok l loc s _ => ?_
  have hbody := h (some ⟨tok, "trans"⟩) ["plural", "endtrans"] "plural" (by simp)
    (by simp [endTags])
  have hplural := hp (some ⟨tok, "trans"⟩) ["endtrans"] "endtrans" (by simp) (by simp [endTags])
  cases context with
  | none => simp [tag, transTag, context?, block, tagEnd, he, hbody, hplural]; rfl
  | some c =>
    have hcontext := hc c rfl
    simp [tag, transTag, context?, block, tagEnd, he, hcontext, hbody, hplural]
    rfl

theorem reads_with (hends : ∀ t ∈ ends, t ∈ endTags) {context : Option Expr} (only : Bool)
    (hc : ∀ c ∈ context, Reads expr (enclosed c) Ends) (h : ReadsBody sub (Stmt.phrases body)) :
    ReadsStatement print (tag expr sub) ends (Stmt.withTag context only body).phrase := by
  rw [Stmt.phrase]
  refine readsStatement_tagged (by decide) hends fun tok l loc s _ => ?_
  have hbody := closedBody_reads h tok "with" "endwith" rfl (by decide)
  cases context with
  | none => cases only <;> simp [tag, withTag, enclosed?, wordIf, tagEnd, hbody] <;> rfl
  | some c =>
    have hcontext := hc c rfl
    cases only <;>
      simp [tag, withTag, enclosed?, wordIf, tagEnd, enclosed_current, hcontext, hbody] <;> rfl

theorem reads_autoescape (hends : ∀ t ∈ ends, t ∈ endTags) {strategy : Option Expr}
    (hc : ∀ c ∈ strategy, Reads expr (enclosed c) Ends) (h : ReadsBody sub (Stmt.phrases body)) :
    ReadsStatement print (tag expr sub) ends (Stmt.autoescapeTag strategy body).phrase := by
  rw [Stmt.phrase]
  refine readsStatement_tagged (by decide) hends fun tok l loc s _ => ?_
  have hbody := closedBody_reads h tok "autoescape" "endautoescape" rfl (by decide)
  cases strategy with
  | none => simp [tag, autoescapeTag, enclosed?, tagEnd, hbody]; rfl
  | some c =>
    have hstrategy := hc c rfl
    simp [tag, autoescapeTag, enclosed?, tagEnd, enclosed_current, hstrategy, hbody]
    rfl

theorem reads_import (hends : ∀ t ∈ ends, t ∈ endTags) (name : Target)
    (he : Reads expr (enclosed e) Ends) :
    ReadsStatement print (tag expr sub) ends (Stmt.importTag e name).phrase := by
  rw [Stmt.phrase]
  refine readsStatement_tagged (by decide) hends fun tok l loc s _ => ?_
  simp [tag, importTag, bound, tagEnd, targetNames_one, he]
  rfl

theorem importStep_eq : importStep = commaStep importedName := rfl

theorem importedName_reads (x : Imported) :
    Reads importedName x.phrase fun t => t.type ≠ .name := by
  intro loc s hs
  have has : s.current.is .name "as" = false := by simp [Token.is, hs]
  cases x with
  | plain name => simp [importedName, Imported.phrase, has, name.notReserved]; rfl
  | renamed name target => simp [importedName, Imported.phrase, target.notReserved]; rfl

theorem reads_from (hends : ∀ t ∈ ends, t ∈ endTags) (first : Imported) (rest : List Imported)
    (he : Reads expr (enclosed e) Ends) :
    ReadsStatement print (tag expr sub) ends (Stmt.fromTag e first rest).phrase := by
  rw [Stmt.phrase]
  refine readsStatement_tagged (by decide) hends fun tok l loc s _ => ?_
  have hfirst := commas_first (importedName_reads first) (by simp) (rest.map Imported.phrase)
  have hrest := commas_rest (List.forall_mem_map.mpr fun x (_ : x ∈ rest) => importedName_reads x)
    (by simp) first.phrase
  simp [tag, fromTag, tagEnd, he, hfirst, importStep_eq, hrest]
  rfl

theorem filterOf_reads {f : Filter}
    (h : ∀ as ∈ f.args, ReadsItems (argument expr) ")" (Arg.phrases as)) (n : Option Node) :
    Reads (filterOf expr n) (f.phrase n) fun t => t.is .punctuation "(" = false := by
  intro loc s hs
  have hargs := fun l loc => optionalArguments_reads h l loc s hs
  simp [filterOf, Filter.phrase, hargs]
  cases n <;> rfl

theorem chain_current (fs : List Filter) (n : Node) (loc : Layout) {s : TokenStream}
    (hs : s.current.is .punctuation "(" = false) :
    (s.prepend ((Filter.chain fs n).tokens loc)).current.is .punctuation "(" = false := by
  cases fs with
  | nil => exact hs
  | cons f fs => rfl

theorem filterStep_loop {fs : List Filter}
    (h : ∀ f ∈ fs, ∀ as ∈ f.args, ReadsItems (argument expr) ")" (Arg.phrases as)) (n : Node)
    (loc : Layout) {s : TokenStream} (hbar : s.current.is .punctuation "|" = false)
    (hparen : s.current.is .punctuation "(" = false) :
    Loop (filterStep expr) n (s.prepend ((Filter.chain fs n).tokens loc))
      ((Filter.chain fs n).value loc) s := by
  induction fs generalizing n loc with
  | nil => exact .stop (by simp [filterStep, Filter.chain, hbar])
  | cons f fs ih =>
    have hfilter := filterOf_reads (h f (by simp))
    simp only [Filter.chain, Phrase.bind_tokens, Phrase.bind_value, TokenStream.prepend_append]
    refine .next ?_ ?_ (ih (fun g hg => h g (List.mem_cons_of_mem _ hg)) _ _)
    · simp [filterStep, hfilter, chain_current, hparen]
    · simp only [TokenStream.length_prepend, Phrase.mark_tokens, List.length_singleton]
      omega

theorem reads_apply (hends : ∀ t ∈ ends, t ∈ endTags) {first : Filter} {rest : List Filter}
    (hf : ∀ f ∈ first :: rest, ∀ as ∈ f.args, ReadsItems (argument expr) ")" (Arg.phrases as))
    (h : ReadsBody sub (Stmt.phrases body)) :
    ReadsStatement print (tag expr sub) ends (Stmt.applyTag first rest body).phrase := by
  rw [Stmt.phrase]
  refine readsStatement_tagged (by decide) hends fun tok l loc s _ => ?_
  have hbody := closedBody_reads h tok "apply" "endapply" rfl (by decide)
  have hfirst := filterOf_reads (hf first (by simp)) none
  have hrest := fun n loc l (ts : List Token) => (filterStep_loop
    (fun f hm => hf f (List.mem_cons_of_mem _ hm)) n loc
    (s := s.prepend (⟨.tagEnd, "%\x7d", l⟩ :: ts)) rfl rfl).extend
  simp [tag, applyTag, tagEnd, hfirst, chain_current, hrest, hbody]
  rfl

theorem readsItem_param_plain (name : Target) :
    ReadsItem (param expr) ")" (Param.plain name).phrase := by
  refine ⟨fun loc s hs => ?_, .bind (.word fun _ => by simp) _⟩
  simp [param, Param.phrase, bound, expectTarget_run, hs.not_mark]
  rfl

theorem readsItem_param_optional (name : Target) (colon : Bool)
    (he : Reads expr (enclosed e) Ends) :
    ReadsItem (param expr) ")" (Param.optional name colon e).phrase := by
  refine ⟨fun loc s hs => ?_, .bind (.word fun _ => by simp) _⟩
  have hdefault := fun loc => he loc s (hs.ends (by simp))
  cases colon <;> simp [param, Param.phrase, expectTarget_run, hdefault] <;> rfl

theorem reads_macro (hends : ∀ t ∈ ends, t ∈ endTags) (name : Text) {params : List Param}
    (hp : ReadsItems (param expr) ")" (params.map Param.phrase))
    (h : ReadsBody sub (Stmt.phrases body)) (endName : Bool) :
    ReadsStatement print (tag expr sub) ends (Stmt.macroTag name params body endName).phrase := by
  rw [Stmt.phrase]
  refine readsStatement_tagged (by decide) hends fun tok l loc s _ => ?_
  have hbody := h (some ⟨tok, "macro"⟩) ["endmacro"] "endmacro" (by simp) (by simp [endTags])
  cases endName <;>
    simp [tag, macroTag, bracketed, Parser.endName, namedBlock, wordIf, tagEnd, hp.commaList,
      hbody] <;> rfl

end Tags

end TwigLint.Parser
