import TwigLint.Proofs.Grammar.Depth

/-! # The parser reads everything and stops

A parser that succeeds has consumed every token in front of the end token.  It looks at nothing
behind the end token, and every round of its loops consumes a token, ends the loop or fails.
-/

namespace TwigLint

namespace Parser

/-! ## Loops -/

/-- A loop makes rounds, each of which consumes a token, until one of them ends it or fails. -/
inductive Terminates {α : Type} (step : α → Parser (Option α)) :
    α → TokenStream → Except SyntaxError (α × TokenStream) → Prop
  | fail {a : α} {s : TokenStream} {e : SyntaxError} (last : (step a).run s = .error e) :
      Terminates step a s (.error e)
  | stop {a : α} {s s' : TokenStream} (last : (step a).run s = .ok (none, s')) :
      Terminates step a s (.ok (a, s'))
  | round {a b : α} {s s' : TokenStream} {r : Except SyntaxError (α × TokenStream)}
      (first : (step a).run s = .ok (some b, s'))
      (shorter : s'.tokens.length < s.tokens.length) (rest : Terminates step b s' r) :
      Terminates step a s r

/-- Loops terminate when their rounds agree with themselves. -/
theorem Agree.terminates {x : Comparison} {α : Type} {step : α → Parser (Option α)}
    {I K : α → Nat → Prop} (hstep : ∀ a c, I a c → Agree x c (step a) (step a) (Round I K a c))
    (hle : ∀ a c, I a c → c ≤ x.length) {a : α} {c : Nat} (ha : I a c) :
    Terminates step a (x.short c) ((Parser.extend step a).run (x.short c)) := by
  have hloop (n : Nat) {a : α} {c : Nat} (ha : I a c) (hn : x.length - c < n) :
      Terminates step a (x.short c) ((Parser.extendUpTo step n a).run (x.short c)) := by
    induction n generalizing a c with
    | zero => exact absurd hn (Nat.not_lt_zero _)
    | succ n ih =>
      rw [Parser.extendUpTo, StateT.run_bind]
      rcases hrun : (step a).run (x.short c) with e | ⟨_ | b, s⟩
      · exact .fail hrun
      · exact .stop hrun
      · obtain ⟨c', hs, -, hlt, hb⟩ := (hstep a c ha).ok _ _ hrun
        have hle' := hle b c' hb
        rw [hs] at hrun ⊢
        apply Terminates.round hrun
        · rw [x.length_short, x.length_short]
          omega
        · exact ih hb (by omega)
  have hall := hloop ((x.short c).tokens.length + 1) ha (by rw [x.length_short]; omega)
  exact hall

theorem Rounds.terminates {x : Comparison} {α : Type} {step : α → Parser (Option α)}
    (h : Rounds x 0 step step) {c : Nat} (hin : x.Inside c) (a : α) :
    Terminates step a (x.short c) ((Parser.extend step a).run (x.short c)) := by
  have hstep (a : α) (c : Nat) (hin : x.Inside c) : Agree x c (step a) (step a)
      (Agree.Round (fun _ => x.Inside) (fun _ _ => True) a c) := by
    apply (h a c (Nat.zero_le c) hin).mono
    rintro (_ | b) c' hround
    · trivial
    · exact ⟨hround.lt rfl, hround.inside⟩
  exact Agree.terminates hstep (fun _ _ => Comparison.Inside.le) hin

variable (stream : TokenStream) (limit : Nat)

/-- The rounds of all loops inside sections, in a parser for the given template. -/
inductive SectionLoop : (α : Type) → (α → Parser (Option α)) → Prop
  | arguments (levels : Nat) : SectionLoop (List Node)
      (commaList.step ")" .missingArgumentComma (argument (expression limit levels 0)))
  | elements (levels : Nat) : SectionLoop (List Node)
      (commaList.step "]" .missingArrayComma (element (expression limit levels 0)))
  | entries (levels : Nat) : SectionLoop (List Node)
      (commaList.step "\x7d" .missingHashComma (hashEntry (expression limit levels 0)))
  | postfixes (levels : Nat) : SectionLoop Node (postfixStep (expression limit levels 0))
  | operators (levels precedence : Nat) :
      SectionLoop Node (binaryStep (expression limit levels) precedence)
  | conditionals (levels : Nat) : SectionLoop Node (conditionalStep (expression limit levels 0))
  | arrowParameters : SectionLoop (List Node) paramStep
  | targets : SectionLoop (List Node) targetStep
  | values (levels : Nat) : SectionLoop (List Node) (valueStep (expression limit levels 0))
  | branches (levels : Nat) {tok : Token} (htok : tok ∈ stream.tokens)
      (htype : tok.type = .tagStart) : SectionLoop Branches
      (branchStep (expression limit levels 0) (body limit levels) tok)
  | filters (levels : Nat) : SectionLoop Node (filterStep (expression limit levels 0))
  | macroParameters (levels : Nat) : SectionLoop (List Node)
      (commaList.step ")" .missingArgumentComma (param (expression limit levels 0)))
  | imports : SectionLoop (List Node) importStep

/-- The rounds of the loop that reads a body, in a parser for the given template. -/
inductive BodyLoop : (BodyState → Parser (Option BodyState)) → Prop
  | innermost {opened : Option Opened}
      (hopened : ∀ o ∈ opened, o.token ∈ stream.tokens ∧ o.token.type = .tagStart)
      (ends : List Text) : BodyLoop (bodyStep (expression limit 0 0)
        (fun tok _ => failAt tok (.depthExceeded limit)) opened ends)
  | nested (levels : Nat) {opened : Option Opened}
      (hopened : ∀ o ∈ opened, o.token ∈ stream.tokens ∧ o.token.type = .tagStart)
      (ends : List Text) : BodyLoop (bodyStep (expression limit (levels + 1) 0)
        (tag (expression limit levels 0) (body limit levels)) opened ends)

end Parser

/-! ## One parser on two streams -/

/-- The same parser in front of the end of the template and of anything that starts with its end
token.  Its errors are at tokens that are not text. -/
def Comparison.alike {stream : TokenStream} (shaped : stream.Shaped) (behind : TokenStream)
    (hbehind : behind.current = stream.eof) : Comparison where
  stream := stream
  shaped := shaped
  behind := behind
  behind_current := hbehind
  admits e := ∃ tok ∈ stream.tokens, tok.type ≠ .text ∧ e.location = tok.location
  excused _ := False
  admits_of_mem tok htok htype _ _ := ⟨tok, htok, htype, rfl⟩

namespace Parser

section Template

variable {stream : TokenStream} (shaped : stream.Shaped) (limit : Nat)

theorem template_alike (behind : TokenStream) (hbehind : behind.current = stream.eof) :
    Agree (.alike shaped behind hbehind) 0 (template limit) (template limit)
      fun _ c => c = stream.tokens.length :=
  template_stops fun tok htok => ⟨tok, htok.1, htok.2, rfl⟩

include shaped

/-- The parser fails at a token that is not text. -/
theorem template_error_location {e : SyntaxError} (h : (template limit).run stream = .error e) :
    ∃ tok ∈ stream.tokens, tok.type ≠ .text ∧ e.location = tok.location :=
  ((template_alike shaped limit ⟨[], stream.eof⟩ rfl).error e h).1

theorem template_rest {root : Node} {rest : TokenStream}
    (h : (template limit).run stream = .ok (root, rest)) : rest = ⟨[], stream.eof⟩ := by
  obtain ⟨c, hrest, -, hc⟩ := (template_alike shaped limit ⟨[], stream.eof⟩ rfl).ok root rest h
  rw [hrest, hc]
  simp [Comparison.short, Comparison.alike, TokenStream.skip]

theorem template_prepend {behind : TokenStream} (hbehind : behind.current = stream.eof) :
    (template limit).run (behind.prepend stream.tokens) =
      (fun r => (r.1, behind)) <$> (template limit).run stream := by
  have hagree := template_alike shaped limit behind hbehind
  cases hrun : (template limit).run stream with
  | error e => exact (hagree.error e hrun).2.resolve_right id
  | ok r =>
    obtain ⟨c, -, hlong, hc⟩ := hagree.ok r.1 r.2 hrun
    refine hlong.trans ?_
    simp [hc, Comparison.long, Comparison.alike]

/-- Inside a section, loops make rounds that consume tokens. -/
theorem SectionLoop.terminates {α : Type} {step : α → Parser (Option α)}
    (h : SectionLoop stream limit α step) (a : α) {n : Nat}
    (hinside : (stream.skip n).current.type.startsStatement = false) :
    Terminates step a (stream.skip n) ((extend step a).run (stream.skip n)) := by
  let x := Comparison.alike shaped ⟨[], stream.eof⟩ rfl
  have hdepth (tok : Token) (htok : x.Real tok) :
      x.admits ⟨.depthExceeded limit, tok.location⟩ := ⟨tok, htok.1, htok.2, rfl⟩
  have hexpr (levels precedence : Nat) : Consume x 0 (expression limit levels precedence)
      (expression limit levels precedence) :=
    expression_consumes hdepth levels precedence
  have hrounds : Rounds x 0 step step := by
    cases h with
    | arguments levels => exact commaListStep_rounds (argument_consumes (hexpr levels 0)) (by simp)
    | elements levels => exact commaListStep_rounds (element_consumes (hexpr levels 0)) (by simp)
    | entries levels => exact commaListStep_rounds (hashEntry_consumes (hexpr levels 0)) (by simp)
    | postfixes levels => exact postfixStep_rounds (hexpr levels 0)
    | operators levels precedence => exact binaryStep_rounds (hexpr levels) precedence
    | conditionals levels => exact conditionalStep_rounds (hexpr levels 0)
    | arrowParameters => exact paramStep_rounds
    | targets => exact targetStep_rounds
    | values levels => exact valueStep_rounds (hexpr levels 0)
    | branches levels htok htype =>
      have hreal : x.Real _ := ⟨htok, by simp [htype]⟩
      exact branchStep_rounds (hexpr levels 0) (body_bodies hdepth levels 0) hreal
    | filters levels => exact filterStep_rounds (hexpr levels 0)
    | macroParameters levels =>
      exact commaListStep_rounds (param_consumes (hexpr levels 0)) (by simp)
    | imports => exact importStep_rounds
  exact hrounds.terminates (Comparison.inside_of_token hinside) a

/-- Where statements start, the loop of a body makes rounds that consume tokens. -/
theorem BodyLoop.terminates {step : BodyState → Parser (Option BodyState)}
    (h : BodyLoop stream limit step) (nodes : List Node) {n : Nat} (hn : n ≤ stream.tokens.length)
    (hstart : (stream.skip n).current.type.startsStatement = true) :
    Terminates step ⟨nodes, none⟩ (stream.skip n)
      ((extend step ⟨nodes, none⟩).run (stream.skip n)) := by
  let x := Comparison.alike shaped ⟨[], stream.eof⟩ rfl
  have hdepth (tok : Token) (htok : x.Real tok) :
      x.admits ⟨.depthExceeded limit, tok.location⟩ := ⟨tok, htok.1, htok.2, rfl⟩
  have hexpr (levels : Nat) : Consume x 1 (expression limit levels 0) (expression limit levels 0) :=
    (expression_consumes hdepth levels 0).weaken (Nat.zero_le 1)
  have hreal {opened : Option Opened} (hopened : ∀ o ∈ opened, o.token ∈ stream.tokens ∧
      o.token.type = .tagStart) : ∀ o ∈ opened, x.Real o.token :=
    fun o ho => ⟨(hopened o ho).1, by simp [(hopened o ho).2]⟩
  -- a body with the given parsers for expressions and tags
  have hbody {expr : Parser Node} {nested : Token → Token → Parser Node} {opened : Option Opened}
      (hexpr : Consume x 1 expr expr)
      (hnested : ∀ tok name, x.Real tok → x.Real name →
        Completes x 2 (nested tok name) (nested tok name))
      (hopened : ∀ o ∈ opened, x.Real o.token) (ends : List Text) :
      Terminates (bodyStep expr nested opened ends) ⟨nodes, none⟩ (x.short n)
        ((extend (bodyStep expr nested opened ends) ⟨nodes, none⟩).run (x.short n)) := by
    have hat : BodyState.At x ends n ⟨nodes, none⟩ n := ⟨le_rfl, hn, hstart⟩
    have hstep (state : BodyState) (c : Nat) (hat : state.At x ends n c) :=
      bodyStep_agrees hexpr hnested hopened ends (Nat.zero_le n) hat
    exact Agree.terminates hstep (fun _ _ => BodyState.At.le) hat
  cases h with
  | innermost hopened ends =>
    apply hbody (hexpr 0) _ (hreal hopened) ends
    intro tok name htok _ c _ _
    exact .fail_of_admits (hdepth tok htok)
  | nested levels hopened ends =>
    apply hbody (hexpr (levels + 1)) _ (hreal hopened) ends
    intro tok name htok hname
    have hsub := body_bodies hdepth levels 2
    exact tag_completes ((hexpr levels).weaken (Nat.le_succ 1)) hsub htok hname

end Template

/-- The parser consumes everything and stops.

When it succeeds, the end token is all that is left.  With anything behind the end token it does the
same, so that it never looks there and the bounds of its loops do not matter.  Nobody who watches it
for a place where a statement is asked for and neither text nor an opening delimiter nor the end
token stands has anything to see.  The look-ahead for arrow functions stops at the end token.  All
loops terminate because every round that goes on consumes a token. -/
theorem parser_stops (limit : Nat) {source : Text} {stream : TokenStream}
    (h : TokenStream.ofSource source = .ok stream) :
    (∀ root rest, (template limit).run stream = .ok (root, rest) → rest = ⟨[], stream.eof⟩) ∧
    (∀ behind : TokenStream, behind.current = stream.eof →
      (template limit).run (behind.prepend stream.tokens) =
        (fun r => (r.1, behind)) <$> (template limit).run stream) ∧
    (∀ (watch : Observer) (fuel : Nat),
      (∀ m, (∀ tok, m = .statement tok → tok.type.startsStatement = true) → watch m = none) →
      limit < fuel → ((CountingParser.template watch limit fuel).run 0).run stream =
        (fun r => ((r.1, 0), r.2)) <$> (template limit).run stream) ∧
    (∀ (n : Nat) (behind : TokenStream),
      (stream.skip n).current.type.startsStatement = false → behind.current = stream.eof →
      arrowAhead (behind.prepend (stream.tokens.drop n)) = arrowAhead (stream.skip n)) ∧
    (∀ (α : Type) (step : α → Parser (Option α)), SectionLoop stream limit α step →
      ∀ (a : α) (n : Nat), (stream.skip n).current.type.startsStatement = false →
        Terminates step a (stream.skip n) ((extend step a).run (stream.skip n))) ∧
    ∀ step, BodyLoop stream limit step → ∀ (nodes : List Node), ∀ n ≤ stream.tokens.length,
      (stream.skip n).current.type.startsStatement = true →
        Terminates step ⟨nodes, none⟩ (stream.skip n)
          ((extend step ⟨nodes, none⟩).run (stream.skip n)) := by
  have shaped := Lexing.shaped_ofSource h
  refine ⟨?_, ?_, ?_, ?_, ?_, ?_⟩
  · intro root rest
    exact template_rest shaped limit
  · intro behind hbehind
    exact template_prepend shaped limit hbehind
  · intro watch fuel hsilent hfuel
    apply CountingParser.template_run shaped le_rfl _ hfuel fun hlt => absurd hlt (lt_irrefl limit)
    intro m hm
    apply hsilent
    rintro tok rfl
    exact hm
  · intro n behind hinside hbehind
    exact arrowAhead_long (x := .alike shaped behind hbehind) (Comparison.inside_of_token hinside)
  · intro α step hstep a n hinside
    exact hstep.terminates shaped limit a hinside
  · intro step hstep nodes n hn hstart
    exact hstep.terminates shaped limit nodes hn hstart

/-- A filter behind an array, read in front of the end token and in front of the end token and a
second copy of the template. -/
theorem parser_stops_array : ∃ (stream : TokenStream) (root : Node),
    TokenStream.ofSource "\x7b\x7b [a, b]|last \x7d\x7d" = .ok stream ∧
    (template 3).run stream = .ok (root, ⟨[], stream.eof⟩) ∧
    (template 3).run (TokenStream.prepend ⟨stream.eof :: stream.tokens, stream.eof⟩ stream.tokens) =
      .ok (root, ⟨stream.eof :: stream.tokens, stream.eof⟩) ∧
    Terminates (postfixStep (expression 3 2 0)) root (stream.skip 6)
      ((extend (postfixStep (expression 3 2 0)) root).run (stream.skip 6)) := by
  have hruns : (TokenStream.ofSource "\x7b\x7b [a, b]|last \x7d\x7d").toOption.map (fun stream =>
      (((template 3).run stream).toOption.isSome,
        (stream.skip 6).current.type.startsStatement)) = some (true, false) := by
    decide +kernel
  cases hstream : TokenStream.ofSource "\x7b\x7b [a, b]|last \x7d\x7d" with
  | error e =>
    rw [hstream] at hruns
    cases hruns
  | ok stream =>
    rw [hstream] at hruns
    obtain ⟨hsome, hinside⟩ := Prod.mk.inj (Option.some.inj hruns)
    obtain ⟨hrest, hbehind, -, -, hloops, -⟩ := parser_stops 3 hstream
    cases hrun : (template 3).run stream with
    | error e =>
      rw [hrun] at hsome
      cases hsome
    | ok r =>
      obtain ⟨root, rest⟩ := r
      have hlast := hbehind ⟨stream.eof :: stream.tokens, stream.eof⟩ rfl
      rw [hrun] at hlast
      rw [hrest root rest hrun] at hrun
      exact ⟨stream, root, rfl, hrun, hlast, hloops _ _ (.postfixes 2) root 6 hinside⟩

end Parser

end TwigLint
