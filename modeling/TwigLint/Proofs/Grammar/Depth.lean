import TwigLint.Proofs.Grammar.WatchedRuns

/-! # The depth limit

A higher depth limit changes nothing for a template that a parser reads, or rejects for another
reason than its depth.  No template is deeper than its number of tokens.
-/

namespace TwigLint

open TwigLint.Parser (Agree)

/-- Only the error at the depth limit has its message. -/
theorem SyntaxFault.eq_depthExceeded {fault : SyntaxFault} {limit : Int}
    (h : fault.message = (SyntaxFault.depthExceeded limit).message) :
    ∃ n, fault = .depthExceeded n := by
  have hhead : fault.message.head? = some 77 := by
    rw [h]
    rfl
  cases fault with
  | depthExceeded n => exact ⟨n, rfl⟩
  | _ => cases hhead

/-! ## Runs on the same template -/

namespace Comparison

/-- A plain parser and a watched one on the same template, with their depth limits. -/
def ofLimits {stream : TokenStream} (shaped : stream.Shaped) (limit wide : Nat) : Comparison where
  stream := stream
  shaped := shaped
  behind := ⟨[], stream.eof⟩
  behind_current := rfl
  admits e := ∀ n, e.fault = .depthExceeded n → limit < stream.tokens.length
  excused e := limit < wide ∧ e.fault = .depthExceeded limit
  admits_of_mem _ _ _ _ hfault n heq := absurd heq (hfault n)

variable {stream : TokenStream} (shaped : stream.Shaped) {limit wide : Nat}

theorem ofLimits_long (c : Nat) :
    (ofLimits shaped limit wide).long c = (ofLimits shaped limit wide).short c := by
  simp [long, short, ofLimits, TokenStream.prepend, TokenStream.skip]

theorem ofLimits_watches {watch : Observer} (hle : limit ≤ wide)
    (hsilent : ∀ m : Moment, m.Sound stream.tokens.length → watch m = none) :
    (ofLimits shaped limit wide).Watches watch limit wide where
  le := hle
  silent := hsilent
  admits _ _ hlt _ _ := hlt
  excused hlt _ := ⟨hlt, rfl⟩

end Comparison

/-! ## Whole templates -/

theorem CountingParser.run_return {α : Type} (p : Parser α) (depth : Int) (s : TokenStream) :
    (do return (← p, depth) : Parser (α × Int)).run s =
      (fun r => ((r.1, depth), r.2)) <$> p.run s := by
  rw [StateT.run_bind]
  cases p.run s <;> rfl

section Template

variable {stream : TokenStream} (shaped : stream.Shaped) {limit wide fuel : Nat}
include shaped

/-- The watched parser does what the plain one does, except for the error at a lower limit. -/
theorem CountingParser.template_run {watch : Observer} (hle : limit ≤ wide)
    (hsilent : ∀ m : Moment, m.Sound stream.tokens.length → watch m = none) (hfuel : wide < fuel)
    (hdeep : limit < wide → ∀ e, (Parser.template limit).run stream = .error e →
      e.fault ≠ .depthExceeded limit) :
    ((template watch wide fuel).run 0).run stream =
      (fun r => ((r.1, 0), r.2)) <$> (Parser.template limit).run stream := by
  have hagree := template_agrees (Comparison.ofLimits_watches shaped hle hsilent) hfuel
  rw [← run_return]
  apply hagree.run_eq (Comparison.ofLimits_long shaped)
  rintro e herr ⟨hlt, hfault⟩
  apply hdeep hlt e _ hfault
  rw [run_return] at herr
  cases hrun : (Parser.template limit).run stream with
  | error e' =>
    have hrun' : (Parser.template limit).run ((Comparison.ofLimits shaped limit wide).short 0) =
        .error e' := hrun
    rw [hrun'] at herr
    cases herr
    rfl
  | ok r =>
    have hrun' : (Parser.template limit).run ((Comparison.ofLimits shaped limit wide).short 0) =
        .ok r := hrun
    rw [hrun'] at herr
    cases herr

/-- A template is not deeper than its number of tokens. -/
theorem Parser.template_error_depth {e : SyntaxError}
    (h : (Parser.template limit).run stream = .error e) {n : Int}
    (hfault : e.fault = .depthExceeded n) : limit < stream.tokens.length := by
  have hwatches := Comparison.ofLimits_watches shaped (le_refl limit)
    (fun _ _ => rfl : ∀ m : Moment, m.Sound stream.tokens.length → (fun _ => none) m = none)
  have hagree := CountingParser.template_agrees hwatches (Nat.lt_succ_self limit)
  apply (hagree.error e _).1 n hfault
  rw [CountingParser.run_return]
  exact congrArg _ h

end Template

theorem parseTemplate_error {source : Text} {e : SyntaxError}
    (h : TokenStream.ofSource source = .error e) (limit : Nat) :
    parseTemplate limit source = .error e := by
  rw [parseTemplate, h]
  rfl

theorem parseTemplate_eq {source : Text} {stream : TokenStream}
    (h : TokenStream.ofSource source = .ok stream) (limit : Nat) :
    parseTemplate limit source = Prod.fst <$> (Parser.template limit).run stream := by
  simp only [parseTemplate, h, Parser.ok_bind]
  rfl

/-- The depth limit is monotone and never spurious.

Unless the limit is what the parser fails at, a higher one gives the same tree or the same error.  A
limit that is not below the number of tokens is never reached.  Nobody who watches the parser for a
counter above the number of consumed tokens, or for a nested part that does not leave it as it was,
has anything to see, and behind a template the counter is at 0 again. -/
theorem depth_limit (d d' : Nat) (hle : d ≤ d') (source : Text) :
    ((∀ e, parseTemplate d source = .error e →
        e.message ≠ "Maximum nesting depth of " ++ Text.ofInt d ++ " exceeded.") →
      parseTemplate d' source = parseTemplate d source) ∧
    ∀ stream, TokenStream.ofSource source = .ok stream →
      (stream.tokens.length ≤ d → ∀ e, parseTemplate d source = .error e →
        e.message ≠ "Maximum nesting depth of " ++ Text.ofInt d ++ " exceeded.") ∧
      ∀ (watch : Observer) (fuel : Nat),
        (∀ m : Moment, m.Sound stream.tokens.length → watch m = none) → d < fuel →
        ((CountingParser.template watch d fuel).run 0).run stream =
          (fun r => ((r.1, 0), r.2)) <$> (Parser.template d).run stream := by
  have herror {stream : TokenStream} {e : SyntaxError}
      (hstream : TokenStream.ofSource source = .ok stream) :
      (Parser.template d).run stream = .error e ↔ parseTemplate d source = .error e := by
    rw [parseTemplate_eq hstream]
    cases (Parser.template d).run stream <;> simp
  constructor
  · intro hdeep
    cases hstream : TokenStream.ofSource source with
    | error e =>
      rw [parseTemplate_error hstream, parseTemplate_error hstream]
    | ok stream =>
      have shaped := Lexing.shaped_ofSource hstream
      -- both parsers do what a parser with the higher limit does that nobody watches
      have hlow := CountingParser.template_run shaped hle (fun _ _ => rfl) (Nat.lt_succ_self d')
        fun _ e herr hfault =>
          hdeep e ((herror hstream).mp herr) (congrArg SyntaxFault.message hfault)
      have hhigh := CountingParser.template_run shaped le_rfl (fun _ _ => rfl) (Nat.lt_succ_self d')
        fun hlt => absurd hlt (lt_irrefl d')
      rw [parseTemplate_eq hstream, parseTemplate_eq hstream]
      have hanswer := congrArg (fun m => (fun r => r.1.1) <$> m) (hhigh.symm.trans hlow)
      simpa only [Functor.map_map] using hanswer
  · intro stream hstream
    have shaped := Lexing.shaped_ofSource hstream
    constructor
    · intro hlength e herr hmessage
      obtain ⟨n, hfault⟩ := SyntaxFault.eq_depthExceeded hmessage
      have hlt := Parser.template_error_depth shaped ((herror hstream).mpr herr) hfault
      omega
    · intro watch fuel hsilent hfuel
      exact CountingParser.template_run shaped le_rfl hsilent hfuel fun hlt =>
        absurd hlt (lt_irrefl d)

/-- An expression in parentheses nests two levels deep and has five tokens. -/
theorem depth_limit_parentheses : let source : Text := "\x7b\x7b (1) \x7d\x7d"
    (parseTemplate 1 source).toOption = none ∧ parseTemplate 5 source = parseTemplate 2 source ∧
    (parseTemplate 2 source).toOption.isSome = true ∧
    ∃ stream, TokenStream.ofSource source = .ok stream ∧ stream.tokens.length = 5 ∧
      ((CountingParser.template (fun _ => none) 2 3).run 0).run stream =
        (fun r => ((r.1, 0), r.2)) <$> (Parser.template 2).run stream := by
  intro source
  have hsome : (parseTemplate 2 source).toOption.isSome = true := by decide +kernel
  have hlength : (TokenStream.ofSource source).toOption.map (·.tokens.length) = some 5 := by
    decide +kernel
  have hlimit := depth_limit 2 5 (by decide) source
  cases hstream : TokenStream.ofSource source with
  | error e =>
    rw [hstream] at hlength
    cases hlength
  | ok stream =>
    rw [hstream] at hlength
    refine ⟨by decide +kernel, hlimit.1 ?_, hsome, stream, rfl, Option.some.inj hlength, ?_⟩
    · intro e herr
      rw [herr] at hsome
      cases hsome
    · exact (hlimit.2 stream hstream).2 (fun _ => none) 3 (fun _ _ => rfl) (by decide)

-- an observer that does not let the counter come to 2 stops the parser at the parenthesis
example : (TokenStream.ofSource "\x7b\x7b (1) \x7d\x7d").toOption.map (fun stream =>
    ((CountingParser.template (fun m => match m with
      | .entered 2 s => some ⟨.depthExceeded 2, s.current.location⟩
      | _ => none) 2 3).run 0).run stream |>.isOk) = some false := by
  decide +kernel

end TwigLint
