import TwigLint.Proofs.Grammar.StatementRuns
import TwigLint.Proofs.Grammar.Watched

/-! # Watched parsers side by side with plain ones

A watched parser agrees with a plain one of the same or a lower depth limit when its observer lets
every sound moment pass.  The only error of the plain parser that is excused is the one at its
limit, if the limit of the watched parser is higher.  So all moments of the watched parser are
sound, and its fuel is not used up.
-/

namespace TwigLint

open TwigLint.Parser (Agree Consume Completes Bodies)

/-- The depth limits of a plain and of a watched parser, with an observer of the second. -/
structure Comparison.Watches (x : Comparison) (watch : Observer) (limit wide : Nat) : Prop where
  le : limit ≤ wide
  silent : ∀ m : Moment, m.Sound (x.length + x.behind.tokens.length) → watch m = none
  admits : ∀ tok, x.Real tok → limit < x.length → x.admits ⟨.depthExceeded limit, tok.location⟩
  excused : limit < wide → ∀ l, x.excused ⟨.depthExceeded limit, l⟩

namespace CountingParser

/-! ## Single levels -/

section Levels

variable {α : Type} {watch : Observer} {wide : Nat} {tok : Token} {depth : Int} {s : TokenStream}

theorem notice_of_none {m : Moment} (h : watch m = none) : notice watch m = pure () := by
  rw [notice, h]

theorem enter_run (wide : Nat) (tok : Token) (h : watch (.entered (depth + 1) s) = none) :
    ((enter watch wide tok).run depth).run s =
      if (wide : Int) < depth + 1 then .error ⟨.depthExceeded wide, tok.location⟩
      else .ok (((), depth + 1), s) := by
  have hsee : ((enter watch wide tok).run depth).run s = (do
      notice watch (.entered (depth + 1) s)
      if (wide : Int) < depth + 1 then Parser.failAt tok (.depthExceeded wide)
      return ((), depth + 1) : Parser (Unit × Int)).run s := rfl
  rw [hsee, notice_of_none h]
  split <;> rfl

/-- A parser that leaves the counter as it was is seen as if it had none. -/
theorem nestedAt_run {part : CountingParser α} {p : Parser α}
    (h : (part.run depth).run s = (do return (← p, depth) : Parser (α × Int)).run s)
    (hleft : watch (.left depth depth) = none) : (nestedAt watch depth part).run s = p.run s := by
  simp only [nestedAt, StateT.run_bind, h]
  cases p.run s with
  | error e => rfl
  | ok r => simp [notice_of_none hleft]

theorem nestedAt_deeper {part : Int → Parser α} (hle : depth + 1 ≤ wide)
    (hentered : watch (.entered (depth + 1) s) = none) (hleft : watch (.left depth depth) = none) :
    (nestedAt watch depth (deeper watch wide tok part)).run s = (part (depth + 1)).run s := by
  apply nestedAt_run _ hleft
  have henter := enter_run wide tok hentered
  rw [if_neg (by omega)] at henter
  simp [deeper, henter, leave]

theorem nestedAt_deeper_error {part : Int → Parser α} (hlt : wide < depth + 1)
    (hentered : watch (.entered (depth + 1) s) = none) :
    (nestedAt watch depth (deeper watch wide tok part)).run s =
      .error ⟨.depthExceeded wide, tok.location⟩ := by
  have henter := enter_run wide tok hentered
  rw [if_pos hlt] at henter
  simp only [nestedAt, deeper, StateT.run_bind, henter]
  rfl

end Levels

/-! ## Agreement -/

section Runs

variable {x : Comparison} {watch : Observer} {limit wide : Nat} (h : x.Watches watch limit wide)
include h

section Levels

variable {α : Type} {J : α → Nat → Prop} {c depth : Nat} {tok : Token}

theorem entered_silent (hc : depth < c) (hle : c ≤ x.length) :
    watch (.entered (depth + 1) (x.long c)) = none := by
  apply h.silent
  simp only [Moment.Sound, Comparison.length_long]
  omega

theorem left_silent : watch (.left depth depth) = none := h.silent _ rfl

/-- Below the limit of the plain parser both parsers go on. -/
theorem deeper_agrees (tok : Token) (part : Int → Parser α) (hdepth : depth < limit)
    (hc : depth < c) (hle : c ≤ x.length) {p : Parser α}
    (hpart : Agree x c (part ((depth + 1 : Nat) : Int)) p J) :
    Agree x c (nestedAt watch depth (deeper watch wide tok part)) p J := by
  have hwide : (depth : Int) + 1 ≤ wide := by
    have := h.le
    omega
  exact hpart.of_run (nestedAt_deeper hwide (entered_silent h hc hle) (left_silent h)) rfl

/-- At its limit the plain parser fails.  The other one fails too, or its limit is higher. -/
theorem deeper_fails (htok : x.Real tok) (hc : limit < c) (hle : c ≤ x.length)
    {part : Int → Parser α} :
    Agree x c (nestedAt watch limit (deeper watch wide tok part))
      (Parser.failAt tok (.depthExceeded limit)) J where
  error := by
    rintro e ⟨⟩
    refine ⟨h.admits tok htok (by omega), ?_⟩
    rcases h.le.lt_or_eq with hlt | heq
    · exact .inr (h.excused hlt _)
    · left
      rw [nestedAt_deeper_error (by omega) (entered_silent h hc hle), heq]
  ok _ _ hok := nomatch hok

end Levels

omit h in
theorem nestedAt_current_bind {α : Type} {c : Nat} (hle : c ≤ x.length) {depth : Int}
    {f : Token → CountingParser α} :
    (nestedAt watch depth (do f (← Parser.current))).run (x.long c) =
      (nestedAt watch depth (f (x.token c))).run (x.long c) := by
  simp [nestedAt, x.current_long hle]

theorem expression_agrees {levels fuel depth : Nat} (hdepth : levels + depth = limit)
    (hfuel : wide < fuel + depth) (precedence : Nat) :
    Consume x (depth + 1) (nestedAt watch depth (expression watch wide fuel precedence))
      (Parser.expression limit levels precedence) := by
  induction levels generalizing fuel depth precedence with
  | zero =>
    intro c hc hin
    cases fuel with
    | zero => exact absurd h.le (by omega)
    | succ fuel =>
      obtain rfl : depth = limit := by omega
      apply (deeper_fails h hin.real hc hin.le).of_run
      · rw [expression, nestedAt_current_bind hin.le]
      · rfl
  | succ levels ih =>
    intro c hc hin
    cases fuel with
    | zero => exact absurd h.le (by omega)
    | succ fuel =>
      have hsub := ih (show levels + (depth + 1) = limit by omega)
        (show wide < fuel + (depth + 1) by omega)
      have hover := Parser.expressionOver_agree hsub precedence (by omega) hin
      have hdeeper := deeper_agrees h (x.token c) (fun depth => Parser.expressionOver
        (fun p => nestedAt watch depth (expression watch wide fuel p)) precedence) (by omega) hc
        hin.le hover
      apply hdeeper.of_run
      · rw [expression, nestedAt_current_bind hin.le]
      · rfl

theorem tag_agrees {levels fuel depth : Nat} (hdepth : levels + 1 + depth = limit)
    (hfuel : wide < fuel + (depth + 1))
    (hsub : Bodies x (depth + 2)
      (fun opened ends => nestedAt watch (depth + 1 : Nat) (body watch wide fuel opened ends))
      (Parser.body limit levels)) {tok name : Token} (htok : x.Real tok) (hname : x.Real name) :
    Completes x (depth + 2)
      (nestedAt watch depth (tag watch wide (expression watch wide fuel 0) (body watch wide fuel)
        tok name))
      (Parser.tag (Parser.expression limit levels 0) (Parser.body limit levels) tok name) := by
  intro c hc hin
  have hexpr := expression_agrees h (show levels + (depth + 1) = limit by omega) hfuel 0
  have htag := Parser.tag_completes hexpr hsub htok hname c hc hin
  exact deeper_agrees h tok (fun depth => Parser.tag
    (nestedAt watch depth (expression watch wide fuel 0))
    (fun opened ends => nestedAt watch depth (body watch wide fuel opened ends)) tok name)
    (by omega) (by omega) hin.le htag

/-- A body in both runs.  The watched one is asked for statements only where statements start. -/
theorem bodyOver_agrees {expr' expr : Parser Node} {nested' nested : Token → Token → Parser Node}
    {lo : Nat} (hexpr : Consume x (lo + 1) expr' expr)
    (hnested : ∀ tok name, x.Real tok → x.Real name →
      Completes x (lo + 2) (nested' tok name) (nested tok name))
    {opened : Option Parser.Opened} (hopened : ∀ o ∈ opened, x.Real o.token) (ends : List Text)
    {c : Nat} (hlo : lo ≤ c) (hout : x.Outside c) :
    Agree x c (bodyOver watch expr' nested' opened ends)
      (Parser.bodyOver expr nested opened ends) (Parser.BodyRead x opened ends c) := by
  apply Parser.bodyOver_agrees ends _ hout
  intro state c' hat
  apply (Parser.bodyStep_agrees hexpr hnested hopened ends hlo hat).of_run
  · obtain ⟨nodes, _ | name⟩ := state
    · have hstart : watch (.statement (x.token c')) = none := h.silent _ hat.2.2
      simp [statement, x.current_long hat.2.1, notice_of_none hstart]
    · simp [statement]
  · rfl

omit h in
/-- A body leaves the counter as it was. -/
theorem body_succ_run (fuel : Nat) (opened : Option Parser.Opened) (ends : List Text) (depth : Int)
    (s : TokenStream) :
    ((body watch wide (fuel + 1) opened ends).run depth).run s =
      (do return (← bodyAt watch wide fuel (body watch wide fuel) depth opened ends, depth) :
        Parser ((Node × Text) × Int)).run s := by
  rfl

theorem bodyAt_agrees {levels fuel depth : Nat} (hdepth : levels + depth = limit)
    (hfuel : wide < fuel + 1 + depth) {opened : Option Parser.Opened}
    (hopened : ∀ o ∈ opened, x.Real o.token) (ends : List Text) {c : Nat} (hc : depth ≤ c)
    (hout : x.Outside c) :
    Agree x c (bodyAt watch wide fuel (body watch wide fuel) depth opened ends)
      (Parser.body limit levels opened ends) (Parser.BodyRead x opened ends c) := by
  have hexpr := expression_agrees h hdepth hfuel 0
  induction levels generalizing fuel depth opened ends c with
  | zero =>
    obtain rfl : depth = limit := by omega
    apply bodyOver_agrees h hexpr _ hopened ends hc hout
    intro tok name htok hname d hd hin
    exact deeper_fails h htok (by omega) hin.le
  | succ levels ih =>
    apply bodyOver_agrees h hexpr _ hopened ends hc hout
    intro tok name htok hname
    apply tag_agrees h hdepth (by omega) _ htok hname
    intro o ends d ho hd hout
    -- the fuel lasts for the bodies inside
    obtain ⟨fuel, rfl⟩ : ∃ n, fuel = n + 1 := ⟨fuel - 1, by have := h.le; omega⟩
    have hlevels : levels + (depth + 1) = limit := by omega
    have hfuel : wide < fuel + 1 + (depth + 1) := by omega
    have hopened : ∀ p ∈ some o, x.Real p.token := by simpa using ho
    have hexpr := expression_agrees h hlevels hfuel 0
    have hbody := ih hlevels hfuel hopened ends (by omega) hout hexpr
    exact (hbody.of_run (nestedAt_run (body_succ_run fuel _ ends _ _) (left_silent h)) rfl).mono
      fun _ _ => Parser.BodyRead.further

/-- A whole template.  The counter starts at zero and is zero again at the end. -/
theorem template_agrees {fuel : Nat} (hfuel : wide < fuel) :
    Agree x 0 ((template watch wide fuel).run 0) (do return (← Parser.template limit, 0))
      fun _ c => c = x.length := by
  obtain ⟨fuel, rfl⟩ : ∃ n, fuel = n + 1 := ⟨fuel - 1, by omega⟩
  have hout : x.Outside 0 := ⟨Nat.zero_le _, x.shaped.first⟩
  have htemplate : Agree x 0 (do
      let start ← Parser.current
      let r ← bodyAt watch wide fuel (body watch wide fuel) 0 none []
      return ((Node.leaf .template start.location).withChild .body r.1, (0 : Int))) (do
      let start ← Parser.current
      let r ← Parser.body limit limit none []
      return ((Node.leaf .template start.location).withChild .body r.1, (0 : Int)))
      fun _ c => c = x.length := by
    apply Agree.current_bind hout.1
    have hbody := bodyAt_agrees h (Nat.add_zero limit) (by omega : wide < fuel + 1 + 0)
      (by simp : ∀ o ∈ (none : Option Parser.Opened), x.Real o.token) [] le_rfl hout
    apply hbody.bind
    rintro ⟨node, last⟩ c (⟨-, hc⟩ | ⟨hlast, -⟩)
    · exact .pure hc
    · cases hlast
  apply htemplate.of_run
  · simp [template, body_succ_run]
  · simp [Parser.template]

end Runs

end CountingParser

end TwigLint
