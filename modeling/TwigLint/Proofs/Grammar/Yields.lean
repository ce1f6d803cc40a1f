import TwigLint.Template.Parser.Basic

/-! # Answers of parsers

A parser yields a property on tokens of some sort when its answer has the property whenever there
is an answer and all tokens before it are of that sort.  The tokens that are left are of that sort
as well.  The rules follow the ways in which parsers are put together, so that a proof about a
parser goes along with its text.
-/

namespace TwigLint

/-- All tokens of the stream, its end token too, have the property. -/
def TokenStream.All (Q : Token → Prop) (s : TokenStream) : Prop := ∀ tok ∈ s.toList, Q tok

namespace TokenStream

variable {Q : Token → Prop} {s : TokenStream}

theorem All.headD {tokens : List Token} (h : ∀ tok ∈ tokens, Q tok) {eof : Token} (heof : Q eof) :
    Q (tokens.headD eof) := by
  cases tokens with
  | nil => exact heof
  | cons tok rest => exact h tok (List.mem_cons_self ..)

theorem All.eof (h : s.All Q) : Q s.eof := h s.eof (by simp [toList])

theorem All.drop (h : s.All Q) (n : Nat) : ∀ tok ∈ s.tokens.drop n, Q tok :=
  fun tok htok => h tok (List.mem_append_left _ (List.mem_of_mem_drop htok))

theorem All.current (h : s.All Q) : Q s.current := All.headD (h.drop 0) h.eof

theorem All.advance (h : s.All Q) : s.advance.All Q := by
  intro tok htok
  rcases List.mem_append.mp htok with htok | htok
  · exact h.drop 1 tok htok
  · obtain rfl := List.mem_singleton.mp htok
    exact h.eof

end TokenStream

namespace Parser

variable {Q : Token → Prop} {α β : Type}

/-- On tokens with a property `Q`, whenever the parser succeeds, its answer has the property `P`
and the tokens that are left have the property `Q`. -/
def Yields (Q : Token → Prop) (p : Parser α) (P : α → Prop) : Prop :=
  ∀ s, s.All Q → ∀ a s', p.run s = .ok (a, s') → P a ∧ s'.All Q

namespace Yields

variable {p : Parser α} {f : α → Parser β} {P : α → Prop} {R : β → Prop}

theorem pure {a : α} (h : P a) : Yields Q (Pure.pure a) P := by
  rintro s hs b s' ⟨⟩
  exact ⟨h, hs⟩

theorem fail (tok : Token) (fault : SyntaxFault) : Yields Q (failAt tok fault) P := by
  rintro s - a s' ⟨⟩

theorem mono {P' : α → Prop} (hp : Yields Q p P) (h : ∀ a, P a → P' a) : Yields Q p P' :=
  fun s hs a s' hrun => ⟨h a (hp s hs a s' hrun).1, (hp s hs a s' hrun).2⟩

theorem bind (hp : Yields Q p P) (hf : ∀ a, P a → Yields Q (f a) R) : Yields Q (p >>= f) R := by
  intro s hs b s' h
  rw [StateT.run_bind] at h
  cases hrun : p.run s with
  | error e =>
    rw [hrun] at h
    cases h
  | ok r =>
    rw [hrun] at h
    obtain ⟨ha, hr⟩ := hp s hs r.1 r.2 hrun
    exact hf r.1 ha r.2 hr b s' h

theorem pure_bind {a : α} (h : Yields Q (f a) R) : Yields Q (Pure.pure a >>= f) R :=
  bind (P := fun b => b = a) (pure rfl) fun _ hb => hb ▸ h

theorem fail_bind (tok : Token) (fault : SyntaxFault) : Yields Q (failAt tok fault >>= f) R :=
  bind (P := fun _ => False) (fail tok fault) fun _ h => h.elim

theorem ite {c : Prop} [Decidable c] {q : Parser α} (hp : Yields Q p P) (hq : Yields Q q P) :
    Yields Q (if c then p else q) P := by
  split
  · exact hp
  · exact hq

/-- A parser that fails on a condition goes on when it does not hold. -/
theorem orFail {c : Prop} [Decidable c] {tok : Token} {fault : SyntaxFault}
    {f : α → Parser β} {q : Parser β} (hq : ¬ c → Yields Q q R) :
    Yields Q (if c then failAt tok fault >>= f else q) R := by
  split
  · exact fail_bind _ _
  · exact hq ‹_›

/-! ## Single tokens -/

theorem stream : Yields Q (get : Parser TokenStream) (TokenStream.All Q) := by
  rintro s hs a s' ⟨⟩
  exact ⟨hs, hs⟩

theorem current : Yields Q Parser.current Q := by
  rintro s hs a s' ⟨⟩
  exact ⟨hs.current, hs⟩

theorem next : Yields Q Parser.next Q := by
  rintro s hs a s' ⟨⟩
  exact ⟨hs.current, hs.advance⟩

theorem atType {type : TokenType} : Yields Q (Parser.atType type) fun _ => True :=
  current.bind fun _ _ => pure trivial

theorem atToken {type : TokenType} {value : Text} :
    Yields Q (Parser.atToken type value) fun _ => True :=
  current.bind fun _ _ => pure trivial

theorem accept {type : TokenType} {value : Text} :
    Yields Q (Parser.accept type value) fun _ => True :=
  atToken.bind fun _ _ => ite (next.bind fun _ _ => pure trivial) (pure trivial)

theorem expect {type : TokenType} {values : List Text} : Yields Q (Parser.expect type values) Q :=
  current.bind fun _ _ => ite next (fail _ _)

theorem expectName : Yields Q Parser.expectName fun tok => Q tok ∧ tok.type = .name := by
  intro s hs tok s' h
  have hrun : Parser.expectName.run s =
      (if s.current.isOneOf .name [] then Parser.next
        else failAt s.current (.expected s.current .name [])).run s := rfl
  rw [hrun] at h
  by_cases hname : s.current.isOneOf .name [] = true
  · rw [if_pos hname] at h
    cases h
    exact ⟨⟨hs.current, by simpa [Token.isOneOf] using hname⟩, hs.advance⟩
  · rw [if_neg hname] at h
    cases h

theorem expectTagEnd : Yields Q Parser.expectTagEnd fun _ => True :=
  expect.bind fun _ _ => pure trivial

/-! ## Repetition -/

theorem extend {step : α → Parser (Option α)}
    (hstep : ∀ a, P a → Yields Q (step a) fun next => ∀ b ∈ next, P b) {a : α} (ha : P a) :
    Yields Q (Parser.extend step a) P := by
  have hloop (n : Nat) {a : α} (ha : P a) : Yields Q (extendUpTo step n a) P := by
    induction n generalizing a with
    | zero => exact pure ha
    | succ n ih =>
      refine (hstep a ha).bind fun next hnext => ?_
      cases next with
      | none => exact pure ha
      | some b => exact ih (hnext b rfl)
  exact stream.bind fun s _ => hloop _ ha

theorem commaList (h : Yields Q p P) (close : Text) (missing : SyntaxFault) :
    Yields Q (Parser.commaList close missing p) fun items => ∀ a ∈ items, P a := by
  have hstep (items : List α) (hitems : ∀ a ∈ items, P a) :
      Yields Q (commaList.step close missing p items) fun next => ∀ b ∈ next, ∀ a ∈ b, P a := by
    have hmore : Yields Q (do return some ((← p) :: items))
        fun next => ∀ b ∈ next, ∀ a ∈ b, P a :=
      h.bind fun a ha => pure (by grind)
    refine atToken.bind fun atClose _ => ite (pure (by simp)) (ite ?_ hmore)
    refine accept.bind fun comma _ => ite (current.bind fun tok _ => fail_bind _ _) ?_
    exact atToken.bind fun atClose _ => ite (pure (by simp)) hmore
  refine (extend hstep (by simp)).bind fun items hitems => expect.bind fun _ _ => pure ?_
  simpa using hitems

end Yields

end Parser

end TwigLint
