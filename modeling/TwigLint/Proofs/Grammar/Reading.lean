import TwigLint.Proofs.Grammar.Phrase
import TwigLint.Proofs.Text.Decimal

/-! # Parsers that read phrases

A parser reads a phrase when it consumes exactly the tokens of the phrase and answers its meaning,
in front of any token that cannot continue it.  Loops are run step by step; the bound that makes
them end is never reached, because each step consumes a token.
-/

namespace TwigLint

namespace Token

@[simp] theorem is_mk (type type' : TokenType) (value value' : Text) (l : Location) :
    Token.is ⟨type, value, l⟩ type' value' = (type == type' && value == value') := rfl

@[simp] theorem isOneOf_mk (type type' : TokenType) (value : Text) (values : List Text)
    (l : Location) :
    Token.isOneOf ⟨type, value, l⟩ type' values =
      (type == type' && (values.isEmpty || values.contains value)) := rfl

theorem type_of_is {t : Token} {type : TokenType} {value : Text} (h : t.is type value = true) :
    t.type = type := by
  simp only [Token.is, Bool.and_eq_true, beq_iff_eq] at h
  exact h.1

theorem eq_of_is {t : Token} {type : TokenType} {value : Text} (h : t.is type value = true) :
    t = ⟨type, value, t.location⟩ := by
  obtain ⟨type', value', l⟩ := t
  simp only [is_mk, Bool.and_eq_true, beq_iff_eq] at h
  rw [h.1, h.2]

end Token

attribute [simp] Text.ofString_inj

namespace Parser

open Grammar

variable {α β : Type}

/-! ## Single steps -/

@[simp] theorem ok_bind {ε γ δ : Type} (a : γ) (f : γ → Except ε δ) :
    (Except.ok a >>= f) = f a := rfl

@[simp] theorem pure_eq_ok {ε γ : Type} (a : γ) : (pure a : Except ε γ) = .ok a := rfl

@[simp] theorem current_run (s : TokenStream) : current.run s = .ok (s.current, s) := rfl

@[simp] theorem next_run (s : TokenStream) : next.run s = .ok (s.current, s.advance) := rfl

@[simp] theorem atType_run (type : TokenType) (s : TokenStream) :
    (atType type).run s = .ok (s.current.type == type, s) := rfl

@[simp] theorem atToken_run (type : TokenType) (value : Text) (s : TokenStream) :
    (atToken type value).run s = .ok (s.current.is type value, s) := rfl

@[simp] theorem accept_run (type : TokenType) (value : Text) (s : TokenStream) :
    (accept type value).run s =
      .ok (s.current.is type value, if s.current.is type value then s.advance else s) := by
  unfold accept
  by_cases h : s.current.is type value <;> simp [h]

@[simp] theorem expect_run (type : TokenType) (values : List Text) (s : TokenStream) :
    (expect type values).run s =
      if s.current.isOneOf type values then .ok (s.current, s.advance)
      else .error ⟨.expected s.current type values, s.current.location⟩ := by
  unfold expect
  by_cases h : s.current.isOneOf type values
  · simp [h]
  · simp [h]
    rfl

@[simp] theorem expectMark_run (m : String) (ts : List Token) (l : Location) (s : TokenStream) :
    (expectMark m).run (s.prepend (⟨.punctuation, m, l⟩ :: ts)) =
      .ok (⟨.punctuation, m, l⟩, s.prepend ts) := by
  simp [expectMark]

@[simp] theorem expectName_run (t : Text) (ts : List Token) (l : Location) (s : TokenStream) :
    expectName.run (s.prepend (⟨.name, t, l⟩ :: ts)) = .ok (⟨.name, t, l⟩, s.prepend ts) := by
  simp [expectName]

@[simp] theorem expectTagEnd_run (t : Text) (ts : List Token) (l : Location) (s : TokenStream) :
    expectTagEnd.run (s.prepend (⟨.tagEnd, t, l⟩ :: ts)) = .ok ((), s.prepend ts) := by
  simp [expectTagEnd]

/-! ## Loops -/

/-- The run of a loop: steps that answer a new value and consume tokens, and a last step that
answers none. -/
inductive Loop (step : α → Parser (Option α)) : α → TokenStream → α → TokenStream → Prop
  | stop {a : α} {s s' : TokenStream} (last : (step a).run s = .ok (none, s')) :
      Loop step a s a s'
  | next {a b c : α} {s s' s'' : TokenStream} (first : (step a).run s = .ok (some b, s'))
      (shorter : s'.tokens.length < s.tokens.length) (rest : Loop step b s' c s'') :
      Loop step a s c s''

theorem Loop.extendUpTo {step : α → Parser (Option α)} {a b : α} {s s' : TokenStream}
    (h : Loop step a s b s') (n : Nat) (hn : s.tokens.length < n) :
    (Parser.extendUpTo step n a).run s = .ok (b, s') := by
  induction h generalizing n with
  | stop last =>
    obtain ⟨n, rfl⟩ := Nat.exists_eq_add_of_lt hn
    simp [Parser.extendUpTo, last]
  | next first shorter rest ih =>
    cases n with
    | zero => exact absurd hn (Nat.not_lt_zero _)
    | succ n => simp [Parser.extendUpTo, first, ih n (by omega)]

/-- The bound on the number of steps never cuts a loop short. -/
theorem Loop.extend {step : α → Parser (Option α)} {a b : α} {s s' : TokenStream}
    (h : Loop step a s b s') : (Parser.extend step a).run s = .ok (b, s') := by
  simpa [Parser.extend] using h.extendUpTo _ (Nat.lt_succ_self _)

/-! ## Reading phrases -/

/-- The parser consumes exactly the tokens of the phrase and answers its meaning, in front of any
tokens the first of which satisfies `follow`. -/
abbrev Reads (p : Parser α) (m : Phrase α) (follow : Token → Prop) : Prop :=
  ∀ (loc : Layout) (s : TokenStream), follow s.current →
    p.run (s.prepend (m.tokens loc)) = .ok (m.value loc, s)

theorem Reads.mono {p : Parser α} {m : Phrase α} {P Q : Token → Prop} (h : Reads p m P)
    (hQP : ∀ t, Q t → P t) : Reads p m Q :=
  fun loc s hs => h loc s (hQP _ hs)

/-- The token is a comma or the given mark. -/
def CommaOr (close : String) (t : Token) : Prop :=
  t.is .punctuation "," = true ∨ t.is .punctuation close = true

theorem CommaOr.not_mark {close m : String} {t : Token} (h : CommaOr close t) (hcomma : m ≠ ",")
    (hclose : m ≠ close) : t.is .punctuation m = false := by
  rcases h with h | h
  · rw [Token.eq_of_is h]
    simp [hcomma.symm]
  · rw [Token.eq_of_is h]
    simp [hclose.symm]

/-- What can follow an item and can be a comma also stands in front of the further items. -/
theorem commaTail_current {follow : Token → Prop} (ms : List (Phrase α))
    (hcomma : ∀ l, follow ⟨.punctuation, ",", l⟩) (loc : Layout) {s : TokenStream}
    (hs : follow s.current) : follow (s.prepend ((Phrase.commaTail ms).tokens loc)).current := by
  cases ms with
  | nil => exact hs
  | cons m ms => exact hcomma _

section CommaList

variable {close : String} (missing : SyntaxFault) {item : Parser α} {ms : List (Phrase α)}

theorem commaList_loop (hclose : close ≠ ",") (hm : ∀ m ∈ ms, Reads item m (CommaOr close))
    (hs : ∀ m ∈ ms, m.Starts fun t => t.is .punctuation close = false) (acc : List α)
    (hacc : acc ≠ []) (loc : Layout) (s : TokenStream)
    (hend : s.current.is .punctuation close = true) :
    Loop (commaList.step close missing item) acc (s.prepend ((Phrase.commaTail ms).tokens loc))
      (((Phrase.commaTail ms).value loc).reverse ++ acc) s := by
  induction ms generalizing acc loc with
  | nil => exact .stop (by simp [commaList.step, Phrase.commaTail, hend])
  | cons m ms ih =>
    have hstart := (hs m (by simp)).current
    have hitem := hm m (by simp)
    have hfollow (loc : Layout) :
        CommaOr close (s.prepend ((Phrase.commaTail ms).tokens loc)).current :=
      commaTail_current ms (fun _ => .inl rfl) loc (.inr hend)
    have hrest := ih (fun m h => hm m (by simp [h])) (fun m h => hs m (by simp [h]))
    simp only [Phrase.commaTail, Phrase.bind_tokens, Phrase.bind_value, Phrase.pure_value,
      Phrase.pure_tokens, List.append_nil, List.reverse_cons, List.append_assoc]
    refine .next ?_ ?_ (hrest _ (by simp) _)
    · simp [commaList.step, hclose.symm, hacc, hstart, hitem _ _ (hfollow _)]
    · simp only [TokenStream.length_prepend, List.length_append, Phrase.mark_tokens,
        List.length_singleton]
      omega

/-- A list in brackets is read item by item up to its closing mark. -/
theorem commaList_reads (hclose : close ≠ ",") (hm : ∀ m ∈ ms, Reads item m (CommaOr close))
    (hs : ∀ m ∈ ms, m.Starts fun t => t.is .punctuation close = false) (loc : Layout)
    (s : TokenStream) (l : Location) :
    (commaList close missing item).run
        ((s.prepend [⟨.punctuation, close, l⟩]).prepend ((Phrase.commas ms).tokens loc)) =
      .ok ((Phrase.commas ms).value loc, s) := by
  have hloop : Loop (commaList.step close missing item) []
      ((s.prepend [⟨.punctuation, close, l⟩]).prepend ((Phrase.commas ms).tokens loc))
      ((Phrase.commas ms).value loc).reverse (s.prepend [⟨.punctuation, close, l⟩]) := by
    cases ms with
    | nil => exact .stop (by simp [commaList.step, Phrase.commas])
    | cons m ms =>
      have hend : (s.prepend [⟨.punctuation, close, l⟩]).current.is .punctuation close = true := by
        simp
      have hstart := (hs m (by simp)).current
      have hitem := hm m (by simp)
      have hfollow (loc : Layout) : CommaOr close ((s.prepend
          [⟨.punctuation, close, l⟩]).prepend ((Phrase.commaTail ms).tokens loc)).current :=
        commaTail_current ms (fun _ => .inl rfl) loc (.inr hend)
      have hrest := commaList_loop missing hclose (fun m h => hm m (List.mem_cons_of_mem _ h))
        (fun m h => hs m (List.mem_cons_of_mem _ h))
      simp only [Phrase.commas, Phrase.bind_tokens, Phrase.bind_value, Phrase.pure_value,
        Phrase.pure_tokens, List.append_nil, List.reverse_cons, TokenStream.prepend_append]
      refine .next ?_ ?_ (hrest _ (by simp) _ _ hend)
      · simp [commaList.step, hstart, hitem _ _ (hfollow _)]
      · exact (hs m (by simp)).shorter loc _
  simp [commaList, hloop.extend]

end CommaList

end Parser

end TwigLint
