import TwigLint.Template.Parser.Basic
import Mathlib.Data.List.Basic

/-! # Phrases

A phrase is a stretch of tokens together with what it means.  The positions of its tokens are given
by a layout, so that the meaning can say where each node stands.  Phrases are put together in the
order of their tokens.
-/

namespace TwigLint.Grammar

/-- The positions of the tokens to come. -/
abbrev Layout := Nat → Location

/-- The positions behind the first `n` tokens. -/
def Layout.shift (loc : Layout) (n : Nat) : Layout := fun k => loc (n + k)

@[simp] theorem Layout.shift_zero (loc : Layout) : loc.shift 0 = loc := by
  funext k
  simp [shift]

/-- A stretch of tokens with its meaning, for every layout. -/
structure Phrase (α : Type) where
  tokens : Layout → List Token
  value : Layout → α

namespace Phrase

variable {α β : Type}

instance : Monad Phrase where
  pure a := ⟨fun _ => [], fun _ => a⟩
  bind m f :=
    ⟨fun loc => m.tokens loc ++ (f (m.value loc)).tokens (loc.shift (m.tokens loc).length),
      fun loc => (f (m.value loc)).value (loc.shift (m.tokens loc).length)⟩

/-- One token, which means its position. -/
def word (type : TokenType) (value : Text) : Phrase Location :=
  ⟨fun loc => [⟨type, value, loc 0⟩], fun loc => loc 0⟩

/-- A punctuation mark. -/
def mark (m : String) : Phrase Location := word .punctuation m

/-- The position of the token that comes next. -/
def here : Phrase Location := ⟨fun _ => [], fun loc => loc 0⟩

/-- A phrase in parentheses. -/
def parens (m : Phrase α) : Phrase α := do
  let _ ← mark "("
  let a ← m
  let _ ← mark ")"
  return a

/-- A phrase in parentheses if `b` holds. -/
def parensIf (b : Bool) (m : Phrase α) : Phrase α := if b then parens m else m

/-- Phrases with a comma in front of each. -/
def commaTail : List (Phrase α) → Phrase (List α)
  | [] => pure []
  | m :: ms => do
    let _ ← mark ","
    let a ← m
    let as ← commaTail ms
    return a :: as

/-- Phrases with commas between them. -/
def commas : List (Phrase α) → Phrase (List α)
  | [] => pure []
  | m :: ms => do
    let a ← m
    let as ← commaTail ms
    return a :: as

@[simp] theorem pure_tokens (a : α) (loc : Layout) : (pure a : Phrase α).tokens loc = [] := rfl

@[simp] theorem pure_value (a : α) (loc : Layout) : (pure a : Phrase α).value loc = a := rfl

@[simp] theorem bind_tokens (m : Phrase α) (f : α → Phrase β) (loc : Layout) :
    (m >>= f).tokens loc =
      m.tokens loc ++ (f (m.value loc)).tokens (loc.shift (m.tokens loc).length) := rfl

@[simp] theorem bind_value (m : Phrase α) (f : α → Phrase β) (loc : Layout) :
    (m >>= f).value loc = (f (m.value loc)).value (loc.shift (m.tokens loc).length) := rfl

@[simp] theorem word_tokens (type : TokenType) (value : Text) (loc : Layout) :
    (word type value).tokens loc = [⟨type, value, loc 0⟩] := rfl

@[simp] theorem word_value (type : TokenType) (value : Text) (loc : Layout) :
    (word type value).value loc = loc 0 := rfl

@[simp] theorem mark_tokens (m : String) (loc : Layout) :
    (mark m).tokens loc = [⟨.punctuation, m, loc 0⟩] := rfl

@[simp] theorem mark_value (m : String) (loc : Layout) : (mark m).value loc = loc 0 := rfl

@[simp] theorem here_tokens (loc : Layout) : here.tokens loc = [] := rfl

@[simp] theorem here_value (loc : Layout) : here.value loc = loc 0 := rfl

end Phrase

end TwigLint.Grammar

namespace TwigLint.TokenStream

/-- The stream with the given tokens in front. -/
def prepend (s : TokenStream) (ts : List Token) : TokenStream := { s with tokens := ts ++ s.tokens }

@[simp] theorem prepend_nil (s : TokenStream) : s.prepend [] = s := rfl

@[simp] theorem prepend_append (s : TokenStream) (ts us : List Token) :
    s.prepend (ts ++ us) = (s.prepend us).prepend ts := by
  simp [prepend]

@[simp] theorem current_prepend_cons (s : TokenStream) (t : Token) (ts : List Token) :
    (s.prepend (t :: ts)).current = t := by
  simp [prepend, current]

@[simp] theorem advance_prepend_cons (s : TokenStream) (t : Token) (ts : List Token) :
    (s.prepend (t :: ts)).advance = s.prepend ts := rfl

@[simp] theorem lookAhead_prepend_cons (s : TokenStream) (t : Token) (ts : List Token) :
    (s.prepend (t :: ts)).lookAhead = (s.prepend ts).current := rfl

@[simp] theorem length_prepend (s : TokenStream) (ts : List Token) :
    (s.prepend ts).tokens.length = ts.length + s.tokens.length := by
  simp [prepend]

end TwigLint.TokenStream

namespace TwigLint.Grammar.Phrase

variable {α β : Type}

/-- The phrase has a first token, which stands at the first position and satisfies `P`. -/
def Starts (m : Phrase α) (P : Token → Prop) : Prop :=
  ∀ loc : Layout, ∃ t ts, m.tokens loc = t :: ts ∧ t.location = loc 0 ∧ P t

namespace Starts

variable {P Q : Token → Prop} {m : Phrase α}

theorem current (h : m.Starts P) (loc : Layout) (s : TokenStream) :
    P (s.prepend (m.tokens loc)).current := by
  obtain ⟨t, ts, ht, -, hP⟩ := h loc
  rw [ht]
  exact hP

theorem location (h : m.Starts P) (loc : Layout) (s : TokenStream) :
    (s.prepend (m.tokens loc)).current.location = loc 0 := by
  obtain ⟨t, ts, ht, hl, -⟩ := h loc
  rw [ht]
  exact hl

/-- Reading the phrase leaves fewer tokens. -/
theorem shorter (h : m.Starts P) (loc : Layout) (s : TokenStream) :
    s.tokens.length < (s.prepend (m.tokens loc)).tokens.length := by
  obtain ⟨t, ts, ht, -, -⟩ := h loc
  rw [TokenStream.length_prepend, ht, List.length_cons]
  omega

theorem mono (h : m.Starts P) (hPQ : ∀ t, P t → Q t) : m.Starts Q := by
  intro loc
  obtain ⟨t, ts, ht, hl, hP⟩ := h loc
  exact ⟨t, ts, ht, hl, hPQ t hP⟩

theorem bind (h : m.Starts P) (f : α → Phrase β) : (m >>= f).Starts P := by
  intro loc
  obtain ⟨t, ts, ht, hl, hP⟩ := h loc
  exact ⟨t, ts ++ (f (m.value loc)).tokens (loc.shift (m.tokens loc).length), by simp [ht], hl, hP⟩

theorem here {f : Location → Phrase α} (h : ∀ l, (f l).Starts P) :
    (Phrase.here >>= f).Starts P := by
  intro loc
  simpa using h (loc 0) loc

theorem word {type : TokenType} {value : Text} (h : ∀ l, P ⟨type, value, l⟩) :
    (Phrase.word type value).Starts P :=
  fun loc => ⟨_, [], rfl, rfl, h (loc 0)⟩

end Starts

end TwigLint.Grammar.Phrase
