import TwigLint.Proofs.Lexing.Cut
import Mathlib.Computability.Language

/-! # The shape of token streams

The tokens of a template form a simple language: text, print statements and tags in any order, and
the end token.  Inside a print statement or a tag there are only tokens of expressions, and their
brackets are nested.  A stack of open brackets that is kept over the whole template is therefore
empty at every delimiter.
-/

namespace TwigLint

namespace Lexing

open Segment
open scoped Computability

/-! ## The language -/

/-- The types of the tokens inside a print statement or a tag. -/
def isInner : TokenType → Bool
  | .name | .number | .string | .operator | .punctuation | .arrow => true
  | _ => false

/-- The token is the bracket `b`. -/
def IsMark (b : UInt8) (t : Token) : Prop := t.type = .punctuation ∧ t.value = [b]

/-- The token is an opening or closing bracket. -/
def IsBracket (t : Token) : Prop := ∃ pair ∈ Spelled.brackets, IsMark pair.1 t ∨ IsMark pair.2 t

/-- Every bracket is closed by its partner, and brackets do not cross. -/
inductive WellNested : List Token → Prop
  | nil : WellNested []
  | plain {t : Token} {ts : List Token} (single : ¬ IsBracket t) (rest : WellNested ts) :
      WellNested (t :: ts)
  | group {o c : UInt8} {opening closing : Token} {ts us : List Token}
      (pair : (o, c) ∈ Spelled.brackets) (hopening : IsMark o opening) (inner : WellNested ts)
      (hclosing : IsMark c closing) (rest : WellNested us) :
      WellNested (opening :: ts ++ closing :: us)

/-- One token of the given type. -/
def single (type : TokenType) : Language Token := {w | ∃ t : Token, t.type = type ∧ w = [t]}

/-- One token that can stand inside a print statement or a tag. -/
def inner : Language Token := {w | ∃ t : Token, isInner t.type = true ∧ w = [t]}

/-- The tokens inside a print statement or a tag. -/
def content : Language Token := {w | w ∈ inner∗ ∧ WellNested w}

/-- A print statement or a tag. -/
def delimited (kind : TagKind) : Language Token :=
  single kind.startType * content * single kind.endType

/-- Text, a print statement or a tag. -/
def part : Language Token := single .text + delimited .print + delimited .block

/-- A whole template. -/
def template : Language Token := part∗ * single .eof

/-- The open brackets after some tokens of a template, when none was open at its start. -/
def openBrackets (ts : List Token) : Except SyntaxError (List OpenBracket) :=
  ts.foldlM Segment.brackets []

theorem mem_inner_kstar {ts : List Token} : ts ∈ inner∗ ↔ ∀ t ∈ ts, isInner t.type = true := by
  constructor
  · intro h t ht
    obtain ⟨ws, rfl, hws⟩ := Language.mem_kstar.mp h
    obtain ⟨w, hw, htw⟩ := List.mem_flatten.mp ht
    obtain ⟨u, hu, rfl⟩ := hws w hw
    obtain rfl : t = u := by simpa using htw
    exact hu
  · intro h
    refine Language.mem_kstar.mpr ⟨ts.map fun t => [t], (List.flatMap_singleton' ts).symm, ?_⟩
    intro w hw
    obtain ⟨t, ht, rfl⟩ := List.mem_map.mp hw
    exact ⟨t, h t ht, rfl⟩

/-- The tokens of a print statement or a tag, taken apart. -/
theorem mem_delimited {kind : TagKind} {w : List Token} :
    w ∈ delimited kind ↔ ∃ (first last : Token) (ts : List Token),
      first.type = kind.startType ∧ (∀ t ∈ ts, isInner t.type = true) ∧ WellNested ts ∧
        last.type = kind.endType ∧ w = first :: ts ++ [last] := by
  constructor
  · intro h
    obtain ⟨_, ⟨_, ⟨first, hfirst, rfl⟩, ts, ⟨hts, hnested⟩, rfl⟩, _, ⟨last, hlast, rfl⟩, rfl⟩ := h
    exact ⟨first, last, ts, hfirst, mem_inner_kstar.mp hts, hnested, hlast, rfl⟩
  · rintro ⟨first, last, ts, hfirst, hts, hnested, hlast, rfl⟩
    exact ⟨first :: ts, ⟨[first], ⟨first, hfirst, rfl⟩, ts, ⟨mem_inner_kstar.mpr hts, hnested⟩,
      rfl⟩, [last], ⟨last, hlast, rfl⟩, rfl⟩

/-! ## Brackets -/

theorem IsMark.eq {b : UInt8} {t : Token} (h : IsMark b t) :
    t = ⟨.punctuation, [b], t.location⟩ := by
  obtain ⟨type, value, l⟩ := t
  obtain ⟨rfl, rfl⟩ := h
  rfl

/-- A token that is no bracket leaves the stack as it is. -/
theorem brackets_of_not_isBracket {t : Token} (h : ¬ IsBracket t) (stack : List OpenBracket) :
    Segment.brackets stack t = .ok stack := by
  unfold Segment.brackets
  split
  · rename_i b htype hvalue
    have hne : ∀ pair ∈ Spelled.brackets, b ≠ pair.1 ∧ b ≠ pair.2 := by
      refine fun pair hpair => ⟨?_, ?_⟩
      · rintro rfl
        exact h ⟨pair, hpair, .inl ⟨htype, hvalue⟩⟩
      · rintro rfl
        exact h ⟨pair, hpair, .inr ⟨htype, hvalue⟩⟩
    simp only [Spelled.brackets, List.forall_mem_cons, List.not_mem_nil, false_implies,
      implies_true, and_true] at hne
    simp [openerOf?, hne]
  · rfl

/-- A closing bracket is accepted only if its partner is the innermost open bracket. -/
theorem brackets_closing {o c : UInt8} (pair : (o, c) ∈ Spelled.brackets) {l : Location}
    {stack stack' : List OpenBracket}
    (h : Segment.brackets stack ⟨.punctuation, [c], l⟩ = .ok stack') :
    ∃ opened, stack = ⟨o, opened⟩ :: stack' := by
  simp only [Spelled.brackets, List.mem_cons, List.not_mem_nil, or_false, Prod.mk.injEq] at pair
  cases stack with
  | nil =>
    rcases pair with ⟨rfl, rfl⟩ | ⟨rfl, rfl⟩ | ⟨rfl, rfl⟩
    all_goals cases h
  | cons first below =>
    obtain ⟨bracket, opened⟩ := first
    have h' : (if bracket == o then Except.ok below
        else .error ⟨.unclosed [bracket], opened⟩ : Except SyntaxError _) = .ok stack' := by
      rcases pair with ⟨rfl, rfl⟩ | ⟨rfl, rfl⟩ | ⟨rfl, rfl⟩
      all_goals exact h
    split at h'
    · rename_i heq
      obtain rfl := Except.ok.inj h'
      exact ⟨opened, by rw [eq_of_beq heq]⟩
    · cases h'

/-- What one token does to the open brackets. -/
theorem brackets_cases {stack stack' : List OpenBracket} {t : Token}
    (h : Segment.brackets stack t = .ok stack') :
    (¬ IsBracket t ∧ stack' = stack) ∨
      ∃ o c, (o, c) ∈ Spelled.brackets ∧
        ((IsMark o t ∧ stack' = ⟨o, t.location⟩ :: stack) ∨
          (IsMark c t ∧ ∃ l, stack = ⟨o, l⟩ :: stack')) := by
  by_cases hbracket : IsBracket t
  · obtain ⟨⟨o, c⟩, pair, hmark | hmark⟩ := hbracket
    · rw [hmark.eq, brackets_open pair] at h
      exact .inr ⟨o, c, pair, .inl ⟨hmark, (Except.ok.inj h).symm⟩⟩
    · rw [hmark.eq] at h
      exact .inr ⟨o, c, pair, .inr ⟨hmark, brackets_closing pair h⟩⟩
  · rw [brackets_of_not_isBracket hbracket] at h
    exact .inl ⟨hbracket, (Except.ok.inj h).symm⟩

/-- The tokens close the given open brackets, innermost first, and are nested otherwise. -/
def Closes : List OpenBracket → List Token → Prop
  | [], ts => WellNested ts
  | o :: below, ts => ∃ (c : UInt8) (closing : Token) (us rest : List Token),
      (o.bracket, c) ∈ Spelled.brackets ∧ IsMark c closing ∧ WellNested us ∧ Closes below rest ∧
        ts = us ++ closing :: rest

theorem Closes.plain {stack : List OpenBracket} {t : Token} {ts : List Token}
    (h : Closes stack ts) (single : ¬ IsBracket t) : Closes stack (t :: ts) := by
  cases stack with
  | nil => exact WellNested.plain single h
  | cons o below =>
    obtain ⟨c, closing, us, rest, pair, hclosing, hus, hrest, rfl⟩ := h
    exact ⟨c, closing, t :: us, rest, pair, hclosing, .plain single hus, hrest, rfl⟩

/-- A group in front of tokens that close the brackets below it. -/
theorem Closes.group {stack : List OpenBracket} {o c : UInt8} {opening closing : Token}
    {ts us : List Token} (pair : (o, c) ∈ Spelled.brackets) (hopening : IsMark o opening)
    (hts : WellNested ts) (hclosing : IsMark c closing) (h : Closes stack us) :
    Closes stack (opening :: ts ++ closing :: us) := by
  cases stack with
  | nil => exact WellNested.group pair hopening hts hclosing h
  | cons o' below =>
    obtain ⟨c', closing', vs, rest, pair', hclosing', hvs, hrest, rfl⟩ := h
    exact ⟨c', closing', opening :: ts ++ closing :: vs, rest, pair', hclosing',
      .group pair hopening hts hclosing hvs, hrest, by simp⟩

/-- Tokens after which no bracket is open close all that were open before them. -/
theorem closes_of_foldlM {stack : List OpenBracket} {ts : List Token}
    (h : ts.foldlM Segment.brackets stack = .ok []) : Closes stack ts := by
  induction ts generalizing stack with
  | nil =>
    obtain rfl : stack = [] := by simpa [pure, Except.pure] using h
    exact WellNested.nil
  | cons t ts ih =>
    rw [List.foldlM_cons] at h
    obtain ⟨stack', hfirst, hrest⟩ := bind_eq_ok h
    have hcloses := ih hrest
    rcases brackets_cases hfirst with
      ⟨single, rfl⟩ | ⟨o, c, pair, ⟨hopening, rfl⟩ | ⟨hclosing, l, rfl⟩⟩
    · exact hcloses.plain single
    · obtain ⟨c', closing, us, rest, pair', hclosing, hus, hbelow, rfl⟩ := hcloses
      exact .group pair' hopening hus hclosing hbelow
    · exact ⟨c, t, [], ts, pair, hclosing, .nil, hcloses, rfl⟩

/-- Nested tokens leave the open brackets as they were. -/
theorem WellNested.foldlM {ts : List Token} (h : WellNested ts) (stack : List OpenBracket) :
    ts.foldlM Segment.brackets stack = .ok stack := by
  induction h generalizing stack with
  | nil => rfl
  | plain single rest ih =>
    rw [List.foldlM_cons, brackets_of_not_isBracket single]
    exact ih stack
  | @group o c opening closing ts us pair hopening inner hclosing rest ihInner ihRest =>
    rw [List.cons_append, List.foldlM_cons, hopening.eq, brackets_open pair]
    change (ts ++ closing :: us).foldlM Segment.brackets _ = .ok stack
    rw [List.foldlM_append, ihInner]
    change (closing :: us).foldlM Segment.brackets _ = .ok stack
    rw [List.foldlM_cons, hclosing.eq, brackets_close pair]
    exact ihRest stack

/-! ## The inside of a section -/

theorem type_wordOperator? {t : Text} {lexeme : Lexeme}
    (h : Lexeme.wordOperator? t = some lexeme) : lexeme.type = .operator := by
  obtain ⟨ws, -, hws⟩ := List.exists_of_findSome?_eq_some h
  split at hws
  · split at hws
    · cases hws
      rfl
    · cases hws
  · cases hws

/-- Lexemes are tokens of expressions. -/
theorem isInner_read {b : UInt8} {t : Text} {lexeme : Lexeme}
    (h : Lexeme.read b t = .ok lexeme) : isInner lexeme.type = true := by
  cases readsLexeme_of_read h with
  | word hword =>
    rw [type_wordOperator? hword]
    rfl
  | _ => rfl

/-- The tokens read in a section are tokens of expressions that close the open brackets, and the
closing delimiter. -/
theorem ReadsTag.tokens {kind : TagKind} {stack : List OpenBracket} {loc : Location} {t : Text}
    {r : TagRest} (h : ReadsTag kind stack loc t r) :
    ∃ ts last, r.tokens = ts ++ [last] ∧ (∀ t ∈ ts, isInner t.type = true) ∧
      ts.foldlM Segment.brackets stack = .ok [] ∧ last.type = kind.endType := by
  induction h with
  | blank _ _ ih => exact ih
  | close => exact ⟨[], _, rfl, by simp, rfl, rfl⟩
  | @lexeme _ _ loc _ _ _ lexeme _ _ _ hread hbrackets _ ih =>
    obtain ⟨ts, last, htokens, hinner, hfold, hlast⟩ := ih
    refine ⟨⟨lexeme.type, lexeme.value, loc⟩ :: ts, last, ?_, ?_, ?_, hlast⟩
    · rw [TagRest.consToken, htokens, List.cons_append]
    · simpa using ⟨isInner_read hread, hinner⟩
    · rw [List.foldlM_cons, hbrackets]
      exact hfold

/-! ## Segments -/

/-- The tokens that a tag segment holds are those of a print statement or a tag. -/
def Shaped (segment : Segment) : Prop :=
  ∀ lead ts trail, segment.shape = .tag lead ts trail → ∃ kind, ts ∈ delimited kind

theorem ReadsTag.mem_delimited {kind : TagKind} {start loc : Location} {t : Text} {r : TagRest}
    (h : ReadsTag kind [] loc t r) :
    ⟨kind.startType, kind.opener, start⟩ :: r.tokens ∈ delimited kind := by
  obtain ⟨ts, last, htokens, hinner, hfold, hlast⟩ := h.tokens
  refine Lexing.mem_delimited.mpr ⟨⟨kind.startType, kind.opener, start⟩, last, ts, rfl, hinner,
    closes_of_foldlM hfold, hlast, ?_⟩
  rw [htokens, List.cons_append]

theorem ReadsSegment.shaped {start : Location} {t : Text} {segment : Segment}
    (h : ReadsSegment start t segment) : Shaped segment := by
  cases h with
  | tag kind _ _ hrest =>
    rintro lead ts trail ⟨⟩
    exact ⟨kind, hrest.mem_delimited⟩
  | text | comment | verbatim => rintro lead ts trail ⟨⟩

theorem Cuts.shaped {start : Location} {t : Text} {segments : List Segment}
    (h : Cuts start t segments) : ∀ segment ∈ segments, Shaped segment := by
  induction h with
  | nil => simp
  | cons first _ ih => exact List.forall_mem_cons.mpr ⟨first.shaped, ih⟩

/-! ## Whole templates -/

theorem mem_part_of_mem_delimited {kind : TagKind} {w : List Token} (hw : w ∈ delimited kind) :
    w ∈ part := by
  cases kind with
  | print => exact .inl (.inr hw)
  | block => exact .inr hw

theorem append_mem_kstar {v w : List Token} (hv : v ∈ part) (hw : w ∈ part∗) : v ++ w ∈ part∗ :=
  mul_kstar_le_kstar (a := part) (Language.append_mem_mul hv hw)

theorem textToken_cases (before behind : Trim) (start : Location) (t : Text) :
    textToken before behind start t = [] ∨ textToken before behind start t ∈ part := by
  fun_cases textToken before behind start t with
  | case1 => exact .inl rfl
  | case2 => exact .inr (.inl (.inl ⟨_, rfl, rfl⟩))

theorem textToken_append {before behind : Trim} {start : Location} {t : Text} {w : List Token}
    (hw : w ∈ part∗) : textToken before behind start t ++ w ∈ part∗ := by
  rcases textToken_cases before behind start t with h | h
  · rw [h]
    exact hw
  · exact append_mem_kstar h hw

/-- Segments give text, print statements and tags. -/
theorem tokens_mem_kstar {segments : List Segment} (h : ∀ segment ∈ segments, Shaped segment)
    (before : Trim) : Segment.tokens before segments ∈ part∗ := by
  induction segments generalizing before with
  | nil => exact Language.nil_mem_kstar _
  | cons segment rest ih =>
    have hrest := ih (fun s hs => h s (List.mem_cons_of_mem _ hs)) segment.trail
    have hsegment := h segment (List.mem_cons_self ..)
    rw [Segment.tokens]
    cases hshape : segment.shape with
    | text => exact textToken_append hrest
    | comment lead trail => exact hrest
    | verbatim lead start inner innerLead innerTrail trail => exact textToken_append hrest
    | tag lead ts trail =>
      obtain ⟨kind, hts⟩ := hsegment lead ts trail hshape
      exact append_mem_kstar (mem_part_of_mem_delimited hts) hrest

/-! ## Brackets at delimiters -/

theorem isInner_startType (kind : TagKind) : isInner kind.startType = false := by
  cases kind <;> rfl

theorem isInner_endType (kind : TagKind) : isInner kind.endType = false := by
  cases kind <;> rfl

/-- A token outside print statements and tags leaves the open brackets as they are. -/
theorem brackets_outer {t : Token} (h : isInner t.type = false) (stack : List OpenBracket) :
    Segment.brackets stack t = .ok stack := by
  refine brackets_of_not_isBracket ?_ stack
  rintro ⟨pair, -, ⟨htype, -⟩ | ⟨htype, -⟩⟩
  all_goals
    rw [htype] at h
    cases h

/-- A part is one text token, or inner tokens between two delimiters. -/
theorem part_cases {w : List Token} (hw : w ∈ part) :
    (∃ t : Token, t.type = .text ∧ w = [t]) ∨
      ∃ (kind : TagKind) (first last : Token) (ts : List Token),
        first.type = kind.startType ∧ (∀ t ∈ ts, isInner t.type = true) ∧ WellNested ts ∧
          last.type = kind.endType ∧ w = first :: ts ++ [last] := by
  rcases hw with (htext | hprint) | hblock
  · exact .inl htext
  · exact .inr ⟨.print, mem_delimited.mp hprint⟩
  · exact .inr ⟨.block, mem_delimited.mp hblock⟩

theorem ne_eof_of_mem_part {w : List Token} (hw : w ∈ part) : ∀ t ∈ w, t.type ≠ .eof := by
  intro t ht heof
  rcases part_cases hw with ⟨u, hu, rfl⟩ | ⟨kind, first, last, ts, hfirst, hinner, -, hlast, rfl⟩
  · obtain rfl : t = u := by simpa using ht
    rw [hu] at heof
    cases heof
  · simp only [List.cons_append, List.mem_cons, List.mem_append, List.not_mem_nil,
      or_false] at ht
    rcases ht with rfl | ht | rfl
    · cases kind <;> rw [hfirst] at heof <;> cases heof
    · have := hinner t ht
      rw [heof] at this
      cases this
    · cases kind <;> rw [hlast] at heof <;> cases heof

/-- A part of a template leaves the open brackets as they are. -/
theorem foldlM_part {w : List Token} (hw : w ∈ part) (stack : List OpenBracket) :
    w.foldlM Segment.brackets stack = .ok stack := by
  rcases part_cases hw with ⟨t, ht, rfl⟩ | ⟨kind, first, last, ts, hfirst, -, hts, hlast, rfl⟩
  · rw [List.foldlM_cons, brackets_outer (by rw [ht]; rfl)]
    rfl
  · rw [List.cons_append, List.foldlM_cons,
      brackets_outer (by rw [hfirst]; exact isInner_startType kind)]
    change (ts ++ [last]).foldlM Segment.brackets stack = .ok stack
    rw [List.foldlM_append, hts.foldlM]
    change [last].foldlM Segment.brackets stack = .ok stack
    rw [List.foldlM_cons, brackets_outer (by rw [hlast]; exact isInner_endType kind)]
    rfl

theorem foldlM_parts {w : List Token} (hw : w ∈ part∗) (stack : List OpenBracket) :
    w.foldlM Segment.brackets stack = .ok stack := by
  obtain ⟨parts, rfl, hparts⟩ := Language.mem_kstar.mp hw
  clear hw
  induction parts with
  | nil => rfl
  | cons v rest ih =>
    rw [List.flatten_cons, List.foldlM_append, foldlM_part (hparts v (List.mem_cons_self ..))]
    exact ih fun u hu => hparts u (List.mem_cons_of_mem _ hu)

/-- An element of two lists put together is in the first or in the second. -/
theorem append_split {v w before behind : List Token} {t : Token}
    (h : v ++ w = before ++ t :: behind) :
    (∃ us, v = before ++ t :: us) ∨ ∃ us, before = v ++ us ∧ w = us ++ t :: behind := by
  rcases List.append_eq_append_iff.mp h with ⟨us, hus, hw⟩ | ⟨us, hus, hw⟩
  · exact .inr ⟨us, hus, hw⟩
  · cases us with
    | nil => exact .inr ⟨[], by simpa using hus.symm, by simpa using hw.symm⟩
    | cons u us =>
      obtain ⟨rfl, -⟩ := List.cons.inj hw
      exact .inl ⟨us, hus⟩

/-- A list in front of the only element of another one is empty. -/
theorem eq_nil_of_singleton {us behind : List Token} {t u : Token} (h : [u] = us ++ t :: behind) :
    us = [] := by
  cases us with
  | nil => rfl
  | cons v us =>
    obtain ⟨-, h⟩ := List.cons.inj h
    exact absurd h.symm (by simp)

/-- Where a part of a template has a delimiter, the open brackets are those before the part. -/
theorem foldlM_part_before {before behind : List Token} {t : Token}
    (hw : before ++ t :: behind ∈ part) (ht : isInner t.type = false)
    (stack : List OpenBracket) : before.foldlM Segment.brackets stack = .ok stack := by
  rcases part_cases hw with ⟨u, -, hu⟩ | ⟨kind, first, last, ts, hfirst, hinner, hts, -, heq⟩
  · rw [eq_nil_of_singleton hu.symm]
    rfl
  · cases before with
    | nil => rfl
    | cons u us =>
      obtain ⟨rfl, htail⟩ := List.cons.inj heq
      -- The delimiter is none of the inner tokens, so it is the last one.
      rcases append_split htail.symm with ⟨vs, rfl⟩ | ⟨vs, rfl, hvs⟩
      · rw [hinner t (by simp)] at ht
        cases ht
      · rw [List.foldlM_cons, brackets_outer (by rw [hfirst]; exact isInner_startType kind),
          eq_nil_of_singleton hvs, List.append_nil]
        exact hts.foldlM stack

/-- Wherever text, print statements and tags have a delimiter, no bracket is open. -/
theorem foldlM_parts_before {before behind : List Token} {t : Token}
    (hw : before ++ t :: behind ∈ part∗) (ht : isInner t.type = false)
    (stack : List OpenBracket) : before.foldlM Segment.brackets stack = .ok stack := by
  obtain ⟨parts, heq, hparts⟩ := Language.mem_kstar.mp hw
  clear hw
  induction parts generalizing before with
  | nil => exact absurd heq (by simp)
  | cons w rest ih =>
    have hfirst := hparts w (List.mem_cons_self ..)
    rcases append_split heq.symm with ⟨us, rfl⟩ | ⟨us, rfl, hrest⟩
    · exact foldlM_part_before hfirst ht stack
    · rw [List.foldlM_append, foldlM_part hfirst]
      exact ih hrest.symm fun v hv => hparts v (List.mem_cons_of_mem _ hv)

/-! ## Shape -/

theorem ofSource_eq {source : Text} {s : TokenStream} (h : TokenStream.ofSource source = .ok s) :
    s.tokens ∈ part∗ ∧ s.eof.type = .eof := by
  obtain ⟨segments, hcuts, rfl⟩ := cuts_of_ofSource h
  exact ⟨tokens_mem_kstar hcuts.shaped .keep, rfl⟩

/-- The tokens of a template are text, print statements and tags in any order, and the end token,
which comes last and only there.  Inside print statements and tags brackets are nested, so that no
bracket is open before and behind a delimiter. -/
theorem ofSource_shape {source : Text} {s : TokenStream}
    (h : TokenStream.ofSource source = .ok s) :
    s.toList ∈ template ∧
      (∃ before last, s.toList = before ++ [last] ∧ last.type = .eof ∧
        ∀ t ∈ before, t.type ≠ .eof) ∧
      ∀ before t behind, s.toList = before ++ t :: behind → isInner t.type = false →
        openBrackets before = .ok [] ∧ openBrackets (before ++ [t]) = .ok [] := by
  obtain ⟨htokens, heof⟩ := ofSource_eq h
  refine ⟨Language.append_mem_mul htokens ⟨s.eof, heof, rfl⟩, ⟨s.tokens, s.eof, rfl, heof, ?_⟩, ?_⟩
  · intro t ht
    obtain ⟨parts, heq, hparts⟩ := Language.mem_kstar.mp htokens
    rw [heq] at ht
    obtain ⟨w, hw, htw⟩ := List.mem_flatten.mp ht
    exact ne_eof_of_mem_part (hparts w hw) t htw
  · intro before t behind heq ht
    have hbefore : openBrackets before = .ok [] := by
      rcases append_split heq with ⟨us, hus⟩ | ⟨us, rfl, hus⟩
      · exact foldlM_parts_before (hus ▸ htokens) ht []
      · rw [eq_nil_of_singleton hus, List.append_nil]
        exact foldlM_parts htokens []
    refine ⟨hbefore, ?_⟩
    rw [openBrackets, List.foldlM_append, ← openBrackets, hbefore]
    change [t].foldlM Segment.brackets [] = .ok []
    rw [List.foldlM_cons, brackets_outer ht]
    rfl

/-- Text, a print statement with brackets in it, and a tag. -/
theorem ofSource_shape_brackets :
    ∃ s, TokenStream.ofSource "a\x7b\x7b f([1]) \x7d\x7d\x7b% do x %\x7d" = .ok s ∧
      s.toList ∈ template ∧
      ∀ before t behind, s.toList = before ++ t :: behind → isInner t.type = false →
        openBrackets before = .ok [] ∧ openBrackets (before ++ [t]) = .ok [] := by
  have hok :
      (TokenStream.ofSource "a\x7b\x7b f([1]) \x7d\x7d\x7b% do x %\x7d").isOk = true := by
    decide +kernel
  cases h : TokenStream.ofSource "a\x7b\x7b f([1]) \x7d\x7d\x7b% do x %\x7d" with
  | error e =>
    rw [h] at hok
    cases hok
  | ok s => exact ⟨s, rfl, (ofSource_shape h).1, (ofSource_shape h).2.2⟩

end Lexing

end TwigLint
