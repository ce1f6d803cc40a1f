import TwigLint.Proofs.Lexing.Lexeme
import Mathlib.Data.List.Chain

/-! # Reading the inside of a section

One written token with a blank behind it is one step of the scanner: it changes the open brackets as
the token says and goes on behind the blank.  A sequence of tokens is read by as many steps.  When
its brackets are nested, the stack is at the end what it was at the start.
-/

namespace TwigLint.Lexing

open Segment Spelled

/-! ## First bytes -/

theorem not_isTagBlank_of_isWordByte {b : UInt8} (h : Text.isWordByte b = true) :
    isTagBlank b = false := by
  by_contra hblank
  simp only [isTagBlank, Bool.not_eq_false, Bool.or_eq_true, beq_iff_eq] at hblank
  rcases hblank with ((((rfl | rfl) | rfl) | rfl) | rfl) | rfl
  all_goals exact absurd h (by decide)

/-- Bytes with which a closing delimiter or its marker starts. -/
def closing : Text := ['}', '%', '-', '~']

theorem not_mem_closing_of_isWordByte {b : UInt8} (h : Text.isWordByte b = true) :
    b ∉ closing := by
  intro hmem
  simp only [closing, List.mem_cons, List.not_mem_nil, or_false] at hmem
  rcases hmem with rfl | rfl | rfl | rfl
  all_goals exact absurd h (by decide)

theorem not_isTagBlank_of_mem_closing {b : UInt8} (h : b ∈ closing) : isTagBlank b = false := by
  simp only [closing, List.mem_cons, List.not_mem_nil, or_false] at h
  rcases h with rfl | rfl | rfl | rfl
  all_goals rfl

/-- No token starts with a blank, and one that looks like the start of a closing delimiter has only
that byte. -/
theorem print_eq (t : Spelled) : ∃ b p, t.print = b :: p ∧ isTagBlank b = false ∧
    (p = [] ∨ b ∉ closing) := by
  cases t with
  | name n =>
    obtain ⟨b, u, hn, -, hword⟩ := n.text_eq
    have hb : Text.isWordByte b = true := hword b (by simp [hn])
    exact ⟨b, u, hn, not_isTagBlank_of_isWordByte hb, .inr (not_mem_closing_of_isWordByte hb)⟩
  | number whole =>
    obtain ⟨b, u, hwhole, hdigit⟩ := whole.text_eq
    have hb := isWordByte_of_isDigit hdigit
    exact ⟨b, u, hwhole, not_isTagBlank_of_isWordByte hb,
      .inr (not_mem_closing_of_isWordByte hb)⟩
  | decimal whole fraction =>
    obtain ⟨b, u, hwhole, hdigit⟩ := whole.text_eq
    have hb := isWordByte_of_isDigit hdigit
    exact ⟨b, u ++ "." ++ fraction.text, by simp [print, hwhole], not_isTagBlank_of_isWordByte hb,
      .inr (not_mem_closing_of_isWordByte hb)⟩
  | string quote content =>
    refine ⟨quote.byte, _, rfl, ?_⟩
    cases quote with
    | single => exact ⟨rfl, .inr (by decide)⟩
    | double => exact ⟨rfl, .inr (by decide)⟩
  | word ws hws =>
    simp only [Lexeme.wordOperators, List.mem_cons, List.not_mem_nil, or_false] at hws
    rcases hws with rfl | rfl | rfl | rfl | rfl | rfl | rfl | rfl | rfl | rfl | rfl | rfl | rfl
    all_goals exact ⟨_, _, rfl, rfl, .inr (by decide)⟩
  | symbol op hop =>
    simp only [Lexeme.symbolOperators, List.mem_cons, List.not_mem_nil, or_false] at hop
    rcases hop with rfl | rfl | rfl | rfl | rfl | rfl | rfl | rfl | rfl | rfl | rfl | rfl | rfl |
      rfl | rfl | rfl | rfl | rfl
    all_goals exact ⟨_, _, rfl, rfl, by decide⟩
  | mark b hb =>
    refine ⟨b, [], rfl, ?_, .inl rfl⟩
    simp only [punctuation_eq, List.mem_cons, List.not_mem_nil, or_false] at hb
    rcases hb with rfl | rfl | rfl | rfl | rfl | rfl | rfl | rfl | rfl | rfl | rfl | rfl
    all_goals rfl
  | arrow => exact ⟨_, _, rfl, rfl, .inr (by decide)⟩

theorem closer_eq (kind : TagKind) :
    ∃ c, kind.closer = [c, ('}' : UInt8)] ∧ c ∈ closing := by
  cases kind with
  | print => exact ⟨_, rfl, by decide⟩
  | block => exact ⟨_, rfl, by decide⟩

theorem close?_print {b : UInt8} {p : Text} (h : p = [] ∨ b ∉ closing) (kind : TagKind)
    (rest : Text) : close? kind (b :: (p ++ (' ' : UInt8) :: rest)) = none := by
  obtain ⟨c, hcloser, hclosing⟩ := closer_eq kind
  rcases h with rfl | h
  · have hblank : c ≠ ' ' := by
      rintro rfl
      exact absurd hclosing (by decide)
    have hbrace : ('}' : UInt8) ≠ ' ' := by decide
    simp [close?, Text.startsWith, hcloser, hblank, hbrace]
  · have hne : c ≠ b := by
      rintro rfl
      exact h hclosing
    have hkeep : Trim.ofByte b = .keep := by
      simp only [closing, List.mem_cons, List.not_mem_nil, or_false, not_or] at h
      simp [Trim.ofByte, h]
    simp [close?, Text.startsWith, hcloser, hne, hkeep]

/-! ## Sequences of tokens -/

/-- The tokens with a blank behind each. -/
def spaced : List Spelled → Text
  | [] => []
  | t :: ts => t.print ++ (' ' : UInt8) :: spaced ts

/-- The tokens with their positions when they are written from the given position on. -/
def located (loc : Location) : List Spelled → List Token
  | [] => []
  | t :: ts => ⟨t.type, t.value, loc⟩ :: located ((loc.advance t.print).step ' ') ts

/-- Every token is told apart from what is written behind it. -/
def Separated (rest : Text) : List Spelled → Prop
  | [] => True
  | t :: ts => Separate t (spaced ts ++ rest) ∧ Separated rest ts

theorem located_map (loc : Location) (ts : List Spelled) :
    (located loc ts).map (fun t => (t.type, t.value)) = ts.map fun t => (t.type, t.value) := by
  induction ts generalizing loc with
  | nil => rfl
  | cons t ts ih => simp [located, ih]

theorem located_append (loc : Location) (ts us : List Spelled) :
    located loc (ts ++ us) = located loc ts ++ located (loc.advance (spaced ts)) us := by
  induction ts generalizing loc with
  | nil => rfl
  | cons t ts ih => simp [located, spaced, ih, Location.advance]

/-! ## Brackets -/

theorem brackets_plain {t : Spelled} (h : t.isBracket = false) (stack : List OpenBracket)
    (loc : Location) : Segment.brackets stack ⟨t.type, t.value, loc⟩ = .ok stack := by
  cases t with
  | mark b hb =>
    simp only [punctuation_eq, List.mem_cons, List.not_mem_nil, or_false] at hb
    rcases hb with rfl | rfl | rfl | rfl | rfl | rfl | rfl | rfl | rfl | rfl | rfl | rfl
    all_goals first
      | rfl
      | exact absurd (show true = false from h) (by decide)
  | _ => rfl

theorem brackets_open {o c : UInt8} (h : (o, c) ∈ Spelled.brackets) (stack : List OpenBracket)
    (loc : Location) :
    Segment.brackets stack ⟨.punctuation, [o], loc⟩ = .ok (⟨o, loc⟩ :: stack) := by
  simp only [Spelled.brackets, List.mem_cons, List.not_mem_nil, or_false, Prod.mk.injEq] at h
  rcases h with ⟨rfl, -⟩ | ⟨rfl, -⟩ | ⟨rfl, -⟩
  all_goals rfl

theorem brackets_close {o c : UInt8} (h : (o, c) ∈ Spelled.brackets) (stack : List OpenBracket)
    (opened loc : Location) :
    Segment.brackets (⟨o, opened⟩ :: stack) ⟨.punctuation, [c], loc⟩ = .ok stack := by
  simp only [Spelled.brackets, List.mem_cons, List.not_mem_nil, or_false, Prod.mk.injEq] at h
  rcases h with ⟨rfl, rfl⟩ | ⟨rfl, rfl⟩ | ⟨rfl, rfl⟩
  all_goals rfl

/-- Nested brackets leave the stack as it was. -/
theorem brackets_nested {ts : List Spelled} (h : Nested ts) (stack : List OpenBracket)
    (loc : Location) : (located loc ts).foldlM Segment.brackets stack = .ok stack := by
  induction h generalizing stack loc with
  | nil => rfl
  | plain single rest ih =>
    simp only [located, List.foldlM_cons, brackets_plain single]
    exact ih stack _
  | group pair inner rest ihInner ihRest =>
    simp only [List.cons_append, located, located_append, List.foldlM_cons, List.foldlM_append,
      type, value, print, brackets_open pair]
    simp [bind, Except.bind, ihInner, ihRest, brackets_close pair]

/-! ## The scanner -/

section Scanner

variable {kind : TagKind} {start : Location} {rest : Text}

theorem tagRest_blank (stack : List OpenBracket) (loc : Location) :
    tagRest kind start stack loc ((' ' : UInt8) :: rest) =
      (tagRest kind start stack (loc.step ' ') rest).map (TagRest.consBlank ' ') := by
  have hblank : isTagBlank ' ' = true := rfl
  rw [tagRest, if_pos hblank]
  cases tagRest kind start stack (loc.step ' ') rest with
  | error e => rfl
  | ok r => rfl

/-- One lexeme and the blank behind it. -/
theorem tagRest_lexeme {b : UInt8} {p : Text} {type : TokenType} {value : Text}
    (hread : Lexeme.read b (p ++ (' ' : UInt8) :: rest) = .ok ⟨type, value, b :: p⟩)
    (hblank : isTagBlank b = false) (hclosing : p = [] ∨ b ∉ closing)
    {stack below : List OpenBracket} {loc : Location}
    (hstack : Segment.brackets stack ⟨type, value, loc⟩ = .ok below) :
    tagRest kind start stack loc (b :: (p ++ (' ' : UInt8) :: rest)) =
      (tagRest kind start below ((loc.advance (b :: p)).step ' ') rest).map fun r =>
        (r.consBlank ' ').consToken ⟨type, value, loc⟩ (b :: p) := by
  have hclose : (if stack.isEmpty then close? kind (b :: (p ++ (' ' : UInt8) :: rest)) else none) =
      none := by
    split
    · exact close?_print hclosing kind rest
    · rfl
  rw [tagRest, if_neg (by simp [hblank]), hclose]
  simp only [hread, hstack, List.length_cons, Nat.add_sub_cancel, List.drop_left, tagRest_blank]
  cases hr : tagRest kind start below ((loc.advance (b :: p)).step ' ') rest with
  | error e => simp [bind, Except.bind, Except.map, hr]
  | ok r => simp [bind, Except.bind, Except.map, hr, pure, Except.pure]

/-- One token and the blank behind it. -/
theorem tagRest_token {t : Spelled} (h : Separate t rest) {stack below : List OpenBracket}
    {loc : Location} (hstack : Segment.brackets stack ⟨t.type, t.value, loc⟩ = .ok below) :
    tagRest kind start stack loc (t.print ++ (' ' : UInt8) :: rest) =
      (tagRest kind start below ((loc.advance t.print).step ' ') rest).map fun r =>
        (r.consBlank ' ').consToken ⟨t.type, t.value, loc⟩ t.print := by
  obtain ⟨b, p, hp, hblank, hclosing⟩ := print_eq t
  have hread := read_print h hp
  rw [hp] at hread ⊢
  exact tagRest_lexeme hread hblank hclosing hstack

/-- A sequence of tokens that are told apart and whose brackets match the stack. -/
theorem tagRest_spaced {ts : List Spelled} (h : Separated rest ts) {stack below : List OpenBracket}
    {loc : Location} (hstack : (located loc ts).foldlM Segment.brackets stack = .ok below) :
    tagRest kind start stack loc (spaced ts ++ rest) =
      (tagRest kind start below (loc.advance (spaced ts)) rest).map fun r =>
        ⟨located loc ts ++ r.tokens, r.trail, spaced ts ++ r.source⟩ := by
  induction ts generalizing stack loc with
  | nil =>
    obtain rfl : stack = below := by simpa [located, pure, Except.pure] using hstack
    exact (congrFun Except.map_id _).symm
  | cons t ts ih =>
    obtain ⟨hseparate, hrest⟩ := h
    rw [located, List.foldlM_cons] at hstack
    obtain ⟨middle, hfirst, hstack⟩ : ∃ middle,
        Segment.brackets stack ⟨t.type, t.value, loc⟩ = .ok middle ∧
          (located ((loc.advance t.print).step ' ') ts).foldlM Segment.brackets middle =
            .ok below := by
      cases hfirst : Segment.brackets stack ⟨t.type, t.value, loc⟩ with
      | error e => simp [hfirst, bind, Except.bind] at hstack
      | ok middle => exact ⟨middle, rfl, by simpa [hfirst, bind, Except.bind] using hstack⟩
    have hadvance : loc.advance (spaced (t :: ts)) =
        ((loc.advance t.print).step ' ').advance (spaced ts) := by
      simp [spaced, Location.advance]
    have hspaced : spaced (t :: ts) ++ rest = t.print ++ (' ' : UInt8) :: (spaced ts ++ rest) := by
      simp [spaced]
    rw [hspaced, tagRest_token hseparate hfirst, ih hrest hstack, ← hadvance]
    cases tagRest kind start below (loc.advance (spaced (t :: ts))) rest with
    | error e => rfl
    | ok r => simp [Except.map, located, spaced, TagRest.consToken, TagRest.consBlank]

theorem tagRest_closer (loc : Location) :
    tagRest kind start [] loc kind.closer =
      .ok ⟨[⟨kind.endType, kind.closer, loc⟩], .keep, kind.closer⟩ := by
  obtain ⟨c, hcloser, hclosing⟩ := closer_eq kind
  have hblank := not_isTagBlank_of_mem_closing hclosing
  have hclose : close? kind [c, '}'] = some (.keep, [c, '}']) := by
    simp [close?, Text.startsWith, hcloser]
  rw [hcloser, tagRest, if_neg (by simp [hblank])]
  simp [hclose, hcloser]

end Scanner

/-! ## Neighbours -/

theorem not_isBlank_of_not_isTagBlank {b : UInt8} (h : isTagBlank b = false) :
    Lexeme.isBlank b = false := by
  simp only [isTagBlank, Bool.or_eq_false_iff] at h
  simp [Lexeme.isBlank, h]

theorem head?_print (u : Spelled) (r : Text) :
    ∀ b ∈ (u.print ++ r).head?, Lexeme.isBlank b = false := by
  obtain ⟨c, p, hp, hblank, -⟩ := print_eq u
  intro b hb
  obtain rfl : c = b := by simpa [hp] using hb
  exact not_isBlank_of_not_isTagBlank hblank

/-- Only words start with a letter. -/
theorem word_of_isLetter {u : Spelled} {b : UInt8} {p : Text} (hp : u.print = b :: p)
    (hb : Text.isLetter b = true) :
    (∀ c ∈ u.print, Text.isWordByte c = true) ∨ ∃ ws hws, u = .word ws hws := by
  cases u with
  | name n =>
    obtain ⟨-, -, -, -, hword⟩ := n.text_eq
    exact .inl hword
  | number whole => exact .inl fun c hc => isWordByte_of_isDigit (whole.digits c hc)
  | decimal whole fraction =>
    obtain ⟨c, u, hwhole, hdigit⟩ := whole.text_eq
    obtain ⟨rfl, -⟩ : c = b ∧ u ++ "." ++ fraction.text = p := by simpa [print, hwhole] using hp
    rw [not_isLetter_of_isDigit hdigit] at hb
    exact absurd hb (by simp)
  | string quote content =>
    obtain ⟨rfl, -⟩ := List.cons.inj hp
    cases quote with
    | single => exact absurd hb (by decide)
    | double => exact absurd hb (by decide)
  | word ws hws => exact .inr ⟨ws, hws, rfl⟩
  | symbol op hop =>
    simp only [Lexeme.symbolOperators, List.mem_cons, List.not_mem_nil, or_false] at hop
    rcases hop with rfl | rfl | rfl | rfl | rfl | rfl | rfl | rfl | rfl | rfl | rfl | rfl | rfl |
      rfl | rfl | rfl | rfl | rfl
    all_goals
      obtain ⟨rfl, -⟩ := List.cons.inj hp
      exact absurd hb (by decide)
  | mark c hc =>
    obtain ⟨rfl, -⟩ := List.cons.inj hp
    simp only [punctuation_eq, List.mem_cons, List.not_mem_nil, or_false] at hc
    rcases hc with rfl | rfl | rfl | rfl | rfl | rfl | rfl | rfl | rfl | rfl | rfl | rfl
    all_goals exact absurd hb (by decide)
  | arrow =>
    obtain ⟨rfl, -⟩ := List.cons.inj hp
    exact absurd hb (by decide)

/-- A second word of an operator is written by that word, or by an operator that starts with it. -/
theorem print_of_startsWord {w v : Text} (hv : [w, v] ∈ Lexeme.wordOperators) {u : Spelled}
    {r : Text} (h : startsWord v (u.print ++ (' ' : UInt8) :: r) = true) :
    u.print = v ∨ v = "not" ∧ u.print = "not in" := by
  obtain ⟨b, p, hp, -, -⟩ := print_eq u
  have hletter : Text.isLetter b = true := by
    by_contra hb
    rw [hp, List.cons_append, startsWord_not_letter hv (by simpa using hb)] at h
    exact absurd h (by simp)
  rcases word_of_isLetter hp hletter with hword | ⟨ws, hws, rfl⟩
  · obtain ⟨-, -, -, -, hspace⟩ := second_word_bytes hv
    obtain ⟨r', heq, hend⟩ := startsWord_iff.mp h
    exact .inl (word_eq hword hspace hend heq).1.symm
  · simp only [Lexeme.wordOperators, List.mem_cons, List.not_mem_nil, or_false] at hws
    rcases pair_cases hv with ⟨-, rfl⟩ | ⟨-, rfl⟩ | ⟨-, rfl⟩ | ⟨-, rfl⟩
    all_goals
      rcases hws with rfl | rfl | rfl | rfl | rfl | rfl | rfl | rfl | rfl | rfl | rfl | rfl | rfl
    -- Each operator is compared with each second word; only `not in` starts with another one.
    all_goals first
      | exact .inl rfl
      | exact .inr ⟨rfl, rfl⟩
      | exact absurd (show false = true from h) (by decide)

theorem separate_of_not_fuses {t u : Spelled} (h : ¬ Fuses t u) (r : Text) :
    Separate t (u.print ++ (' ' : UInt8) :: r) := by
  refine ⟨head?_print u _, fun v hv => ?_⟩
  by_contra hstarts
  apply h
  have hprint := print_of_startsWord hv (by simpa using hstarts)
  unfold Fuses
  rcases pair_cases hv with ⟨ht, rfl⟩ | ⟨ht, rfl⟩ | ⟨ht, rfl⟩ | ⟨ht, rfl⟩
  all_goals
    rw [ht]
    rcases hprint with hu | ⟨hnot, hu⟩
  all_goals first
    | exact absurd hnot (by decide)
    | rw [hu]
      decide

theorem separate_closer (t : Spelled) (kind : TagKind) : Separate t kind.closer := by
  obtain ⟨c, hcloser, hclosing⟩ := closer_eq kind
  have hletter : Text.isLetter c = false := by
    by_contra hletter
    have hword : Text.isWordByte c = true := by
      rw [Bool.not_eq_false] at hletter
      simp [Text.isWordByte, hletter]
    exact not_mem_closing_of_isWordByte hword hclosing
  rw [hcloser]
  refine ⟨fun b hb => ?_, fun v hv => startsWord_not_letter hv hletter⟩
  obtain rfl : c = b := by simpa using hb
  exact not_isBlank_of_not_isTagBlank (not_isTagBlank_of_mem_closing hclosing)

/-- Tokens of which no two neighbours are an operator of two words. -/
theorem separated_of_isChain {ts : List Spelled} (h : ts.IsChain fun t u => ¬ Fuses t u)
    (kind : TagKind) : Separated kind.closer ts := by
  induction ts with
  | nil => trivial
  | cons t ts ih =>
    refine ⟨?_, ih h.tail⟩
    cases ts with
    | nil => exact separate_closer t kind
    | cons u us =>
      have hspaced : spaced (u :: us) ++ kind.closer =
          u.print ++ (' ' : UInt8) :: (spaced us ++ kind.closer) := by
        simp [spaced]
      rw [hspaced]
      exact separate_of_not_fuses (List.isChain_cons_cons.mp h).1 _

end TwigLint.Lexing
