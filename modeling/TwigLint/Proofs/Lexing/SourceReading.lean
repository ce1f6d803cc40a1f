import TwigLint.Proofs.Lexing.Section

/-! # Lexing undoes printing

A written section is a whole source.  Nothing in it is changed when line ends are normalised, since
strings write their line ends with a backslash.  It is split into one segment, and the tokens of
that segment are the tokens that were written.
-/

namespace TwigLint.Lexing

open Segment Spelled

/-! ## Line ends -/

theorem normalizeNewlines_eq_self {t : Text} (h : ('\r' : UInt8) ∉ t) :
    t.normalizeNewlines = t := by
  induction t using Text.normalizeNewlines.induct with
  | case1 => rfl
  | case2 b => rfl
  | case3 b c t hline ih =>
    simp only [Bool.and_eq_true, beq_iff_eq] at hline
    exact absurd (by simp [hline.1]) h
  | case4 b c t hline ih =>
    simp only [Text.normalizeNewlines, hline, Bool.false_eq_true, if_false]
    rw [ih fun hmem => h (List.mem_cons_of_mem b hmem)]

theorem return_not_isWordByte {t : Text} (h : ∀ b ∈ t, Text.isWordByte b = true) :
    ('\r' : UInt8) ∉ t := by
  intro hmem
  exact absurd (h _ hmem) (by decide)

theorem return_not_mem_escape {quote : UInt8} (hquote : ('\r' : UInt8) ≠ quote) (b : UInt8) :
    ('\r' : UInt8) ∉ escape quote b := by
  unfold escape
  split
  case isTrue h =>
    simp only [Bool.or_eq_true, beq_iff_eq] at h
    rcases h with rfl | rfl
    · decide
    · simp [hquote]
      decide
  case isFalse _ =>
    split
    case isTrue _ => decide
    case isFalse hreturn =>
      split
      case isTrue _ => decide
      case isFalse _ =>
        intro hmem
        obtain rfl := List.mem_singleton.mp hmem
        exact hreturn rfl

theorem return_not_mem_print (t : Spelled) : ('\r' : UInt8) ∉ t.print := by
  cases t with
  | name n =>
    obtain ⟨-, -, -, -, hword⟩ := n.text_eq
    exact return_not_isWordByte hword
  | number whole =>
    exact return_not_isWordByte fun b hb => isWordByte_of_isDigit (whole.digits b hb)
  | decimal whole fraction =>
    have hwhole := return_not_isWordByte fun b hb => isWordByte_of_isDigit (whole.digits b hb)
    have hfraction :=
      return_not_isWordByte fun b hb => isWordByte_of_isDigit (fraction.digits b hb)
    have hpoint : ('\r' : UInt8) ∉ Text.ofString "." := by decide
    simp [print, hwhole, hfraction, hpoint]
  | string quote content =>
    have hquote : ('\r' : UInt8) ≠ quote.byte := by
      cases quote with
      | single => decide
      | double => decide
    have hcontent : ('\r' : UInt8) ∉ content.flatMap (escape quote.byte) := by
      intro hmem
      obtain ⟨b, -, hb⟩ := List.mem_flatMap.mp hmem
      exact return_not_mem_escape hquote b hb
    simp only [print, List.mem_append, List.mem_cons, List.not_mem_nil, or_false, not_or]
    exact ⟨⟨hquote, hcontent⟩, hquote⟩
  | word ws hws =>
    have hnone : ∀ ws ∈ Lexeme.wordOperators, ('\r' : UInt8) ∉ Text.join " " ws := by decide
    exact hnone ws hws
  | symbol op hop =>
    have hnone : ∀ op ∈ Lexeme.symbolOperators, ('\r' : UInt8) ∉ op := by decide
    exact hnone op hop
  | mark b hb =>
    intro hmem
    obtain rfl := List.mem_singleton.mp hmem
    exact absurd hb (by decide)
  | arrow => decide

/-- The source of a section behind its opening delimiter. -/
def body (kind : TagKind) (ts : List Spelled) : Text :=
  " " ++ Text.join " " (ts.map print) ++ " " ++ kind.closer

theorem source_eq (kind : TagKind) (ts : List Spelled) :
    source kind ts = kind.opener ++ body kind ts := by
  simp [Spelled.source, body]

theorem body_cons (kind : TagKind) (t : Spelled) (ts : List Spelled) :
    body kind (t :: ts) = (' ' : UInt8) :: (spaced (t :: ts) ++ kind.closer) := by
  have hjoin : ∀ (t : Spelled) (ts : List Spelled),
      Text.join " " ((t :: ts).map print) ++ " " = spaced (t :: ts) := by
    intro t ts
    induction ts generalizing t with
    | nil => rfl
    | cons u us ih =>
      rw [spaced, ← ih u]
      simp only [List.map_cons, Text.join, List.append_assoc]
      rfl
  rw [← hjoin]
  simp only [body, List.append_assoc]
  rfl

theorem return_not_mem_spaced (ts : List Spelled) : ('\r' : UInt8) ∉ spaced ts := by
  induction ts with
  | nil => simp [spaced]
  | cons t ts ih =>
    simp only [spaced, List.mem_append, List.mem_cons, not_or]
    exact ⟨return_not_mem_print t, by decide, ih⟩

theorem return_not_mem_source (kind : TagKind) (ts : List Spelled) :
    ('\r' : UInt8) ∉ source kind ts := by
  have hopener : ('\r' : UInt8) ∉ kind.opener := by
    cases kind with
    | print => decide
    | block => decide
  have hcloser : ('\r' : UInt8) ∉ kind.closer := by
    cases kind with
    | print => decide
    | block => decide
  have hbody : ('\r' : UInt8) ∉ body kind ts := by
    cases ts with
    | nil =>
      cases kind with
      | print => decide
      | block => decide
    | cons t ts =>
      rw [body_cons]
      simp only [List.mem_cons, List.mem_append, not_or]
      exact ⟨by decide, return_not_mem_spaced _, hcloser⟩
  rw [source_eq, List.mem_append, not_or]
  exact ⟨hopener, hbody⟩

/-! ## The segment -/

section Segment

variable {ts : List Spelled} (hnested : Nested ts) (hchain : ts.IsChain fun t u => ¬ Fuses t u)

include hnested hchain

theorem tagRest_body (kind : TagKind) (start loc : Location) : ∃ toks,
    tagRest kind start [] loc (body kind ts) = .ok ⟨toks, .keep, body kind ts⟩ ∧
      toks.map (fun t => (t.type, t.value)) =
        ts.map (fun t => (t.type, t.value)) ++ [(kind.endType, kind.closer)] := by
  cases ts with
  | nil =>
    have hbody : body kind [] = (' ' : UInt8) :: (' ' : UInt8) :: kind.closer := rfl
    rw [hbody, tagRest_blank, tagRest_blank, tagRest_closer]
    exact ⟨_, rfl, rfl⟩
  | cons t ts =>
    rw [body_cons, tagRest_blank,
      tagRest_spaced (separated_of_isChain hchain kind) (brackets_nested hnested [] _),
      tagRest_closer]
    refine ⟨_, rfl, ?_⟩
    rw [List.map_append, located_map]
    rfl

theorem tag_body (kind : TagKind) (start : Location) : ∃ toks,
    tag kind start (body kind ts) = .ok ⟨start, source kind ts, .tag .keep toks .keep⟩ ∧
      toks.map (fun t => (t.type, t.value)) = (kind.startType, kind.opener) ::
        (ts.map (fun t => (t.type, t.value)) ++ [(kind.endType, kind.closer)]) := by
  obtain ⟨toks, htoks, hmap⟩ := tagRest_body hnested hchain kind start
    (start.advance kind.opener)
  refine ⟨⟨kind.startType, kind.opener, start⟩ :: toks, ?_, by rw [List.map_cons, hmap]⟩
  have hlead : Trim.ofHead (body kind ts) = .keep := rfl
  simp [tag, hlead, Trim.width, htoks, source_eq, bind, Except.bind, pure, Except.pure]

end Segment

/-! ## Verbatim sections -/

theorem afterTagEnd_word {b : UInt8} (h : Text.isWordByte b = true) (t : Text) :
    afterTagEnd (b :: t) = none := by
  have hblank := not_isBlank_of_not_isTagBlank (not_isTagBlank_of_isWordByte h)
  have hclosing := not_mem_closing_of_isWordByte h
  simp only [closing, List.mem_cons, List.not_mem_nil, or_false, not_or] at hclosing
  obtain ⟨-, hpercent, hminus, htilde⟩ := hclosing
  have hlead : Trim.ofHead (b :: t) = .keep := by simp [Trim.ofHead, Trim.ofByte, hminus, htilde]
  have hafter : Text.after? "%\x7d" (b :: t) = none := by
    change (if ('%' : UInt8) == b then _ else none) = none
    simp [Ne.symm hpercent]
  simp [afterTagEnd, hblank, hlead, Trim.width, hafter]

/-- A name that only starts with the given word does not end where the word does. -/
theorem afterTagEnd_of_ne {n : Name} {w r rest : Text} (hw : (' ' : UInt8) ∉ w) (hne : n.text ≠ w)
    (h : Text.after? w (n.text ++ (' ' : UInt8) :: rest) = some r) : afterTagEnd r = none := by
  obtain ⟨-, -, -, -, hword⟩ := n.text_eq
  have hend : Lexeme.endsWord r = false := by
    by_contra hend
    have heq := Text.after?_eq_some.mp h
    exact hne (word_eq hword hw (by simpa using hend) heq).1.symm
  cases r with
  | nil => exact absurd hend (by decide)
  | cons b r => exact afterTagEnd_word (by simpa [Lexeme.endsWord] using hend) r

theorem verbatimOpen?_name {n : Name} (hverbatim : n.text ≠ "verbatim") (hraw : n.text ≠ "raw")
    (rest : Text) :
    verbatimOpen? ((' ' : UInt8) :: (n.text ++ (' ' : UInt8) :: rest)) = none := by
  have hdrop : ((' ' : UInt8) :: (n.text ++ (' ' : UInt8) :: rest)).dropWhile Lexeme.isBlank =
      n.text ++ (' ' : UInt8) :: rest :=
    dropWhile_run (t := [' ']) (List.all_eq_true.mp rfl) (head?_print (.name n) _)
  unfold verbatimOpen?
  rw [hdrop]
  cases hfirst : Text.after? "verbatim" (n.text ++ (' ' : UInt8) :: rest) with
  | some r => simp [afterEither, hfirst, afterTagEnd_of_ne (by decide) hverbatim hfirst]
  | none =>
    cases hsecond : Text.after? "raw" (n.text ++ (' ' : UInt8) :: rest) with
    | some r => simp [afterEither, hfirst, hsecond, afterTagEnd_of_ne (by decide) hraw hsecond]
    | none => simp [afterEither, hfirst, hsecond]

/-! ## The whole source -/

/-- The segment at the front of a section that is no verbatim section. -/
theorem first_section {kind : TagKind} {ts : List Spelled}
    (hname : kind = .block →
      ∃ n us, ts = .name n :: us ∧ n.text ≠ "verbatim" ∧ n.text ≠ "raw")
    (start : Location) : ∃ c, kind.opener = [('{' : UInt8), c] ∧
      first start '{' (c :: body kind ts) = tag kind start (body kind ts) := by
  cases kind with
  | print => exact ⟨_, rfl, rfl⟩
  | block =>
    refine ⟨_, rfl, ?_⟩
    obtain ⟨n, us, rfl, hverbatim, hraw⟩ := hname rfl
    have hopen : verbatimOpen? (body .block (.name n :: us)) = none := by
      rw [body_cons, spaced, List.append_assoc]
      exact verbatimOpen?_name hverbatim hraw _
    change blockTag start (body .block (.name n :: us)) = _
    have hlead : Trim.ofHead (body .block (.name n :: us)) = .keep := rfl
    simp only [blockTag, hlead, Trim.width, List.drop_zero, hopen]

/-- A source that is one segment. -/
theorem split_single {b : UInt8} {t : Text} {segment : Segment}
    (hfirst : first .start b t = .ok segment) (hsource : segment.source = b :: t) :
    split (b :: t) = .ok [segment] := by
  rw [split, splitFrom, hfirst]
  simp [bind, Except.bind, pure, Except.pure, hsource, splitFrom]

/-- Tokens with nested brackets, of which no two neighbours are an operator of two words, are read
back from their source, with the delimiters around them and the end behind them. -/
theorem source_reads_tokens (kind : TagKind) (ts : List Spelled) (hnested : Nested ts)
    (hchain : ts.IsChain fun t u => ¬ Fuses t u)
    (hname : kind = .block →
      ∃ n us, ts = .name n :: us ∧ n.text ≠ "verbatim" ∧ n.text ≠ "raw") :
    (TokenStream.ofSource (Spelled.source kind ts)).map
        (fun s => s.toList.map fun t => (t.type, t.value)) =
      .ok ((kind.startType, kind.opener) :: ts.map (fun t => (t.type, t.value)) ++
        [(kind.endType, kind.closer), (.eof, [])]) := by
  obtain ⟨toks, htag, hmap⟩ := tag_body hnested hchain kind .start
  obtain ⟨c, hopener, hfirst⟩ := first_section hname .start
  have hsource : Spelled.source kind ts = ('{' : UInt8) :: c :: body kind ts := by
    simp [source_eq, hopener]
  have hsplit : split (Spelled.source kind ts) =
      .ok [⟨.start, Spelled.source kind ts, .tag .keep toks .keep⟩] := by
    nth_rewrite 1 [hsource]
    exact split_single (hfirst.trans htag) hsource
  have hlines := normalizeNewlines_eq_self (return_not_mem_source kind ts)
  simp [TokenStream.ofSource, TokenStream.toList, hlines, hsplit, tokens, hmap, bind, Except.bind,
    pure, Except.pure, Except.map]

/-- A condition with brackets, a string that holds its own quote, and operators of both kinds. -/
theorem source_reads_tokens_condition :
    (TokenStream.ofSource "\x7b% if not ( a == 'it\\'s' ) %\x7d").map
        (fun s => s.toList.map fun t => (t.type, t.value)) =
      .ok [(.tagStart, "\x7b%"), (.name, "if"), (.operator, "not"), (.punctuation, "("),
        (.name, "a"), (.operator, "=="), (.string, "it's"), (.punctuation, ")"),
        (.tagEnd, "%\x7d"), (.eof, [])] := by
  have hinner : Nested [.name ⟨"a", by decide, by decide⟩, .symbol "==" (by decide),
      .string .single "it's"] := .plain rfl (.plain rfl (.plain rfl .nil))
  have hgroup : Nested [.mark '(' (by decide), .name ⟨"a", by decide, by decide⟩,
      .symbol "==" (by decide), .string .single "it's", .mark ')' (by decide)] :=
    .group (by decide) hinner .nil
  exact source_reads_tokens .block
    [.name ⟨"if", by decide, by decide⟩, .word ["not"] (by decide), .mark '(' (by decide),
      .name ⟨"a", by decide, by decide⟩, .symbol "==" (by decide), .string .single "it's",
      .mark ')' (by decide)]
    (.plain rfl (.plain rfl hgroup)) (by decide) (fun _ => ⟨_, _, rfl, by decide, by decide⟩)

end TwigLint.Lexing
