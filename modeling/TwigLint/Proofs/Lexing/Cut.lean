import TwigLint.Proofs.Lexing.Section

/-! # How a source is cut

What the lexer does when it does not fail, step by step: it reads a lexeme, the rest of a tag, the
segment at the front of a text, and all segments of a source.  Whatever is read is read from the
front of what is left, so that nothing is lost between two steps.  What holds of tokens and of
segments is proved along these steps.
-/

namespace TwigLint

/-! ## Markers -/

namespace Trim

/-- How a marker is written. -/
def bytes : Trim → Text
  | keep => []
  | all => ['-']
  | inline => ['~']

theorem ofByte_cases (b : UInt8) :
    (b = '-' ∧ ofByte b = all) ∨ (b = '~' ∧ ofByte b = inline) ∨ ofByte b = keep := by
  unfold ofByte
  split
  · exact .inl ⟨eq_of_beq ‹_›, rfl⟩
  · split
    · exact .inr (.inl ⟨eq_of_beq ‹_›, rfl⟩)
    · exact .inr (.inr rfl)

end Trim

/-! ## Computations -/

/-- A computation succeeds when a part of its result is known. -/
theorem ok_of_toOption_map {ε α β : Type} {x : Except ε α} {f : α → β} {b : β}
    (h : x.toOption.map f = some b) : ∃ a, x = .ok a ∧ f a = b := by
  cases x with
  | error e => cases h
  | ok a => exact ⟨a, rfl, Option.some.inj h⟩

namespace Lexing

open Lexeme Segment

/-- A computation that succeeds has a first step that succeeds. -/
theorem bind_eq_ok {ε α β : Type} {x : Except ε α} {f : α → Except ε β} {b : β}
    (h : (x >>= f) = .ok b) : ∃ a, x = .ok a ∧ f a = .ok b := by
  cases x with
  | error e => cases h
  | ok a => exact ⟨a, rfl, h⟩

/-! ## Lexemes -/

theorem startsWith_iff {t p : Text} : t.startsWith p = true ↔ p <+: t :=
  List.isPrefixOf_iff_prefix

theorem readWords?_eq {ws : List Text} {t source rest : Text}
    (h : readWords? ws t = some (source, rest)) :
    t = source ++ rest ∧ ∀ w ∈ ws.head?, w <+: source := by
  fun_induction readWords? ws t generalizing source rest with
  | case1 t =>
    cases h
    simp
  | case2 t w =>
    obtain ⟨r, hr, hsource⟩ := Option.map_eq_some_iff.mp h
    cases hsource
    exact ⟨Text.after?_eq_some.mp hr, by simp⟩
  | case3 w v ws t ih =>
    obtain ⟨r, hr, h⟩ := Option.bind_eq_some_iff.mp h
    by_cases hblanks : (r.takeWhile isBlank).isEmpty
    · simp [hblanks] at h
    · simp only [hblanks, Bool.false_eq_true, if_false] at h
      obtain ⟨⟨source', rest'⟩, hwords, hsource⟩ := Option.bind_eq_some_iff.mp h
      cases hsource
      refine ⟨?_, by simp⟩
      rw [Text.after?_eq_some.mp hr, List.append_assoc, List.append_assoc, ← (ih r hwords).1,
        List.takeWhile_append_dropWhile]

theorem wordOperator?_isPrefix {t : Text} {lexeme : Lexeme} (h : wordOperator? t = some lexeme) :
    lexeme.source <+: t ∧ lexeme.source ≠ [] := by
  have hwords : ∀ ws ∈ wordOperators, ∃ w ∈ ws.head?, w ≠ [] := by decide
  obtain ⟨ws, hmem, hws⟩ := List.exists_of_findSome?_eq_some h
  split at hws
  · rename_i source rest hread
    obtain ⟨ht, hhead⟩ := readWords?_eq hread
    obtain ⟨w, hw, hne⟩ := hwords ws hmem
    split at hws
    · cases hws
      refine ⟨⟨rest, ht.symm⟩, fun hnil => hne ?_⟩
      exact List.prefix_nil.mp (hnil ▸ hhead w hw)
    · cases hws
  · cases hws

theorem number_isPrefix (t : Text) : number t <+: t := by
  have hwhole : t.takeWhile Text.isDigit <+: t := List.takeWhile_prefix _
  unfold number
  dsimp only
  split
  · rename_i p d r hdrop
    split
    · have ht := List.takeWhile_append_dropWhile (p := Text.isDigit) (l := t)
      rw [hdrop] at ht
      obtain ⟨rest, hrest⟩ := List.takeWhile_prefix Text.isDigit (l := r)
      refine ⟨rest, ?_⟩
      calc t.takeWhile Text.isDigit ++ p :: d :: r.takeWhile Text.isDigit ++ rest
          = t.takeWhile Text.isDigit ++ p :: d :: (r.takeWhile Text.isDigit ++ rest) := by simp
        _ = t := by rw [hrest, ht]
    · exact hwhole
  · exact hwhole

theorem number_ne_nil {b : UInt8} (h : Text.isDigit b = true) (t : Text) :
    number (b :: t) ≠ [] := by
  unfold number
  dsimp only
  rw [List.takeWhile_cons_of_pos h]
  split
  · split <;> simp
  · simp

theorem stringBody?_isPrefix {quote : UInt8} {t value source : Text}
    (h : stringBody? quote t = some (value, source)) : source <+: t := by
  fun_induction stringBody? quote t generalizing value source with
  | case1 => cases h
  | case2 b hquote =>
    cases h
    exact List.prefix_refl _
  | case3 b hquote => cases h
  | case4 b c t hquote =>
    cases h
    exact ⟨c :: t, rfl⟩
  | case5 b c t hquote hescape ih =>
    obtain ⟨⟨value', source'⟩, hbody, hsource⟩ := Option.map_eq_some_iff.mp h
    cases hsource
    exact (List.prefix_cons_inj b).mpr ((List.prefix_cons_inj c).mpr (ih hbody))
  | case6 b c t hquote hescape ih =>
    obtain ⟨⟨value', source'⟩, hbody, hsource⟩ := Option.map_eq_some_iff.mp h
    cases hsource
    exact (List.prefix_cons_inj b).mpr (ih hbody)

/-- How the lexeme at the front of the text `b :: t` is read. -/
inductive ReadsLexeme (b : UInt8) (t : Text) : Lexeme → Prop
  | arrow (hstarts : "=>" <+: b :: t) : ReadsLexeme b t ⟨.arrow, "=>", "=>"⟩
  | word {lexeme : Lexeme} (hword : wordOperator? (b :: t) = some lexeme) : ReadsLexeme b t lexeme
  | name (hnone : wordOperator? (b :: t) = none) (hstart : isNameStart b = true) :
      ReadsLexeme b t ⟨.name, b :: t.takeWhile isNameByte, b :: t.takeWhile isNameByte⟩
  | number (hdigit : Text.isDigit b = true) :
      ReadsLexeme b t ⟨.number, Lexeme.number (b :: t), Lexeme.number (b :: t)⟩
  | symbol {op : Text} (hop : op ∈ symbolOperators) (hstarts : op <+: b :: t) :
      ReadsLexeme b t ⟨.operator, op, op⟩
  | mark (hmark : b ∈ punctuation) : ReadsLexeme b t ⟨.punctuation, [b], [b]⟩
  | string (quote : Quote) {value source : Text} (hquote : b = quote.byte)
      (hbody : stringBody? quote.byte t = some (value, source)) :
      ReadsLexeme b t ⟨.string, value, quote.byte :: source⟩

theorem readsLexeme_of_read {b : UInt8} {t : Text} {lexeme : Lexeme}
    (h : Lexeme.read b t = .ok lexeme) : ReadsLexeme b t lexeme := by
  revert h
  fun_cases Lexeme.read b t with
  | case1 harrow =>
    rintro ⟨⟩
    exact .arrow (startsWith_iff.mp harrow)
  | case2 _ found hword =>
    rintro ⟨⟩
    exact .word hword
  | case3 _ hnone hstart =>
    rintro ⟨⟩
    exact .name hnone hstart
  | case4 _ _ _ hdigit =>
    rintro ⟨⟩
    exact .number hdigit
  | case5 _ _ _ _ op hop =>
    rintro ⟨⟩
    exact .symbol (List.mem_of_find?_eq_some hop) (startsWith_iff.mp (List.find?_some hop))
  | case6 _ _ _ _ _ hmark =>
    rintro ⟨⟩
    exact .mark (by simpa using hmark)
  | case7 _ _ _ _ _ _ hquote value source hbody =>
    rintro ⟨⟩
    have hb : b = '\'' ∨ b = '"' := by simpa using hquote
    rcases hb with rfl | rfl
    · exact .string .single rfl hbody
    · exact .string .double rfl hbody
  | case8 | case9 => rintro ⟨⟩

/-- A lexeme is read from the front of a text, and it is not empty. -/
theorem read_isPrefix {b : UInt8} {t : Text} {lexeme : Lexeme} (h : Lexeme.read b t = .ok lexeme) :
    lexeme.source <+: b :: t ∧ lexeme.source ≠ [] := by
  have hsymbols : ∀ op ∈ symbolOperators, op ≠ [] := by decide
  cases readsLexeme_of_read h with
  | arrow hstarts => exact ⟨hstarts, by decide⟩
  | word hword => exact wordOperator?_isPrefix hword
  | name => exact ⟨(List.prefix_cons_inj b).mpr (List.takeWhile_prefix _), List.cons_ne_nil _ _⟩
  | number hdigit => exact ⟨number_isPrefix _, number_ne_nil hdigit t⟩
  | symbol hop hstarts => exact ⟨hstarts, hsymbols _ hop⟩
  | mark => exact ⟨⟨t, rfl⟩, List.cons_ne_nil _ _⟩
  | string quote hquote hbody =>
    rw [hquote]
    exact ⟨(List.prefix_cons_inj _).mpr (stringBody?_isPrefix hbody), List.cons_ne_nil _ _⟩

/-- A piece from the front of a text that is not empty takes its first byte. -/
theorem eq_append_of_isPrefix {b : UInt8} {t source : Text} (h : source <+: b :: t)
    (hne : source ≠ []) : b :: t = source ++ t.drop (source.length - 1) := by
  obtain ⟨rest, hrest⟩ := h
  obtain ⟨c, source, rfl⟩ := List.exists_cons_of_ne_nil hne
  obtain ⟨rfl, rfl⟩ := List.cons.inj hrest
  simp

/-- A lexeme is read from the front of a text, and the lexer goes on behind it. -/
theorem eq_append_of_read {b : UInt8} {t : Text} {lexeme : Lexeme}
    (h : Lexeme.read b t = .ok lexeme) :
    b :: t = lexeme.source ++ t.drop (lexeme.source.length - 1) :=
  eq_append_of_isPrefix (read_isPrefix h).1 (read_isPrefix h).2

/-! ## Tags -/

/-- A closing delimiter is read from the front of a text, with the marker in front of it. -/
theorem close?_eq {kind : TagKind} {t source : Text} {trail : Trim}
    (h : close? kind t = some (trail, source)) :
    source = trail.bytes ++ kind.closer ∧ source <+: t := by
  unfold close? at h
  split at h
  · next hcloser =>
    cases h
    exact ⟨rfl, startsWith_iff.mp hcloser⟩
  · split at h
    · cases h
    · next b r _ =>
      split at h
      · next hmarker =>
        cases h
        obtain ⟨hb, hcloser⟩ := Bool.and_eq_true_iff.mp hmarker
        refine ⟨?_, (List.prefix_cons_inj b).mpr (startsWith_iff.mp hcloser)⟩
        rcases Trim.ofByte_cases b with ⟨rfl, -⟩ | ⟨rfl, -⟩ | hkeep
        · rfl
        · rfl
        · simp [hkeep] at hb
      · cases h

/-- How the rest of a tag is read from a position on, with the brackets that are open there. -/
inductive ReadsTag (kind : TagKind) : List OpenBracket → Location → Text → TagRest → Prop
  | blank {stack : List OpenBracket} {loc : Location} {b : UInt8} {t : Text} {r : TagRest}
      (hblank : isTagBlank b = true) (behind : ReadsTag kind stack (loc.step b) t r) :
      ReadsTag kind stack loc (b :: t) (r.consBlank b)
  /-- A closing delimiter counts only where no bracket is open. -/
  | close {loc : Location} {t source : Text} {trail : Trim}
      (hclose : close? kind t = some (trail, source)) :
      ReadsTag kind [] loc t ⟨[⟨kind.endType, kind.closer, loc⟩], trail, source⟩
  | lexeme {stack stack' : List OpenBracket} {loc : Location} {b : UInt8} {t rest : Text}
      {lexeme : Lexeme} {r : TagRest} (text : b :: t = lexeme.source ++ rest)
      (hopen : stack = [] → close? kind (b :: t) = none) (hread : Lexeme.read b t = .ok lexeme)
      (hbrackets : brackets stack ⟨lexeme.type, lexeme.value, loc⟩ = .ok stack')
      (behind : ReadsTag kind stack' (loc.advance lexeme.source) rest r) :
      ReadsTag kind stack loc (b :: t)
        (r.consToken ⟨lexeme.type, lexeme.value, loc⟩ lexeme.source)

theorem readsTag_of_tagRest {kind : TagKind} {start loc : Location} {stack : List OpenBracket}
    {t : Text} {r : TagRest} (h : tagRest kind start stack loc t = .ok r) :
    ReadsTag kind stack loc t r := by
  fun_induction tagRest kind start stack loc t generalizing r with
  | case1 loc o below => cases h
  | case2 loc => cases h
  | case3 stack loc b t hblank ih =>
    obtain ⟨rest, hrest, hr⟩ := bind_eq_ok h
    cases hr
    exact .blank hblank (ih hrest)
  | case4 stack loc b t hblank trail source hclose =>
    cases h
    cases stack with
    | nil => exact .close hclose
    | cons o below => cases hclose
  | case5 stack loc b t hblank hclose fault hread => cases h
  | case6 stack loc b t hblank hclose lexeme hread tok =>
    rename_i ih
    obtain ⟨stack', hbrackets, h⟩ := bind_eq_ok h
    obtain ⟨rest, hrest, hr⟩ := bind_eq_ok h
    cases hr
    refine .lexeme (eq_append_of_read hread) ?_ hread hbrackets (ih stack' hrest)
    rintro rfl
    exact hclose

theorem ReadsTag.source_isPrefix {kind : TagKind} {stack : List OpenBracket} {loc : Location}
    {t : Text} {r : TagRest} (h : ReadsTag kind stack loc t r) : r.source <+: t := by
  induction h with
  | blank _ _ ih => exact (List.prefix_cons_inj _).mpr ih
  | close hclose => exact (close?_eq hclose).2
  | lexeme text _ _ _ _ ih => exact text ▸ (List.prefix_append_right_inj _).mpr ih

/-! ## Segments -/

theorem opener_ne_nil (kind : TagKind) : kind.opener ≠ [] := by
  cases kind <;> decide

theorem find?_eq {p t s r : Text} (h : Text.find? p t = some (s, r)) : t = s ++ r ∧ p <+: r := by
  fun_induction Text.find? p t generalizing s r with
  | case1 hempty =>
    cases h
    have hp : p = [] := List.isEmpty_iff.mp hempty
    exact ⟨rfl, hp ▸ List.nil_prefix⟩
  | case2 => cases h
  | case3 b t hstarts =>
    cases h
    exact ⟨rfl, startsWith_iff.mp hstarts⟩
  | case4 b t hstarts ih =>
    obtain ⟨⟨s', r'⟩, hfind, hs⟩ := Option.map_eq_some_iff.mp h
    cases hs
    exact ⟨congrArg (b :: ·) (ih hfind).1, (ih hfind).2⟩

/-- What follows the marker of a delimiter. -/
theorem opening_append (kind : TagKind) (n : Nat) (body : Text) :
    kind.opener ++ body.take n ++ body.drop n = kind.opener ++ body := by
  rw [List.append_assoc, List.take_append_drop]

theorem afterEither_suffix {v w t name r : Text} (h : afterEither v w t = some (name, r)) :
    r <:+ t := by
  unfold afterEither at h
  split at h
  · rename_i r' hafter
    cases h
    exact ⟨v, (Text.after?_eq_some.mp hafter).symm⟩
  · obtain ⟨r', hafter, hr⟩ := Option.map_eq_some_iff.mp h
    cases hr
    exact ⟨w, (Text.after?_eq_some.mp hafter).symm⟩

theorem afterTagEnd_suffix {t rest : Text} {trim : Trim} (h : afterTagEnd t = some (trim, rest)) :
    rest <:+ t := by
  obtain ⟨r, hafter, hr⟩ := Option.map_eq_some_iff.mp h
  cases hr
  have hcloser : rest <:+ (t.dropWhile Lexeme.isBlank).drop _ :=
    ⟨_, (Text.after?_eq_some.mp hafter).symm⟩
  exact hcloser.trans ((List.drop_suffix _ _).trans (List.dropWhile_suffix _))

theorem verbatimOpen?_suffix {t name content : Text} {trim : Trim}
    (h : verbatimOpen? t = some (name, trim, content)) : content <:+ t := by
  obtain ⟨⟨name', r⟩, hname, h⟩ := Option.bind_eq_some_iff.mp h
  obtain ⟨⟨trim', rest⟩, hend, h⟩ := Option.bind_eq_some_iff.mp h
  cases h
  exact (afterTagEnd_suffix hend).trans ((afterEither_suffix hname).trans
    (List.dropWhile_suffix _))

theorem verbatimBody?_isPrefix {t inner rest : Text} {lead trail : Trim}
    (h : verbatimBody? t = some (inner, lead, trail, rest)) : inner <+: t := by
  fun_induction verbatimBody? t generalizing inner with
  | case1 => cases h
  | case2 b t lead' trail' rest' hend =>
    cases h
    exact List.nil_prefix
  | case3 b t hend ih =>
    obtain ⟨⟨inner', r⟩, hbody, hinner⟩ := Option.map_eq_some_iff.mp h
    cases hinner
    exact (List.prefix_cons_inj b).mpr (ih hbody)

theorem textRun_isPrefix (t : Text) : textRun t <+: t := by
  fun_induction textRun t with
  | case1 => exact List.prefix_refl _
  | case2 b t hopens => exact List.nil_prefix
  | case3 b t hopens ih => exact (List.prefix_cons_inj b).mpr ih

/-- Where no text stands in front, a delimiter does. -/
theorem opens_of_textRun {b c : UInt8} {body : Text}
    (h : (textRun (b :: c :: body)).isEmpty = true) :
    b = '{' ∧ (c = '{' ∨ c = '%' ∨ c = '#') := by
  rw [textRun] at h
  split at h
  · simp_all [opensAfterBrace, or_assoc]
  · cases h

/-- How the segment at the front of a text is read. -/
inductive ReadsSegment (start : Location) : Text → Segment → Prop
  | text {t : Text} (hne : textRun t ≠ []) : ReadsSegment start t ⟨start, textRun t, .text⟩
  | comment {body content rest : Text} (hfind : Text.find? "#\x7d" body = some (content, rest)) :
      ReadsSegment start ("\x7b#" ++ body) ⟨start, "\x7b#" ++ content ++ "#\x7d",
        .comment (.ofHead content) (commentTrail content)⟩
  | verbatim {body name content inner rest opening : Text} {innerLead innerTrail trail : Trim}
      (hopen : verbatimOpen? (body.drop (Trim.ofHead body).width) = some (name, innerLead, content))
      (hbody : verbatimBody? content = some (inner, innerTrail, trail, rest))
      (hopening : opening = TagKind.block.opener ++ body.take (body.length - content.length)) :
      ReadsSegment start (TagKind.block.opener ++ body)
        ⟨start, opening ++ content.take (content.length - rest.length),
          .verbatim (.ofHead body) (start.advance opening) inner innerLead innerTrail trail⟩
  /-- A tag does not open a verbatim section. -/
  | tag (kind : TagKind) {body opening : Text} {r : TagRest}
      (hopen : kind = .block → verbatimOpen? (body.drop (Trim.ofHead body).width) = none)
      (hopening : opening = kind.opener ++ body.take (Trim.ofHead body).width)
      (hrest : ReadsTag kind [] (start.advance opening) (body.drop (Trim.ofHead body).width) r) :
      ReadsSegment start (kind.opener ++ body) ⟨start, opening ++ r.source,
        .tag (.ofHead body) (⟨kind.startType, kind.opener, start⟩ :: r.tokens) r.trail⟩

section

variable {start : Location} {body : Text} {segment : Segment}

theorem readsSegment_of_tag {kind : TagKind}
    (hopen : kind = .block → verbatimOpen? (body.drop (Trim.ofHead body).width) = none)
    (h : tag kind start body = .ok segment) : ReadsSegment start (kind.opener ++ body) segment := by
  obtain ⟨r, hr, hsegment⟩ := bind_eq_ok h
  cases hsegment
  exact .tag kind hopen rfl (readsTag_of_tagRest hr)

theorem readsSegment_of_blockTag (h : blockTag start body = .ok segment) :
    ReadsSegment start (TagKind.block.opener ++ body) segment := by
  revert h
  fun_cases blockTag start body with
  | case1 lead hopen => exact readsSegment_of_tag fun _ => hopen
  | case2 => rintro ⟨⟩
  | case3 lead name innerLead content hopen inner innerTrail trail rest hbody opening =>
    rintro ⟨⟩
    exact .verbatim hopen hbody rfl

theorem readsSegment_of_comment (h : comment start body = .ok segment) :
    ReadsSegment start ("\x7b#" ++ body) segment := by
  revert h
  fun_cases comment start body with
  | case1 => rintro ⟨⟩
  | case2 content rest hfind =>
    rintro ⟨⟩
    exact .comment hfind

theorem readsSegment_of_first {b : UInt8} {t : Text} (h : first start b t = .ok segment) :
    ReadsSegment start (b :: t) segment := by
  revert h
  fun_cases first start b t with
  | case1 c body hcomment run hrun =>
    obtain ⟨rfl, -⟩ := opens_of_textRun hrun
    rw [eq_of_beq hcomment]
    exact readsSegment_of_comment
  | case2 c body hcomment hblock run hrun =>
    obtain ⟨rfl, -⟩ := opens_of_textRun hrun
    rw [eq_of_beq hblock]
    exact readsSegment_of_blockTag
  | case3 c body hcomment hblock run hrun =>
    obtain ⟨rfl, rfl | rfl | rfl⟩ := opens_of_textRun hrun
    · exact readsSegment_of_tag (by rintro ⟨⟩)
    · exact absurd rfl (ne_of_beq_false (Bool.eq_false_iff.mpr hblock))
    · exact absurd rfl (ne_of_beq_false (Bool.eq_false_iff.mpr hcomment))
  | case4 c body run hrun =>
    rintro ⟨⟩
    exact .text (by simpa using hrun)
  | case5 run =>
    rintro ⟨⟩
    exact .text (by simp [textRun, opensAfterBrace])

end

namespace ReadsSegment

variable {start : Location} {t : Text} {segment : Segment} (h : ReadsSegment start t segment)
include h

theorem start_eq : segment.start = start := by
  cases h <;> rfl

theorem source_ne_nil : segment.source ≠ [] := by
  have hcomment : Text.ofString "\x7b#" ≠ [] := by decide
  cases h with
  | text hne => exact hne
  | comment => simp [hcomment]
  | verbatim _ _ hopening => simp [hopening, opener_ne_nil]
  | tag kind _ hopening => simp [hopening, opener_ne_nil]

end ReadsSegment

/-- The tag that opens a verbatim section is taken from the front of the text. -/
theorem append_of_verbatimOpen? {body name content : Text} {trim : Trim}
    (h : verbatimOpen? (body.drop (Trim.ofHead body).width) = some (name, trim, content)) :
    TagKind.block.opener ++ body.take (body.length - content.length) ++ content =
      TagKind.block.opener ++ body := by
  obtain ⟨before, rfl⟩ := (verbatimOpen?_suffix h).trans (List.drop_suffix _ _)
  simp

theorem ReadsSegment.source_isPrefix {start : Location} {t : Text} {segment : Segment}
    (h : ReadsSegment start t segment) : segment.source <+: t := by
  cases h with
  | text => exact textRun_isPrefix t
  | comment hfind =>
    obtain ⟨hbody, rest, hrest⟩ := find?_eq hfind
    refine ⟨rest, ?_⟩
    rw [hbody, ← hrest]
    simp
  | verbatim hopen hbody hopening =>
    rw [hopening, ← append_of_verbatimOpen? hopen]
    exact (List.prefix_append_right_inj _).mpr (List.take_prefix _ _)
  | @tag kind body _ _ hopen hopening hrest =>
    rw [hopening, ← opening_append kind (Trim.ofHead body).width body]
    exact (List.prefix_append_right_inj _).mpr hrest.source_isPrefix

/-- The segment at the front of a text is read from there, and the lexer goes on behind it. -/
theorem eq_append_of_first {start : Location} {b : UInt8} {t : Text} {segment : Segment}
    (h : first start b t = .ok segment) :
    b :: t = segment.source ++ t.drop (segment.source.length - 1) :=
  have hreads := readsSegment_of_first h
  eq_append_of_isPrefix hreads.source_isPrefix hreads.source_ne_nil

/-! ## Sources -/

/-- How a text that starts at a position is cut into segments. -/
inductive Cuts : Location → Text → List Segment → Prop
  | nil {start : Location} : Cuts start [] []
  | cons {start : Location} {rest : Text} {segment : Segment} {segments : List Segment}
      (first : ReadsSegment start (segment.source ++ rest) segment)
      (behind : Cuts (start.advance segment.source) rest segments) :
      Cuts start (segment.source ++ rest) (segment :: segments)

theorem cuts_of_splitFrom {start : Location} {t : Text} {segments : List Segment}
    (h : splitFrom start t = .ok segments) : Cuts start t segments := by
  fun_induction splitFrom start t generalizing segments with
  | case1 start =>
    cases h
    exact .nil
  | case2 start b t ih =>
    obtain ⟨segment, hfirst, h⟩ := bind_eq_ok h
    obtain ⟨rest, hrest, hsegments⟩ := bind_eq_ok h
    cases hsegments
    have hreads := readsSegment_of_first hfirst
    rw [eq_append_of_first hfirst] at hreads ⊢
    exact .cons hreads (ih segment hrest)

/-- The tokens of a source are those of its segments, and the end token. -/
theorem cuts_of_ofSource {source : Text} {s : TokenStream}
    (h : TokenStream.ofSource source = .ok s) :
    ∃ segments, Cuts .start source.normalizeNewlines segments ∧
      s = ⟨Segment.tokens .keep segments,
        ⟨.eof, [], Location.start.advance source.normalizeNewlines⟩⟩ := by
  obtain ⟨segments, hsegments, hs⟩ := bind_eq_ok h
  cases hs
  exact ⟨segments, cuts_of_splitFrom hsegments, rfl⟩

end Lexing

end TwigLint
