import TwigLint.Proofs.Lexing.Verbatim

/-! # The extent of segments

A template consists of segments one behind another.  How far each reaches can be said without the
lexer: text up to the next delimiter, a comment up to the first `#\x7d`, a verbatim section up to
the first tag that ends one, and a print statement or tag up to its closing delimiter outside of
strings and brackets.
-/

namespace TwigLint

theorem Trim.ofHead_append {s : Text} (h : s ≠ []) (t : Text) : ofHead (s ++ t) = ofHead s := by
  obtain ⟨b, s, rfl⟩ := List.exists_cons_of_ne_nil h
  rfl

/-- The marker at the end is that of the last part, when the part before it cannot end with one. -/
theorem Trim.ofLast_append_of_keep {s t : Text} (h : t = [] → ofLast s = keep) :
    ofLast (s ++ t) = ofLast t := by
  by_cases ht : t = []
  · rw [ht, List.append_nil, h ht, ofLast_nil]
  · exact ofLast_append s ht

theorem Trim.ofLast_of_forall {t : Text} (h : ∀ b ∈ t, ofByte b = keep) : ofLast t = keep := by
  rcases List.eq_nil_or_concat t with rfl | ⟨s, b, rfl⟩
  · rfl
  · rw [List.concat_eq_append, ofLast_concat]
    exact h b (by simp)

namespace Lexing

open Segment

/-! ## Brackets in a text -/

/-- The byte is neither a bracket nor a quote. -/
def isPlain (b : UInt8) : Bool :=
  !((['(', ')', '[', ']', '{', '}', '\'', '"'] : Text).contains b)

/-- The text closes the given brackets, the first one first, and all that it opens.  A string does
not count. -/
inductive Balanced : List UInt8 → Text → Prop
  | nil : Balanced [] []
  | plain {b : UInt8} {bs : List UInt8} {t : Text} (h : isPlain b = true) (rest : Balanced bs t) :
      Balanced bs (b :: t)
  | string (quote : Quote) {source value t : Text} {bs : List UInt8}
      (h : Quoted quote.byte source value) (rest : Balanced bs t) :
      Balanced bs (quote.byte :: (source ++ t))
  | opening {o c : UInt8} {bs : List UInt8} {t : Text} (pair : (o, c) ∈ Spelled.brackets)
      (rest : Balanced (o :: bs) t) : Balanced bs (o :: t)
  | closing {o c : UInt8} {bs : List UInt8} {t : Text} (pair : (o, c) ∈ Spelled.brackets)
      (rest : Balanced bs t) : Balanced (o :: bs) (c :: t)

theorem Balanced.append {bs : List UInt8} {s t : Text} (hs : ∀ b ∈ s, isPlain b = true)
    (ht : Balanced bs t) : Balanced bs (s ++ t) := by
  induction s with
  | nil => exact ht
  | cons b s ih => exact .plain (hs b (by simp)) (ih fun c hc => hs c (by simp [hc]))

theorem Balanced.stack_nil {bs : List UInt8} (h : Balanced bs []) : bs = [] := by
  cases h
  rfl

/-! ## Bytes of lexemes -/

theorem isPlain_of_isNameByte {b : UInt8} (h : Lexeme.isNameByte b = true) :
    isPlain b = true ∧ Trim.ofByte b = .keep := by
  constructor
  · by_contra hmark
    simp only [isPlain, Bool.not_eq_true, Bool.not_eq_false', List.contains_eq_mem,
      decide_eq_true_eq, List.mem_cons, List.not_mem_nil, or_false] at hmark
    rcases hmark with rfl | rfl | rfl | rfl | rfl | rfl | rfl | rfl
    all_goals cases h
  · rcases Trim.ofByte_cases b with ⟨rfl, -⟩ | ⟨rfl, -⟩ | hkeep
    · cases h
    · cases h
    · exact hkeep

/-- The bytes of a number are digits, and a point between them. -/
theorem isDigit_or_point {t : Text} {b : UInt8} (h : b ∈ Lexeme.number t) :
    Text.isDigit b = true ∨ b = '.' := by
  unfold Lexeme.number at h
  dsimp only at h
  split at h
  · rename_i p d r hdrop
    split at h
    · rename_i hpoint
      obtain ⟨hp, hd⟩ := Bool.and_eq_true_iff.mp hpoint
      simp only [List.mem_append, List.mem_cons] at h
      rcases h with h | rfl | rfl | h
      · exact .inl (List.mem_takeWhile_imp h)
      · exact .inr (eq_of_beq hp)
      · exact .inl hd
      · exact .inl (List.mem_takeWhile_imp h)
    · exact .inl (List.mem_takeWhile_imp h)
  · exact .inl (List.mem_takeWhile_imp h)

theorem isPlain_of_mem_number {t : Text} {b : UInt8} (h : b ∈ Lexeme.number t) :
    isPlain b = true ∧ Trim.ofByte b = .keep := by
  rcases isDigit_or_point h with hdigit | rfl
  · exact isPlain_of_isNameByte (by simp [Lexeme.isNameByte, hdigit])
  · exact ⟨rfl, rfl⟩

theorem isPlain_of_isBlank {b : UInt8} (h : Lexeme.isBlank b = true) : isPlain b = true := by
  simp only [Lexeme.isBlank, Bool.or_eq_true, beq_iff_eq] at h
  rcases h with (((rfl | rfl) | rfl) | rfl) | rfl <;> rfl

theorem isPlain_of_isTagBlank {b : UInt8} (h : isTagBlank b = true) :
    isPlain b = true ∧ Trim.ofByte b = .keep := by
  simp only [isTagBlank, Bool.or_eq_true, beq_iff_eq] at h
  rcases h with ((((rfl | rfl) | rfl) | rfl) | rfl) | rfl <;> exact ⟨rfl, rfl⟩

/-- Words with blanks between them have the bytes of the words, and end like the last one. -/
theorem Apart.bytes {ws : List Text} {source : Text} (h : Apart ws source) :
    (∀ b ∈ source, Lexeme.isBlank b = true ∨ ∃ w ∈ ws, b ∈ w) ∧ ∃ w ∈ ws, w <:+ source := by
  induction h with
  | last w => exact ⟨fun b hb => .inr ⟨w, by simp, hb⟩, w, by simp, List.suffix_refl w⟩
  | @cons w blanks source ws some_blank blank rest ih =>
    obtain ⟨hbytes, v, hv, hsuffix⟩ := ih
    refine ⟨fun b hb => ?_, v, by simp [hv], hsuffix.trans (List.suffix_append ..)⟩
    rcases List.mem_append.mp hb with hb | hb
    · rcases List.mem_append.mp hb with hb | hb
      · exact .inr ⟨w, by simp, hb⟩
      · exact .inl (blank b hb)
    · rcases hbytes b hb with hblank | ⟨u, hu, hbu⟩
      · exact .inl hblank
      · exact .inr ⟨u, by simp [hu], hbu⟩

theorem isPlain_wordOperator? {t : Text} {lexeme : Lexeme}
    (h : Lexeme.wordOperator? t = some lexeme) :
    (∀ b ∈ lexeme.source, isPlain b = true) ∧ Trim.ofLast lexeme.source = .keep := by
  have hwords : ∀ ws ∈ Lexeme.wordOperators, ∀ w ∈ ws,
      w ≠ [] ∧ Trim.ofLast w = .keep ∧ w.all isPlain = true := by decide
  obtain ⟨ws, listed, -, hapart, -⟩ := apart_wordOperator? h
  obtain ⟨hbytes, w, hw, before, hsource⟩ := hapart.bytes
  constructor
  · intro b hb
    rcases hbytes b hb with hblank | ⟨u, hu, hbu⟩
    · exact isPlain_of_isBlank hblank
    · exact List.all_eq_true.mp (hwords ws listed u hu).2.2 b hbu
  · obtain ⟨hne, hkeep, -⟩ := hwords ws listed w hw
    rw [← hsource, Trim.ofLast_append before hne, hkeep]

/-- A string ends with its quote. -/
theorem Quoted.concat {quote : UInt8} {source value : Text} (h : Quoted quote source value) :
    ∃ s, source = s ++ [quote] := by
  induction h with
  | close => exact ⟨[], rfl⟩
  | @escaped source value b rest ih =>
    obtain ⟨s, rfl⟩ := ih
    exact ⟨'\\' :: b :: s, rfl⟩
  | @plain b source value not_quote not_escape rest ih =>
    obtain ⟨s, rfl⟩ := ih
    exact ⟨b :: s, rfl⟩

/-- What a lexeme is made of.  A marker can be an operator, which is then nothing but the marker. -/
inductive Made (b : UInt8) (lexeme : Lexeme) : Prop
  | plain (bytes : ∀ c ∈ lexeme.source, isPlain c = true)
      (last : Trim.ofLast lexeme.source = .keep)
  | marker (type : lexeme.type = .operator) (source : lexeme.source = [b])
      (bytes : isPlain b = true)
  | string (quote : Quote) {source value : Text} (h : Quoted quote.byte source value)
      (source_eq : lexeme.source = quote.byte :: source)
  | bracket (is : ∀ loc, IsBracket ⟨lexeme.type, lexeme.value, loc⟩)
      (last : Trim.ofLast lexeme.source = .keep)

theorem made_symbol {b : UInt8} {t op : Text} (hop : op ∈ Lexeme.symbolOperators)
    (hstarts : op <+: b :: t) : Made b ⟨.operator, op, op⟩ := by
  have hops : ∀ op ∈ Lexeme.symbolOperators, op.all isPlain = true ∧
      (Trim.ofLast op = .keep ∨ op.length = 1) := by decide
  obtain ⟨hplain, hlast | hlength⟩ := hops op hop
  · exact .plain (List.all_eq_true.mp hplain) hlast
  · obtain ⟨c, rfl⟩ := List.length_eq_one_iff.mp hlength
    obtain ⟨rest, hrest⟩ := hstarts
    obtain rfl : c = b := (List.cons.inj hrest).1
    exact .marker rfl rfl (List.all_eq_true.mp hplain c (by simp))

theorem made_punctuation {b : UInt8} (h : b ∈ Lexeme.punctuation) :
    Made b ⟨.punctuation, [b], [b]⟩ := by
  have hkeep : (Lexeme.punctuation.all fun b => Trim.ofByte b == .keep) = true := by decide
  have hmarks : (Lexeme.punctuation.all fun b =>
      isPlain b || Spelled.brackets.any fun pair => b == pair.1 || b == pair.2) = true := by decide
  have hlast : Trim.ofLast [b] = .keep := eq_of_beq (List.all_eq_true.mp hkeep b h)
  rcases Bool.or_eq_true_iff.mp (List.all_eq_true.mp hmarks b h) with hplain | hbracket
  · exact .plain (by simpa using hplain) hlast
  · obtain ⟨pair, hpair, hb⟩ := List.any_eq_true.mp hbracket
    refine .bracket (fun loc => ⟨pair, hpair, ?_⟩) hlast
    rcases Bool.or_eq_true_iff.mp hb with hb | hb
    · exact .inl ⟨rfl, congrArg (· :: []) (eq_of_beq hb)⟩
    · exact .inr ⟨rfl, congrArg (· :: []) (eq_of_beq hb)⟩

/-- Every lexeme is made in one of these ways. -/
theorem made_read {b : UInt8} {t : Text} {lexeme : Lexeme} (h : Lexeme.read b t = .ok lexeme) :
    Made b lexeme := by
  cases readsLexeme_of_read h with
  | arrow => exact .plain (List.all_eq_true.mp (by decide)) (by decide)
  | word hword => exact .plain (isPlain_wordOperator? hword).1 (isPlain_wordOperator? hword).2
  | name _ hstart =>
    have hname : ∀ c ∈ b :: t.takeWhile Lexeme.isNameByte,
        isPlain c = true ∧ Trim.ofByte c = .keep := by
      intro c hc
      apply isPlain_of_isNameByte
      rcases List.mem_cons.mp hc with rfl | hc
      · simp [Lexeme.isNameByte, hstart]
      · exact List.mem_takeWhile_imp hc
    exact .plain (fun c hc => (hname c hc).1) (Trim.ofLast_of_forall fun c hc => (hname c hc).2)
  | number =>
    exact .plain (fun c hc => (isPlain_of_mem_number hc).1)
      (Trim.ofLast_of_forall fun c hc => (isPlain_of_mem_number hc).2)
  | symbol hop hstarts => exact made_symbol hop hstarts
  | mark hmark => exact made_punctuation hmark
  | string quote _ hbody => exact .string quote (quoted_stringBody? hbody) rfl

/-- A marker at the end of a lexeme is the whole lexeme. -/
theorem ofLast_read {b : UInt8} {t : Text} {lexeme : Lexeme} (h : Lexeme.read b t = .ok lexeme) :
    Trim.ofLast lexeme.source = .keep ∨ (lexeme.type = .operator ∧ lexeme.source = [b]) := by
  cases made_read h with
  | plain bytes last => exact .inl last
  | marker type source => exact .inr ⟨type, source⟩
  | string quote h source_eq =>
    obtain ⟨s, rfl⟩ := h.concat
    rw [source_eq, ← List.cons_append, Trim.ofLast_concat]
    cases quote <;> exact .inl rfl
  | bracket is last => exact .inl last

/-- A punctuation mark is written as it is. -/
theorem Writes.punctuation {type : TokenType} {value lexeme : Text} (h : Writes type value lexeme)
    (htype : type = .punctuation) : lexeme = value := by
  cases h with
  | opening kind => cases kind <;> cases htype
  | closing kind => cases kind <;> cases htype
  | plain => rfl
  | word | string | eof => cases htype

/-- A lexeme closes and opens in the text what its token does in the stack. -/
theorem balanced_read {b : UInt8} {t rest : Text} {lexeme : Lexeme} {loc : Location}
    {stack stack' : List OpenBracket} (h : Lexeme.read b t = .ok lexeme)
    (hbrackets : Segment.brackets stack ⟨lexeme.type, lexeme.value, loc⟩ = .ok stack')
    (hrest : Balanced (stack'.map (·.bracket)) rest) :
    Balanced (stack.map (·.bracket)) (lexeme.source ++ rest) := by
  rcases brackets_cases hbrackets with
    ⟨hsingle, rfl⟩ | ⟨o, c, pair, ⟨⟨htype, hvalue⟩, rfl⟩ | ⟨⟨htype, hvalue⟩, l, rfl⟩⟩
  · cases made_read h with
    | plain bytes => exact hrest.append bytes
    | marker type source bytes =>
      rw [source]
      exact .plain bytes hrest
    | string quote hquoted source_eq =>
      rw [source_eq]
      exact .string quote hquoted hrest
    | bracket is => exact absurd (is loc) hsingle
  · rw [(writes_read h).punctuation htype, show lexeme.value = [o] from hvalue]
    exact .opening pair hrest
  · rw [(writes_read h).punctuation htype, show lexeme.value = [c] from hvalue]
    exact .closing pair hrest

/-! ## Print statements and tags -/

/-- Where a closing delimiter stands behind a marker, it is taken. -/
theorem close?_isSome {kind : TagKind} {b : UInt8} {t : Text} (hb : Trim.ofByte b ≠ .keep)
    (ht : kind.closer <+: t) : (close? kind (b :: t)).isSome = true := by
  unfold close?
  split
  · rfl
  · simp [hb, startsWith_iff.mpr ht]

theorem brackets_operator {stack stack' : List OpenBracket} {tok : Token}
    (htype : tok.type = .operator) (h : Segment.brackets stack tok = .ok stack') :
    stack' = stack := by
  have hsingle : ¬ IsBracket tok := by
    rintro ⟨pair, -, ⟨hmark, -⟩ | ⟨hmark, -⟩⟩
    all_goals
      rw [htype] at hmark
      cases hmark
  rw [brackets_of_not_isBracket hsingle] at h
  exact (Except.ok.inj h).symm

/-- No lexeme right in front of a closing delimiter ends with a marker, since the delimiter would
have been read with it. -/
theorem ofLast_in_front_of_closer {kind : TagKind} {stack : List OpenBracket} {b : UInt8}
    {t rest : Text} {lexeme : Lexeme} {loc : Location} (text : b :: t = lexeme.source ++ rest)
    (h : Lexeme.read b t = .ok lexeme)
    (hbrackets : Segment.brackets stack ⟨lexeme.type, lexeme.value, loc⟩ = .ok [])
    (hcloser : kind.closer <+: rest) (hopen : stack = [] → close? kind (b :: t) = none) :
    Trim.ofLast lexeme.source = .keep := by
  by_contra hmarker
  obtain ⟨htype, hlexeme⟩ := (ofLast_read h).resolve_left hmarker
  have hstack : [] = stack := brackets_operator htype hbrackets
  have hb : Trim.ofByte b ≠ .keep := by simpa [hlexeme] using hmarker
  rw [hlexeme] at text
  obtain ⟨-, rfl⟩ := List.cons.inj text
  have hsome := close?_isSome hb hcloser
  rw [hopen hstack.symm] at hsome
  cases hsome

/-- What is read of a tag is balanced up to its closing delimiter, and the marker at the end is its
last byte. -/
theorem ReadsTag.extent {kind : TagKind} {stack : List OpenBracket} {loc : Location} {t : Text}
    {r : TagRest} (h : ReadsTag kind stack loc t r) :
    ∃ inside, r.source = inside ++ kind.closer ∧ Balanced (stack.map (·.bracket)) inside ∧
      r.trail = Trim.ofLast inside := by
  induction h with
  | @blank _ _ b _ _ hblank _ ih =>
    obtain ⟨inside, hsource, hbalanced, htrail⟩ := ih
    obtain ⟨hplain, hkeep⟩ := isPlain_of_isTagBlank hblank
    refine ⟨[b] ++ inside, congrArg (b :: ·) hsource, .plain hplain hbalanced, ?_⟩
    rw [Trim.ofLast_append_of_keep fun _ => (Trim.ofLast_singleton b).trans hkeep]
    exact htrail
  | @close _ _ _ trail hclose =>
    refine ⟨trail.bytes, (close?_eq hclose).1, ?_, ?_⟩
    · cases trail with
      | keep => exact .nil
      | all => exact .plain rfl .nil
      | inline => exact .plain rfl .nil
    · cases trail <;> rfl
  | @lexeme _ stack' _ _ _ rest lexeme _ text hopen hread hbrackets behind ih =>
    obtain ⟨inside, hsource, hbalanced, htrail⟩ := ih
    refine ⟨lexeme.source ++ inside, ?_, balanced_read hread hbrackets hbalanced, ?_⟩
    · rw [TagRest.consToken, hsource, List.append_assoc]
    · rw [Trim.ofLast_append_of_keep]
      · exact htrail
      · rintro rfl
        obtain rfl : stack' = [] := by simpa using hbalanced.stack_nil
        have hcloser : kind.closer <+: rest := by
          simpa [hsource] using behind.source_isPrefix
        exact ofLast_in_front_of_closer text hread hbrackets hcloser hopen

/-! ## Segments -/

/-- How a segment of the given shape is written in front of `rest`.  The marker of a delimiter is
the byte next to it on its inner side. -/
inductive Written : Shape → Text → Text → Prop
  | text {run rest : Text} (hne : run ≠ [])
      (first : FirstAt (fun r => r = [] ∨ Opens r) run rest) : Written .text run rest
  | comment {content rest : Text} (first : FirstAt ("#\x7d" <+: ·) content ("#\x7d" ++ rest)) :
      Written (.comment (.ofHead content) (.ofLast content)) ("\x7b#" ++ (content ++ "#\x7d")) rest
  | verbatim {lead innerLead innerTrail trail : Trim} {start : Location}
      {opening inner closing rest : Text} (opens : WordTag openingWords lead innerLead opening)
      (ends : WordTag endingWords innerTrail trail closing)
      (first : FirstAt (StartsTag endingWords) inner (closing ++ rest)) :
      Written (.verbatim lead start inner innerLead innerTrail trail)
        (opening ++ (inner ++ closing)) rest
  | tag (kind : TagKind) {lead : Trim} {tokens : List Token} {inside rest : Text}
      (marker : Trim.ofHead (lead.bytes ++ (inside ++ kind.closer)) = lead)
      (balanced : Balanced [] inside) (tokens_mem : tokens ∈ delimited kind)
      (no_verbatim : ¬ StartsTag openingWords
        (kind.opener ++ (lead.bytes ++ (inside ++ kind.closer)) ++ rest)) :
      Written (.tag lead tokens (.ofLast inside))
        (kind.opener ++ (lead.bytes ++ (inside ++ kind.closer))) rest

/-- The tokens of a tag are those between two delimiters, with them. -/
theorem Written.tokens_mem {lead trail : Trim} {tokens : List Token} {source rest : Text}
    (h : Written (.tag lead tokens trail) source rest) : ∃ kind, tokens ∈ delimited kind := by
  cases h with
  | tag kind marker balanced tokens_mem => exact ⟨kind, tokens_mem⟩

/-- A text consists of segments one behind another. -/
inductive Consists : Text → List Segment → Prop
  | nil : Consists [] []
  | cons {segment : Segment} {rest : Text} {segments : List Segment}
      (written : Written segment.shape segment.source rest) (behind : Consists rest segments) :
      Consists (segment.source ++ rest) (segment :: segments)

/-- The text is that of its segments, one behind another. -/
theorem Consists.flatMap_source {t : Text} {segments : List Segment} (h : Consists t segments) :
    segments.flatMap (·.source) = t := by
  induction h with
  | nil => rfl
  | cons written behind ih => rw [List.flatMap_cons, ih]

/-- A segment stands at the front of a text. -/
def StandsFirst (segment : Segment) (t : Text) : Prop :=
  ∃ rest, t = segment.source ++ rest ∧ Written segment.shape segment.source rest

theorem standsFirst_comment {start : Location} {body content r : Text}
    (hfind : Text.find? "#\x7d" body = some (content, r)) :
    StandsFirst ⟨start, "\x7b#" ++ content ++ "#\x7d",
      .comment (.ofHead content) (commentTrail content)⟩ ("\x7b#" ++ body) := by
  obtain ⟨hbody, rest, hr⟩ := find?_eq hfind
  have hfirst := firstAt_find? hfind
  rw [← hr] at hfirst
  refine ⟨rest, ?_, ?_⟩
  · rw [hbody, ← hr]
    simp
  · rw [commentTrail_eq, List.append_assoc]
    exact .comment hfirst

theorem standsFirst_tag {kind : TagKind} {start : Location} {body opening : Text} {r : TagRest}
    (hverbatim : ¬ StartsTag openingWords (kind.opener ++ body))
    (hopening : opening = kind.opener ++ body.take (Trim.ofHead body).width)
    (hr : ReadsTag kind [] (start.advance opening) (body.drop (Trim.ofHead body).width) r) :
    StandsFirst ⟨start, opening ++ r.source,
      .tag (.ofHead body) (⟨kind.startType, kind.opener, start⟩ :: r.tokens) r.trail⟩
      (kind.opener ++ body) := by
  obtain ⟨inside, hsource, hbalanced, htrail⟩ := hr.extent
  obtain ⟨rest, hrest⟩ := hr.source_isPrefix
  have hbody : (Trim.ofHead body).bytes ++ (inside ++ kind.closer) ++ rest = body := by
    rw [List.append_assoc, ← hsource, hrest, Trim.bytes_ofHead]
  have hmarker : Trim.ofHead ((Trim.ofHead body).bytes ++ (inside ++ kind.closer)) =
      Trim.ofHead body := by
    rw [← Trim.ofHead_append (by simp [closer_ne_nil]) rest, hbody]
  have htext : opening ++ r.source =
      kind.opener ++ ((Trim.ofHead body).bytes ++ (inside ++ kind.closer)) := by
    rw [hopening, Trim.take_ofHead, hsource, List.append_assoc]
  have hall : kind.opener ++ ((Trim.ofHead body).bytes ++ (inside ++ kind.closer)) ++ rest =
      kind.opener ++ body := by
    rw [List.append_assoc, hbody]
  rw [← hall] at hverbatim
  simp only [StandsFirst, htext, htrail]
  exact ⟨rest, hall.symm, .tag kind hmarker hbalanced hr.mem_delimited hverbatim⟩

theorem take_of_append {s t rest : Text} (h : t = s ++ rest) :
    t.take (t.length - rest.length) = s := by
  simp [h]

/-- A verbatim section is its opening tag, its body, and the first tag behind that ends one. -/
theorem verbatim_parts {body name content inner rest : Text} {innerLead innerTrail trail : Trim}
    (hopen : verbatimOpen? (body.drop (Trim.ofHead body).width) = some (name, innerLead, content))
    (hbody : verbatimBody? content = some (inner, innerTrail, trail, rest)) :
    let opening := TagKind.block.opener ++ body.take (body.length - content.length)
    ∃ closing, WordTag openingWords (Trim.ofHead body) innerLead opening ∧
      WordTag endingWords innerTrail trail closing ∧
      content.take (content.length - rest.length) = inner ++ closing ∧
      TagKind.block.opener ++ body = opening ++ (inner ++ closing) ++ rest ∧
      FirstAt (StartsTag endingWords) inner (closing ++ rest) := by
  intro opening
  obtain ⟨tag, hopening, hall⟩ := wordTag_of_verbatimOpen? hopen
  obtain ⟨closing, hclosing, hcontent, hfirst⟩ := firstAt_verbatimBody? hbody
  have hopener : opening = tag := by
    obtain ⟨s, -, rfl⟩ := id hopening
    have hs : body = (Trim.ofHead body).bytes ++ s ++ content := by simpa using hall
    have htake : body.take (body.length - content.length) = (Trim.ofHead body).bytes ++ s :=
      take_of_append hs
    rw [show opening = "\x7b%" ++ body.take (body.length - content.length) from rfl, htake]
  have htake : content.take (content.length - rest.length) = inner ++ closing :=
    take_of_append (by rw [hcontent, List.append_assoc])
  refine ⟨closing, hopener ▸ hopening, hclosing, htake, ?_, hfirst⟩
  rw [show TagKind.block.opener ++ body = tag ++ content from hall, hcontent, hopener]
  simp

theorem ReadsSegment.standsFirst {start : Location} {t : Text} {segment : Segment}
    (h : ReadsSegment start t segment) : StandsFirst segment t := by
  cases h with
  | text hne =>
    obtain ⟨rest, ht, hfirst⟩ := firstAt_textRun t
    exact ⟨rest, ht, .text hne hfirst⟩
  | comment hfind => exact standsFirst_comment hfind
  | @verbatim _ _ _ _ rest _ _ _ _ hopen hbody hopening =>
    obtain ⟨closing, hopens, hclosing, htake, hall, hfirst⟩ := verbatim_parts hopen hbody
    subst hopening
    simp only [StandsFirst, htake]
    exact ⟨rest, hall, .verbatim hopens hclosing hfirst⟩
  | tag kind hopen hopening hrest =>
    refine standsFirst_tag ?_ hopening hrest
    cases kind with
    | print => exact not_startsTag_print _ _
    | block => exact not_startsTag_of_verbatimOpen? (hopen rfl)

/-- A source that is cut into segments consists of them. -/
theorem Cuts.consists {start : Location} {t : Text} {segments : List Segment}
    (h : Cuts start t segments) : Consists t segments := by
  induction h with
  | nil => exact .nil
  | cons first _ ih =>
    obtain ⟨behind, ht, hwritten⟩ := first.standsFirst
    obtain rfl := List.append_cancel_left ht
    exact .cons hwritten ih

end Lexing

end TwigLint
