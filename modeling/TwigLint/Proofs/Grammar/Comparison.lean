import TwigLint.Proofs.Grammar.Phrase
import TwigLint.Proofs.Grammar.Reading
import TwigLint.Proofs.Lexing.Alternation

/-! # Two runs side by side

Two parsers read the same template, the one up to its end and the other in front of further tokens
that start with the end token.  They agree at a position when they fail alike, or give the same
answer and stop at the same position.  The rules follow the ways in which parsers are put together,
so that a proof about two parsers goes along with their common text.
-/

namespace TwigLint

/-- A template for two parsers, and what they are to make of it when one of them fails. -/
structure Comparison where
  /-- What the first parser reads. -/
  stream : TokenStream
  shaped : stream.Shaped
  /-- What the second parser finds behind the template. -/
  behind : TokenStream
  behind_current : behind.current = stream.eof
  /-- The errors that the first parser may have. -/
  admits : SyntaxError → Prop
  /-- The errors of the first parser that the second need not have. -/
  excused : SyntaxError → Prop
  admits_of_mem : ∀ tok ∈ stream.tokens, tok.type ≠ .text → ∀ fault : SyntaxFault,
    (∀ n, fault ≠ .depthExceeded n) → admits ⟨fault, tok.location⟩

namespace Comparison

variable (x : Comparison)

/-! ## Positions -/

/-- The number of tokens of the template. -/
def length : Nat := x.stream.tokens.length

/-- What the first parser has left behind `c` tokens. -/
def short (c : Nat) : TokenStream := x.stream.skip c

/-- What the second parser has left behind `c` tokens. -/
def long (c : Nat) : TokenStream := x.behind.prepend (x.stream.tokens.drop c)

/-- The token at a position. -/
def token (c : Nat) : Token := (x.short c).current

/-- The position is in the middle of a print statement or a tag. -/
def Inside (c : Nat) : Prop := c < x.length ∧ (x.token c).type.startsStatement = false

/-- A statement or the end of the template starts at the position. -/
def Outside (c : Nat) : Prop := c ≤ x.length ∧ (x.token c).type.startsStatement = true

/-- A token of the template at which a parser can fail. -/
def Real (tok : Token) : Prop := tok ∈ x.stream.tokens ∧ tok.type ≠ .text

variable {x} {c : Nat}

@[simp] theorem current_short : (x.short c).current = x.token c := rfl

theorem token_length : x.token x.length = x.stream.eof := by
  simp [token, short, TokenStream.skip, TokenStream.current, length]

theorem token_eq_getElem (h : c < x.stream.tokens.length) :
    x.token c = x.stream.tokens[c] := by
  simp [token, short, TokenStream.skip, TokenStream.current, List.headD_eq_head?_getD,
    List.head?_drop, List.getElem?_eq_getElem h]

theorem token_mem (h : c < x.length) : x.token c ∈ x.stream.tokens := by
  rw [token_eq_getElem h]
  exact List.getElem_mem h

theorem drop_eq_cons (h : c < x.length) :
    x.stream.tokens.drop c = x.token c :: x.stream.tokens.drop (c + 1) := by
  rw [token_eq_getElem h]
  exact List.drop_eq_getElem_cons h

theorem current_long (h : c ≤ x.length) : (x.long c).current = x.token c := by
  rcases h.lt_or_eq with h | rfl
  · rw [long, drop_eq_cons h]
    simp
  · rw [token_length, ← x.behind_current]
    simp [long, length]

@[simp] theorem advance_short : (x.short c).advance = x.short (c + 1) := by
  simp [short, TokenStream.skip, TokenStream.advance]

theorem advance_long (h : c < x.length) : (x.long c).advance = x.long (c + 1) := by
  rw [long, drop_eq_cons h]
  simp [long]

@[simp] theorem lookAhead_short : (x.short c).lookAhead = x.token (c + 1) := by
  rw [← current_short, ← advance_short]
  rfl

theorem lookAhead_long (h : c < x.length) : (x.long c).lookAhead = x.token (c + 1) := by
  rw [← current_long h, ← advance_long h]
  rfl

@[simp] theorem length_short : (x.short c).tokens.length = x.length - c := by
  simp [short, TokenStream.skip, length]

@[simp] theorem length_long :
    (x.long c).tokens.length = x.length - c + x.behind.tokens.length := by
  simp [long, length]

/-! ### What stands where -/

theorem lt_of_ne_eof (hle : c ≤ x.length) (h : (x.token c).type ≠ .eof) : c < x.length := by
  rcases hle.lt_or_eq with hlt | rfl
  · exact hlt
  · rw [token_length] at h
    exact absurd x.shaped.eof h

theorem eq_length_of_eof (hle : c ≤ x.length) (h : (x.token c).type = .eof) : c = x.length := by
  apply hle.antisymm
  by_contra hlt
  exact x.shaped.ne_eof _ (token_mem (not_le.mp hlt)) h

theorem lt_of_leadsInside (hle : c ≤ x.length) (hlead : (x.token c).type.leadsInside = true) :
    c < x.length := by
  apply lt_of_ne_eof hle
  intro heof
  rw [heof] at hlead
  cases hlead

/-- The end token does not stand inside a section. -/
theorem inside_of_token (h : (x.token c).type.startsStatement = false) : x.Inside c := by
  refine ⟨?_, h⟩
  by_contra hle
  have heof : x.token c = x.stream.eof := by
    simp [token, short, TokenStream.skip, TokenStream.current,
      List.drop_eq_nil_of_le (not_lt.mp hle)]
  rw [heof, x.shaped.eof] at h
  cases h

/-- A token that leads inside does so. -/
theorem inside_succ (hle : c ≤ x.length) (hlead : (x.token c).type.leadsInside = true) :
    x.Inside (c + 1) := by
  have hlt := lt_of_leadsInside hle hlead
  have hstart := x.shaped.next c hlt
  change (x.token (c + 1)).type.startsStatement = !(x.token c).type.leadsInside at hstart
  rw [hlead] at hstart
  exact inside_of_token hstart

/-- A print statement or a tag has been closed, or a piece of text has been read. -/
theorem outside_succ (h : c < x.length) (hlead : (x.token c).type.leadsInside = false) :
    x.Outside (c + 1) := by
  have hstart := x.shaped.next c h
  change (x.token (c + 1)).type.startsStatement = !(x.token c).type.leadsInside at hstart
  rw [hlead] at hstart
  exact ⟨h, hstart⟩

theorem Inside.real (h : x.Inside c) : x.Real (x.token c) := by
  refine ⟨token_mem h.1, fun htext => ?_⟩
  have hstart := h.2
  rw [htext] at hstart
  cases hstart

theorem Inside.le (h : x.Inside c) : c ≤ x.length := Nat.le_of_lt h.1

/-! ### Where parsers stop -/

variable {α : Type}

/-- A parser stops inside a section, at the position `c` or behind it. -/
def From (x : Comparison) (c : Nat) (_ : α) (c' : Nat) : Prop := c ≤ c' ∧ x.Inside c'

/-- A parser stops inside a section, behind the position `c`. -/
def Further (x : Comparison) (c : Nat) (_ : α) (c' : Nat) : Prop := c < c' ∧ x.Inside c'

/-- A round of a loop stops inside a section.  When the loop goes on, it is behind the position
`c`. -/
structure Onward (x : Comparison) (c : Nat) (next : Option α) (c' : Nat) : Prop where
  le : c ≤ c'
  lt : next.isSome = true → c < c'
  inside : x.Inside c'

variable {c' : Nat}

theorem Onward.none (hle : c ≤ c') (hin : x.Inside c') : x.Onward c (none : Option α) c' :=
  ⟨hle, nofun, hin⟩

theorem Onward.some {a : α} (hlt : c < c') (hin : x.Inside c') : x.Onward c (some a) c' :=
  ⟨hlt.le, fun _ => hlt, hin⟩

end Comparison

namespace Parser

variable {α β : Type}

/-! ## Agreement -/

/-- Started at the position `c`, the two parsers agree.  Where the one for the template alone has an
error, the other has it too, unless it is excused.  Where the one succeeds, so does the other, with
the same answer and at the same position, and the answer and the position satisfy `J`. -/
structure Agree (x : Comparison) (c : Nat) (p' p : Parser α) (J : α → Nat → Prop) : Prop where
  error : ∀ e, p.run (x.short c) = .error e →
    x.admits e ∧ (p'.run (x.long c) = .error e ∨ x.excused e)
  ok : ∀ a s, p.run (x.short c) = .ok (a, s) →
    ∃ c', s = x.short c' ∧ p'.run (x.long c) = .ok (a, x.long c') ∧ J a c'

namespace Agree

variable {x : Comparison} {c : Nat} {p' p q' q : Parser α} {f' f : α → Parser β}
  {J K : α → Nat → Prop} {L : β → Nat → Prop}

theorem pure {a : α} (h : J a c) : Agree x c (Pure.pure a) (Pure.pure a) J where
  error _ herr := nomatch herr
  ok := by
    rintro b s ⟨⟩
    exact ⟨c, rfl, rfl, h⟩

/-- Two parsers agree when they do what parsers do that agree at another position. -/
theorem of_run {c' : Nat} (h : Agree x c' q' q J) (hlong : p'.run (x.long c) = q'.run (x.long c'))
    (hshort : p.run (x.short c) = q.run (x.short c')) : Agree x c p' p J := by
  constructor
  · rw [hlong, hshort]
    exact h.error
  · rw [hlong, hshort]
    exact h.ok

theorem mono (hp : Agree x c p' p J) (h : ∀ a c', J a c' → K a c') : Agree x c p' p K where
  error := hp.error
  ok a s hrun := by
    obtain ⟨c', hs, hrun', hJ⟩ := hp.ok a s hrun
    exact ⟨c', hs, hrun', h a c' hJ⟩

theorem bind (hp : Agree x c p' p J) (hf : ∀ a c', J a c' → Agree x c' (f' a) (f a) L) :
    Agree x c (p' >>= f') (p >>= f) L := by
  cases hrun : p.run (x.short c) with
  | error e =>
    obtain ⟨hadmits, hp'⟩ := hp.error e hrun
    constructor
    · intro e' herr
      rw [StateT.run_bind, hrun] at herr
      cases herr
      refine ⟨hadmits, hp'.imp_left fun hrun' => ?_⟩
      rw [StateT.run_bind, hrun']
      rfl
    · intro b s hok
      rw [StateT.run_bind, hrun] at hok
      cases hok
  | ok r =>
    obtain ⟨c', hs, hrun', hJ⟩ := hp.ok r.1 r.2 hrun
    apply (hf r.1 c' hJ).of_run
    · rw [StateT.run_bind, hrun']
      rfl
    · rw [StateT.run_bind, hrun, ← hs]
      rfl

theorem pure_bind {a : α} (h : Agree x c (f' a) (f a) L) :
    Agree x c (Pure.pure a >>= f') (Pure.pure a >>= f) L := by
  rw [LawfulMonad.pure_bind, LawfulMonad.pure_bind]
  exact h

theorem ite {b : Prop} [Decidable b] (hp : b → Agree x c p' p J) (hq : ¬b → Agree x c q' q J) :
    Agree x c (if b then p' else q') (if b then p else q) J := by
  split
  · exact hp ‹_›
  · exact hq ‹_›

theorem fail_of_admits {tok : Token} {fault : SyntaxFault} (h : x.admits ⟨fault, tok.location⟩) :
    Agree x c (failAt tok fault) (failAt tok fault) J where
  error := by
    rintro e ⟨⟩
    exact ⟨h, .inl rfl⟩
  ok _ _ hok := nomatch hok

/-- Both parsers fail at a token of the template. -/
theorem fail {tok : Token} (htok : x.Real tok) {fault : SyntaxFault}
    (hfault : ∀ n, fault ≠ .depthExceeded n) : Agree x c (failAt tok fault) (failAt tok fault) J :=
  fail_of_admits (x.admits_of_mem tok htok.1 htok.2 fault hfault)

theorem fail_bind {tok : Token} (htok : x.Real tok) {fault : SyntaxFault}
    (hfault : ∀ n, fault ≠ .depthExceeded n) :
    Agree x c (failAt tok fault >>= f') (failAt tok fault >>= f) L :=
  bind (J := fun _ _ => False) (fail htok hfault) fun _ _ h => h.elim

/-- Parsers that agree on the same template do the same there, except for excused errors. -/
theorem run_eq (h : Agree x c p' p J) (hlong : ∀ c, x.long c = x.short c)
    (hexcused : ∀ e, p.run (x.short c) = .error e → ¬x.excused e) :
    p'.run (x.short c) = p.run (x.short c) := by
  cases hrun : p.run (x.short c) with
  | error e =>
    have hlong' := (h.error e hrun).2.resolve_right (hexcused e hrun)
    rwa [hlong] at hlong'
  | ok r =>
    obtain ⟨c', hs, hrun', -⟩ := h.ok r.1 r.2 hrun
    rw [hlong, hlong, ← hs] at hrun'
    exact hrun'

/-! ### Single tokens -/

theorem stream_bind {f' f : TokenStream → Parser β}
    (h : Agree x c (f' (x.long c)) (f (x.short c)) L) : Agree x c (get >>= f') (get >>= f) L :=
  h.of_run rfl rfl

variable {f' f : Token → Parser β} {g' g : Bool → Parser β}

theorem current_bind (hle : c ≤ x.length) (h : Agree x c (f' (x.token c)) (f (x.token c)) L) :
    Agree x c (Parser.current >>= f') (Parser.current >>= f) L := by
  apply h.of_run
  · simp [x.current_long hle]
  · simp

theorem next_bind (hlt : c < x.length) (h : Agree x (c + 1) (f' (x.token c)) (f (x.token c)) L) :
    Agree x c (next >>= f') (next >>= f) L := by
  apply h.of_run
  · simp [x.current_long hlt.le, x.advance_long hlt]
  · simp

theorem atType_bind (hle : c ≤ x.length) {type : TokenType}
    (h : Agree x c (g' ((x.token c).type == type)) (g ((x.token c).type == type)) L) :
    Agree x c (atType type >>= g') (atType type >>= g) L := by
  apply h.of_run
  · simp [x.current_long hle]
  · simp

theorem atToken_bind (hle : c ≤ x.length) {type : TokenType} {value : Text}
    (h : Agree x c (g' ((x.token c).is type value)) (g ((x.token c).is type value)) L) :
    Agree x c (atToken type value >>= g') (atToken type value >>= g) L := by
  apply h.of_run
  · simp [x.current_long hle]
  · simp

/-- A token inside a section is consumed or left, and the parsers go on inside the section. -/
theorem accept_bind (hin : x.Inside c) {type : TokenType} {value : Text}
    (hlead : type.leadsInside = true)
    (hyes : x.Inside (c + 1) → Agree x (c + 1) (g' true) (g true) L)
    (hno : Agree x c (g' false) (g false) L) :
    Agree x c (accept type value >>= g') (accept type value >>= g) L := by
  by_cases h : (x.token c).is type value = true
  · have hnext : x.Inside (c + 1) :=
      Comparison.inside_succ hin.le (by rw [Token.type_of_is h]; exact hlead)
    apply (hyes hnext).of_run
    · simp [x.current_long hin.le, x.advance_long hin.1, h]
    · simp [h]
  · apply hno.of_run
    · simp [x.current_long hin.le, h]
    · simp [h]

theorem expect_bind (hin : x.Inside c) {type : TokenType} {values : List Text}
    (h : (x.token c).type = type → Agree x (c + 1) (f' (x.token c)) (f (x.token c)) L) :
    Agree x c (expect type values >>= f') (expect type values >>= f) L := by
  by_cases his : (x.token c).isOneOf type values = true
  · have htype : (x.token c).type = type := by
      simp only [Token.isOneOf, Bool.and_eq_true, beq_iff_eq] at his
      exact his.1
    apply (h htype).of_run
    · simp [x.current_long hin.le, x.advance_long hin.1, his]
    · simp [his]
  · have hfail : Agree x c (failAt (x.token c) (.expected (x.token c) type values) >>= f')
        (failAt (x.token c) (.expected (x.token c) type values) >>= f) L :=
      fail_bind hin.real (by simp)
    apply hfail.of_run
    · simp [x.current_long hin.le, his]
      rfl
    · simp [his]
      rfl

/-- The expected token leads on inside the section. -/
theorem expect_bind_inside (hin : x.Inside c) {type : TokenType} {values : List Text}
    (hlead : type.leadsInside = true)
    (h : x.Inside (c + 1) → Agree x (c + 1) (f' (x.token c)) (f (x.token c)) L) :
    Agree x c (expect type values >>= f') (expect type values >>= f) L := by
  apply expect_bind hin
  intro htype
  exact h (Comparison.inside_succ hin.le (htype ▸ hlead))

/-- The expected token closes the section. -/
theorem expect_bind_outside (hin : x.Inside c) {type : TokenType} {values : List Text}
    (hlead : type.leadsInside = false)
    (h : x.Outside (c + 1) → Agree x (c + 1) (f' (x.token c)) (f (x.token c)) L) :
    Agree x c (expect type values >>= f') (expect type values >>= f) L := by
  apply expect_bind hin
  intro htype
  exact h (Comparison.outside_succ hin.1 (htype ▸ hlead))

theorem expectTagEnd_bind (hin : x.Inside c) {f' f : Unit → Parser β}
    (h : x.Outside (c + 1) → Agree x (c + 1) (f' ()) (f ()) L) :
    Agree x c (expectTagEnd >>= f') (expectTagEnd >>= f) L := by
  simp only [expectTagEnd, bind_assoc, LawfulMonad.pure_bind]
  exact expect_bind_outside hin rfl h

/-! ### Repetition -/

/-- Where a round of a loop may lead: the value and the position satisfy `I` when the loop goes on,
which it does with fewer tokens, and `K` when it stops. -/
def Round (I K : α → Nat → Prop) (a : α) (c : Nat) : Option α → Nat → Prop
  | some b, c' => c < c' ∧ I b c'
  | none, c' => K a c'

/-- Loops agree when their rounds do, whatever bounds they have, as long as each bound is above the
number of tokens that are left. -/
theorem extendUpTo {step' step : α → Parser (Option α)} {I : α → Nat → Prop}
    (hstep : ∀ a c, I a c → Agree x c (step' a) (step a) (Round I K a c))
    (hle : ∀ a c, I a c → c ≤ x.length) {a : α} (ha : I a c) {m n : Nat} (hm : x.length - c < m)
    (hn : x.length - c < n) :
    Agree x c (Parser.extendUpTo step' m a) (Parser.extendUpTo step n a) K := by
  induction n generalizing a c m with
  | zero => exact absurd hn (Nat.not_lt_zero _)
  | succ n ih =>
    cases m with
    | zero => exact absurd hm (Nat.not_lt_zero _)
    | succ m =>
      apply (hstep a c ha).bind
      rintro (_ | b) c' hround
      · exact pure hround
      · obtain ⟨hlt, hb⟩ := hround
        have hle' := hle b c' hb
        exact ih hb (by omega) (by omega)

theorem extend {step' step : α → Parser (Option α)} {I : α → Nat → Prop}
    (hstep : ∀ a c, I a c → Agree x c (step' a) (step a) (Round I K a c))
    (hle : ∀ a c, I a c → c ≤ x.length) {a : α} (ha : I a c) :
    Agree x c (Parser.extend step' a) (Parser.extend step a) K := by
  apply stream_bind
  rw [Comparison.length_long, Comparison.length_short]
  exact extendUpTo hstep hle ha (by omega) (by omega)

end Agree

/-! ## Parts of a section -/

/-- Inside a section behind at least `lo` tokens, the parsers agree.  They consume tokens and stop
inside the section. -/
def Consume (x : Comparison) (lo : Nat) (p' p : Parser α) : Prop :=
  ∀ c, lo ≤ c → x.Inside c → Agree x c p' p (x.Further c)

/-- Inside a section behind at least `lo` tokens, the parsers for a round of a loop agree.  They
stop inside the section, and they consume tokens when the loop goes on. -/
def Rounds (x : Comparison) (lo : Nat) (step' step : α → Parser (Option α)) : Prop :=
  ∀ a c, lo ≤ c → x.Inside c → Agree x c (step' a) (step a) (x.Onward c)

section Parts

variable {x : Comparison} {lo c c' : Nat} {p' p : Parser α}

namespace Consume

theorem weaken (hp : Consume x lo p' p) {lo' : Nat} (h : lo ≤ lo') : Consume x lo' p' p :=
  fun c hlo => hp c (h.trans hlo)

theorem bind (hp : Consume x lo p' p) (hlo : lo ≤ c) (hin : x.Inside c) {f' f : α → Parser β}
    {L : β → Nat → Prop} (hf : ∀ a c', c < c' → x.Inside c' → Agree x c' (f' a) (f a) L) :
    Agree x c (p' >>= f') (p >>= f) L := by
  apply (hp c hlo hin).bind
  rintro a c' ⟨hlt, hin'⟩
  exact hf a c' hlt hin'

/-- An optional part, behind which the parsers go on in the same way with and without it. -/
theorem option_bind (hp : Consume x lo p' p) {b : Prop} [Decidable b] (hlo : lo ≤ c)
    (hin : x.Inside c) {f' f : Option α → Parser β} {L : β → Nat → Prop}
    (hf : ∀ a c', c ≤ c' → x.Inside c' → Agree x c' (f' a) (f a) L) :
    Agree x c (if b then do f' (← pure (some (← p'))) else do f' (← pure none))
      (if b then do f (← pure (some (← p))) else do f (← pure none)) L := by
  apply Agree.ite
  · intro _
    apply hp.bind hlo hin
    intro a c' hlt hin'
    exact .pure_bind (hf (some a) c' hlt.le hin')
  · intro _
    exact .pure_bind (hf none c le_rfl hin)

/-- An optional part behind a keyword. -/
theorem accept_option_bind (hp : Consume x lo p' p) (hlo : lo ≤ c) (hin : x.Inside c)
    {type : TokenType} {value : Text} (hlead : type.leadsInside = true)
    {f' f : Option α → Parser β} {L : β → Nat → Prop}
    (hf : ∀ a c', c ≤ c' → x.Inside c' → Agree x c' (f' a) (f a) L) :
    Agree x c
      (do if ← accept type value then f' (← pure (some (← p'))) else f' (← pure none))
      (do if ← accept type value then f (← pure (some (← p))) else f (← pure none)) L := by
  apply Agree.accept_bind hin hlead
  · intro hin'
    apply hp.bind (by omega) hin'
    intro a c' hlt hin''
    exact .pure_bind (hf (some a) c' (by omega) hin'')
  · exact .pure_bind (hf none c le_rfl hin)

/-- An optional part that is left out when there is something else. -/
theorem option_bind_not (hp : Consume x lo p' p) {b : Prop} [Decidable b] (hlo : lo ≤ c)
    (hin : x.Inside c) {f' f : Option α → Parser β} {L : β → Nat → Prop}
    (hf : ∀ a c', c ≤ c' → x.Inside c' → Agree x c' (f' a) (f a) L) :
    Agree x c (if b then do f' (← pure none) else do f' (← pure (some (← p'))))
      (if b then do f (← pure none) else do f (← pure (some (← p)))) L := by
  apply Agree.ite
  · intro _
    exact .pure_bind (hf none c le_rfl hin)
  · intro _
    apply hp.bind hlo hin
    intro a c' hlt hin'
    exact .pure_bind (hf (some a) c' hlt.le hin')

/-- The last part of a parser. -/
theorem last (hp : Consume x lo p' p) (hlo : lo ≤ c') (hin : x.Inside c') (hle : c ≤ c') :
    Agree x c' p' p (x.Further c) := by
  apply (hp c' hlo hin).mono
  rintro a d ⟨hlt, hd⟩
  exact ⟨by omega, hd⟩

/-- The last part of a parser, whose answer goes into that of the parser. -/
theorem last_map (hp : Consume x lo p' p) (g : α → β) (hlo : lo ≤ c') (hin : x.Inside c')
    (hle : c ≤ c') : Agree x c' (do return g (← p')) (do return g (← p)) (x.Further c) := by
  apply hp.bind hlo hin
  intro a d hlt hd
  exact .pure ⟨by omega, hd⟩

/-- The last part of a round behind which the loop goes on. -/
theorem last_some (hp : Consume x lo p' p) (g : α → β) (hlo : lo ≤ c') (hin : x.Inside c')
    (hle : c ≤ c') :
    Agree x c' (do return some (g (← p'))) (do return some (g (← p))) (x.Onward c) := by
  apply hp.bind hlo hin
  intro a d hlt hd
  exact .pure (.some (by omega) hd)

end Consume

theorem Rounds.extend {step' step : α → Parser (Option α)} (h : Rounds x lo step' step)
    (hlo : lo ≤ c) (hin : x.Inside c) (a : α) :
    Agree x c (Parser.extend step' a) (Parser.extend step a) (x.From c) := by
  apply Agree.extend (I := x.From c) _ (fun _ _ h => h.2.le) ⟨le_rfl, hin⟩
  rintro b c' ⟨hle, hin'⟩
  apply (h b c' (hlo.trans hle) hin').mono
  rintro (_ | d) c'' ⟨hle', hlt, hin''⟩
  · exact ⟨hle.trans hle', hin''⟩
  · exact ⟨hlt rfl, hle.trans hle', hin''⟩

variable {close : Text} {missing : SyntaxFault}

theorem commaListStep_rounds (hitem : Consume x lo p' p)
    (hmissing : ∀ n, missing ≠ .depthExceeded n) :
    Rounds x lo (commaList.step close missing p') (commaList.step close missing p) := by
  intro items c hlo hin
  apply Agree.atToken_bind hin.le
  apply Agree.ite
  · intro _
    exact .pure (.none le_rfl hin)
  intro _
  apply Agree.ite
  · intro _
    apply Agree.accept_bind hin rfl
    · intro hin'
      apply Agree.atToken_bind hin'.le
      apply Agree.ite
      · intro _
        exact .pure (.none (Nat.le_succ c) hin')
      · intro _
        exact hitem.last_some _ (by omega) hin' (Nat.le_succ c)
    · exact .current_bind hin.le (.fail_bind hin.real hmissing)
  · intro _
    exact hitem.last_some _ hlo hin le_rfl

theorem Consume.commaList (hitem : Consume x lo p' p) (hmissing : ∀ n, missing ≠ .depthExceeded n) :
    Consume x lo (Parser.commaList close missing p') (Parser.commaList close missing p) := by
  intro c hlo hin
  apply ((commaListStep_rounds hitem hmissing).extend hlo hin []).bind
  rintro items c' ⟨hle, hin'⟩
  apply Agree.expect_bind_inside hin' rfl
  intro hin''
  exact .pure ⟨by omega, hin''⟩

end Parts

end Parser

end TwigLint
