import TwigLint.Proofs.Grammar.Comparison
import TwigLint.Template.Parser.Expression

/-! # Expressions side by side

The parser for each construct of expressions consumes tokens and agrees with the same parser in the
other run, when the parsers for the expressions inside it do.  The proofs follow the parsers.
-/

namespace TwigLint

namespace Parser

theorem leadsInside_of_isWordToken {tok : Token} (h : isWordToken tok = true) :
    tok.type.leadsInside = true := by
  simp only [isWordToken, Bool.or_eq_true, Bool.and_eq_true, beq_iff_eq] at h
  rcases h with h | ⟨h, -⟩ <;> rw [h] <;> rfl

variable {x : Comparison} {lo : Nat}

section Expressions

variable {expr' expr : Parser Node} (hexpr : Consume x lo expr' expr)
include hexpr

theorem argument_consumes : Consume x lo (argument expr') (argument expr) := by
  intro c hlo hin
  apply Agree.stream_bind
  simp only [x.current_long hin.le, x.lookAhead_long hin.1, x.current_short, x.lookAhead_short]
  apply Agree.ite
  · intro hnamed
    simp only [Bool.and_eq_true, Bool.or_eq_true, beq_iff_eq] at hnamed
    have hname : x.Inside (c + 1) := Comparison.inside_succ hin.le (by rw [hnamed.1]; rfl)
    have hmark : (x.token (c + 1)).type = .punctuation :=
      hnamed.2.elim Token.type_of_is Token.type_of_is
    have hvalue : x.Inside (c + 2) := Comparison.inside_succ hname.le (by rw [hmark]; rfl)
    apply Agree.next_bind hin.1
    apply Agree.next_bind hname.1
    exact hexpr.last_map _ (by omega) hvalue (by omega)
  · intro _
    exact hexpr c hlo hin

theorem arguments_consumes : Consume x lo (arguments expr') (arguments expr) := by
  intro c hlo hin
  apply Agree.expect_bind_inside hin rfl
  intro hin'
  exact ((argument_consumes hexpr).commaList (by simp)).last_map _ (by omega) hin' (by omega)

theorem optionalArguments_agree {c : Nat} (hlo : lo ≤ c) (hin : x.Inside c) (l : Location) :
    Agree x c (optionalArguments expr' l) (optionalArguments expr l) (x.From c) := by
  apply Agree.atToken_bind hin.le
  apply Agree.ite
  · intro _
    exact (arguments_consumes hexpr c hlo hin).mono fun _ _ h => ⟨h.1.le, h.2⟩
  · intro _
    exact .pure ⟨le_rfl, hin⟩

theorem testOf_consumes (operator : Token) (node : Node) :
    Consume x lo (testOf expr' operator node) (testOf expr operator node) := by
  intro c hlo hin
  apply Agree.expect_bind_inside hin rfl
  intro hin'
  have hrest (name : Text) {c' : Nat} (hlt : c < c') (hin' : x.Inside c') :
      Agree x c' (do
        let args ← optionalArguments expr' (x.token c).location
        let result := test operator.location name node args
        return if operator.value == "is not" then unary operator.location "not" result
          else result) (do
        let args ← optionalArguments expr (x.token c).location
        let result := test operator.location name node args
        return if operator.value == "is not" then unary operator.location "not" result
          else result) (x.Further c) := by
    apply (optionalArguments_agree hexpr (by omega) hin' _).bind
    rintro args c'' ⟨hle, hin''⟩
    exact .pure ⟨by omega, hin''⟩
  cases secondWords.lookup (x.token c).value with
  | some second =>
    apply Agree.accept_bind hin' rfl
    · intro hin''
      exact .pure_bind (hrest _ (by omega) hin'')
    · exact .pure_bind (hrest _ (by omega) hin')
  | none => exact .pure_bind (hrest _ (by omega) hin')

theorem element_consumes : Consume x lo (element expr') (element expr) := by
  intro c hlo hin
  apply Agree.current_bind hin.le
  apply Agree.accept_bind hin rfl
  · intro hin'
    exact hexpr.last_map _ (by omega) hin' (by omega)
  · exact hexpr c hlo hin

theorem array_consumes (opening : Token) :
    Consume x lo (array expr' opening) (array expr opening) := by
  intro c hlo hin
  exact ((element_consumes hexpr).commaList (by simp)).last_map _ hlo hin le_rfl

theorem hashValue_consumes (key : Node) :
    Consume x lo (hashValue expr' key) (hashValue expr key) := by
  intro c hlo hin
  apply Agree.accept_bind hin rfl
  · intro hin'
    exact hexpr.last_map _ (by omega) hin' (by omega)
  · exact .current_bind hin.le (.fail_bind hin.real (by simp))

theorem hashEntry_consumes : Consume x lo (hashEntry expr') (hashEntry expr) := by
  intro c hlo hin
  -- a key of one token, and what follows it
  have hkey {key' key : Parser Node} (h : x.Inside (c + 1) → Agree x (c + 1) key' key
      (x.Further c)) (hlead : (x.token c).type.leadsInside = true) :
      Agree x c (next >>= fun _ => key') (next >>= fun _ => key) (x.Further c) :=
    .next_bind hin.1 (h (Comparison.inside_succ hin.le hlead))
  have hvalue (key : Node) (hin' : x.Inside (c + 1)) :=
    (hashValue_consumes hexpr key).last (by omega) hin' (Nat.le_succ c)
  apply Agree.current_bind hin.le
  apply Agree.ite (fun _ => element_consumes hexpr c hlo hin)
  intro _
  apply Agree.ite
  · intro hstring
    exact hkey (hvalue _) (by rw [beq_iff_eq.mp hstring]; rfl)
  intro _
  apply Agree.ite
  · intro hnumber
    exact hkey (hvalue _) (by rw [beq_iff_eq.mp hnumber]; rfl)
  intro _
  apply Agree.ite
  · intro hword
    apply hkey
    · intro hin'
      apply Agree.atToken_bind hin'.le
      apply Agree.atToken_bind hin'.le
      apply Agree.ite
      · intro _
        exact .pure ⟨Nat.lt_succ_self c, hin'⟩
      · intro _
        exact hvalue _ hin'
    · exact leadsInside_of_isWordToken hword
  intro _
  apply Agree.ite
  · intro hparen
    apply hkey
    · intro hin'
      apply hexpr.bind (by omega) hin'
      intro key c' hlt hin''
      apply Agree.expect_bind_inside hin'' rfl
      intro hin'''
      exact (hashValue_consumes hexpr key).last (by omega) hin''' (by omega)
    · rw [Token.type_of_is hparen]
      rfl
  · intro _
    exact .fail hin.real (by simp)

theorem hash_consumes (opening : Token) :
    Consume x lo (hash expr' opening) (hash expr opening) := by
  intro c hlo hin
  exact ((hashEntry_consumes hexpr).commaList (by simp)).last_map _ hlo hin le_rfl

theorem dotAccess_consumes (dot : Token) (node : Node) :
    Consume x lo (dotAccess expr' dot node) (dotAccess expr dot node) := by
  intro c hlo hin
  -- what is read behind the name or the number
  have hrest (key : Node) (hlead : (x.token c).type.leadsInside = true) :
      Agree x (c + 1) (do
        if ← atToken .punctuation "(" then
          return getAttr dot.location "method" node key (← arguments expr')
        return getAttr dot.location "any" node key none) (do
        if ← atToken .punctuation "(" then
          return getAttr dot.location "method" node key (← arguments expr)
        return getAttr dot.location "any" node key none) (x.Further c) := by
    have hin' := Comparison.inside_succ hin.le hlead
    apply Agree.atToken_bind hin'.le
    apply Agree.ite
    · intro _
      exact (arguments_consumes hexpr).last_map _ (by omega) hin' (by omega)
    · intro _
      exact .pure ⟨Nat.lt_succ_self c, hin'⟩
  apply Agree.next_bind hin.1
  apply Agree.ite
  · intro hword
    exact .pure_bind (hrest _ (leadsInside_of_isWordToken hword))
  · intro _
    apply Agree.ite
    · intro hnumber
      exact .pure_bind (hrest _ (by rw [beq_iff_eq.mp hnumber]; rfl))
    · intro _
      exact .fail_bind hin.real (by simp)

theorem filterOf_consumes (node : Option Node) :
    Consume x lo (filterOf expr' node) (filterOf expr node) := by
  intro c hlo hin
  apply Agree.expect_bind_inside hin rfl
  intro hin'
  apply (optionalArguments_agree hexpr (by omega) hin' _).bind
  rintro args c' ⟨hle, hin''⟩
  exact .pure ⟨hle, hin''⟩

theorem subscript_consumes (opening : Token) (node : Node) :
    Consume x lo (subscript expr' opening node) (subscript expr opening node) := by
  intro c hlo hin
  have hend (node : Node) {c' : Nat} (hle : c ≤ c') (hin' : x.Inside c') :
      Agree x c' (do let _ ← expectMark "]"; return node) (do let _ ← expectMark "]"; return node)
        (x.Further c) := by
    apply Agree.expect_bind_inside hin' rfl
    intro hin''
    exact .pure ⟨by omega, hin''⟩
  -- what is read behind the subscript or the start of a slice
  have hrest (key : Node) {c' : Nat} (hle : c ≤ c') (hin' : x.Inside c') :
      Agree x c' (do
        if ← accept .punctuation ":" then
          let length ←
            if ← atToken .punctuation "]" then pure (constant opening.location .null) else expr'
          let _ ← expectMark "]"
          return filter opening.location "slice" node
            (.listOf .arguments opening.location [key, length])
        let _ ← expectMark "]"
        return getAttr opening.location "array" node key none) (do
        if ← accept .punctuation ":" then
          let length ←
            if ← atToken .punctuation "]" then pure (constant opening.location .null) else expr
          let _ ← expectMark "]"
          return filter opening.location "slice" node
            (.listOf .arguments opening.location [key, length])
        let _ ← expectMark "]"
        return getAttr opening.location "array" node key none) (x.Further c) := by
    apply Agree.accept_bind hin' rfl
    · intro hin''
      apply Agree.atToken_bind hin''.le
      apply Agree.ite
      · intro _
        exact .pure_bind (hend _ (by omega) hin'')
      · intro _
        apply hexpr.bind (by omega) hin''
        intro length d hlt hd
        exact hend _ (by omega) hd
    · exact hend _ hle hin'
  apply Agree.atToken_bind hin.le
  apply Agree.ite
  · intro _
    exact .pure_bind (hrest _ le_rfl hin)
  · intro _
    apply hexpr.bind hlo hin
    intro key c' hlt hin'
    exact hrest key hlt.le hin'

theorem postfixStep_rounds : Rounds x lo (postfixStep expr') (postfixStep expr) := by
  intro node c hlo hin
  -- a mark in front of an access, a subscript or a filter
  have hmark {mark : Text} {access' access : Parser Node} (haccess : Consume x lo access' access)
      (h : (x.token c).is .punctuation mark = true) :
      Agree x c (next >>= fun _ => do return some (← access'))
        (next >>= fun _ => do return some (← access)) (x.Onward c) := by
    have hin' := Comparison.inside_succ hin.le (by rw [Token.type_of_is h]; rfl)
    apply Agree.next_bind hin.1
    exact haccess.last_some _ (by omega) hin' (Nat.le_succ c)
  apply Agree.current_bind hin.le
  apply Agree.ite (hmark (dotAccess_consumes hexpr _ node))
  intro _
  apply Agree.ite (hmark (subscript_consumes hexpr _ node))
  intro _
  apply Agree.ite (hmark (filterOf_consumes hexpr (some node)))
  intro _
  exact .pure (.none le_rfl hin)

theorem postfixes_agree {c : Nat} (hlo : lo ≤ c) (hin : x.Inside c) (node : Node) :
    Agree x c (postfixes expr' node) (postfixes expr node) (x.From c) :=
  (postfixStep_rounds hexpr).extend hlo hin node

theorem primary_agree {c : Nat} (hlo : lo ≤ c + 1) (hin : x.Inside c) :
    Agree x c (primary expr') (primary expr) (x.Further c) := by
  -- the accesses behind the first token and behind what it starts
  have hrest (node : Node) {c' : Nat} (hlt : c < c') (hin' : x.Inside c') :
      Agree x c' (postfixes expr' node) (postfixes expr node) (x.Further c) := by
    apply (postfixes_agree hexpr (by omega) hin' node).mono
    rintro _ c'' ⟨hle, hin''⟩
    exact ⟨by omega, hin''⟩
  have hlist {part' part : Parser Node} (hpart : Consume x lo part' part)
      (hin' : x.Inside (c + 1)) : Agree x (c + 1) (part' >>= postfixes expr')
        (part >>= postfixes expr) (x.Further c) := by
    apply hpart.bind (by omega) hin'
    intro node c' hlt hin''
    exact hrest node (by omega) hin''
  have hnext : (x.token c).type.leadsInside = true → x.Inside (c + 1) :=
    Comparison.inside_succ hin.le
  apply Agree.next_bind hin.1
  cases htype : (x.token c).type with
  | name =>
    have hin' := hnext (by rw [htype]; rfl)
    cases keywordLiteral? (x.token c).value with
    | some v => exact .pure_bind (hrest _ (Nat.lt_succ_self c) hin')
    | none =>
      apply Agree.atToken_bind hin'.le
      apply Agree.ite
      · intro _
        apply (arguments_consumes hexpr).bind hlo hin'
        intro args c' hlt hin''
        exact .pure_bind (hrest _ (by omega) hin'')
      · intro _
        exact .pure_bind (hrest _ (Nat.lt_succ_self c) hin')
  | number => exact .pure_bind (hrest _ (Nat.lt_succ_self c) (hnext (by rw [htype]; rfl)))
  | string => exact .pure_bind (hrest _ (Nat.lt_succ_self c) (hnext (by rw [htype]; rfl)))
  | punctuation =>
    have hin' := hnext (by rw [htype]; rfl)
    apply Agree.ite
    · intro _
      exact hlist (array_consumes hexpr _) hin'
    · intro _
      apply Agree.ite
      · intro _
        exact hlist (hash_consumes hexpr _) hin'
      · intro _
        exact .fail_bind hin.real (by simp)
  | _ => exact .fail_bind hin.real (by simp)

theorem conditionalStep_rounds : Rounds x lo (conditionalStep expr') (conditionalStep expr) := by
  intro condition c hlo hin
  apply Agree.accept_bind hin rfl
  · intro hin'
    apply Agree.accept_bind hin' rfl
    · intro hin''
      exact hexpr.last_some _ (by omega) hin'' (by omega)
    · apply hexpr.bind (by omega) hin'
      intro consequent c' hlt hin''
      apply Agree.accept_bind hin'' rfl
      · intro hcolon
        exact hexpr.last_some _ (by omega) hcolon (by omega)
      · exact .pure (.some (by omega) hin'')
  · exact .pure (.none le_rfl hin)

end Expressions

/-! ## Arrow functions -/

/-- The look-ahead for an arrow function stops at the end token. -/
theorem paramsThenArrow_append {us : List Token} (hus : ∀ tok ∈ us.head?, tok.type = .eof)
    (ts : List Token) : paramsThenArrow (ts ++ us) = paramsThenArrow ts := by
  cases us with
  | nil => rw [List.append_nil]
  | cons u us =>
    have hu : u.type = .eof := hus u rfl
    induction ts using paramsThenArrow.induct with
    | case1 name mark rest ih =>
      have hhead : (rest ++ u :: us).head?.any (·.type == .arrow) =
          rest.head?.any (·.type == .arrow) := by
        cases rest with
        | nil => simp [hu]
        | cons => rfl
      rw [List.cons_append, List.cons_append, paramsThenArrow, paramsThenArrow, ih, hhead]
    | case2 ts hshort =>
      -- the end token is neither a name nor a mark
      match ts, hshort with
      | [], _ => cases us <;> simp [paramsThenArrow, hu]
      | [t], _ => simp [paramsThenArrow, Token.is, hu]
      | name :: mark :: rest, hshort => exact absurd rfl (hshort name mark rest)

theorem arrowAhead_long {c : Nat} (hin : x.Inside c) :
    arrowAhead (x.long c) = arrowAhead (x.short c) := by
  have hbehind : ∀ tok ∈ x.behind.tokens.head?, tok.type = .eof := by
    intro tok htok
    have hcurrent := x.behind_current
    rw [TokenStream.current, List.headD_eq_head?_getD, Option.mem_def.mp htok] at hcurrent
    rw [← x.shaped.eof, ← hcurrent]
    rfl
  have hrest : paramsThenArrow ((x.long c).tokens.drop 1) =
      paramsThenArrow ((x.short c).tokens.drop 1) := by
    have hlong : (x.long c).tokens.drop 1 = (x.long (c + 1)).tokens := by
      rw [← x.advance_long hin.1]
      rfl
    have hshort : (x.short c).tokens.drop 1 = (x.short (c + 1)).tokens := by
      rw [← x.advance_short]
      rfl
    rw [hlong, hshort]
    exact paramsThenArrow_append hbehind _
  simp only [arrowAhead, x.current_long hin.le, x.lookAhead_long hin.1, x.current_short,
    x.lookAhead_short, hrest]

theorem paramStep_rounds : Rounds x lo paramStep paramStep := by
  intro params c hlo hin
  -- a parameter, behind a comma or not
  have hparam {c' : Nat} (hle : c ≤ c') (hin' : x.Inside c') :
      Agree x c' (do return some (target (← expectName) :: params))
        (do return some (target (← expectName) :: params)) (x.Onward c) := by
    apply Agree.expect_bind_inside hin' rfl
    intro hin''
    exact .pure (.some (by omega) hin'')
  apply Agree.accept_bind hin rfl
  · intro hin'
    exact .pure (.none (Nat.le_succ c) hin')
  · apply Agree.accept_bind hin rfl
    · exact hparam (Nat.le_succ c)
    · exact hparam le_rfl hin

theorem arrowParams_agree {c : Nat} (hin : x.Inside c) :
    Agree x c arrowParams arrowParams (x.Further c) := by
  apply Agree.atType_bind hin.le
  apply Agree.ite
  · intro hname
    apply Agree.next_bind hin.1
    have hleads : (x.token c).type.leadsInside = true := by
      rw [beq_iff_eq.mp hname]
      rfl
    exact .pure ⟨Nat.lt_succ_self c, Comparison.inside_succ hin.le hleads⟩
  · intro _
    apply Agree.expect_bind_inside hin rfl
    intro hin'
    apply (paramStep_rounds.extend le_rfl hin' []).bind
    rintro params c' ⟨hle, hin''⟩
    exact .pure ⟨hle, hin''⟩

theorem arrow_agree {expr' expr : Parser Node} (hexpr : Consume x lo expr' expr) {c : Nat}
    (hlo : lo ≤ c + 1) (hin : x.Inside c) :
    Agree x c (arrow expr') (arrow expr) (x.Further c) := by
  apply Agree.current_bind hin.le
  apply (arrowParams_agree hin).bind
  rintro params c' ⟨hlt, hin'⟩
  apply Agree.expect_bind_inside hin' rfl
  intro hin''
  exact hexpr.last_map _ (by omega) hin'' (by omega)

/-! ## Operators -/

/-- An operator stands inside a section. -/
theorem leadsInside_of_lookup {β : Type} {tok : Token} {table : List (Text × β)} {o : β}
    (h : (if tok.type == .operator then table.lookup tok.value else none) = some o) :
    tok.type.leadsInside = true := by
  split at h
  · next htype =>
    rw [beq_iff_eq.mp htype]
    rfl
  · cases h

section Operators

variable {sub' sub : Nat → Parser Node}
  (hsub : ∀ precedence, Consume x lo (sub' precedence) (sub precedence))
include hsub

theorem operand_agree {c : Nat} (hlo : lo ≤ c + 1) (hin : x.Inside c) :
    Agree x c (operand sub') (operand sub) (x.Further c) := by
  have hrest (node : Node) {c' : Nat} (hlt : c < c') (hin' : x.Inside c') :
      Agree x c' (postfixes (sub' 0) node) (postfixes (sub 0) node) (x.Further c) := by
    apply (postfixes_agree (hsub 0) (by omega) hin' node).mono
    rintro _ c'' ⟨hle, hin''⟩
    exact ⟨by omega, hin''⟩
  apply Agree.current_bind hin.le
  cases hlookup : if (x.token c).type == .operator then unaryOperators.lookup (x.token c).value
    else none with
  | some precedence =>
    have hin' := Comparison.inside_succ hin.le (leadsInside_of_lookup hlookup)
    apply Agree.next_bind hin.1
    apply (hsub precedence).bind hlo hin'
    intro node c' hlt hin''
    exact hrest _ (by omega) hin''
  | none =>
    apply Agree.accept_bind hin rfl
    · intro hin'
      apply (hsub 0).bind hlo hin'
      intro node c' hlt hin''
      apply Agree.accept_bind hin'' rfl
      · exact hrest node (by omega)
      · exact .current_bind hin''.le (.fail_bind hin''.real (by simp))
    · exact primary_agree (hsub 0) hlo hin

theorem binaryStep_rounds (precedence : Nat) :
    Rounds x lo (binaryStep sub' precedence) (binaryStep sub precedence) := by
  intro left c hlo hin
  apply Agree.current_bind hin.le
  cases hlookup : if (x.token c).type == .operator then binaryOperators.lookup (x.token c).value
    else none with
  | none => exact .pure (.none le_rfl hin)
  | some operator =>
    have hin' := Comparison.inside_succ hin.le (leadsInside_of_lookup hlookup)
    apply Agree.ite
    · intro _
      exact .pure (.none le_rfl hin)
    intro _
    apply Agree.next_bind hin.1
    apply Agree.ite
    · intro _
      exact (testOf_consumes (hsub 0) _ left).last_some _ (by omega) hin' (Nat.le_succ c)
    · intro _
      exact (hsub _).last_some _ (by omega) hin' (Nat.le_succ c)

theorem expressionOver_agree (precedence : Nat) {c : Nat} (hlo : lo ≤ c + 1) (hin : x.Inside c) :
    Agree x c (expressionOver sub' precedence) (expressionOver sub precedence) (x.Further c) := by
  apply Agree.stream_bind
  rw [arrowAhead_long hin]
  apply Agree.ite
  · intro _
    exact arrow_agree (hsub 0) hlo hin
  intro _
  apply (operand_agree hsub hlo hin).bind
  rintro first c' ⟨hlt, hin'⟩
  apply ((binaryStep_rounds hsub precedence).extend (by omega) hin' first).bind
  rintro node c'' ⟨hle, hin''⟩
  apply Agree.ite
  · intro _
    apply ((conditionalStep_rounds (hsub 0)).extend (by omega) hin'' node).mono
    rintro _ d ⟨hle', hd⟩
    exact ⟨by omega, hd⟩
  · intro _
    exact .pure ⟨by omega, hin''⟩

end Operators

end Parser

end TwigLint
