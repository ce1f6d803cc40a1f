import TwigLint.Proofs.Grammar.ExpressionRuns
import TwigLint.Template.Parser.Statement

/-! # Statements side by side

A tag starts behind its name and ends behind a closing delimiter.  A body starts where a statement
does and ends inside the end tag that closes it, behind the name of the tag.
-/

namespace TwigLint

namespace Comparison

/-- A parser stops outside of sections, at the position `c` or behind it. -/
def Leaves {α : Type} (x : Comparison) (c : Nat) (_ : α) (c' : Nat) : Prop := c ≤ c' ∧ x.Outside c'

end Comparison

namespace Parser

variable {x : Comparison} {lo : Nat} {α : Type}

/-- Inside a tag behind at least `lo` tokens, the parsers agree, and they leave the tag. -/
def Completes (x : Comparison) (lo : Nat) (p' p : Parser α) : Prop :=
  ∀ c, lo ≤ c → x.Inside c → Agree x c p' p (x.Leaves c)

/-- At a statement behind at least `lo` tokens, the parsers for the body of a tag agree, and they
stop inside the end tag. -/
def Bodies (x : Comparison) (lo : Nat) (sub' sub : BodyParser) : Prop :=
  ∀ o ends c, x.Real o.token → lo ≤ c → x.Outside c →
    Agree x c (sub' (some o) ends) (sub (some o) ends) (x.Further c)

/-- The end of a tag behind which nothing is read any more. -/
theorem Agree.tagEnd {c c' : Nat} (hin : x.Inside c') (hle : c ≤ c') (a : α) :
    Agree x c' (do expectTagEnd; return a) (do expectTagEnd; return a) (x.Leaves c) := by
  apply Agree.expectTagEnd_bind hin
  intro hout
  exact .pure ⟨by omega, hout⟩

/-! ## Names that are bound -/

theorem expectTarget_consumes : Consume x lo expectTarget expectTarget := by
  intro c hlo hin
  apply Agree.expect_bind_inside hin rfl
  intro hin'
  apply Agree.ite
  · intro _
    exact .fail_bind hin.real (by simp)
  · intro _
    exact .pure ⟨Nat.lt_succ_self c, hin'⟩

theorem targetStep_rounds : Rounds x lo targetStep targetStep := by
  intro targets c hlo hin
  apply Agree.accept_bind hin rfl
  · intro hin'
    exact expectTarget_consumes.last_some _ (Nat.le_refl _) hin' (Nat.le_succ c)
  · exact .pure (.none le_rfl hin)

theorem targetNames_consumes : Consume x lo targetNames targetNames := by
  intro c hlo hin
  apply expectTarget_consumes.bind hlo hin
  intro first c' hlt hin'
  apply (targetStep_rounds.extend le_rfl hin' _).bind
  rintro names c'' ⟨hle, hin''⟩
  exact .pure ⟨by omega, hin''⟩

theorem importedName_consumes : Consume x lo importedName importedName := by
  intro c hlo hin
  have hbinds (name bound : Token) (hbound : x.Real bound) {c' : Nat} (hlt : c < c')
      (hin' : x.Inside c') : Agree x c' (do
        if reservedNames.contains bound.value then failAt bound (.reservedTarget bound.value)
        return (target bound).withAttr .macroName (.text name.value)) (do
        if reservedNames.contains bound.value then failAt bound (.reservedTarget bound.value)
        return (target bound).withAttr .macroName (.text name.value)) (x.Further c) := by
    apply Agree.ite
    · intro _
      exact .fail_bind hbound (by simp)
    · intro _
      exact .pure ⟨hlt, hin'⟩
  apply Agree.expect_bind_inside hin rfl
  intro hin'
  apply Agree.accept_bind hin' rfl
  · intro hin''
    apply Agree.expect_bind_inside hin'' rfl
    intro hin'''
    exact hbinds _ _ hin''.real (by omega) hin'''
  · exact .pure_bind (hbinds _ _ hin.real (Nat.lt_succ_self c) hin')

theorem importStep_rounds : Rounds x lo importStep importStep := by
  intro names c hlo hin
  apply Agree.accept_bind hin rfl
  · intro hin'
    exact importedName_consumes.last_some _ (Nat.le_refl _) hin' (Nat.le_succ c)
  · exact .pure (.none le_rfl hin)

/-- An end tag repeats the name of its tag or has none. -/
theorem endName_agree (tag name : Text) {c : Nat} (hin : x.Inside c) :
    Agree x c (endName tag name) (endName tag name) (x.From c) := by
  apply Agree.atType_bind hin.le
  apply Agree.ite
  · intro hname
    have hin' := Comparison.inside_succ hin.le (by rw [beq_iff_eq.mp hname]; rfl)
    apply Agree.next_bind hin.1
    apply Agree.ite
    · intro _
      exact .fail hin.real (by simp)
    · intro _
      exact .pure ⟨Nat.le_succ c, hin'⟩
  · intro _
    exact .pure ⟨le_rfl, hin⟩

/-! ## Tags -/

section Tags

variable {expr' expr : Parser Node} (hexpr : Consume x lo expr' expr)

section

include hexpr

theorem valueStep_rounds : Rounds x lo (valueStep expr') (valueStep expr) := by
  intro values c hlo hin
  apply Agree.accept_bind hin rfl
  · intro hin'
    exact hexpr.last_some _ (by omega) hin' (Nat.le_succ c)
  · exact .pure (.none le_rfl hin)

theorem filterStep_rounds : Rounds x lo (filterStep expr') (filterStep expr) := by
  intro node c hlo hin
  apply Agree.accept_bind hin rfl
  · intro hin'
    exact (filterOf_consumes hexpr (some node)).last_some _ (by omega) hin' (Nat.le_succ c)
  · exact .pure (.none le_rfl hin)

theorem param_consumes : Consume x lo (param expr') (param expr) := by
  intro c hlo hin
  apply expectTarget_consumes.bind hlo hin
  intro tok c' hlt hin'
  have hvalue (marked : Bool) {d : Nat} (hlt : c < d) (hd : x.Inside d) : Agree x d (do
      let value ← if marked then pure (some (← expr')) else pure none
      return (target tok).withChild .value value) (do
      let value ← if marked then pure (some (← expr)) else pure none
      return (target tok).withChild .value value) (x.Further c) := by
    apply hexpr.option_bind (by omega) hd
    intro value d' hle hd'
    exact .pure ⟨by omega, hd'⟩
  apply Agree.accept_bind hin' rfl
  · intro hin''
    exact .pure_bind (hvalue true (by omega) hin'')
  · apply Agree.accept_bind hin' rfl
    · exact hvalue true (by omega)
    · exact hvalue false hlt hin'

theorem simpleTag_completes (kind : Kind) (slot : Slot) (tok : Token) :
    Completes x lo (simpleTag expr' kind slot tok) (simpleTag expr kind slot tok) := by
  intro c hlo hin
  apply hexpr.bind hlo hin
  intro value c' hlt hin'
  exact .tagEnd hin' hlt.le _

theorem inclusion_completes (kind : Kind) (tok : Token) :
    Completes x lo (inclusion expr' kind tok) (inclusion expr kind tok) := by
  intro c hlo hin
  apply hexpr.bind hlo hin
  intro template c' hlt hin'
  -- what is read behind the template, whether it may be missing or not
  have hrest (ignoreMissing : Bool) {d : Nat} (hle : c ≤ d) (hd : x.Inside d) : Agree x d (do
      let context ← if ← accept .name "with" then pure (some (← expr')) else pure none
      let only ← accept .name "only"
      expectTagEnd
      return ((((Node.leaf kind tok.location).withAttr .ignoreMissing
        (.bool ignoreMissing)).withAttr .only (.bool only)).withChild .template
          template).withChild .context context) (do
      let context ← if ← accept .name "with" then pure (some (← expr)) else pure none
      let only ← accept .name "only"
      expectTagEnd
      return ((((Node.leaf kind tok.location).withAttr .ignoreMissing
        (.bool ignoreMissing)).withAttr .only (.bool only)).withChild .template
          template).withChild .context context) (x.Leaves c) := by
    apply hexpr.accept_option_bind (by omega) hd rfl
    intro context d' hle' hd'
    apply Agree.accept_bind hd' rfl
    · intro hd''
      exact .tagEnd hd'' (by omega) _
    · exact .tagEnd hd' (by omega) _
  apply Agree.accept_bind hin' rfl
  · intro hin''
    apply Agree.expect_bind_inside hin'' rfl
    intro hin'''
    exact .pure_bind (hrest true (by omega) hin''')
  · exact .pure_bind (hrest false hlt.le hin')

theorem importTag_completes {tok : Token} (htok : x.Real tok) :
    Completes x lo (importTag expr' tok) (importTag expr tok) := by
  intro c hlo hin
  apply hexpr.bind hlo hin
  intro template c' hlt hin'
  apply Agree.expect_bind_inside hin' rfl
  intro hin''
  apply Agree.current_bind hin''.le
  apply targetNames_consumes.bind le_rfl hin''
  intro names d hlt' hd
  apply Agree.expectTagEnd_bind hd
  intro hout
  apply Agree.ite
  · intro _
    exact .fail_bind htok (by simp)
  · intro _
    exact .pure ⟨by omega, hout⟩

theorem fromTag_completes (tok : Token) :
    Completes x lo (fromTag expr' tok) (fromTag expr tok) := by
  intro c hlo hin
  apply hexpr.bind hlo hin
  intro template c' hlt hin'
  apply Agree.expect_bind_inside hin' rfl
  intro hin''
  apply importedName_consumes.bind le_rfl hin''
  intro first d hlt' hd
  apply (importStep_rounds.extend le_rfl hd _).bind
  rintro names d' ⟨hle, hd'⟩
  exact .tagEnd hd' (by omega) _

end

variable {sub' sub : BodyParser} (hsub : Bodies x lo sub' sub) {tok : Token} (htok : x.Real tok)
include hsub htok

/-- The body of a tag, behind which the parsers go on inside the end tag. -/
theorem Bodies.bind {β : Type} {c : Nat} (hlo : lo ≤ c) (hout : x.Outside c) (tag : Text)
    (ends : List Text) {f' f : Node × Text → Parser β} {L : β → Nat → Prop}
    (hf : ∀ r c', c < c' → x.Inside c' → Agree x c' (f' r) (f r) L) :
    Agree x c (sub' (some ⟨tok, tag⟩) ends >>= f') (sub (some ⟨tok, tag⟩) ends >>= f) L := by
  apply (hsub ⟨tok, tag⟩ ends c htok hlo hout).bind
  rintro r c' ⟨hlt, hin⟩
  exact hf r c' hlt hin

theorem closedBody_bind {β : Type} {c : Nat} (hlo : lo ≤ c) (hout : x.Outside c) (tag : Text)
    {f' f : Node → Parser β} {L : β → Nat → Prop}
    (hf : ∀ body c', c ≤ c' → x.Outside c' → Agree x c' (f' body) (f body) L) :
    Agree x c (closedBody sub' tok tag >>= f') (closedBody sub tok tag >>= f) L := by
  have hbody : Agree x c (closedBody sub' tok tag) (closedBody sub tok tag) (x.Leaves c) := by
    apply hsub.bind htok hlo hout
    intro r c' hlt hin
    exact .tagEnd hin hlt.le _
  apply hbody.bind
  rintro body c' ⟨hle, hout'⟩
  exact hf body c' hle hout'

/-- A body as the last part of a tag. -/
theorem closedBody_last {c c' : Nat} (hlo : lo ≤ c') (hout : x.Outside c') (hle : c ≤ c')
    (tag : Text) (g : Node → Node) :
    Agree x c' (do return g (← closedBody sub' tok tag)) (do return g (← closedBody sub tok tag))
      (x.Leaves c) := by
  apply closedBody_bind hsub htok hlo hout
  intro body d hle' hd
  exact .pure ⟨by omega, hd⟩

include hexpr

theorem setTag_completes : Completes x lo (setTag expr' sub' tok) (setTag expr sub tok) := by
  intro c hlo hin
  apply Agree.current_bind hin.le
  apply targetNames_consumes.bind hlo hin
  intro names c' hlt hin'
  apply Agree.accept_bind hin' rfl
  · intro hin''
    apply Agree.current_bind hin''.le
    apply hexpr.bind (by omega) hin''
    intro first d hlt' hd
    apply ((valueStep_rounds hexpr).extend (by omega) hd _).bind
    rintro values d' ⟨hle, hd'⟩
    apply Agree.expectTagEnd_bind hd'
    intro hout
    apply Agree.ite
    · intro _
      exact .fail_bind htok (by simp)
    · intro _
      exact .pure ⟨by omega, hout⟩
  · simp only [Bool.false_eq_true, if_false]
    apply Agree.ite
    · intro _
      exact .fail_bind htok (by simp)
    · intro _
      apply Agree.expectTagEnd_bind hin'
      intro hout
      exact closedBody_last hsub htok (by omega) hout (by omega) "set" _

theorem forTag_completes : Completes x lo (forTag expr' sub' tok) (forTag expr sub tok) := by
  intro c hlo hin
  apply targetNames_consumes.bind hlo hin
  intro names c₁ hlt₁ hin₁
  apply Agree.expect_bind_inside hin₁ rfl
  intro hin₂
  apply hexpr.bind (by omega) hin₂
  intro seq c₃ hlt₃ hin₃
  apply Agree.expectTagEnd_bind hin₃
  intro hout₄
  apply hsub.bind htok (by omega) hout₄
  rintro ⟨body, last⟩ c₅ hlt₅ hin₅
  -- the number of names matters only behind the last end of a tag
  apply Agree.ite
  · intro _
    apply Agree.expectTagEnd_bind hin₅
    intro hout₆
    apply hsub.bind htok (by omega) hout₆
    intro r c₇ hlt₇ hin₇
    apply Agree.pure_bind
    apply Agree.expectTagEnd_bind hin₇
    intro hout₈
    rcases names with _ | ⟨value, _ | ⟨second, _ | _⟩⟩
    · exact .fail_bind htok (by simp)
    · exact .pure_bind (.pure ⟨by omega, hout₈⟩)
    · exact .pure_bind (.pure ⟨by omega, hout₈⟩)
    · exact .fail_bind htok (by simp)
  · intro _
    apply Agree.pure_bind
    apply Agree.expectTagEnd_bind hin₅
    intro hout₆
    rcases names with _ | ⟨value, _ | ⟨second, _ | _⟩⟩
    · exact .fail_bind htok (by simp)
    · exact .pure_bind (.pure ⟨by omega, hout₆⟩)
    · exact .pure_bind (.pure ⟨by omega, hout₆⟩)
    · exact .fail_bind htok (by simp)

theorem branch_consumes : Consume x lo (branch expr' sub' tok) (branch expr sub tok) := by
  intro c hlo hin
  apply hexpr.bind hlo hin
  intro condition c₁ hlt₁ hin₁
  apply Agree.expectTagEnd_bind hin₁
  intro hout₂
  apply hsub.bind htok (by omega) hout₂
  intro r c₃ hlt₃ hin₃
  exact .pure ⟨by omega, hin₃⟩

theorem branchStep_rounds : Rounds x lo (branchStep expr' sub' tok) (branchStep expr sub tok) := by
  intro b c hlo hin
  apply Agree.ite
  · intro _
    apply (branch_consumes hexpr hsub htok).bind hlo hin
    rintro ⟨test, last⟩ c' hlt hin'
    exact .pure (.some hlt hin')
  intro _
  apply Agree.ite
  · intro _
    apply Agree.expectTagEnd_bind hin
    intro hout
    apply hsub.bind htok (by omega) hout
    rintro ⟨body, last⟩ c' hlt hin'
    exact .pure (.some (by omega) hin')
  · intro _
    exact .pure (.none le_rfl hin)

theorem ifTag_completes : Completes x lo (ifTag expr' sub' tok) (ifTag expr sub tok) := by
  intro c hlo hin
  apply (branch_consumes hexpr hsub htok).bind hlo hin
  rintro ⟨test, last⟩ c' hlt hin'
  apply ((branchStep_rounds hexpr hsub htok).extend (by omega) hin' _).bind
  rintro b c'' ⟨hle, hin''⟩
  exact .tagEnd hin'' (by omega) _

theorem embedTag_completes : Completes x lo (embedTag expr' sub' tok) (embedTag expr sub tok) := by
  intro c hlo hin
  apply (inclusion_completes hexpr .embedTag tok c hlo hin).bind
  rintro node c' ⟨hle, hout⟩
  exact closedBody_last hsub htok (by omega) hout hle "embed" _

theorem blockTag_completes : Completes x lo (blockTag expr' sub' tok) (blockTag expr sub tok) := by
  intro c hlo hin
  apply Agree.expect_bind_inside hin rfl
  intro hin'
  apply Agree.atType_bind hin'.le
  apply Agree.ite
  · intro hend
    have hout := Comparison.outside_succ hin'.1 (by rw [beq_iff_eq.mp hend]; rfl)
    apply Agree.next_bind hin'.1
    apply hsub.bind htok (by omega) hout
    rintro ⟨body, last⟩ c₁ hlt₁ hin₁
    apply (endName_agree _ _ hin₁).bind
    rintro _ c₂ ⟨hle₂, hin₂⟩
    exact .tagEnd hin₂ (by omega) _
  · intro _
    apply hexpr.bind (by omega) hin'
    intro value c₁ hlt₁ hin₁
    exact .tagEnd hin₁ (by omega) _

theorem applyTag_completes : Completes x lo (applyTag expr' sub' tok) (applyTag expr sub tok) := by
  intro c hlo hin
  apply (filterOf_consumes hexpr none).bind hlo hin
  intro first c₁ hlt₁ hin₁
  apply ((filterStep_rounds hexpr).extend (by omega) hin₁ first).bind
  rintro filters c₂ ⟨hle₂, hin₂⟩
  apply Agree.expectTagEnd_bind hin₂
  intro hout
  exact closedBody_last hsub htok (by omega) hout (by omega) "apply" _

theorem macroTag_completes : Completes x lo (macroTag expr' sub' tok) (macroTag expr sub tok) := by
  intro c hlo hin
  apply Agree.expect_bind_inside hin rfl
  intro hin₁
  apply Agree.expect_bind_inside hin₁ rfl
  intro hin₂
  apply ((param_consumes hexpr).commaList (by simp)).bind (by omega) hin₂
  intro params c₃ hlt₃ hin₃
  apply Agree.expectTagEnd_bind hin₃
  intro hout₄
  apply hsub.bind htok (by omega) hout₄
  rintro ⟨body, last⟩ c₅ hlt₅ hin₅
  apply (endName_agree _ _ hin₅).bind
  rintro _ c₆ ⟨hle₆, hin₆⟩
  exact .tagEnd hin₆ (by omega) _

theorem transTag_completes : Completes x lo (transTag expr' sub' tok) (transTag expr sub tok) := by
  intro c hlo hin
  apply hexpr.accept_option_bind hlo hin rfl
  intro context c₁ hle₁ hin₁
  apply Agree.expectTagEnd_bind hin₁
  intro hout₂
  apply hsub.bind htok (by omega) hout₂
  rintro ⟨body, last⟩ c₃ hlt₃ hin₃
  apply Agree.ite
  · intro _
    apply hexpr.bind (by omega) hin₃
    intro count c₄ hlt₄ hin₄
    apply Agree.expectTagEnd_bind hin₄
    intro hout₅
    apply hsub.bind htok (by omega) hout₅
    rintro ⟨plural, last⟩ c₆ hlt₆ hin₆
    exact .pure_bind (.tagEnd hin₆ (by omega) _)
  · intro _
    exact .pure_bind (.tagEnd hin₃ (by omega) _)

theorem withTag_completes : Completes x lo (withTag expr' sub' tok) (withTag expr sub tok) := by
  intro c hlo hin
  -- the body behind the opening tag
  have hbody (g : Node → Node) {d : Nat} (hle : c ≤ d) (hd : x.Inside d) : Agree x d (do
      expectTagEnd
      return g (← closedBody sub' tok "with")) (do
      expectTagEnd
      return g (← closedBody sub tok "with")) (x.Leaves c) := by
    apply Agree.expectTagEnd_bind hd
    intro hout
    exact closedBody_last hsub htok (by omega) hout (by omega) "with" g
  apply Agree.atType_bind hin.le
  apply Agree.atToken_bind hin.le
  apply hexpr.option_bind_not hlo hin
  intro context c₁ hle₁ hin₁
  apply Agree.accept_bind hin₁ rfl
  · intro hin₂
    exact hbody _ (by omega) hin₂
  · exact hbody _ hle₁ hin₁

theorem autoescapeTag_completes :
    Completes x lo (autoescapeTag expr' sub' tok) (autoescapeTag expr sub tok) := by
  intro c hlo hin
  apply Agree.atType_bind hin.le
  apply hexpr.option_bind_not hlo hin
  intro strategy c₁ hle₁ hin₁
  apply Agree.expectTagEnd_bind hin₁
  intro hout₂
  exact closedBody_last hsub htok (by omega) hout₂ (by omega) "autoescape" _

/-- Every tag agrees with itself and ends where it says so. -/
theorem tag_completes {name : Token} (hname : x.Real name) :
    Completes x lo (tag expr' sub' tok name) (tag expr sub tok name) := by
  intro c hlo hin
  have hflush : Agree x c (do expectTagEnd; return Node.leaf .flushTag tok.location)
      (do expectTagEnd; return Node.leaf .flushTag tok.location) (x.Leaves c) :=
    .tagEnd hin le_rfl _
  have hsandbox : Agree x c (do
      expectTagEnd
      return (Node.leaf .sandboxTag tok.location).withChild .body
        (← closedBody sub' tok "sandbox")) (do
      expectTagEnd
      return (Node.leaf .sandboxTag tok.location).withChild .body
        (← closedBody sub tok "sandbox")) (x.Leaves c) := by
    apply Agree.expectTagEnd_bind hin
    intro hout
    exact closedBody_last hsub htok (by omega) hout (by omega) "sandbox" _
  refine .ite (fun _ => setTag_completes hexpr hsub htok c hlo hin) fun _ => ?_
  refine .ite (fun _ => forTag_completes hexpr hsub htok c hlo hin) fun _ => ?_
  refine .ite (fun _ => ifTag_completes hexpr hsub htok c hlo hin) fun _ => ?_
  refine .ite (fun _ => simpleTag_completes hexpr .doTag .expr tok c hlo hin) fun _ => ?_
  refine .ite (fun _ => hflush) fun _ => ?_
  refine .ite (fun _ => hsandbox) fun _ => ?_
  refine .ite (fun _ => inclusion_completes hexpr .includeTag tok c hlo hin) fun _ => ?_
  refine .ite (fun _ => embedTag_completes hexpr hsub htok c hlo hin) fun _ => ?_
  refine .ite (fun _ => simpleTag_completes hexpr .extendsTag .template tok c hlo hin) fun _ => ?_
  refine .ite (fun _ => blockTag_completes hexpr hsub htok c hlo hin) fun _ => ?_
  refine .ite (fun _ => transTag_completes hexpr hsub htok c hlo hin) fun _ => ?_
  refine .ite (fun _ => applyTag_completes hexpr hsub htok c hlo hin) fun _ => ?_
  refine .ite (fun _ => withTag_completes hexpr hsub htok c hlo hin) fun _ => ?_
  refine .ite (fun _ => macroTag_completes hexpr hsub htok c hlo hin) fun _ => ?_
  refine .ite (fun _ => importTag_completes hexpr htok c hlo hin) fun _ => ?_
  refine .ite (fun _ => fromTag_completes hexpr tok c hlo hin) fun _ => ?_
  refine .ite (fun _ => autoescapeTag_completes hexpr hsub htok c hlo hin) fun _ => ?_
  exact .ite (fun _ => .fail hname (by simp)) fun _ => .fail hname (by simp)

end Tags

/-! ## Bodies -/

/-- Where a body that has started at the position `c` goes on: at a statement, or behind the name of
an end tag that stops it. -/
def BodyState.At (x : Comparison) (ends : List Text) (c : Nat) (state : BodyState) (c' : Nat) :
    Prop :=
  match state.last with
  | none => c ≤ c' ∧ x.Outside c'
  | some name => name ∈ ends ∧ c < c' ∧ x.Inside c'

theorem BodyState.At.le {ends : List Text} {c c' : Nat} {state : BodyState}
    (h : state.At x ends c c') : c' ≤ x.length := by
  obtain ⟨nodes, _ | name⟩ := state
  · exact h.2.1
  · exact h.2.2.le

/-- Where a body that has started at the position `c` stops: at the end of the template when no tag
is open, or behind the name of an end tag that stops it. -/
def EndOfBody (x : Comparison) (opened : Option Opened) (ends : List Text) (c : Nat)
    (last : Option Text) (c' : Nat) : Prop :=
  match last with
  | none => opened = none ∧ c' = x.length
  | some name => name ∈ ends ∧ c < c' ∧ x.Inside c'

/-- What a body that has started at the position `c` answers, and where it stops. -/
def BodyRead (x : Comparison) (opened : Option Opened) (ends : List Text) (c : Nat)
    (r : Node × Text) (c' : Nat) : Prop :=
  (opened = none ∧ c' = x.length) ∨ (r.2 ∈ ends ∧ c < c' ∧ x.Inside c')

/-- The body of a tag does not stop at the end of the template. -/
theorem BodyRead.further {o : Opened} {ends : List Text} {c c' : Nat} {r : Node × Text}
    (h : BodyRead x (some o) ends c r c') : x.Further c r c' := by
  obtain ⟨hnone, -⟩ | ⟨-, hlt, hin⟩ := h
  · cases hnone
  · exact ⟨hlt, hin⟩

section Bodies

variable {expr' expr : Parser Node} (hexpr : Consume x (lo + 1) expr' expr)
  {nested' nested : Token → Token → Parser Node}
  (hnested : ∀ tok name, x.Real tok → x.Real name →
    Completes x (lo + 2) (nested' tok name) (nested tok name))
  {opened : Option Opened} (hopened : ∀ o ∈ opened, x.Real o.token) (ends : List Text)

include hexpr hnested hopened in
/-- Every statement consumes a token, and there is nothing else where a statement is asked for. -/
theorem bodyStep_agrees {c : Nat} (hlo : lo ≤ c) {state : BodyState} {c' : Nat}
    (hat : state.At x ends c c') :
    Agree x c' (bodyStep expr' nested' opened ends state) (bodyStep expr nested opened ends state)
      (Agree.Round (BodyState.At x ends c) (fun state => EndOfBody x opened ends c state.last)
        state c') := by
  obtain ⟨nodes, last⟩ := state
  cases last with
  | some name => exact .pure hat
  | none =>
    obtain ⟨hle, hout⟩ := hat
    apply Agree.current_bind hout.1
    cases htype : (x.token c').type with
    | eof =>
      cases opened with
      | some o => exact .fail (hopened o rfl) (by simp)
      | none => exact .pure ⟨rfl, Comparison.eq_length_of_eof hout.1 htype⟩
    | text =>
      have hlt := Comparison.lt_of_ne_eof hout.1 (by simp [htype])
      have hnext := Comparison.outside_succ hlt (by rw [htype]; rfl)
      apply Agree.next_bind hlt
      exact .pure ⟨Nat.lt_succ_self c', by omega, hnext⟩
    | printStart =>
      have hin := Comparison.inside_succ hout.1 (by rw [htype]; rfl)
      apply Agree.next_bind (Nat.lt_of_succ_lt hin.1)
      apply hexpr.bind (by omega) hin
      intro value d hlt hd
      apply Agree.expect_bind_outside hd rfl
      intro hnext
      exact .pure ⟨by omega, by omega, hnext⟩
    | tagStart =>
      have hin := Comparison.inside_succ hout.1 (by rw [htype]; rfl)
      have hopening : x.Real (x.token c') :=
        ⟨Comparison.token_mem (Nat.lt_of_succ_lt hin.1), by simp [htype]⟩
      apply Agree.next_bind (Nat.lt_of_succ_lt hin.1)
      apply Agree.atType_bind hin.le
      apply Agree.ite
      · intro _
        exact .current_bind hin.le (.fail_bind hin.real (by simp))
      intro hname
      have hin' : x.Inside (c' + 2) := by
        apply Comparison.inside_succ hin.le
        simp_all [TokenType.leadsInside]
      apply Agree.next_bind hin.1
      apply Agree.ite
      · intro hend
        exact .pure ⟨by omega, by simpa using hend, by omega, hin'⟩
      · intro _
        apply (hnested _ _ hopening hin.real _ (by omega) hin').bind
        rintro node d ⟨hle', hout'⟩
        exact .pure ⟨by omega, by omega, hout'⟩
    | _ =>
      have hstart := hout.2
      rw [htype] at hstart
      cases hstart

/-- A body whose statements agree with those of the other run. -/
theorem bodyOver_agrees {step' : BodyState → Parser (Option BodyState)} {c : Nat}
    (hstep : ∀ state c', state.At x ends c c' →
      Agree x c' (step' state) (bodyStep expr nested opened ends state)
        (Agree.Round (BodyState.At x ends c) (fun state => EndOfBody x opened ends c state.last)
          state c')) (hout : x.Outside c) :
    Agree x c (do
        let start ← current
        let state ← extend step' ⟨[], none⟩
        return (Node.listOf .body start.location state.nodes.reverse, state.last.getD []))
      (bodyOver expr nested opened ends) (BodyRead x opened ends c) := by
  apply Agree.current_bind hout.1
  have hat : BodyState.At x ends c ⟨[], none⟩ c := ⟨le_rfl, hout⟩
  apply (Agree.extend hstep (fun _ _ => BodyState.At.le) hat).bind
  rintro ⟨nodes, _ | name⟩ c' hend
  · exact .pure (.inl hend)
  · exact .pure (.inr hend)

end Bodies

/-! ## The whole parser -/

section Parsers

variable {limit : Nat} (hdepth : ∀ tok, x.Real tok → x.admits ⟨.depthExceeded limit, tok.location⟩)
include hdepth

theorem expression_consumes (levels precedence : Nat) :
    Consume x 0 (expression limit levels precedence) (expression limit levels precedence) := by
  induction levels generalizing precedence with
  | zero =>
    intro c _ hin
    exact .current_bind hin.le (.fail_of_admits (hdepth _ hin.real))
  | succ levels ih =>
    intro c _ hin
    exact expressionOver_agree ih precedence (Nat.zero_le _) hin

theorem body_stops (levels : Nat) {opened : Option Opened} (hopened : ∀ o ∈ opened, x.Real o.token)
    (ends : List Text) {c : Nat} (hout : x.Outside c) :
    Agree x c (body limit levels opened ends) (body limit levels opened ends)
      (BodyRead x opened ends c) := by
  have hexpr (levels : Nat) : Consume x 1 (expression limit levels 0) (expression limit levels 0) :=
    (expression_consumes hdepth levels 0).weaken (Nat.zero_le 1)
  induction levels generalizing opened ends c with
  | zero =>
    apply bodyOver_agrees ends _ hout
    intro state c' hat
    apply bodyStep_agrees (hexpr 0) _ hopened ends (Nat.zero_le c) hat
    intro tok name htok _ d _ _
    exact .fail_of_admits (hdepth tok htok)
  | succ levels ih =>
    have hsub : Bodies x 2 (body limit levels) (body limit levels) := by
      intro o ends d ho _ hd
      have hopened : ∀ p ∈ some o, x.Real p.token := by simpa using ho
      exact (ih hopened ends hd).mono fun _ _ => BodyRead.further
    apply bodyOver_agrees ends _ hout
    intro state c' hat
    apply bodyStep_agrees (hexpr (levels + 1)) _ hopened ends (Nat.zero_le c) hat
    intro tok name htok hname
    exact tag_completes ((hexpr levels).weaken (Nat.le_succ 1)) hsub htok hname

theorem body_bodies (levels lo : Nat) : Bodies x lo (body limit levels) (body limit levels) := by
  intro o ends c ho _ hout
  have hopened : ∀ p ∈ some o, x.Real p.token := by simpa using ho
  exact (body_stops hdepth levels hopened ends hout).mono fun _ _ => BodyRead.further

/-- A template is read up to its end. -/
theorem template_stops : Agree x 0 (template limit) (template limit) fun _ c => c = x.length := by
  have hout : x.Outside 0 := ⟨Nat.zero_le _, x.shaped.first⟩
  apply Agree.current_bind hout.1
  apply (body_stops hdepth limit (by simp) [] hout).bind
  rintro ⟨node, last⟩ c (⟨-, hc⟩ | ⟨hlast, -⟩)
  · exact .pure hc
  · cases hlast

end Parsers

end Parser

end TwigLint
