import TwigLint.Proofs.Grammar.Tag

/-! # Reading statements

Every template is read back as the tree that its grammar gives it: each nested body belongs to its
own opening tag, whatever stands around it, as soon as the depth limit leaves a level for each level
of nesting.
-/

namespace TwigLint.Parser

open Grammar

variable {limit levels d : Nat} {ends : List Text} {m : Phrase Node} {ms : List (Phrase Node)}

/-! ## Levels -/

theorem readsStatement_text (t : Text) {expr : Parser Node} {nested : Token → Token → Parser Node} :
    ReadsStatement expr nested ends (Stmt.text t).phrase := by
  refine ⟨.bind (.word fun _ => trivial) _, fun opened nodes loc s => ?_⟩
  simp [bodyStep]
  rfl

theorem readsStatement_print {e : Expr} (h : e.enclosedDepth ≤ levels) :
    ReadsStatement (expression limit levels 0) (nestedTag limit levels) ends
      (Stmt.print e).phrase := by
  rw [Stmt.phrase]
  refine readsStatement_printed (Reads.mono (enclosed_reads h) fun t ht => ?_)
  exact .of_type (by simp [ht]) (by simp [ht]) (by simp [ht])

/-- A tag costs one level. -/
theorem readsStatement_level
    (h : ∀ l, d ≤ l → ReadsStatement (expression limit (l + 1) 0)
      (tag (expression limit l 0) (body limit l)) ends m) :
    ∀ levels, d + 1 ≤ levels →
      ReadsStatement (expression limit levels 0) (nestedTag limit levels) ends m := by
  intro levels hl
  cases levels with
  | zero => omega
  | succ l => exact h l (by omega)

theorem readsBody_body
    (h : ∀ ends, (∀ t ∈ ends, t ∈ endTags) → ∀ m ∈ ms,
      ReadsStatement (expression limit levels 0) (nestedTag limit levels) ends m) :
    ReadsBody (body limit levels) ms := by
  intro opened ends last hlast hends loc s
  rw [body_eq_bodyOver]
  exact bodyOver_reads (h ends hends) hlast opened loc s

theorem enclosed?_reads {x : Option Expr} (h : Expr.enclosedDepth? x ≤ levels) :
    ∀ e ∈ x, Reads (expression limit levels 0) (enclosed e) Ends := by
  intro e he
  subst he
  exact enclosed_reads h

theorem params_read {params : List Param} (h : largest Param.depth params ≤ levels) :
    ReadsItems (param (expression limit levels 0)) ")" (params.map Param.phrase) := by
  refine List.forall_mem_map.mpr fun x hx => ?_
  have hdepth := Nat.le_trans (le_largest Param.depth hx) h
  cases x with
  | plain name => exact readsItem_param_plain name
  | optional name colon default => exact readsItem_param_optional name colon (enclosed_reads hdepth)

theorem filters_read {fs : List Filter}
    (h : largest (fun f => Arg.optionalDepth f.args) fs ≤ levels) :
    ∀ f ∈ fs, ∀ as ∈ f.args,
      ReadsItems (argument (expression limit levels 0)) ")" (Arg.phrases as) :=
  fun f hf => optional_read limit f.args levels
    (Nat.le_trans (le_largest (fun f => Arg.optionalDepth f.args) hf) h)

/-! ## Whole templates -/

mutual

theorem stmt_reads (limit : Nat) {ends : List Text} (hends : ∀ t ∈ ends, t ∈ endTags) :
    (x : Stmt) → ∀ levels, x.depth ≤ levels →
      ReadsStatement (expression limit levels 0) (nestedTag limit levels) ends x.phrase
  | .text t => fun _ _ => readsStatement_text t
  | .print _ => fun _ h => readsStatement_print h
  | .setTag first rest => readsStatement_level fun _ h =>
    reads_set hends first rest fun _ ha =>
      enclosed_reads (Nat.le_trans (le_largest (fun a => a.2.enclosedDepth) ha) h)
  | .captureTag name body => readsStatement_level fun l h =>
    reads_capture hends name (readsBody_body fun _ he => stmts_read limit he body l h)
  | .forTag key value _ body otherwise => readsStatement_level fun l h =>
    reads_for hends key value (enclosed_reads (le_of_max_le_left h))
      (readsBody_body fun _ he =>
        stmts_read limit he body l (le_of_max_le_left (le_of_max_le_right h)))
      (otherwise_read limit otherwise l (le_of_max_le_right (le_of_max_le_right h)))
  | .ifTag _ body rest => readsStatement_level fun l h =>
    reads_if hends (enclosed_reads (le_of_max_le_left h))
      (readsBody_body fun _ he =>
        stmts_read limit he body l (le_of_max_le_left (le_of_max_le_right h)))
      (alternatives_read limit rest l (le_of_max_le_right (le_of_max_le_right h)))
  | .doTag _ => readsStatement_level fun _ h => reads_do hends (enclosed_reads h)
  | .flushTag => readsStatement_level fun _ (_ : 0 ≤ _) => reads_flush hends
  | .sandboxTag body => readsStatement_level fun l h =>
    reads_sandbox hends (readsBody_body fun _ he => stmts_read limit he body l h)
  | .includeTag _ => readsStatement_level fun _ h =>
    reads_include hends (enclosed_reads (le_of_max_le_left h))
      (enclosed?_reads (le_of_max_le_right h))
  | .embedTag _ body => readsStatement_level fun l h =>
    reads_embed hends (enclosed_reads (le_of_max_le_left (le_of_max_le_left h)))
      (enclosed?_reads (le_of_max_le_right (le_of_max_le_left h)))
      (readsBody_body fun _ he => stmts_read limit he body l (le_of_max_le_right h))
  | .extendsTag _ => readsStatement_level fun _ h => reads_extends hends (enclosed_reads h)
  | .blockTag name body endName => readsStatement_level fun l h =>
    reads_block hends name endName (readsBody_body fun _ he => stmts_read limit he body l h)
  | .shortBlockTag name _ => readsStatement_level fun _ h =>
    reads_shortBlock hends name (enclosed_reads h)
  | .transTag _ body => readsStatement_level fun l h =>
    reads_trans hends (enclosed?_reads (le_of_max_le_left h))
      (readsBody_body fun _ he => stmts_read limit he body l (le_of_max_le_right h))
  | .pluralTag _ body _ plural => readsStatement_level fun l h =>
    reads_plural hends (enclosed?_reads (le_of_max_le_left (le_of_max_le_left h)))
      (readsBody_body fun _ he =>
        stmts_read limit he body l (le_of_max_le_right (le_of_max_le_left h)))
      (enclosed_reads (le_of_max_le_left (le_of_max_le_right h)))
      (readsBody_body fun _ he =>
        stmts_read limit he plural l (le_of_max_le_right (le_of_max_le_right h)))
  | .applyTag _ _ body => readsStatement_level fun l h =>
    reads_apply hends (filters_read (le_of_max_le_left h))
      (readsBody_body fun _ he => stmts_read limit he body l (le_of_max_le_right h))
  | .withTag _ only body => readsStatement_level fun l h =>
    reads_with hends only (enclosed?_reads (le_of_max_le_left h))
      (readsBody_body fun _ he => stmts_read limit he body l (le_of_max_le_right h))
  | .macroTag name _ body endName => readsStatement_level fun l h =>
    reads_macro hends name (params_read (le_of_max_le_left h))
      (readsBody_body fun _ he => stmts_read limit he body l (le_of_max_le_right h)) endName
  | .importTag _ name => readsStatement_level fun _ h => reads_import hends name (enclosed_reads h)
  | .fromTag _ first rest => readsStatement_level fun _ h =>
    reads_from hends first rest (enclosed_reads h)
  | .autoescapeTag _ body => readsStatement_level fun l h =>
    reads_autoescape hends (enclosed?_reads (le_of_max_le_left h))
      (readsBody_body fun _ he => stmts_read limit he body l (le_of_max_le_right h))

theorem stmts_read (limit : Nat) {ends : List Text} (hends : ∀ t ∈ ends, t ∈ endTags) :
    (xs : List Stmt) → ∀ levels, Stmt.depths xs ≤ levels → ∀ m ∈ Stmt.phrases xs,
      ReadsStatement (expression limit levels 0) (nestedTag limit levels) ends m
  | [] => fun _ _ _ hm => nomatch hm
  | x :: xs => fun l h => List.forall_mem_cons.mpr
    ⟨stmt_reads limit hends x l (le_of_max_le_left h),
      stmts_read limit hends xs l (le_of_max_le_right h)⟩

theorem otherwise_read (limit : Nat) : (x : Option (List Stmt)) → ∀ levels,
    Stmt.depths? x ≤ levels → ∀ b ∈ x, ReadsBody (body limit levels) (Stmt.phrases b)
  | none => fun _ _ _ hb => nomatch hb
  | some b => fun l h _ hb => Option.some.inj hb ▸
    readsBody_body fun _ he => stmts_read limit he b l h

theorem alternatives_read (limit : Nat) : (x : Alternatives) → ∀ levels, x.depth ≤ levels →
    ReadsAlternatives (expression limit levels 0) (body limit levels) x
  | .done => fun _ _ => trivial
  | .elseTag b => fun l h => readsBody_body fun _ he => stmts_read limit he b l h
  | .elseifTag _ b rest => fun l h => ⟨enclosed_reads (le_of_max_le_left h),
    readsBody_body fun _ he => stmts_read limit he b l (le_of_max_le_left (le_of_max_le_right h)),
    alternatives_read limit rest l (le_of_max_le_right (le_of_max_le_right h))⟩

end

/-- Every template is parsed to the tree that the grammar gives it, and nothing is left. -/
theorem template_reads_statements (xs : List Stmt) (limit : Nat) (h : Stmt.depths xs ≤ limit)
    (loc : Layout) :
    (template limit).run
        (((document (Stmt.phrases xs)).atEnd loc).prepend
          ((document (Stmt.phrases xs)).tokens loc)) =
      .ok ((document (Stmt.phrases xs)).value loc, (document (Stmt.phrases xs)).atEnd loc) := by
  have hstatements : ∀ m ∈ Stmt.phrases xs,
      ReadsStatement (expression limit limit 0) (nestedTag limit limit) [] m :=
    stmts_read limit (by simp) xs limit h
  exact template_reads hstatements loc

/-- The alternative of a conditional is attached to it. -/
theorem template_reads_statements_else :
    (template 3).run
        ⟨[⟨.tagStart, "\x7b%", ⟨1, 0⟩⟩, ⟨.name, "if", ⟨1, 1⟩⟩, ⟨.punctuation, "(", ⟨1, 2⟩⟩,
          ⟨.name, "a", ⟨1, 3⟩⟩, ⟨.punctuation, ")", ⟨1, 4⟩⟩, ⟨.tagEnd, "%\x7d", ⟨1, 5⟩⟩,
          ⟨.tagStart, "\x7b%", ⟨1, 6⟩⟩, ⟨.name, "else", ⟨1, 7⟩⟩, ⟨.tagEnd, "%\x7d", ⟨1, 8⟩⟩,
          ⟨.text, "x", ⟨1, 9⟩⟩, ⟨.tagStart, "\x7b%", ⟨1, 10⟩⟩, ⟨.name, "endif", ⟨1, 11⟩⟩,
          ⟨.tagEnd, "%\x7d", ⟨1, 12⟩⟩], ⟨.eof, [], ⟨1, 13⟩⟩⟩ =
      .ok (⟨.template, ⟨1, 0⟩, [], [(.body, ⟨.body, ⟨1, 0⟩, [], [(.item 0, ⟨.ifTag, ⟨1, 0⟩, [],
        [(.tests, ⟨.body, ⟨1, 0⟩, [], [(.item 0, ⟨.pair, ⟨1, 3⟩, [],
          [(.key, ⟨.name, ⟨1, 3⟩, [(.name, .text "a")], []⟩),
            (.value, ⟨.body, ⟨1, 6⟩, [], []⟩)]⟩)]⟩),
          (.elseBody, ⟨.body, ⟨1, 9⟩, [],
            [(.item 0, ⟨.text, ⟨1, 9⟩, [(.data, .text "x")], []⟩)]⟩)]⟩)]⟩)]⟩,
        ⟨[], ⟨.eof, [], ⟨1, 13⟩⟩⟩) :=
  template_reads_statements
    [.ifTag (.name ⟨"a", by intro k upper; cases k <;> cases upper <;> decide⟩) []
      (.elseTag [.text "x"])] 3 (by decide) fun k => ⟨1, k⟩

end TwigLint.Parser
