import TwigLint.Proofs.Grammar.Reading
import TwigLint.Template.Parser.Statement

/-! # Reading bodies

A body is read statement by statement, up to its end tag or to the end of the template.  Whether a
statement is read depends on the parsers for expressions and tags, never on what stands behind it.
-/

namespace TwigLint.Grammar

open Phrase

variable {α : Type}

/-- Phrases one behind the other. -/
def Phrase.series : List (Phrase α) → Phrase (List α)
  | [] => pure []
  | m :: ms => do
    let a ← m
    let as ← series ms
    return a :: as

/-- The stream that is left behind the phrase when it stands at the end of a template. -/
def Phrase.atEnd (m : Phrase α) (loc : Layout) : TokenStream :=
  ⟨[], ⟨.eof, [], loc (m.tokens loc).length⟩⟩

/-- A print statement. -/
def printed (m : Phrase Node) : Phrase Node := do
  let l ← word .printStart "\x7b\x7b"
  let n ← m
  let _ ← word .printEnd "\x7d\x7d"
  return ⟨.print, l, [], [(.expr, n)]⟩

/-- A whole template. -/
def document (ms : List (Phrase Node)) : Phrase Node := do
  let l ← here
  let ns ← series ms
  return ⟨.template, l, [], [(.body, .listOf .body l ns)]⟩

/-- Statements and the start of the end tag behind them, with its name. -/
def closed (last : Text) (ms : List (Phrase Node)) : Phrase Node := do
  let l ← here
  let ns ← series ms
  let _ ← word .tagStart "\x7b%"
  let _ ← word .name last
  return .listOf .body l ns

end TwigLint.Grammar

namespace TwigLint.Parser

open Grammar

/-- A statement is read as the next one of any body with the given end tags. -/
structure ReadsStatement (expr : Parser Node) (nested : Token → Token → Parser Node)
    (ends : List Text) (m : Phrase Node) : Prop where
  starts : m.Starts fun _ => True
  step : ∀ opened nodes loc s,
    (bodyStep expr nested opened ends ⟨nodes, none⟩).run (s.prepend (m.tokens loc)) =
      .ok (some ⟨m.value loc :: nodes, none⟩, s)

variable {expr : Parser Node} {nested : Token → Token → Parser Node} {ends : List Text}
  {ms : List (Phrase Node)}

theorem readsStatement_printed {m : Phrase Node} (h : Reads expr m fun t => t.type = .printEnd) :
    ReadsStatement expr nested ends (printed m) := by
  refine ⟨.bind (.word fun _ => trivial) _, fun opened nodes loc s => ?_⟩
  simp [bodyStep, printed, h]
  rfl

/-- The statements of a body are read one after the other, in front of anything. -/
theorem bodyStep_loop (hm : ∀ m ∈ ms, ReadsStatement expr nested ends m) {opened : Option Opened}
    {state : BodyState} (nodes : List Node) (loc : Layout) {s s' : TokenStream}
    (hrest : Loop (bodyStep expr nested opened ends)
      ⟨((Phrase.series ms).value loc).reverse ++ nodes, none⟩ s state s') :
    Loop (bodyStep expr nested opened ends) ⟨nodes, none⟩
      (s.prepend ((Phrase.series ms).tokens loc)) state s' := by
  induction ms generalizing nodes loc with
  | nil => exact hrest
  | cons m ms ih =>
    have hfirst := hm m (by simp)
    simp only [Phrase.series, Phrase.bind_tokens, Phrase.bind_value, Phrase.pure_value,
      Phrase.pure_tokens, List.append_nil, List.reverse_cons, List.append_assoc,
      List.singleton_append, TokenStream.prepend_append] at hrest ⊢
    exact .next (hfirst.step opened nodes loc _) (hfirst.starts.shorter loc _)
      (ih (fun m h => hm m (List.mem_cons_of_mem _ h)) _ _ hrest)

theorem closed_starts (last : Text) (hm : ∀ m ∈ ms, ReadsStatement expr nested ends m) :
    (closed last ms).Starts fun _ => True := by
  cases ms with
  | nil => exact fun loc => ⟨_, _, rfl, rfl, trivial⟩
  | cons m ms => exact .here fun l => .bind (.bind (hm m (by simp)).starts _) _

theorem bodyStep_end {last : Text} (hlast : last ∈ ends) (opened : Option Opened)
    (nodes : List Node) (l l' : Location) (s : TokenStream) :
    Loop (bodyStep expr nested opened ends) ⟨nodes, none⟩
      (s.prepend [⟨.tagStart, "\x7b%", l⟩, ⟨.name, last, l'⟩]) ⟨nodes, some last⟩ s := by
  have hstop : Loop (bodyStep expr nested opened ends) ⟨nodes, some last⟩ s ⟨nodes, some last⟩ s :=
    .stop (by simp [bodyStep])
  refine .next ?_ ?_ hstop
  · simp [bodyStep, hlast]
  · simp

/-- A body is read up to its end tag, whose name is consumed. -/
theorem bodyOver_reads (hm : ∀ m ∈ ms, ReadsStatement expr nested ends m) {last : Text}
    (hlast : last ∈ ends) (opened : Option Opened) (loc : Layout) (s : TokenStream) :
    (bodyOver expr nested opened ends).run (s.prepend ((closed last ms).tokens loc)) =
      .ok (((closed last ms).value loc, last), s) := by
  have hstart := (closed_starts last hm).location loc s
  have hloop := fun l l' => (bodyStep_loop hm [] loc (bodyStep_end hlast opened _ l l' s)).extend
  simp only [List.append_nil] at hloop
  simp [closed] at hstart
  simp [bodyOver, closed, hstart, hloop]

theorem bodyStep_eof (nodes : List Node) {s : TokenStream} (h : s.current.type = .eof) :
    Loop (bodyStep expr nested none []) ⟨nodes, none⟩ s ⟨nodes, none⟩ s :=
  .stop (by simp [bodyStep, h])

/-- The parser for the tags in a body. -/
def nestedTag (limit : Nat) : (levels : Nat) → Token → Token → Parser Node
  | 0 => fun tok _ => failAt tok (.depthExceeded limit)
  | levels + 1 => tag (expression limit levels 0) (body limit levels)

theorem body_eq_bodyOver (limit levels : Nat) :
    body limit levels = bodyOver (expression limit levels 0) (nestedTag limit levels) := by
  cases levels <;> rfl

/-- A template is read to its end once its statements are. -/
theorem template_reads {limit : Nat}
    (hm : ∀ m ∈ ms, ReadsStatement (expression limit limit 0) (nestedTag limit limit) [] m)
    (loc : Layout) :
    (template limit).run (((document ms).atEnd loc).prepend ((document ms).tokens loc)) =
      .ok ((document ms).value loc, (document ms).atEnd loc) := by
  have hstart : (((document ms).atEnd loc).prepend
      ((Phrase.series ms).tokens loc)).current.location = loc 0 := by
    cases ms with
    | nil => rfl
    | cons m ms => exact ((hm m (by simp)).starts.bind _).location loc _
  have hend : ((document ms).atEnd loc).current.type = .eof := rfl
  have hloop := (bodyStep_loop hm [] loc (bodyStep_eof _ hend)).extend
  have htokens : (document ms).tokens loc = (Phrase.series ms).tokens loc := by
    simp [document]
  simp [htokens, template, body_eq_bodyOver, bodyOver, hstart, hloop]
  simp [document]
  rfl

end TwigLint.Parser
