import TwigLint.Component.Load

/-! # Readings of definitions

A reading notes the first wrong shape and goes on.  What holds of everything that a reading gives is
put together from its parts.  So nothing that is read changes the name of a component.
-/

namespace TwigLint.Definition

variable {α β : Type}

/-- All that a reading gives has a property. -/
def Ensures (m : Shaped α) (P : α → Prop) : Prop :=
  ∀ first a first', m.run first = .ok (a, first') → P a

namespace Ensures

theorem pure {P : α → Prop} {a : α} (h : P a) : Ensures (pure a) P := by
  intro first a' first' hrun
  cases hrun
  exact h

theorem bind {P : α → Prop} {Q : β → Prop} {m : Shaped α} {f : α → Shaped β} (h : Ensures m P)
    (hf : ∀ a, P a → Ensures (f a) Q) : Ensures (m >>= f) Q := by
  intro first b first' hrun
  rw [StateT.run_bind] at hrun
  cases hm : m.run first with
  | error e => rw [hm] at hrun; cases hrun
  | ok r =>
    rw [hm] at hrun
    exact hf r.1 (h _ _ _ hm) _ _ _ hrun

/-- Of what a part of a reading gives, nothing need be known. -/
theorem after {Q : β → Prop} {m : Shaped α} {f : α → Shaped β} (hf : ∀ a, Ensures (f a) Q) :
    Ensures (m >>= f) Q :=
  bind (P := fun _ => True) (fun _ _ _ _ => trivial) fun a _ => hf a

theorem foldlM {P : β → Prop} {f : β → α → Shaped β} (hf : ∀ b a, P b → Ensures (f b a) P)
    {b : β} (hb : P b) (l : List α) : Ensures (l.foldlM f b) P := by
  induction l generalizing b with
  | nil => exact pure hb
  | cons a l ih =>
    rw [List.foldlM_cons]
    exact bind (hf b a hb) fun _ => ih

end Ensures

/-- The definition is of a component with a name, and has no template yet. -/
def IsOf (name : Text) (d : Definition) : Prop := d.name = name ∧ d.template = none

theorem ensures_readRequired {name : Text} {d : Definition} (hd : d.IsOf name)
    (loops : Yaml.Loops) (entry : Yaml.Node × Yaml.Node) :
    Ensures (readRequired loops d entry) (IsOf name) := by
  unfold readRequired
  split
  · exact Ensures.after fun _ => Ensures.pure hd
  · exact Ensures.pure hd

theorem ensures_readProps {name : Text} {d : Definition} (hd : d.IsOf name) (loops : Yaml.Loops)
    (n : Yaml.Node) : Ensures (readProps loops d n) (IsOf name) := by
  refine Ensures.after fun es => Ensures.bind (Ensures.foldlM (P := IsOf name)
    (fun d entry hd => ensures_readRequired hd loops entry) hd es) fun d hd => ?_
  split
  · exact Ensures.pure hd
  · exact Ensures.after fun _ => Ensures.after fun _ => Ensures.pure hd

theorem ensures_readSection {name : Text} {d : Definition} (hd : d.IsOf name) (loops : Yaml.Loops)
    (entry : Yaml.Node × Yaml.Node) : Ensures (readSection loops d entry) (IsOf name) := by
  simp only [readSection]
  split
  · exact Ensures.pure hd
  split
  · refine ensures_readProps ?_ loops entry.2
    exact hd
  split
  · exact Ensures.after fun _ => Ensures.pure hd
  split
  · exact Ensures.after fun _ => Ensures.pure hd
  · exact Ensures.pure hd

/-- The definition of a document is what its sections give without a wrong shape. -/
theorem ofDocument_eq_ok {start d : Definition} {doc : Yaml.Document} :
    ofDocument start (some doc) = .ok d ↔ doc.root.isMapping = true ∧
      (doc.root.entries.foldlM (readSection doc.loops) start).run none = .ok (d, none) := by
  rw [ofDocument]
  cases doc.root.isMapping with
  | false => simp [throw, throwThe, MonadExceptOf.throw, bind, Except.bind]
  | true =>
    rcases (doc.root.entries.foldlM (readSection doc.loops) start).run none with
      misshape | ⟨found, _ | first⟩ <;>
      simp [throw, throwThe, MonadExceptOf.throw, bind, Except.bind, pure, Except.pure]

theorem isOf_ofDocument {name : Text} {start d : Definition} (hstart : start.IsOf name)
    {doc? : Option Yaml.Document} (h : ofDocument start doc? = .ok d) : d.IsOf name := by
  cases doc? with
  | none =>
    cases h
    exact hstart
  | some doc =>
    have hsections := Ensures.foldlM (P := IsOf name)
      (fun d entry hd => ensures_readSection hd doc.loops entry) hstart doc.root.entries
    exact hsections _ _ _ (ofDocument_eq_ok.mp h).2

theorem isOf_parse {source path provider : Text} {d : Definition}
    (h : parse source path provider = .ok d) : d.IsOf (Component.machineName path) := by
  have hstart :
      (new provider (Component.machineName path) path).IsOf (Component.machineName path) :=
    ⟨rfl, rfl⟩
  unfold parse at h
  split at h
  · cases h
  · split at h
    · rename_i hdocument
      cases h
      exact isOf_ofDocument hstart hdocument
    · cases h

/-- With a definition that is loaded comes the template at its place, if there is one. -/
theorem template_of_load {w : Workspace} {path provider : Text} {d : Definition}
    (h : load w path provider = .ok d) :
    d.template = (w.read (Component.templatePath path (Component.machineName path))).toOption.map
      fun text => (Component.templatePath path (Component.machineName path), text) := by
  rw [load] at h
  cases hsource : w.read path with
  | error e => rw [hsource] at h; cases h
  | ok source =>
    rw [hsource] at h
    cases hparse : parse source path provider with
    | error e => simp [hparse, bind, Except.bind] at h
    | ok parsed =>
      obtain ⟨hname, htemplate⟩ := isOf_parse hparse
      simp only [hparse, bind, Except.bind, hname] at h
      cases hread : w.read (Component.templatePath path (Component.machineName path)) with
      | ok text =>
        rw [hread] at h
        cases h
        rfl
      | error e =>
        rw [hread] at h
        by_cases hmissing : e.fault == .missing
        · obtain rfl : parsed = d := by simpa [hmissing, pure, Except.pure] using h
          exact htemplate
        · simp [hmissing, throw, throwThe, MonadExceptOf.throw] at h

end TwigLint.Definition
