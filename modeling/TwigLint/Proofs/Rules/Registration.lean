import TwigLint.Proofs.Rules.Registry
import TwigLint.Proofs.Collections.Occurrence

/-! # Registering rules

A registry that is asked for registrations, and to allow no more of them, holds the rules that were
offered while it was open, each at most once for a kind.  What it gives for a kind, what it tells
about its rules and what it refuses follows from the requests alone.
-/

namespace TwigLint

namespace Registry

/-! ## Requests -/

/-- What a registry can be asked to do. -/
inductive Request where
  | register (kind : Kind) (rule : Option Rule)
  | freeze

/-- A registry that refuses a registration stays as it is. -/
def serve (r : Registry) : Request → Registry
  | .register kind rule => (r.register kind rule).toOption.getD r
  | .freeze => r.freeze

/-- A new registry after some requests. -/
def served (requests : List Request) : Registry := requests.foldl serve .empty

def Request.isFreeze : Request → Bool
  | .register _ _ => false
  | .freeze => true

@[simp] theorem isFreeze_register (kind : Kind) (rule : Option Rule) :
    (Request.register kind rule).isFreeze = false := rfl

@[simp] theorem isFreeze_freeze : Request.freeze.isFreeze = true := rfl

/-- The rule that is offered, and its kind. -/
def Request.offer? : Request → Option (Kind × Rule)
  | .register kind rule => rule.map (kind, ·)
  | .freeze => none

@[simp] theorem offer?_register (kind : Kind) (rule : Option Rule) :
    (Request.register kind rule).offer? = rule.map (kind, ·) := rfl

@[simp] theorem offer?_freeze : Request.freeze.offer? = none := rfl

/-- The rules that are offered before registrations are forbidden. -/
def offered (requests : List Request) : List (Kind × Rule) :=
  (requests.takeWhile fun request => !request.isFreeze).filterMap Request.offer?

/-- The rules that are offered, but for those of a name and kind offered before. -/
def accepted (requests : List Request) : List (Kind × Rule) :=
  firsts (fun a b => entryKey a == entryKey b) (offered requests)

/-- The reason to refuse a registration after some requests. -/
def refusal? (requests : List Request) (kind : Kind) (rule : Option Rule) : Option RegistryError :=
  if requests.any Request.isFreeze then some .frozen
  else
    rule.elim (some (.noRule kind)) fun rule =>
      if ((accepted requests).map entryKey).contains (kind, rule.name) then
        some (.duplicate rule.name kind)
      else none

/-! ## What a registry holds -/

theorem offered_concat (requests : List Request) (request : Request) :
    offered (requests ++ [request]) =
      offered requests ++
        if requests.any Request.isFreeze then [] else request.offer?.toList := by
  unfold offered
  induction requests with
  | nil =>
    cases request with
    | register kind rule => cases rule <;> rfl
    | freeze => rfl
  | cons first requests ih =>
    cases first with
    | register kind rule => cases rule <;> simp [List.filterMap_cons, ih]
    | freeze => simp

theorem mem_keys_accepted {requests : List Request} {key : Kind × Text} :
    key ∈ (accepted requests).map entryKey ↔ key ∈ (offered requests).map entryKey := by
  rw [accepted, map_firsts, List.mem_eraseDups]

theorem nodup_accepted (requests : List Request) : ((accepted requests).map entryKey).Nodup := by
  rw [accepted, map_firsts]
  exact nodup_eraseDups _

/-- One more registration is accepted unless there is a reason to refuse it. -/
theorem accepted_register (requests : List Request) (kind : Kind) (rule : Option Rule) :
    accepted (requests ++ [.register kind rule]) =
      accepted requests ++
        if (refusal? requests kind rule).isSome then [] else (rule.map (kind, ·)).toList := by
  rw [accepted, offered_concat, refusal?]
  by_cases hfrozen : requests.any Request.isFreeze = true
  · simp [hfrozen, accepted]
  · rw [if_neg hfrozen, if_neg hfrozen]
    cases rule with
    | none => simp [accepted]
    | some rule =>
      have hknown : ((offered requests).any fun a => entryKey a == entryKey (kind, rule)) =
          ((accepted requests).map entryKey).contains (kind, rule.name) := by
        rw [Bool.eq_iff_iff, List.contains_iff_mem, mem_keys_accepted]
        simp [entryKey]
      simp only [offer?_register, Option.map_some, Option.toList_some, firsts_concat, hknown,
        Option.elim_some]
      split <;> rfl

theorem accepted_freeze (requests : List Request) :
    accepted (requests ++ [.freeze]) = accepted requests := by
  rw [accepted, offered_concat]
  simp [accepted]

theorem register_refusal {r : Registry} {requests : List Request}
    (hentries : r.entries = accepted requests) (hfrozen : r.frozen = requests.any Request.isFreeze)
    (kind : Kind) (rule : Option Rule) :
    r.register kind rule = (refusal? requests kind rule).elim
      (.ok { r with entries := accepted (requests ++ [.register kind rule]) }) .error := by
  unfold register
  rw [accepted_register, refusal?, hfrozen]
  split
  · rfl
  · cases rule with
    | none => rfl
    | some rule =>
      have hknown : (r.registered kind).any (·.name == rule.name) =
          ((accepted requests).map entryKey).contains (kind, rule.name) := by
        rw [Bool.eq_iff_iff, List.contains_iff_mem, registered, hentries]
        simp [entryKey]
      simp only [hknown, hentries, Option.elim_some]
      split <;> rfl

/-- A registry holds what was accepted, and is frozen once this was asked for. -/
theorem served_eq (requests : List Request) :
    served requests = ⟨accepted requests, requests.any Request.isFreeze⟩ := by
  induction requests using List.reverseRecOn with
  | nil => rfl
  | append_singleton requests request ih =>
    rw [served, List.foldl_append, ← served, ih, List.foldl_cons, List.foldl_nil, List.any_append]
    cases request with
    | freeze =>
      rw [accepted_freeze]
      simp [serve, freeze]
    | register kind rule =>
      rw [serve, register_refusal rfl rfl, accepted_register]
      cases refusal? requests kind rule <;> simp [Except.toOption]

/-! ## What a registry tells -/

/-- The rules that are registered for a kind. -/
def rulesOf (kind : Kind) (entries : List (Kind × Rule)) : List Rule :=
  (entries.filter (·.1 == kind)).map Prod.snd

/-- The kinds that a rule of some name is registered for. -/
def kindsOf (name : Text) (entries : List (Kind × Rule)) : List Kind :=
  (entries.filter (·.2.name == name)).map Prod.fst

/-- What is known of a rule among all registrations. -/
def infoOf (entries : List (Kind × Rule)) (rule : Rule) : RuleInfo :=
  ⟨rule.name, rule.description, kindsOf rule.name entries, rule.table⟩

/-- What is known of the rules whose names come first. -/
def infos (entries : List (Kind × Rule)) : List RuleInfo :=
  (firsts (fun a b => a.2.name == b.2.name) entries).map fun entry => infoOf entries entry.2

theorem kindsOf_concat (name : Text) (entries : List (Kind × Rule)) (kind : Kind) (rule : Rule) :
    kindsOf name (entries ++ [(kind, rule)]) =
      kindsOf name entries ++ if rule.name == name then [kind] else [] := by
  by_cases hname : rule.name == name <;> simp [kindsOf, hname]

theorem names_infos (entries : List (Kind × Rule)) :
    (infos entries).map RuleInfo.name = (entries.map (·.2.name)).eraseDups := by
  rw [infos, List.map_map, ← map_firsts]
  rfl

/-- What is known of a rule after one more registration. -/
def noted (kind : Kind) (rule : Rule) (info : RuleInfo) : RuleInfo :=
  if rule.name == info.name then { info with kinds := info.kinds ++ [kind] } else info

theorem map_noted_of_notMem (kind : Kind) {rule : Rule} {known : List RuleInfo}
    (h : rule.name ∉ known.map RuleInfo.name) : known.map (noted kind rule) = known := by
  induction known with
  | nil => rfl
  | cons info known ih =>
    rw [List.map_cons, List.mem_cons, not_or] at h
    rw [List.map_cons, ih h.2, noted, if_neg (by simpa using h.1)]

/-- One more registration adds a kind to what is known of its rule, or a rule. -/
theorem note_eq (kind : Kind) (rule : Rule) {known : List RuleInfo}
    (h : (known.map RuleInfo.name).Nodup) :
    note kind rule known = known.map (noted kind rule) ++
      if (known.map RuleInfo.name).contains rule.name then []
      else [⟨rule.name, rule.description, [kind], rule.table⟩] := by
  induction known with
  | nil => rfl
  | cons info known ih =>
    rw [List.map_cons, List.nodup_cons] at h
    rw [note, List.map_cons, List.map_cons, List.contains_cons, noted]
    by_cases hname : rule.name = info.name
    · simp [hname, map_noted_of_notMem kind (hname ▸ h.1)]
    · simp [hname, Ne.symm hname, ih h.2]

theorem infos_concat (entries : List (Kind × Rule)) (kind : Kind) (rule : Rule) :
    infos (entries ++ [(kind, rule)]) = (infos entries).map (noted kind rule) ++
      if (entries.map (·.2.name)).contains rule.name then []
      else [⟨rule.name, rule.description, [kind], rule.table⟩] := by
  have hold (entry : Kind × Rule) : infoOf (entries ++ [(kind, rule)]) entry.2 =
      noted kind rule (infoOf entries entry.2) := by
    rw [infoOf, kindsOf_concat, noted, infoOf]
    split <;> simp
  have hknown : (entries.any fun entry => entry.2.name == rule.name) =
      (entries.map (·.2.name)).contains rule.name := by
    rw [Bool.eq_iff_iff, List.contains_iff_mem]
    simp
  rw [infos, firsts_concat, List.map_append, List.map_congr_left fun entry _ => hold entry, infos,
    List.map_map, hknown]
  congr 1
  split
  · rfl
  · next hnew =>
    -- no kind of the rule is known yet
    have hkinds : kindsOf rule.name entries = [] := by
      rw [kindsOf, List.map_eq_nil_iff, List.filter_eq_nil_iff]
      rintro entry hentry hname
      exact hnew (List.contains_iff_mem.mpr (List.mem_map.mpr ⟨entry, hentry, eq_of_beq hname⟩))
    simp [infoOf, kindsOf_concat, hkinds]

theorem definitions_eq (r : Registry) : r.definitions = infos r.entries := by
  unfold definitions
  induction r.entries using List.reverseRecOn with
  | nil => rfl
  | append_singleton entries entry ih =>
    have hnodup : ((infos entries).map RuleInfo.name).Nodup := by
      rw [names_infos]
      exact nodup_eraseDups _
    have hcontains : ((infos entries).map RuleInfo.name).contains entry.2.name =
        (entries.map (·.2.name)).contains entry.2.name := by
      rw [names_infos, Bool.eq_iff_iff, List.contains_iff_mem, List.contains_iff_mem,
        List.mem_eraseDups]
    rw [List.foldl_append, List.foldl_cons, List.foldl_nil, ih, note_eq entry.1 entry.2 hnodup,
      hcontains]
    exact (infos_concat entries entry.1 entry.2).symm

/-- No two rules of a kind have one name. -/
theorem nodup_rulesOf {entries : List (Kind × Rule)} (h : (entries.map entryKey).Nodup)
    (kind : Kind) : ((rulesOf kind entries).map Rule.name).Nodup := by
  have hkeys : ((entries.filter (·.1 == kind)).map entryKey).Nodup :=
    h.sublist (List.filter_sublist.map _)
  have hnames : (entries.filter (·.1 == kind)).map entryKey =
      ((rulesOf kind entries).map Rule.name).map fun name => (kind, name) := by
    rw [rulesOf, List.map_map, List.map_map]
    refine List.map_congr_left fun entry hentry => ?_
    rw [entryKey, eq_of_beq (List.mem_filter.mp hentry).2]
    rfl
  rw [hnames] at hkeys
  exact hkeys.of_map _

/-- After any requests, sealed or not, a registry gives for a kind the rules that were accepted for
it and then those of every node, no two of one name; it knows every accepted rule once, with its
kinds.  It refuses what is offered when it is sealed, no rule, and a name that the kind has, and
then stays as it is. -/
theorem served_laws (requests : List Request) :
    (∀ kind, (served requests).rulesFor kind = rulesOf kind (accepted requests) ++
      if kind = .any then [] else rulesOf .any (accepted requests)) ∧
    (∀ kind, (served requests).freeze.rulesFor kind = (served requests).rulesFor kind) ∧
    (∀ kind, ((rulesOf kind (accepted requests)).map Rule.name).Nodup) ∧
    (served requests).definitions = infos (accepted requests) ∧
    (served requests).size = ((accepted requests).map (·.2.name)).eraseDups.length ∧
    (∀ kind rule, (served requests).register kind rule = (refusal? requests kind rule).elim
      (.ok (served (requests ++ [.register kind rule]))) .error) ∧
    (∀ kind rule, (refusal? requests kind rule).isSome →
      accepted (requests ++ [.register kind rule]) = accepted requests ∧
        served (requests ++ [.register kind rule]) = served requests) ∧
    (requests.any Request.isFreeze = true → ∀ kind rule,
      (served requests).register kind rule = .error .frozen) := by
  have hfrozen (kind : Kind) (rule : Option Rule) :
      (requests ++ [Request.register kind rule]).any Request.isFreeze =
        requests.any Request.isFreeze := by
    simp
  refine ⟨fun kind => ?_, fun kind => ?_, nodup_rulesOf (nodup_accepted requests), ?_, ?_,
    fun kind rule => ?_, fun kind rule hrefused => ?_, fun hasked kind rule => ?_⟩
  · rw [served_eq, rulesFor_eq, resolve]
    split
    · next hany => simp [hany, registered, rulesOf]
    · rfl
  · rw [rulesFor_eq, rulesFor_eq]
    rfl
  · rw [served_eq, definitions_eq]
  · rw [size, served_eq, definitions_eq, ← names_infos, List.length_map]
  · rw [served_eq, register_refusal rfl rfl, served_eq, hfrozen]
  · have haccepted : accepted (requests ++ [.register kind rule]) = accepted requests := by
      rw [accepted_register, if_pos hrefused, List.append_nil]
    rw [served_eq, served_eq, haccepted, hfrozen]
    exact ⟨rfl, rfl⟩
  · rw [served_eq, register_refusal rfl rfl, refusal?, if_pos hasked]
    rfl

/-- A rule that finds nothing. -/
def silent (name : Text) : Rule := ⟨name, [], none, fun _ _ => .ok []⟩

/-- A rule for two kinds, one for every node, and requests that are refused. -/
def session : List Request :=
  [.register .filter (silent "one"), .register .any (silent "two"),
    .register .filter (silent "one"), .register .function (silent "one"), .register .filter none,
    .freeze, .register .test (silent "late")]

theorem served_laws_session :
    session.any Request.isFreeze = true ∧ (refusal? session .test (silent "late")).isSome ∧
      served (session ++ [.register .test (silent "late")]) = served session ∧
      (served session).register .test (silent "late") = .error .frozen ∧
      (served session).definitions.map (fun info => (info.name, info.kinds)) =
        ([("one", [.filter, .function]), ("two", [.any])] : List (Text × List Kind)) := by
  obtain ⟨-, -, -, -, -, -, hrefused, hfrozen⟩ := served_laws session
  exact ⟨by decide, by decide, (hrefused .test (silent "late") (by decide)).2,
    hfrozen (by decide) .test (silent "late"), by decide⟩

end Registry

end TwigLint
