import Mathlib
import TwigLint.Project.Run
import TwigLint.Proofs.Engine.Findings

/-! # Interleavings of a worker pool

What a pool comes to does not depend on the order in which its workers take their steps.  What a
step can do is said once, in `Move`; from it come the facts that hold at every moment, `Sound`, and
so along any run.  In the end a job has crashed, or one was refused, or every job has its result in
its own place and the numbers that were reported are those from one to the number of jobs.
-/

namespace TwigLint

namespace Pool

/-- Setting an entry of a list exchanges the old one for the new one. -/
theorem cons_set_perm {α : Type} {l : List α} {i : Nat} {p : α} (h : l[i]? = some p) (q : α) :
    (p :: l.set i q).Perm (q :: l) := by
  obtain ⟨hi, rfl⟩ := List.getElem?_eq_some_iff.mp h
  calc
    (l[i] :: l.set i q).Perm (l[i] :: q :: l.eraseIdx i) :=
      (List.set_perm_cons_eraseIdx hi q).cons _
    List.Perm _ (q :: l[i] :: l.eraseIdx i) := .swap ..
    List.Perm _ (q :: l) := (List.getElem_cons_eraseIdx_perm hi).cons _

theorem countP_set_add {α : Type} {l : List α} {i : Nat} {p : α} (h : l[i]? = some p) (q : α)
    (f : α → Bool) : (l.set i q).countP f + (f p).toNat = l.countP f + (f q).toNat := by
  have hcount := (cons_set_perm h q).countP_eq f
  simp only [List.countP_cons] at hcount
  cases hp : f p <;> cases hq : f q <;> simpa [hp, hq] using hcount

namespace Phase

/-- The result of the job is in its place. -/
def hasResult : Phase → Bool
  | stored | numbered _ | reported => true
  | waiting | taken | refused => false

/-- A number was drawn for the job. -/
def hasNumber : Phase → Bool
  | numbered _ | reported => true
  | waiting | taken | stored | refused => false

/-- The number that was drawn for the job and is not reported yet. -/
def held? : Phase → Option Nat
  | numbered number => some number
  | waiting | taken | stored | reported | refused => none

theorem isIdle_of_isOver {p : Phase} (h : p.isOver = true) : p.isIdle = true := by
  cases p <;> first | rfl | exact nomatch h

/-- How many steps the job may still need. -/
def left : Phase → Nat
  | waiting => 4
  | taken => 3
  | stored => 2
  | numbered _ => 1
  | reported | refused => 0

end Phase

variable {α β ε : Type} {workers : Nat} {work : α → Except ε β} {jobs : List α}
  {s t : State α β ε}

/-! ## What a step can do -/

/-- What a step that is possible makes of a pool. -/
inductive Move (workers : Nat) (work : α → Except ε β) (s : State α β ε) : State α β ε → Prop
  | take {job : Nat} (hphase : s.phases[job]? = some .waiting) (hfree : s.busy < workers)
      (hgoes : s.cancelled = false) : Move workers work s (s.setPhase job .taken)
  | refuse {job : Nat} (hphase : s.phases[job]? = some .waiting) (hfree : s.busy < workers)
      (hcancelled : s.cancelled = true) : Move workers work s (s.setPhase job .refused)
  | store {job : Nat} {a : α} {b : β} (hphase : s.phases[job]? = some .taken)
      (hjob : s.jobs[job]? = some a) (hwork : work a = .ok b) :
      Move workers work s { s.setPhase job .stored with slots := s.slots.set job (some b) }
  | crash {job : Nat} {a : α} {e : ε} (hphase : s.phases[job]? = some .taken)
      (hjob : s.jobs[job]? = some a) (hwork : work a = .error e) :
      Move workers work s { s with crash := some e }
  | draw {job : Nat} (hphase : s.phases[job]? = some .stored) :
      Move workers work s
        { s.setPhase job (.numbered (s.drawn + 1)) with drawn := s.drawn + 1 }
  | report {job number : Nat} (hphase : s.phases[job]? = some (.numbered number)) :
      Move workers work s
        { s.setPhase job .reported with numbers := s.numbers ++ [number] }
  | cancel : Move workers work s { s with cancelled := true }

theorem next_of_crash (hcrash : s.crash.isSome = true) (step : Step) :
    s.next workers work step = s := if_pos hcrash

theorem next_cases (workers : Nat) (work : α → Except ε β) (s : State α β ε) (step : Step) :
    s.next workers work step = s ∨
      s.crash.isSome = false ∧ Move workers work s (s.next workers work step) := by
  cases hcrash : s.crash.isSome with
  | true => exact .inl (next_of_crash hcrash step)
  | false =>
    refine Or.imp_right (And.intro rfl) ?_
    simp only [State.next, hcrash, Bool.false_eq_true, if_false]
    cases step with
    | take job =>
      dsimp only
      split
      · next h =>
        cases hc : s.cancelled with
        | true => exact .inr (.refuse h.1 h.2 hc)
        | false => exact .inr (.take h.1 h.2 hc)
      · exact .inl rfl
    | store job =>
      dsimp only
      split
      · next hphase hjob =>
        split
        · next hwork => exact .inr (.store hphase hjob hwork)
        · next hwork => exact .inr (.crash hphase hjob hwork)
      · exact .inl rfl
    | draw job =>
      dsimp only
      split
      · next hphase => exact .inr (.draw hphase)
      · exact .inl rfl
    | report job =>
      dsimp only
      split
      · next hphase => exact .inr (.report hphase)
      · exact .inl rfl
    | cancel => exact .inr .cancel

theorem run_append (workers : Nat) (work : α → Except ε β) (s : State α β ε)
    (before behind : List Step) :
    s.run workers work (before ++ behind) =
      (s.run workers work before).run workers work behind :=
  List.foldl_append ..

theorem cancelled_of_next {step : Step} (h : (s.next workers work step).cancelled = true) :
    s.cancelled = true ∨ step = .cancel := by
  cases step with
  | cancel => exact .inr rfl
  | _ =>
    refine .inl ?_
    simp only [State.next] at h
    repeat' split at h
    all_goals exact h

theorem cancelled_of_run {steps : List Step}
    (h : (s.run workers work steps).cancelled = true) :
    s.cancelled = true ∨ .cancel ∈ steps := by
  induction steps generalizing s with
  | nil => exact .inl h
  | cons step steps ih =>
    rcases ih h with hnext | hmem
    · rcases cancelled_of_next hnext with hs | rfl
      · exact .inl hs
      · exact .inr (List.mem_cons_self ..)
    · exact .inr (List.mem_cons_of_mem _ hmem)

theorem busy_setPhase {job : Nat} {p : Phase} (h : s.phases[job]? = some p) (q : Phase) :
    (s.setPhase job q).busy + (!p.isIdle).toNat = s.busy + (!q.isIdle).toNat := by
  simp only [State.busy, ← List.countP_eq_length_filter]
  exact countP_set_add h q fun p => !p.isIdle

/-! ## The facts that every step keeps -/

/-- The place of a job has the result of this job, or nothing yet. -/
def Filled (work : α → Except ε β) (a : α) (p : Phase) (slot : Option β) : Prop :=
  if p.hasResult then ∃ b, work a = .ok b ∧ slot = some b else slot = none

/-- What holds at every moment of a pool that does `jobs`. -/
structure Sound (workers : Nat) (work : α → Except ε β) (jobs : List α) (s : State α β ε) :
    Prop where
  same : s.jobs = jobs
  phases : s.phases.length = jobs.length
  slots : s.slots.length = jobs.length
  filled : ∀ (i : Nat) (a : α) (p : Phase) (slot : Option β), jobs[i]? = some a →
    s.phases[i]? = some p → s.slots[i]? = some slot → Filled work a p slot
  /-- Each number that was drawn is held by one worker or was reported once. -/
  numbers : (s.phases.filterMap Phase.held? ++ s.numbers).Perm (List.range' 1 s.drawn)
  drawn : s.phases.countP Phase.hasNumber = s.drawn
  refused : .refused ∈ s.phases → s.cancelled = true
  busy : s.busy ≤ workers
  crash : ∀ e, s.crash = some e → ∃ a ∈ jobs, work a = .error e

/-- A step that neither gives a job its result nor takes it away keeps what is in the places. -/
theorem Sound.filled_set (hs : Sound workers work jobs s) {job : Nat} {p q : Phase}
    (hp : s.phases[job]? = some p) (hresult : q.hasResult = p.hasResult) (i : Nat) (a : α)
    (r : Phase) (slot : Option β) (ha : jobs[i]? = some a) :
    (s.setPhase job q).phases[i]? = some r → s.slots[i]? = some slot → Filled work a r slot := by
  intro hr hslot
  change (s.phases.set job q)[i]? = some r at hr
  by_cases hi : job = i
  · subst hi
    rw [List.getElem?_set_self (List.getElem?_eq_some_iff.mp hp).1, Option.some_inj] at hr
    have hfilled := hs.filled job a p slot ha hp hslot
    rwa [Filled, ← hresult, hr] at hfilled
  · rw [List.getElem?_set_ne hi] at hr
    exact hs.filled i a r slot ha hr hslot

namespace Move

theorem jobs_eq (h : Move workers work s t) : t.jobs = s.jobs := by
  cases h <;> rfl

theorem phases_length (h : Move workers work s t) : t.phases.length = s.phases.length := by
  cases h <;> simp [State.setPhase]

theorem slots_length (h : Move workers work s t) : t.slots.length = s.slots.length := by
  cases h <;> simp [State.setPhase]

theorem filled (h : Move workers work s t) (hs : Sound workers work jobs s) :
    ∀ (i : Nat) (a : α) (p : Phase) (slot : Option β), jobs[i]? = some a →
      t.phases[i]? = some p → t.slots[i]? = some slot → Filled work a p slot := by
  cases h with
  | take hphase => exact hs.filled_set hphase rfl
  | refuse hphase => exact hs.filled_set hphase rfl
  | draw hphase => exact hs.filled_set hphase rfl
  | report hphase => exact hs.filled_set hphase rfl
  | cancel => exact hs.filled
  | crash => exact hs.filled
  | @store job a b hphase hjob hwork =>
    intro i c r slot hc hr hslot
    change (s.phases.set job .stored)[i]? = some r at hr
    change (s.slots.set job (some b))[i]? = some slot at hslot
    have hlt := (List.getElem?_eq_some_iff.mp hphase).1
    by_cases hi : job = i
    · subst hi
      rw [hs.same, hc, Option.some_inj] at hjob
      rw [List.getElem?_set_self hlt, Option.some_inj] at hr
      rw [List.getElem?_set_self (hs.slots ▸ hs.phases ▸ hlt), Option.some_inj] at hslot
      subst hr
      exact ⟨b, hjob ▸ hwork, hslot.symm⟩
    · rw [List.getElem?_set_ne hi] at hr hslot
      exact hs.filled i c r slot hc hr hslot

theorem numbers (h : Move workers work s t) (hs : Sound workers work jobs s) :
    (t.phases.filterMap Phase.held? ++ t.numbers).Perm (List.range' 1 t.drawn) := by
  have hheld : ∀ {job : Nat} {p : Phase}, s.phases[job]? = some p → ∀ q,
      ((p :: s.phases.set job q).filterMap Phase.held?).Perm
        ((q :: s.phases).filterMap Phase.held?) :=
    fun hp q => (cons_set_perm hp q).filterMap _
  cases h with
  | take hphase => exact ((hheld hphase .taken).append_right _).trans hs.numbers
  | refuse hphase => exact ((hheld hphase .refused).append_right _).trans hs.numbers
  | store hphase => exact ((hheld hphase .stored).append_right _).trans hs.numbers
  | crash => exact hs.numbers
  | cancel => exact hs.numbers
  | draw hphase =>
    calc
      List.Perm _ ((s.drawn + 1) :: (s.phases.filterMap Phase.held? ++ s.numbers)) :=
        (hheld hphase (.numbered (s.drawn + 1))).append_right _
      List.Perm _ ((s.drawn + 1) :: List.range' 1 s.drawn) := hs.numbers.cons _
      List.Perm _ (List.range' 1 (s.drawn + 1)) := by
        rw [List.range'_1_concat, Nat.add_comm 1]
        exact (List.perm_append_singleton ..).symm
  | @report job number hphase =>
    change ((s.phases.set job .reported).filterMap Phase.held? ++ (s.numbers ++ [number])).Perm _
    calc
      List.Perm _ (number :: (s.phases.set job .reported).filterMap Phase.held? ++ s.numbers) := by
        rw [← List.append_assoc]
        exact List.perm_append_singleton ..
      List.Perm _ (s.phases.filterMap Phase.held? ++ s.numbers) :=
        (hheld hphase .reported).append_right _
      List.Perm _ (List.range' 1 s.drawn) := hs.numbers

theorem drawn (h : Move workers work s t) (hs : Sound workers work jobs s) :
    t.phases.countP Phase.hasNumber = t.drawn := by
  have hdrawn := hs.drawn
  cases h with
  | take hphase => exact (countP_set_add hphase .taken Phase.hasNumber).trans hdrawn
  | refuse hphase => exact (countP_set_add hphase .refused Phase.hasNumber).trans hdrawn
  | store hphase => exact (countP_set_add hphase .stored Phase.hasNumber).trans hdrawn
  | crash => exact hdrawn
  | cancel => exact hdrawn
  | draw hphase =>
    exact (countP_set_add hphase (.numbered (s.drawn + 1)) Phase.hasNumber).trans
      (congrArg (· + 1) hdrawn)
  | report hphase =>
    exact (Nat.add_right_cancel (countP_set_add hphase .reported Phase.hasNumber)).trans hdrawn

theorem refused (h : Move workers work s t) (hs : Sound workers work jobs s) :
    .refused ∈ t.phases → t.cancelled = true := by
  have hmem : ∀ {job : Nat} {q : Phase}, q ≠ .refused → .refused ∈ s.phases.set job q →
      s.cancelled = true := fun hq hmem =>
    (List.mem_or_eq_of_mem_set hmem).elim hs.refused fun h => absurd h.symm hq
  cases h with
  | take => exact hmem nofun
  | store => exact hmem nofun
  | draw => exact hmem nofun
  | report => exact hmem nofun
  | crash => exact hs.refused
  | refuse _ _ hcancelled => exact fun _ => hcancelled
  | cancel => exact fun _ => rfl

theorem busy (h : Move workers work s t) (hs : Sound workers work jobs s) : t.busy ≤ workers := by
  have hbusy := hs.busy
  cases h with
  | take hphase hfree => exact (busy_setPhase hphase .taken).trans_le hfree
  | refuse hphase => exact (busy_setPhase hphase .refused).trans_le hbusy
  | store hphase => exact (Nat.add_right_cancel (busy_setPhase hphase .stored)).trans_le hbusy
  | draw hphase =>
    exact (Nat.add_right_cancel (busy_setPhase hphase (.numbered _))).trans_le hbusy
  | report hphase =>
    exact Nat.le_of_succ_le ((busy_setPhase hphase .reported).trans_le hbusy)
  | crash => exact hbusy
  | cancel => exact hbusy

theorem crash_cause (h : Move workers work s t) (hs : Sound workers work jobs s) :
    ∀ e, t.crash = some e → ∃ a ∈ jobs, work a = .error e := by
  cases h with
  | @crash job a e hphase hjob hwork =>
    rintro e' he
    rw [hs.same] at hjob
    exact ⟨a, List.mem_of_getElem? hjob, hwork.trans (congrArg _ (Option.some_inj.mp he))⟩
  | _ => exact hs.crash

theorem sound (h : Move workers work s t) (hs : Sound workers work jobs s) :
    Sound workers work jobs t where
  same := h.jobs_eq.trans hs.same
  phases := h.phases_length.trans hs.phases
  slots := h.slots_length.trans hs.slots
  filled := h.filled hs
  numbers := h.numbers hs
  drawn := h.drawn hs
  refused := h.refused hs
  busy := h.busy hs
  crash := h.crash_cause hs

end Move

theorem sound_initial (workers : Nat) (work : α → Except ε β) (jobs : List α) (cancelled : Bool) :
    Sound workers work jobs (.initial jobs cancelled) where
  same := rfl
  phases := List.length_map ..
  slots := List.length_map ..
  filled i a p slot ha hp hslot := by
    simp only [State.initial, List.getElem?_map, ha, Option.map_some, Option.some_inj] at hp hslot
    subst hp
    exact hslot.symm
  numbers := by simp [State.initial, Phase.held?]
  drawn := by simp [State.initial, Phase.hasNumber]
  refused h := by simp [State.initial] at h
  busy := by simp [State.initial, State.busy, Phase.isIdle]
  crash := nofun

theorem sound_next (hs : Sound workers work jobs s) (step : Step) :
    Sound workers work jobs (s.next workers work step) := by
  rcases next_cases workers work s step with h | ⟨-, h⟩
  · rwa [h]
  · exact h.sound hs

theorem sound_run (hs : Sound workers work jobs s) (steps : List Step) :
    Sound workers work jobs (s.run workers work steps) := by
  induction steps generalizing s with
  | nil => exact hs
  | cons step steps ih => exact ih (sound_next hs step)

/-! ## Numbers and results -/

/-- At its end, a pool in which no job crashed or was refused has reported all jobs. -/
theorem eq_reported (hover : s.isOver = true) (hcrash : s.crash = none)
    (hrefused : .refused ∉ s.phases) {p : Phase} (hp : p ∈ s.phases) : p = .reported := by
  rw [State.isOver, hcrash, Option.isSome_none, Bool.false_or, List.all_eq_true] at hover
  have hp' := hover p hp
  cases p with
  | reported => rfl
  | refused => exact absurd hp hrefused
  | _ => exact nomatch hp'

namespace Sound

theorem drawn_le (hs : Sound workers work jobs s) : s.drawn ≤ jobs.length :=
  hs.drawn ▸ hs.phases ▸ List.countP_le_length

theorem nodup_numbers (hs : Sound workers work jobs s) : s.numbers.Nodup :=
  (List.nodup_append.mp (hs.numbers.nodup_iff.mpr List.nodup_range')).2.1

theorem number_bounds (hs : Sound workers work jobs s) {number : Nat} (h : number ∈ s.numbers) :
    1 ≤ number ∧ number ≤ jobs.length := by
  have hmem := hs.numbers.mem_iff.mp (List.mem_append_right _ h)
  rw [List.mem_range'_1] at hmem
  have hle := hs.drawn_le
  omega

section Done

variable (hs : Sound workers work jobs s) (hover : s.isOver = true) (hcrash : s.crash = none)
  (hrefused : .refused ∉ s.phases)

include hs hover hcrash hrefused

theorem numbers_perm : s.numbers.Perm (List.range' 1 jobs.length) := by
  have hphases : s.phases = List.replicate jobs.length .reported :=
    List.eq_replicate_iff.mpr ⟨hs.phases, fun _ => eq_reported hover hcrash hrefused⟩
  have hnumbers := hs.numbers
  rw [← hs.drawn, hphases, List.filterMap_replicate_of_none rfl, List.countP_replicate] at hnumbers
  exact hnumbers

/-- The place of every job has the result of this job. -/
theorem place {i : Nat} {a : α} (ha : jobs[i]? = some a) :
    ∃ b, work a = .ok b ∧ s.slots[i]? = some (some b) := by
  have hlt := (List.getElem?_eq_some_iff.mp ha).1
  have hp := List.getElem?_eq_getElem (hs.phases ▸ hlt : i < s.phases.length)
  have hslot := List.getElem?_eq_getElem (hs.slots ▸ hlt : i < s.slots.length)
  rw [eq_reported hover hcrash hrefused (List.getElem_mem _)] at hp
  obtain ⟨b, hwork, hb⟩ := hs.filled i a _ _ ha hp hslot
  exact ⟨b, hwork, hb ▸ hslot⟩

/-- The results are those of all jobs, in the order of the jobs. -/
theorem results : ∃ bs, jobs.map work = bs.map .ok ∧ s.results? = some bs := by
  have hok : jobs.map work ∈ Set.range (List.map (Except.ok : β → Except ε β)) := by
    rw [Set.range_list_map]
    intro x hx
    obtain ⟨a, ha, rfl⟩ := List.mem_map.mp hx
    obtain ⟨i, hi⟩ := List.getElem?_of_mem ha
    obtain ⟨b, hwork, -⟩ := hs.place hover hcrash hrefused hi
    exact ⟨b, hwork.symm⟩
  obtain ⟨bs, hbs⟩ := hok
  refine ⟨bs, hbs.symm, ?_⟩
  have hslots : s.slots = bs.map some := by
    refine List.ext_getElem? fun i => ?_
    have hi := congrArg (·[i]?) hbs
    simp only [List.getElem?_map] at hi ⊢
    cases ha : jobs[i]? with
    | none =>
      rw [ha, Option.map_none, Option.map_eq_none_iff] at hi
      rw [hi, Option.map_none, List.getElem?_eq_none_iff, hs.slots]
      exact List.getElem?_eq_none_iff.mp ha
    | some a =>
      obtain ⟨b, hwork, hslot⟩ := hs.place hover hcrash hrefused ha
      rw [ha, Option.map_some, hwork, Option.map_eq_some_iff] at hi
      obtain ⟨b', hb', heq⟩ := hi
      rw [hslot, hb', Option.map_some, Except.ok.inj heq]
  rw [State.results?, if_neg (by simpa using hrefused), hslots, List.mapM_map]
  exact (List.mapM_pure ..).trans (congrArg some (List.map_id bs))

end Done

end Sound

/-! ## Every run can be completed -/

/-- How many steps the jobs of a pool may still need. -/
def left (s : State α β ε) : Nat := (s.phases.map Phase.left).sum

theorem left_setPhase {job : Nat} {p : Phase} (h : s.phases[job]? = some p) (q : Phase) :
    p.left + left (s.setPhase job q) = q.left + left s := by
  have hsum := ((cons_set_perm h q).map Phase.left).sum_eq
  rwa [List.map_cons, List.sum_cons, List.map_cons, List.sum_cons] at hsum

/-- A step gets on when it ends the pool or brings a job nearer to its end. -/
def GetsOn (s t : State α β ε) : Prop := t.isOver = true ∨ left t < left s

theorem getsOn_setPhase {job : Nat} {p q : Phase} (hp : s.phases[job]? = some p)
    (hlt : q.left < p.left) (ht : t.phases = (s.setPhase job q).phases) : GetsOn s t := by
  have hleft := left_setPhase hp q
  refine .inr ?_
  rw [left, ht]
  change left (s.setPhase job q) < left s
  omega

section Progress

variable (hcrash : s.crash.isSome = false)

include hcrash

/-- A worker that has taken a job can always go on with it. -/
theorem next_of_busy (hs : Sound workers work jobs s) {job : Nat} {p : Phase}
    (hp : s.phases[job]? = some p) (hbusy : p.isIdle = false) :
    ∃ step, GetsOn s (s.next workers work step) := by
  cases p with
  | taken =>
    have hlt : job < jobs.length := hs.phases ▸ (List.getElem?_eq_some_iff.mp hp).1
    have hjob : s.jobs[job]? = some jobs[job] := by rw [hs.same, List.getElem?_eq_getElem]
    refine ⟨.store job, ?_⟩
    simp only [State.next, hcrash, hp, hjob, Bool.false_eq_true, if_false]
    cases work jobs[job] with
    | error e => exact .inl rfl
    | ok b => exact getsOn_setPhase hp (by decide : Phase.stored.left < _) rfl
  | stored =>
    refine ⟨.draw job, ?_⟩
    simp only [State.next, hcrash, hp, Bool.false_eq_true, if_false, if_true]
    exact getsOn_setPhase hp (Nat.lt_succ_self _ : (Phase.numbered _).left < _) rfl
  | numbered number =>
    refine ⟨.report job, ?_⟩
    simp only [State.next, hcrash, hp, Bool.false_eq_true, if_false]
    exact getsOn_setPhase hp (Nat.lt_succ_self _ : Phase.reported.left < _) rfl
  | _ => exact nomatch hbusy

/-- A free worker can take a job that waits. -/
theorem next_of_waiting {job : Nat} (hp : s.phases[job]? = some .waiting)
    (hfree : s.busy < workers) : ∃ step, GetsOn s (s.next workers work step) := by
  refine ⟨.take job, ?_⟩
  simp only [State.next, hcrash, hp, hfree, Bool.false_eq_true, if_false, and_self, if_true]
  split
  · exact getsOn_setPhase hp (by decide : Phase.refused.left < _) rfl
  · exact getsOn_setPhase hp (by decide : Phase.taken.left < _) rfl

end Progress

/-- As long as a pool is not at its end, there is a step that gets on. -/
theorem exists_next (hworkers : 1 ≤ workers) (hs : Sound workers work jobs s)
    (hover : s.isOver = false) : ∃ step, GetsOn s (s.next workers work step) := by
  obtain ⟨hcrash, hphases⟩ := Bool.or_eq_false_iff.mp hover
  by_cases hbusy : ∃ p ∈ s.phases, p.isIdle = false
  · obtain ⟨p, hmem, hp⟩ := hbusy
    obtain ⟨job, hjob⟩ := List.getElem?_of_mem hmem
    exact next_of_busy hcrash hs hjob hp
  · -- All workers are free, so a job that is not over waits.
    obtain ⟨p, hmem, hp⟩ := List.all_eq_false.mp hphases
    obtain ⟨job, hjob⟩ := List.getElem?_of_mem hmem
    have hidle : ∀ q ∈ s.phases, q.isIdle = true := by simpa using hbusy
    have hnone : s.busy = 0 := by
      rw [State.busy, List.length_eq_zero_iff, List.filter_eq_nil_iff]
      simpa using hidle
    have hwaiting : p = .waiting := by
      have := hidle p hmem
      cases p <;> first | rfl | exact absurd rfl hp | exact nomatch this
    exact next_of_waiting hcrash (hwaiting ▸ hjob) (hnone ▸ hworkers)

theorem completes (hworkers : 1 ≤ workers) (hs : Sound workers work jobs s) :
    ∃ more, (s.run workers work more).isOver = true := by
  induction hn : left s using Nat.strongRecOn generalizing s with
  | ind n ih =>
    cases hover : s.isOver with
    | true => exact ⟨[], hover⟩
    | false =>
      obtain ⟨step, hend | hleft⟩ := exists_next hworkers hs hover
      · exact ⟨[step], hend⟩
      · obtain ⟨more, hmore⟩ := ih _ (hn ▸ hleft) (sound_next hs step) rfl
        exact ⟨step :: more, hmore⟩

/-! ## A single worker -/

theorem run_of_crash (hcrash : s.crash.isSome = true) (steps : List Step) :
    s.run workers work steps = s := by
  induction steps with
  | nil => rfl
  | cons step steps ih => rwa [State.run, List.foldl_cons, next_of_crash hcrash]

/-- A worker that is alone brings the job it takes to its end and touches no other, unless the job
crashes. -/
theorem run_turn {job : Nat} {a : α} (hcrash : s.crash.isSome = false)
    (hphase : s.phases[job]? = some .waiting) (hjob : s.jobs[job]? = some a) (hidle : s.busy = 0) :
    (s.run 1 work (turn job)).crash.isSome = true ∨
      ∃ p, p.isOver = true ∧ (s.run 1 work (turn job)).phases = s.phases.set job p := by
  have hset : ∀ p, (s.phases.set job p)[job]? = some p := fun p =>
    List.getElem?_set_self (List.getElem?_eq_some_iff.mp hphase).1
  have htake : s.next 1 work (.take job) =
      s.setPhase job (if s.cancelled then .refused else .taken) := by
    simp only [State.next, hcrash, hphase, hidle, Nat.lt_one_iff, and_self, if_true,
      Bool.false_eq_true, if_false]
    split <;> rfl
  simp only [State.run, turn, List.foldl_cons, List.foldl_nil, htake]
  cases s.cancelled with
  | true =>
    refine .inr ⟨.refused, rfl, ?_⟩
    simp only [State.next, State.setPhase, hcrash, if_true, hset, Option.some_inj, reduceCtorEq,
      Bool.false_eq_true, if_false]
  | false =>
    cases hwork : work a with
    | error e =>
      refine .inl ?_
      simp only [State.next, State.setPhase, hcrash, hset, hjob, hwork, Bool.false_eq_true,
        if_false, Option.isSome_some, if_true]
    | ok b =>
      refine .inr ⟨.reported, rfl, ?_⟩
      simp only [State.next, State.setPhase, hcrash, hset, hjob, hwork, Bool.false_eq_true,
        if_false, if_true, List.set_set]

/-- A job has crashed, or the first `k` jobs are over and the others wait. -/
def Through (k : Nat) (s : State α β ε) : Prop :=
  s.crash.isSome = true ∨
    ∀ i p, s.phases[i]? = some p → if i < k then p.isOver = true else p = .waiting

theorem Through.turn {k : Nat} (h : Through k s) (hs : Sound 1 work jobs s)
    (hk : k < jobs.length) : Through (k + 1) (s.run 1 work (Pool.turn k)) := by
  cases hcrash : s.crash.isSome with
  | true => exact .inl (by rwa [run_of_crash hcrash])
  | false =>
    have h := h.resolve_left (by simp [hcrash])
    have hlt : k < s.phases.length := hs.phases ▸ hk
    have hphase : s.phases[k]? = some .waiting := by
      have hwaiting := h k _ (List.getElem?_eq_getElem hlt)
      rw [if_neg (Nat.lt_irrefl k)] at hwaiting
      rw [List.getElem?_eq_getElem hlt, hwaiting]
    have hidle : s.busy = 0 := by
      rw [State.busy, List.length_eq_zero_iff, List.filter_eq_nil_iff]
      intro p hp
      obtain ⟨i, hi⟩ := List.getElem?_of_mem hp
      have hi := h i p hi
      split at hi
      · simp [Phase.isIdle_of_isOver hi]
      · simp [hi, Phase.isIdle]
    have hjob : s.jobs[k]? = some jobs[k] := by rw [hs.same, List.getElem?_eq_getElem]
    refine (run_turn hcrash hphase hjob hidle).imp_right ?_
    rintro ⟨q, hq, hset⟩ i p hp
    rw [hset] at hp
    by_cases hik : k = i
    · subst hik
      rw [List.getElem?_set_self hlt, Option.some_inj] at hp
      rwa [if_pos (Nat.lt_succ_self k), ← hp]
    · rw [List.getElem?_set_ne hik] at hp
      have hi := h i p hp
      split at hi <;> split <;> first | exact hi | omega

theorem through_turns (work : α → Except ε β) (jobs : List α) (cancelled : Bool) {k : Nat}
    (hk : k ≤ jobs.length) :
    Through k ((State.initial jobs cancelled).run 1 work ((List.range k).flatMap turn)) := by
  induction k with
  | zero =>
    refine .inr fun i p hp => ?_
    obtain ⟨a, -, ha⟩ := List.mem_map.mp (List.mem_of_getElem? hp)
    rw [if_neg (Nat.not_lt_zero i), ha]
  | succ k ih =>
    have hs := sound_run (sound_initial 1 work jobs cancelled) ((List.range k).flatMap turn)
    rw [List.range_succ, List.flatMap_append, run_append, List.flatMap_singleton]
    exact (ih (Nat.le_of_succ_le hk)).turn hs hk

theorem isOver_inOrder (work : α → Except ε β) (jobs : List α) (cancelled : Bool) :
    ((State.initial jobs cancelled).run 1 work (inOrder jobs.length)).isOver = true := by
  have hs := sound_run (sound_initial 1 work jobs cancelled) (inOrder jobs.length)
  refine Bool.or_eq_true_iff.mpr ((through_turns work jobs cancelled le_rfl).imp_right ?_)
  intro hphases
  refine List.all_eq_true.mpr fun p hp => ?_
  obtain ⟨i, hi⟩ := List.getElem?_of_mem hp
  have hover := hphases i p hi
  rwa [if_pos (hs.phases ▸ (List.getElem?_eq_some_iff.mp hi).1)] at hover

theorem cancel_not_mem_inOrder (n : Nat) : .cancel ∉ inOrder n := by
  simp [inOrder, turn]

end Pool

/-! ## Batches of components -/

namespace Run

open Pool

/-- What comes of a batch at its end: the crash of a job, the cancellation of a refused one, or all
results. -/
theorem outcome_cases {v : Validator} {workers : Nat} {jobs : List Job}
    {s : State Job (Result × ComponentReport) Crash} (hs : Sound workers (validateOne v) jobs s)
    (hover : s.isOver = true) :
    (∃ job ∈ jobs, ∃ c, validateOne v job = .error c ∧ outcome s = .error (.crashed c)) ∨
    (outcome s = .error .cancelled ∧ s.cancelled = true) ∨
    ∃ validated, outcome s = .ok validated ∧ jobs.map (validateOne v) = validated.map .ok ∧
      s.numbers.Perm (List.range' 1 jobs.length) := by
  cases hcrash : s.crash with
  | some c =>
    obtain ⟨job, hjob, hc⟩ := hs.crash c hcrash
    exact .inl ⟨job, hjob, c, hc, by rw [outcome, hcrash]⟩
  | none =>
    by_cases hrefused : .refused ∈ s.phases
    · have hnone : s.results? = none := if_pos (by simpa using hrefused)
      exact .inr (.inl ⟨by simp only [outcome, hcrash, hnone], hs.refused hrefused⟩)
    · obtain ⟨validated, hmap, hresults⟩ := hs.results hover hcrash hrefused
      refine .inr (.inr ⟨validated, ?_, hmap, hs.numbers_perm hover hcrash hrefused⟩)
      simp only [outcome, hcrash, hresults]

/-- A single worker that is not cancelled validates all components, if none crashes. -/
theorem validate_eq {v : Validator} {jobs : List Job} {validated : List (Result × ComponentReport)}
    (h : jobs.map (validateOne v) = validated.map .ok) : validate v false jobs = .ok validated := by
  have hs := sound_run (sound_initial 1 (validateOne v) jobs false) (inOrder jobs.length)
  rcases outcome_cases hs (isOver_inOrder (validateOne v) jobs false) with
    ⟨job, hjob, c, hc, -⟩ | ⟨-, hcancelled⟩ | ⟨others, houtcome, hmap, -⟩
  · obtain ⟨x, -, hx⟩ := List.mem_map.mp (h ▸ List.mem_map_of_mem hjob)
    exact nomatch hx.trans hc
  · rcases cancelled_of_run hcancelled with hfalse | hmem
    · exact nomatch hfalse
    · exact absurd hmem (cancel_not_mem_inOrder _)
  · rw [validate, houtcome]
    exact congrArg _ (List.map_injective_iff.mpr (fun _ _ => Except.ok.inj) (hmap.symm.trans h))

/-- The results of a batch of components do not depend on the order in which the workers take
their steps.  At every moment each number from one to the number of jobs was reported at most once,
no more workers are busy than there may be, and the batch can be completed.  At the end a job has
crashed, or the batch was cancelled and has no results, or the results are those of all jobs in
their order, which are also those of a single worker. -/
theorem batch_independent_of_schedule (v : Validator) {workers : Nat} (hworkers : 1 ≤ workers)
    (cancelled : Bool) (jobs : List Job) (steps : List Step) :
    let s := (State.initial jobs cancelled).run workers (validateOne v) steps
    s.numbers.Nodup ∧ (∀ number ∈ s.numbers, 1 ≤ number ∧ number ≤ jobs.length) ∧
    s.busy ≤ workers ∧
    (∃ more, (s.run workers (validateOne v) more).isOver = true) ∧
    (s.isOver = true →
      (∃ job ∈ jobs, ∃ c, validateOne v job = .error c ∧ outcome s = .error (.crashed c)) ∨
      (outcome s = .error .cancelled ∧ (cancelled = true ∨ .cancel ∈ steps)) ∨
      ∃ validated, outcome s = .ok validated ∧
        jobs.map (validateOne v) = validated.map .ok ∧
        validate v false jobs = .ok validated ∧
        s.numbers.Perm (List.range' 1 jobs.length)) := by
  intro s
  have hs : Sound workers (validateOne v) jobs s :=
    sound_run (sound_initial workers (validateOne v) jobs cancelled) steps
  refine ⟨hs.nodup_numbers, fun _ => hs.number_bounds, hs.busy, completes hworkers hs,
    fun hover => ?_⟩
  refine (outcome_cases hs hover).imp_right (Or.imp ?_ ?_)
  · rintro ⟨houtcome, hcancelled⟩
    exact ⟨houtcome, cancelled_of_run hcancelled⟩
  · rintro ⟨validated, houtcome, hmap, hnumbers⟩
    exact ⟨validated, houtcome, hmap, validate_eq hmap, hnumbers⟩

/-- Two workers, of which the second is the first to store and the last to report. -/
theorem batch_independent_of_schedule_crossed :
    let v := Validator.plain [] false
    let unknown : Definition :=
      { Definition.new "p" "a" "a.component.yml" with
        template := some ("a.twig", "\x7b\x7b a \x7d\x7d") }
    let empty : Definition :=
      { Definition.new "p" "b" "b.component.yml" with template := some ("b.twig", []) }
    let jobs : List Job := [⟨"p", unknown⟩, ⟨"p", empty⟩]
    let steps : List Step :=
      [.take 0, .take 1, .store 1, .draw 1, .store 0, .draw 0, .report 0, .report 1]
    let s := (State.initial jobs false).run 2 (validateOne v) steps
    let found : List (Text × List Text) := [("p:a", ["name"]), ("p:b", [])]
    s.isOver = true ∧ s.numbers = [2, 1] ∧
      ∃ validated, outcome s = .ok validated ∧ validate v false jobs = .ok validated ∧
        validated.map (fun r => (r.1.id, r.1.diagnostics.map (·.rule))) = found := by
  intro v unknown empty jobs steps s found
  have hover : s.isOver = true := by decide +kernel
  have hfound : (outcome s).toOption.map
      (·.map fun r => (r.1.id, r.1.diagnostics.map (·.rule))) = some found := by decide +kernel
  obtain ⟨-, -, -, -, hend⟩ :=
    batch_independent_of_schedule v (by decide : 1 ≤ 2) false jobs steps
  rcases hend hover with ⟨-, -, c, -, hc⟩ | ⟨hc, -⟩ | ⟨validated, houtcome, -, hvalidate, -⟩
  · rw [hc] at hfound
    exact nomatch hfound
  · rw [hc] at hfound
    exact nomatch hfound
  · rw [houtcome] at hfound
    exact ⟨hover, by decide +kernel, validated, houtcome, hvalidate, Option.some_inj.mp hfound⟩

end Run

end TwigLint
