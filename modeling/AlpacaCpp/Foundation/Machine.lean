import Mathlib.Data.List.Basic

/-!
# Labelled machines and their runs

The execution substrate for every concurrent component of this development: a machine is a
partial step function on states, one label per atomic action of any thread. A label carries
whatever the environment decides (which thread moves, the value a clock returns, whether a
weak compare-exchange fails spuriously), so a run is nothing but a list of labels and the
quantifier "over every interleaving" is a quantifier over lists.

Two notions of run are kept apart:

* `run` is the executable one, `none` as soon as a label is disabled;
* `RunsUnder C` is a run every step of which satisfies `C`, a condition on the state **before**
  the step and on its label. This is how a claim about all runs that respect some discipline is
  stated, and `C := fun _ _ ↦ True` recovers `run` (`runsUnder_true_iff`).

The induction over runs is packaged once, in `RunsUnder.invariant` for state invariants, and in
`RunsUnder.invariant_trace` and `RunsUnder.invariant_labels` for relations between the state and the
observations made, or the labels taken, so far. Every safety theorem downstream is one step lemma
handed to one of the three, and a step lemma that is an equivalence gives one for whole runs by
`runsUnder_iff_forall_state`.

Where time matters, `timed` puts a monotone clock beside a machine: the labels that read the clock
carry the reading, and a reading never goes back.
-/

/-- A labelled machine. `step s a = none` means that the action `a` is not enabled in `s`. -/
structure Machine (σ α : Type*) where
  /-- One atomic step. -/
  step : σ → α → Option σ

/-- A step that is enabled under a guard. -/
def whenever {σ : Type*} (guard : Prop) [Decidable guard] (t : σ) : Option σ :=
  if guard then some t else none

/-- A guarded step is taken when its guard holds. -/
@[simp] theorem whenever_eq_some {σ : Type*} {guard : Prop} [Decidable guard] {t u : σ} :
    whenever guard t = some u ↔ guard ∧ t = u := by
  unfold whenever
  split
  case isTrue h => simp [h]
  case isFalse h => simp [h]

namespace Machine

variable {σ α ω : Type*} (M : Machine σ α)

/-! ### Executable runs -/

/-- Execute a list of actions, stopping with `none` at the first disabled one. -/
def run (M : Machine σ α) (s : σ) : List α → Option σ
  | [] => some s
  | a :: as => (M.step s a).bind fun t ↦ M.run t as

@[simp] theorem run_nil (s : σ) : M.run s [] = some s := rfl

theorem run_cons (s : σ) (a : α) (as : List α) :
    M.run s (a :: as) = (M.step s a).bind fun t ↦ M.run t as := rfl

@[simp] theorem run_singleton (s : σ) (a : α) : M.run s [a] = M.step s a := by
  rw [run_cons]
  exact Option.bind_fun_some _

/-- A run splits at any point of its label list. -/
theorem run_append (s : σ) (as bs : List α) :
    M.run s (as ++ bs) = (M.run s as).bind fun t ↦ M.run t bs := by
  induction as generalizing s with
  | nil => rfl
  | cons a as ih =>
    rw [List.cons_append, run_cons, run_cons]
    rcases M.step s a with - | t
    · rfl
    · exact ih t

/-! ### Runs under a discipline -/

/-- A run whose every step satisfies `C`, evaluated at the state before the step. -/
def RunsUnder (M : Machine σ α) (C : σ → α → Prop) : σ → List α → σ → Prop
  | s, [], u => s = u
  | s, a :: as, u => C s a ∧ ∃ t, M.step s a = some t ∧ M.RunsUnder C t as u

variable {M} {C : σ → α → Prop}

@[simp] theorem runsUnder_nil {s u : σ} : M.RunsUnder C s [] u ↔ s = u := Iff.rfl

theorem runsUnder_cons {s u : σ} {a : α} {as : List α} :
    M.RunsUnder C s (a :: as) u ↔
      C s a ∧ ∃ t, M.step s a = some t ∧ M.RunsUnder C t as u := Iff.rfl

/-- Without a discipline the two notions of run coincide. -/
theorem runsUnder_true_iff {s u : σ} {as : List α} :
    M.RunsUnder (fun _ _ ↦ True) s as u ↔ M.run s as = some u := by
  induction as generalizing s with
  | nil => simp
  | cons a as ih =>
    rw [runsUnder_cons, run_cons, Option.bind_eq_some_iff]
    simp only [true_and, ih]

/-- A disciplined run is a run. -/
theorem RunsUnder.run_eq {s u : σ} {as : List α} (h : M.RunsUnder C s as u) :
    M.run s as = some u := by
  induction as generalizing s with
  | nil => exact congrArg some h
  | cons a as ih =>
    obtain ⟨-, t, hstep, hrun⟩ := h
    rw [run_cons, hstep, Option.bind_some]
    exact ih hrun

/-- A disciplined run splits as well, and both parts are disciplined. -/
theorem runsUnder_append {s u : σ} {as bs : List α} :
    M.RunsUnder C s (as ++ bs) u ↔ ∃ t, M.RunsUnder C s as t ∧ M.RunsUnder C t bs u := by
  induction as generalizing s with
  | nil => simp
  | cons a as ih =>
    simp only [List.cons_append, runsUnder_cons, ih]
    constructor
    · rintro ⟨hC, t, hstep, w, has, hbs⟩
      exact ⟨w, ⟨hC, t, hstep, has⟩, hbs⟩
    · rintro ⟨w, ⟨hC, t, hstep, has⟩, hbs⟩
      exact ⟨hC, t, hstep, w, has, hbs⟩

/-- Behind a given disciplined run, only the rest is left to examine. -/
theorem RunsUnder.append_iff {s t u : σ} {as bs : List α} (h : M.RunsUnder C s as t) :
    M.RunsUnder C s (as ++ bs) u ↔ M.RunsUnder C t bs u := by
  rw [runsUnder_append]
  constructor
  · rintro ⟨w, has, hbs⟩
    obtain rfl : w = t := Option.some.inj (has.run_eq.symm.trans h.run_eq)
    exact hbs
  · exact fun hbs ↦ ⟨t, h, hbs⟩

/-- A disciplined run whose labels all satisfy `P` is a run under both. -/
theorem RunsUnder.and_forall {P : α → Prop} {s u : σ} {as : List α} (h : M.RunsUnder C s as u)
    (hP : ∀ a ∈ as, P a) : M.RunsUnder (fun s a ↦ C s a ∧ P a) s as u := by
  induction as generalizing s with
  | nil => exact h
  | cons a as ih =>
    obtain ⟨hC, t, hstep, hrun⟩ := h
    rw [List.forall_mem_cons] at hP
    exact ⟨⟨hC, hP.1⟩, t, hstep, ih hrun hP.2⟩

/-! ### Checking a run -/

/-- Execute a list of actions under a decidable discipline: `none` at the first action that is
disabled or breaks it. -/
def check (M : Machine σ α) (C : σ → α → Prop) [∀ s a, Decidable (C s a)] (s : σ) :
    List α → Option σ
  | [] => some s
  | a :: as => if C s a then (M.step s a).bind fun t ↦ M.check C t as else none

/-- A concrete disciplined run is established by evaluation. -/
theorem runsUnder_iff_check [∀ s a, Decidable (C s a)] {s u : σ} {as : List α} :
    M.RunsUnder C s as u ↔ M.check C s as = some u := by
  induction as generalizing s with
  | nil => simp [check]
  | cons a as ih =>
    rw [runsUnder_cons, check]
    split
    case isTrue hC =>
      rw [Option.bind_eq_some_iff]
      simp only [hC, true_and, ih]
    case isFalse hC => simp [hC]

/-- The state a list of actions leads to, or the first state if one of them is disabled. -/
def after (M : Machine σ α) (s : σ) (as : List α) : σ := (M.run s as).getD s

/-- The state behind a checked run. -/
theorem runsUnder_of_check [∀ s a, Decidable (C s a)] {s : σ} {as : List α}
    (h : (M.check C s as).isSome) : M.RunsUnder C s as (M.after s as) := by
  obtain ⟨u, hu⟩ := Option.isSome_iff_exists.1 h
  have hrun := runsUnder_iff_check.2 hu
  rw [after, hrun.run_eq]
  exact hrun

/-- A concrete run checked as a whole is a run from each of its states to each later one. -/
theorem runsUnder_after [∀ s a, Decidable (C s a)] {s : σ} {as bs : List α}
    (h : (M.check C s (as ++ bs)).isSome) :
    M.RunsUnder C (M.after s as) bs (M.after s (as ++ bs)) := by
  obtain ⟨t, has, hbs⟩ := runsUnder_append.1 (runsUnder_of_check h)
  rwa [after, has.run_eq]

/-! ### The induction over runs -/

/-- **Invariants.** What every disciplined step preserves, every disciplined run preserves. -/
theorem RunsUnder.invariant {P : σ → Prop}
    (hstep : ∀ s a t, P s → C s a → M.step s a = some t → P t)
    {s u : σ} {as : List α} (h : M.RunsUnder C s as u) (hs : P s) : P u := by
  induction as generalizing s with
  | nil => exact h ▸ hs
  | cons a as ih =>
    obtain ⟨hC, t, hst, hrun⟩ := h
    exact ih hrun (hstep s a t hs hC hst)

/-- **Forbidden labels.** What an invariant rules out in one step never occurs along a run. -/
theorem RunsUnder.forall_mem {P : σ → Prop} {Q : α → Prop}
    (hstep : ∀ s a t, P s → C s a → M.step s a = some t → Q a ∧ P t)
    {s u : σ} {as : List α} (h : M.RunsUnder C s as u) (hs : P s) : ∀ a ∈ as, Q a := by
  induction as generalizing s with
  | nil => exact List.forall_mem_nil _
  | cons a as ih =>
    obtain ⟨hC, t, hst, hrun⟩ := h
    obtain ⟨hQ, ht⟩ := hstep s a t hs hC hst
    exact List.forall_mem_cons.2 ⟨hQ, ih hrun ht⟩

/-- **Forward simulation.** If every disciplined step of one machine is matched by a step of another with
the same label, every disciplined run is. -/
theorem RunsUnder.simulate {τ : Type*} {N : Machine τ α} {R : σ → τ → Prop}
    (hstep : ∀ s a s' t, R s t → C s a → M.step s a = some s' → ∃ t', N.step t a = some t' ∧ R s' t')
    {s u : σ} {as : List α} (h : M.RunsUnder C s as u) {t : τ} (hs : R s t) :
    ∃ v, N.run t as = some v ∧ R u v := by
  induction as generalizing s t with
  | nil => exact ⟨t, rfl, h ▸ hs⟩
  | cons a as ih =>
    obtain ⟨hC, s', hst, hrun⟩ := h
    obtain ⟨t', ht', hR⟩ := hstep s a s' t hs hC hst
    obtain ⟨v, hv, hRv⟩ := ih hrun hR
    exact ⟨v, by rw [run_cons, ht', Option.bind_some, hv], hRv⟩

/-- The observations made along a run, oldest first. -/
def trace (M : Machine σ α) (obs : σ → α → Option ω) (s : σ) : List α → List ω
  | [] => []
  | a :: as =>
    match M.step s a with
    | none => []
    | some t => (obs s a).toList ++ M.trace obs t as

/-- **Invariants with a history.** A relation between the state and the observations made so far,
preserved by every disciplined step, holds after every disciplined run. -/
theorem RunsUnder.invariant_trace {obs : σ → α → Option ω} {P : σ → List ω → Prop}
    (hstep : ∀ s a t log, P s log → C s a → M.step s a = some t →
      P t (log ++ (obs s a).toList))
    {s u : σ} {as : List α} (h : M.RunsUnder C s as u) {log : List ω} (hs : P s log) :
    P u (log ++ M.trace obs s as) := by
  induction as generalizing s log with
  | nil =>
    rw [trace, List.append_nil]
    exact h ▸ hs
  | cons a as ih =>
    obtain ⟨hC, t, hst, hrun⟩ := h
    have hrest := ih hrun (hstep s a t log hs hC hst)
    rw [List.append_assoc] at hrest
    rw [trace, hst]
    exact hrest

/-- **Invariants with the labels.** A relation between the state and the labels taken so far, preserved
by every disciplined step, holds after every disciplined run. -/
theorem RunsUnder.invariant_labels {P : σ → List α → Prop}
    (hstep : ∀ s a t l, P s l → C s a → M.step s a = some t → P t (l ++ [a]))
    {s u : σ} {as l : List α} (h : M.RunsUnder C s as u) (hs : P s l) : P u (l ++ as) := by
  induction as generalizing s l with
  | nil =>
    rw [List.append_nil]
    exact h ▸ hs
  | cons a as ih =>
    obtain ⟨hC, t, hst, hrun⟩ := h
    have hrest := ih hrun (hstep s a t l hs hC hst)
    rwa [List.append_assoc] at hrest

/-- **Exact conditions.** If a step from a good state leads to a good one exactly when it meets `C`, a
run meets `C` at every step exactly when every state on its way is good. -/
theorem runsUnder_iff_forall_state {P : σ → Prop}
    (hstep : ∀ s a t, P s → M.step s a = some t → (P t ↔ C s a)) {s u : σ} {as : List α} (hs : P s)
    (h : M.run s as = some u) :
    M.RunsUnder C s as u ↔ ∀ as' t, as' <+: as → M.run s as' = some t → P t := by
  induction as generalizing s with
  | nil =>
    obtain rfl := Option.some.inj h
    refine ⟨fun _ as' t hprefix hrun ↦ ?_, fun _ ↦ rfl⟩
    rw [List.prefix_nil.1 hprefix, run_nil] at hrun
    exact Option.some.inj hrun ▸ hs
  | cons a as ih =>
    obtain ⟨t, hst, hrun⟩ := Option.bind_eq_some_iff.1 h
    constructor
    · -- A prefix is empty, or takes the first step and is a prefix of the rest.
      rintro ⟨hC, t', hst', hrest⟩ as' v hprefix hrun'
      obtain rfl := Option.some.inj (hst.symm.trans hst')
      have ht : P t := (hstep s a t hs hst).2 hC
      rcases as' with - | ⟨a', as'⟩
      · exact Option.some.inj hrun' ▸ hs
      · obtain ⟨rfl, htail⟩ := List.cons_prefix_cons.1 hprefix
        rw [run_cons, hst, Option.bind_some] at hrun'
        exact (ih ht hrun).1 hrest as' v htail hrun'
    · intro hall
      have ht : P t := hall [a] t (List.cons_prefix_cons.2 ⟨rfl, List.nil_prefix⟩)
        ((run_singleton M s a).trans hst)
      refine ⟨(hstep s a t hs hst).1 ht, t, hst, (ih ht hrun).2 fun as' v hprefix hrun' ↦ ?_⟩
      refine hall (a :: as') v (List.cons_prefix_cons.2 ⟨rfl, hprefix⟩) ?_
      rw [run_cons, hst, Option.bind_some, hrun']

end Machine

/-! ### A clock beside the machine -/

/-- A state together with the latest reading of the clock. -/
structure Timed (σ : Type*) where
  state : σ
  now : ℕ
  deriving DecidableEq

namespace Machine

variable {σ α : Type*} {M : Machine σ α} {reading : α → Option ℕ}

/-- A machine with a monotone clock: a label with a reading happens at that reading, and is enabled
only if the clock has not passed it. -/
def timed (M : Machine σ α) (reading : α → Option ℕ) : Machine (Timed σ) α where
  step s a := (M.step s.state a).bind fun t ↦
    whenever (s.now ≤ (reading a).getD s.now) ⟨t, (reading a).getD s.now⟩

/-- A step of the timed machine is a step of the machine, and the clock does not go back. -/
theorem timed_step_eq_some {s t : Timed σ} {a : α} :
    (M.timed reading).step s a = some t ↔
      M.step s.state a = some t.state ∧ t.now = (reading a).getD s.now ∧ s.now ≤ t.now := by
  simp only [timed, Option.bind_eq_some_iff, whenever_eq_some]
  constructor
  · rintro ⟨u, hu, hle, rfl⟩
    exact ⟨hu, rfl, hle⟩
  · rintro ⟨hstep, hnow, hle⟩
    exact ⟨t.state, hstep, hnow ▸ hle, by rw [← hnow]⟩

end Machine
