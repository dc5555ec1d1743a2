import AlpacaCpp.Foundation.Machine

/-!
# A mutex and a condition variable beside a machine

A machine whose threads wait for conditions lets a waiting thread go on as soon as its condition holds.
A program does less. With the mutex in hand the thread looks at its condition; when that fails it gives
the mutex back and sleeps, and looks again only when it has been woken. `Monitor.sleeping` is that
program, step by step: between the look and the sleep the thread is `dozing`, no locked section runs, and
everything that needs no mutex does. A thread that sleeps takes no step, and a thread that owes a
`notify_all` takes no other step before it. A `notify_all` wakes those who sleep, not one who dozes.

Waking may be forgotten, and then a thread sleeps although its condition holds. `Monitor.Notifies` is the
discipline that excludes it: a condition becomes true in a locked section that notifies, inside or right
behind it, or else such a section is `due`. Under it **no wake-up is lost**
(`Monitor.Notifies.wakeful_of_run`), whatever the interleaving and however often threads wake for no
reason.

Sleeping adds no behaviour to the machine (`run_of_sleeping`), so what holds of all runs of the machine holds
with the condition variable.
-/

/-- Whether a label wakes the threads that sleep. -/
inductive Notice
  | silent
  /-- `notify_all` with the mutex in hand. -/
  | inside
  /-- `notify_all` behind the locked section, as the next step of the same thread. -/
  | behind
  deriving DecidableEq

/-- A machine and what its threads wait for. -/
structure Monitor (σ α τ : Type*) where
  machine : Machine σ α
  /-- The thread a label belongs to. -/
  actor : α → τ
  /-- The label is a locked section. -/
  locked : α → Bool
  notice : σ → α → Notice
  /-- The thread stands at a wait. -/
  waits : τ → σ → Bool
  /-- The condition of the wait the thread stands at. -/
  condition : τ → σ → Bool
  /-- No thread of the machine has the mutex. -/
  free : σ → Bool

/-- A state and where its threads are with the condition variable. -/
structure Monitored (σ τ : Type*) where
  state : σ
  /-- The thread that has found its condition false and still has the mutex. -/
  dozing : Option τ
  asleep : List τ
  /-- The threads that are about to notify. -/
  owing : List τ
  deriving DecidableEq

/-- The labels of a machine with a condition variable. -/
inductive MonitorAction (α τ : Type*)
  | act (a : α)
  /-- The thread takes the mutex and finds its condition false. -/
  | look (i : τ)
  /-- It gives the mutex back and sleeps. -/
  | sleep (i : τ)
  /-- The `notify_all` a thread owes. -/
  | notify (i : τ)
  /-- The thread wakes for no reason, or because its time is over. -/
  | wake (i : τ)
  deriving DecidableEq

namespace Monitor

variable {σ α τ : Type*} {M : Monitor σ α τ}

/-- What a label does to the threads that sleep. -/
def announce (M : Monitor σ α τ) (s : Monitored σ τ) (a : α) (t : σ) : Monitored σ τ :=
  match M.notice s.state a with
  | .silent => { s with state := t }
  | .inside => { s with state := t, asleep := [] }
  | .behind => { s with state := t, owing := M.actor a :: s.owing }

/-- The label is a locked section that notifies. -/
def Announces (M : Monitor σ α τ) (s : σ) (a : α) : Prop :=
  M.locked a = true ∧ M.notice s a ≠ .silent

/-- All threads awake. -/
def awake (s : σ) : Monitored σ τ := ⟨s, none, [], []⟩

@[simp] theorem state_announce (s : Monitored σ τ) (a : α) (t : σ) : (M.announce s a t).state = t := by
  rw [announce]
  split <;> rfl

@[simp] theorem dozing_announce (s : Monitored σ τ) (a : α) (t : σ) :
    (M.announce s a t).dozing = s.dozing := by
  rw [announce]
  split <;> rfl

/-- Nobody falls asleep while a label is taken. -/
theorem mem_of_mem_announce {s : Monitored σ τ} {a : α} {t : σ} {i : τ}
    (h : i ∈ (M.announce s a t).asleep) : i ∈ s.asleep ∧ M.notice s.state a ≠ .inside := by
  rw [announce] at h
  split at h
  case h_1 hn => exact ⟨h, by simp [hn]⟩
  case h_2 => exact absurd h List.not_mem_nil
  case h_3 hn => exact ⟨h, by simp [hn]⟩

/-- What is owed stays owed while a label is taken, and a label that notifies behind its section owes. -/
theorem owing_announce {s : Monitored σ τ} {a : α} {t : σ}
    (h : s.owing ≠ [] ∨ M.notice s.state a = .behind) : (M.announce s a t).owing ≠ [] := by
  rw [announce]
  split
  case h_1 hn => exact h.resolve_right (by simp [hn])
  case h_2 hn => exact h.resolve_right (by simp [hn])
  case h_3 => exact List.cons_ne_nil _ _

/-! ### The discipline -/

/-- **The discipline of notifying**, where `due` says that a thread has a locked section that notifies
still before it. -/
structure Notifies (M : Monitor σ α τ) (due : σ → Prop) : Prop where
  /-- A thread leaves its wait by a step of its own. -/
  waits_of_step : ∀ {s t a i}, M.machine.step s a = some t → M.actor a ≠ i → M.waits i s = true →
    M.waits i t = true
  /-- A condition that becomes true while its thread waits is announced, or its announcement is due. -/
  announced : ∀ {s t a i}, M.machine.step s a = some t → M.actor a ≠ i → M.waits i s = true →
    M.condition i s = false → M.condition i t = true → M.Announces s a ∨ due t
  /-- A section that is due is not skipped. -/
  due_of_step : ∀ {s t a}, M.machine.step s a = some t → due s → M.Announces s a ∨ due t

/-- A thread that sleeps although its condition holds is going to be woken, and one that dozes is going
to be woken by a section that comes after it has fallen asleep. -/
structure Wakeful (M : Monitor σ α τ) (due : σ → Prop) (s : Monitored σ τ) : Prop where
  asleep : ∀ i ∈ s.asleep, M.waits i s.state = true ∧
    (M.condition i s.state = true → s.owing ≠ [] ∨ due s.state)
  dozing : ∀ i ∈ s.dozing, M.waits i s.state = true ∧ (M.condition i s.state = true → due s.state)

theorem wakeful_awake (due : σ → Prop) (s : σ) : M.Wakeful due (awake s) where
  asleep _ hi := absurd hi List.not_mem_nil
  dozing _ hi := absurd hi (Option.not_mem_none _)

variable {due : σ → Prop}

/-- What a step leaves of a condition that may hold. -/
theorem Notifies.announces_of_condition (hM : M.Notifies due) {s t : σ} {a : α} {i : τ} {owed : Prop}
    (hstep : M.machine.step s a = some t) (hne : M.actor a ≠ i) (hwaits : M.waits i s = true)
    (h : M.condition i s = true → owed ∨ due s) (ht : M.condition i t = true) :
    owed ∨ M.Announces s a ∨ due t := by
  rcases hs : M.condition i s with - | -
  · exact .inr (hM.announced hstep hne hwaits hs ht)
  · exact (h hs).imp_right (hM.due_of_step hstep)

/-- A label of the machine. -/
theorem Notifies.wakeful_announce (hM : M.Notifies due) {s : Monitored σ τ} (h : M.Wakeful due s)
    {a : α} {t : σ} (hasleep : M.actor a ∉ s.asleep) (hdozing : M.actor a ∉ s.dozing)
    (hlocked : M.locked a = true → s.dozing = none) (hstep : M.machine.step s.state a = some t) :
    M.Wakeful due (M.announce s a t) where
  asleep i hi := by
    obtain ⟨hi, hinside⟩ := mem_of_mem_announce hi
    have hne : M.actor a ≠ i := fun heq ↦ hasleep (heq ▸ hi)
    obtain ⟨hwaits, hwake⟩ := h.asleep i hi
    rw [state_announce]
    refine ⟨hM.waits_of_step hstep hne hwaits, fun hcond ↦ ?_⟩
    rcases hM.announces_of_condition hstep hne hwaits hwake hcond with howing | ⟨-, hloud⟩ | hdue
    · exact .inl (owing_announce (.inl howing))
    · -- it does not notify inside, or `i` would be awake
      refine .inl (owing_announce (.inr ?_))
      rcases hn : M.notice s.state a with - | - | -
      · exact absurd hn hloud
      · exact absurd hn hinside
      · rfl
    · exact .inr hdue
  dozing i hi := by
    rw [dozing_announce] at hi
    have hne : M.actor a ≠ i := fun heq ↦ hdozing (heq ▸ hi)
    obtain ⟨hwaits, hwake⟩ := h.dozing i hi
    rw [state_announce]
    refine ⟨hM.waits_of_step hstep hne hwaits, fun hcond ↦ ?_⟩
    have hwake' : M.condition i s.state = true → False ∨ due s.state := fun hc ↦ .inr (hwake hc)
    rcases hM.announces_of_condition hstep hne hwaits hwake' hcond with hfalse | ⟨hlock, -⟩ | hdue
    · exact hfalse.elim
    · -- no locked section runs while a thread dozes
      rw [hlocked hlock] at hi
      exact absurd hi (Option.not_mem_none _)
    · exact hdue

/-- When nothing is owed and nothing due, whoever sleeps has every reason to. -/
theorem Wakeful.condition_eq_false {s : Monitored σ τ} (h : M.Wakeful due s) (howing : s.owing = [])
    (hdue : ¬due s.state) {i : τ} (hi : i ∈ s.asleep) : M.condition i s.state = false := by
  rcases hc : M.condition i s.state with - | -
  · rfl
  · exact absurd ((h.asleep i hi).2 hc) (by simp [howing, hdue])

/-! ### The program -/

variable [DecidableEq τ]

/-- The machine with its condition variable. -/
def sleeping (M : Monitor σ α τ) : Machine (Monitored σ τ) (MonitorAction α τ) where
  step s
    | .act a =>
      if M.actor a ∉ s.asleep ∧ M.actor a ∉ s.dozing ∧ M.actor a ∉ s.owing ∧
          (M.locked a = true → s.dozing = none) then
        (M.machine.step s.state a).map (M.announce s a)
      else none
    | .look i =>
      whenever (M.waits i s.state ∧ M.free s.state ∧ ¬M.condition i s.state ∧ s.dozing = none ∧
          i ∉ s.asleep ∧ i ∉ s.owing)
        { s with dozing := some i }
    | .sleep i => whenever (i ∈ s.dozing) { s with dozing := none, asleep := i :: s.asleep }
    | .notify i =>
      whenever (i ∈ s.owing) { s with asleep := [], owing := s.owing.erase i }
    | .wake i => whenever (i ∈ s.asleep) { s with asleep := s.asleep.filter (· ≠ i) }

/-- A step of the machine, taken by a thread that is awake and owes nothing. -/
theorem step_act {s u : Monitored σ τ} {a : α} : M.sleeping.step s (.act a) = some u ↔
    (M.actor a ∉ s.asleep ∧ M.actor a ∉ s.dozing ∧ M.actor a ∉ s.owing ∧
      (M.locked a = true → s.dozing = none)) ∧
      ∃ t, M.machine.step s.state a = some t ∧ M.announce s a t = u := by
  simp only [sleeping, Option.ite_none_right_eq_some, Option.map_eq_some_iff]

/-- A notification that is owed wakes everybody. -/
theorem exists_notified {s : Monitored σ τ} {i : τ} (h : i ∈ s.owing) :
    ∃ u, M.sleeping.run s [.notify i] = some u ∧ u.asleep = [] := by
  refine ⟨{ s with asleep := [], owing := s.owing.erase i }, ?_, rfl⟩
  rw [Machine.run_singleton]
  exact whenever_eq_some.2 ⟨h, rfl⟩

/-- **Step lemma.** A thread that looks finds its condition false, and dozes; what makes it true behind its
back announces that, or is due. -/
theorem Notifies.wakeful_of_step (hM : M.Notifies due) {s u : Monitored σ τ} (h : M.Wakeful due s)
    {a : MonitorAction α τ} (hstep : M.sleeping.step s a = some u) : M.Wakeful due u := by
  cases a with
  | act a =>
    obtain ⟨⟨hasleep, hdozing, -, hlocked⟩, t, ht, rfl⟩ := step_act.1 hstep
    exact hM.wakeful_announce h hasleep hdozing hlocked ht
  | look i =>
    obtain ⟨⟨hwaits, -, hcond, -⟩, rfl⟩ := whenever_eq_some.1 hstep
    refine ⟨h.asleep, fun j hj ↦ ?_⟩
    obtain rfl := Option.mem_some_iff.1 hj
    exact ⟨hwaits, fun hc ↦ absurd hc hcond⟩
  | sleep i =>
    obtain ⟨hi, rfl⟩ := whenever_eq_some.1 hstep
    obtain ⟨hwaits, hwake⟩ := h.dozing i hi
    exact ⟨List.forall_mem_cons.2 ⟨⟨hwaits, fun hc ↦ .inr (hwake hc)⟩, h.asleep⟩,
      fun j hj ↦ absurd hj (Option.not_mem_none _)⟩
  | notify i =>
    obtain ⟨-, rfl⟩ := whenever_eq_some.1 hstep
    exact ⟨List.forall_mem_nil _, h.dozing⟩
  | wake i =>
    obtain ⟨-, rfl⟩ := whenever_eq_some.1 hstep
    exact ⟨fun j hj ↦ h.asleep j (List.mem_of_mem_filter hj), h.dozing⟩

/-- **No lost wake-up**, over whole runs. -/
theorem Notifies.wakeful_of_run (hM : M.Notifies due) {s : σ} {u : Monitored σ τ}
    {as : List (MonitorAction α τ)} (h : M.sleeping.run (awake s) as = some u) : M.Wakeful due u :=
  (Machine.runsUnder_true_iff.2 h).invariant (fun _ _ _ hs _ hstep ↦ hM.wakeful_of_step hs hstep)
    (wakeful_awake due s)

/-! ### No new behaviours -/

/-- The label of the machine, if it is one. -/
def label : MonitorAction α τ → Option α
  | .act a => some a
  | _ => none

omit [DecidableEq τ] in
@[simp] theorem filterMap_label_act (a : α) : [(MonitorAction.act a : MonitorAction α τ)].filterMap label = [a] :=
  rfl

/-- A step of the program is a step of the machine, or none. -/
theorem run_of_step {s u : Monitored σ τ} {a : MonitorAction α τ} (h : M.sleeping.step s a = some u) :
    M.machine.run s.state (label a).toList = some u.state := by
  cases a with
  | act a =>
    obtain ⟨-, t, ht, rfl⟩ := step_act.1 h
    rw [label, Option.toList_some, Machine.run_singleton, ht, state_announce]
  | look i | sleep i | notify i | wake i =>
    obtain ⟨-, rfl⟩ := whenever_eq_some.1 h
    rfl

/-- **A run of the program is a run of the machine**, once sleeping and waking are left out. -/
theorem run_of_sleeping {s u : Monitored σ τ} {as : List (MonitorAction α τ)}
    (h : M.sleeping.run s as = some u) : M.machine.run s.state (as.filterMap label) = some u.state := by
  induction as generalizing s with
  | nil => exact congrArg (Option.map Monitored.state) h
  | cons a as ih =>
    rw [Machine.run_cons, Option.bind_eq_some_iff] at h
    obtain ⟨t, hstep, hrun⟩ := h
    have hfilter : (a :: as).filterMap label = (label a).toList ++ as.filterMap label := by
      rw [List.filterMap_cons]
      rcases label a with - | b <;> rfl
    rw [hfilter, Machine.run_append, run_of_step hstep, Option.bind_some]
    exact ih hrun

end Monitor
