/-
Machines: partial step functions whose labels resolve every choice.

A `Machine` has a set of initial states and a partial step `step s a`; the
label `a` carries everything the environment decides (which thread moves, what
a system call returns), so a run is a list of labels.

* `Reachable` / `ReachableUnder P` — the states of all runs, respectively of
  the runs whose every step `a` from `s` satisfies `P s a`;
* `ReachableUnder.invariant` — the one induction on runs: what holds initially
  and is kept by every step holds in every state reached;
* `throughout_iff_stepsMeet` — exact conditions: if from a good state a step
  leads to a good state exactly when it meets `P`, then a run stays good
  exactly when all its steps meet `P`;
* `stepsRelate_iff_stepsMeet` — the same for what every step does;
* `collect` — the history of a run;
* `Ensures` — total correctness: every run is bounded and ends in a state that
  satisfies `Q`; a measure bounds the runs, progress keeps them from stopping
  early;
* `Simulation` — a step-by-step correspondence between two machines, and the
  transport of reachability along it;
* `ForwardSimulation` — the same with a relation, and a run for every step;
* `recording` — a machine with a record of its run.
-/
import Mathlib.Data.Nat.Init
import Mathlib.Logic.Basic

/-- A labelled partial transition function with its initial states. -/
structure Machine (σ : Type*) (α : Type*) where
  init : σ → Prop
  step : σ → α → Option σ

namespace Machine

variable {σ α τ β : Type*} (M : Machine σ α)

/-- Follow a list of labels; `none` if one of them is not enabled. -/
def run : σ → List α → Option σ
  | s, [] => some s
  | s, a :: as => (M.step s a).bind fun t => run t as

theorem run_cons_eq_some {s u : σ} {a : α} {as : List α} :
    M.run s (a :: as) = some u ↔ ∃ t, M.step s a = some t ∧ M.run t as = some u := by
  simp [run, Option.bind_eq_some_iff]

theorem run_append (s : σ) (as bs : List α) :
    M.run s (as ++ bs) = (M.run s as).bind fun t => M.run t bs := by
  induction as generalizing s with
  | nil => rfl
  | cons a as ih =>
    rw [List.cons_append, run, run, Option.bind_assoc]
    exact Option.bind_congr fun t _ => ih t

/-- A run whose labels satisfy `Q` leads from `s` to `t`. -/
def LeadsBy (Q : α → Prop) (s t : σ) : Prop := ∃ as, (∀ a ∈ as, Q a) ∧ M.run s as = some t

/-- Some run leads from `s` to `t`. -/
def Leads (s t : σ) : Prop := M.LeadsBy (fun _ => True) s t

theorem LeadsBy.refl (Q : α → Prop) (s : σ) : M.LeadsBy Q s s :=
  ⟨[], fun _ ha => absurd ha List.not_mem_nil, rfl⟩

theorem Leads.refl (s : σ) : M.Leads s s := LeadsBy.refl M _ s

section Leads

variable {M} {Q : α → Prop} {s t u : σ} {a : α}

theorem LeadsBy.single (ha : Q a) (h : M.step s a = some t) : M.LeadsBy Q s t :=
  ⟨[a], fun _ hb => List.mem_singleton.mp hb ▸ ha, M.run_cons_eq_some.mpr ⟨t, h, rfl⟩⟩

theorem LeadsBy.trans (h : M.LeadsBy Q s t) (h' : M.LeadsBy Q t u) : M.LeadsBy Q s u := by
  obtain ⟨as, hQ, has⟩ := h
  obtain ⟨bs, hQ', hbs⟩ := h'
  refine ⟨as ++ bs, fun a ha => (List.mem_append.mp ha).elim (hQ a) (hQ' a), ?_⟩
  rw [run_append, has]
  exact hbs

theorem Leads.single (h : M.step s a = some t) : M.Leads s t := LeadsBy.single trivial h

theorem Leads.trans (h : M.Leads s t) (h' : M.Leads t u) : M.Leads s u := LeadsBy.trans h h'

end Leads

/-- States reached by runs all of whose steps satisfy `P`. -/
inductive ReachableUnder (P : σ → α → Prop) : σ → Prop
  | init {s : σ} : M.init s → ReachableUnder P s
  | step {s t : σ} {a : α} :
      ReachableUnder P s → P s a → M.step s a = some t → ReachableUnder P t

/-- States reached by some run. -/
def Reachable : σ → Prop := M.ReachableUnder fun _ _ => True

variable {M}

/-- The invariant rule. -/
theorem ReachableUnder.invariant {P : σ → α → Prop} {I : σ → Prop}
    (hinit : ∀ s, M.init s → I s)
    (hstep : ∀ s a t, I s → P s a → M.step s a = some t → I t)
    {s : σ} (h : M.ReachableUnder P s) : I s := by
  induction h with
  | init hs => exact hinit _ hs
  | step _ hP ht ih => exact hstep _ _ _ ih hP ht

theorem ReachableUnder.mono {P Q : σ → α → Prop} (hPQ : ∀ s a, P s a → Q s a)
    {s : σ} (h : M.ReachableUnder P s) : M.ReachableUnder Q s := by
  induction h with
  | init hs => exact .init hs
  | step _ hP ht ih => exact .step ih (hPQ _ _ hP) ht

theorem Reachable.invariant {I : σ → Prop} (hinit : ∀ s, M.init s → I s)
    (hstep : ∀ s a t, I s → M.step s a = some t → I t)
    {s : σ} (h : M.Reachable s) : I s :=
  ReachableUnder.invariant hinit (fun s a t hs _ => hstep s a t hs) h

theorem Reachable.next {s t : σ} {a : α} (h : M.Reachable s)
    (ht : M.step s a = some t) : M.Reachable t :=
  .step h trivial ht

/-! ### Conditions along a run -/

variable (M)

/-- Every step of the run `as` from `s` meets `P`. -/
def StepsMeet (P : σ → α → Prop) : σ → List α → Prop
  | _, [] => True
  | s, a :: as => ∀ t, M.step s a = some t → P s a ∧ StepsMeet P t as

/-- Every state visited by the run `as` from `s`, its end points included,
satisfies `Q`. -/
def Throughout (Q : σ → Prop) : σ → List α → Prop
  | s, [] => Q s
  | s, a :: as => Q s ∧ ∀ t, M.step s a = some t → Throughout Q t as

/-- Every step of the run `as` from `s` satisfies `R`. -/
def StepsRelate (R : σ → α → σ → Prop) : σ → List α → Prop
  | _, [] => True
  | s, a :: as => ∀ t, M.step s a = some t → R s a t ∧ StepsRelate R t as

variable {M}

theorem Throughout.start {Q : σ → Prop} {s : σ} {as : List α}
    (h : M.Throughout Q s as) : Q s := by
  cases as with
  | nil => exact h
  | cons a as => exact h.1

theorem Throughout.final {Q : σ → Prop} {as : List α} {s t : σ}
    (h : M.Throughout Q s as) (ht : M.run s as = some t) : Q t := by
  induction as generalizing s with
  | nil =>
    obtain rfl : s = t := Option.some.inj ht
    exact h
  | cons a as ih =>
    obtain ⟨u, hu, hrest⟩ := (M.run_cons_eq_some).mp ht
    exact ih (h.2 u hu) hrest

theorem Throughout.mono {Q Q' : σ → Prop} (hQ : ∀ s, Q s → Q' s) {as : List α} {s : σ}
    (h : M.Throughout Q s as) : M.Throughout Q' s as := by
  induction as generalizing s with
  | nil => exact hQ s h
  | cons a as ih => exact ⟨hQ s h.1, fun t ht => ih (h.2 t ht)⟩

theorem StepsMeet.mono {P P' : σ → α → Prop} (hP : ∀ s a, P s a → P' s a) {as : List α} {s : σ}
    (h : M.StepsMeet P s as) : M.StepsMeet P' s as := by
  induction as generalizing s with
  | nil => trivial
  | cons a as ih => exact fun t ht => ⟨hP s a (h t ht).1, ih (h t ht).2⟩

theorem StepsMeet.at {P : σ → α → Prop} (as bs : List α) {a : α} {s t u : σ}
    (h : M.StepsMeet P s (as ++ a :: bs)) (ht : M.run s as = some t)
    (hu : M.step t a = some u) : P t a := by
  induction as generalizing s with
  | nil =>
    obtain rfl : s = t := Option.some.inj ht
    exact (h u hu).1
  | cons b as ih =>
    obtain ⟨v, hv, hrest⟩ := (M.run_cons_eq_some).mp ht
    exact ih (h v hv).2 hrest

/-- The invariant rule for one run, whose steps meet `P`. -/
theorem StepsMeet.invariant {P : σ → α → Prop} {I : σ → Prop}
    (hstep : ∀ s a t, I s → P s a → M.step s a = some t → I t) (as : List α) {s t : σ}
    (h : M.StepsMeet P s as) (hs : I s) (ht : M.run s as = some t) : I t := by
  induction as generalizing s with
  | nil =>
    obtain rfl : s = t := Option.some.inj ht
    exact hs
  | cons a as ih =>
    obtain ⟨u, hu, hrest⟩ := (M.run_cons_eq_some).mp ht
    obtain ⟨hP, hmeet⟩ := h u hu
    exact ih hmeet (hstep s a u hs hP hu) hrest

/-- What such a step does under the invariant, every step of the run does. -/
theorem StepsMeet.stepsRelate {P : σ → α → Prop} {I : σ → Prop} {R : σ → α → σ → Prop}
    (hI : ∀ s a t, I s → P s a → M.step s a = some t → I t)
    (hR : ∀ s a t, I s → P s a → M.step s a = some t → R s a t) :
    ∀ (as : List α) {s : σ}, I s → M.StepsMeet P s as → M.StepsRelate R s as := by
  intro as
  induction as with
  | nil => exact fun _ _ => trivial
  | cons a as ih =>
    intro s hs h t ht
    obtain ⟨hP, hrest⟩ := h t ht
    exact ⟨hR s a t hs hP ht, ih (hI s a t hs hP ht) hrest⟩

/-- Exact conditions: under an invariant `I`, a good state is followed by a
good state exactly when the step meets `P`; so a run stays good exactly when
all its steps meet `P`. -/
theorem throughout_iff_stepsMeet {I Q : σ → Prop} {P : σ → α → Prop}
    (hI : ∀ s a t, I s → M.step s a = some t → I t)
    (hQ : ∀ s a t, I s → Q s → M.step s a = some t → (Q t ↔ P s a)) :
    ∀ (as : List α) {s : σ}, I s → Q s → (M.Throughout Q s as ↔ M.StepsMeet P s as) := by
  intro as
  induction as with
  | nil =>
    intro s _ hs
    exact ⟨fun _ => trivial, fun _ => hs⟩
  | cons a as ih =>
    intro s his hs
    constructor
    · rintro ⟨-, h⟩ t ht
      have hQt : Q t := (h t ht).start
      exact ⟨(hQ s a t his hs ht).mp hQt, (ih (hI s a t his ht) hQt).mp (h t ht)⟩
    · intro h
      refine ⟨hs, fun t ht => ?_⟩
      obtain ⟨hP, hrest⟩ := h t ht
      exact (ih (hI s a t his ht) ((hQ s a t his hs ht).mpr hP)).mpr hrest

/-- Every state of a run has what an invariant says. -/
theorem Throughout.of_invariant {I Q : σ → Prop}
    (hI : ∀ s a t, I s → M.step s a = some t → I t) (hQ : ∀ s, I s → Q s) :
    ∀ (as : List α) {s : σ}, I s → M.Throughout Q s as := by
  intro as
  induction as with
  | nil => exact fun his => hQ _ his
  | cons a as ih => exact fun his => ⟨hQ _ his, fun t ht => ih (hI _ a t his ht)⟩

/-- Under an invariant every step of a run does what one step does. -/
theorem StepsRelate.of_invariant {I : σ → Prop} {R : σ → α → σ → Prop}
    (hI : ∀ s a t, I s → M.step s a = some t → I t)
    (hR : ∀ s a t, I s → M.step s a = some t → R s a t) :
    ∀ (as : List α) {s : σ}, I s → M.StepsRelate R s as := by
  intro as
  induction as with
  | nil => exact fun _ => trivial
  | cons a as ih => exact fun his t ht => ⟨hR _ a t his ht, ih (hI _ a t his ht)⟩

/-- Exact conditions for steps: as long as the steps meet `P` the invariant `I`
is kept, and under `I` a step satisfies `R` exactly when it meets `P`. -/
theorem stepsRelate_iff_stepsMeet {I : σ → Prop} {P : σ → α → Prop} {R : σ → α → σ → Prop}
    (hI : ∀ s a t, I s → P s a → M.step s a = some t → I t)
    (hR : ∀ s a t, I s → M.step s a = some t → (R s a t ↔ P s a)) :
    ∀ (as : List α) {s : σ}, I s → (M.StepsRelate R s as ↔ M.StepsMeet P s as) := by
  intro as
  induction as with
  | nil => exact fun _ => ⟨fun _ => trivial, fun _ => trivial⟩
  | cons a as ih =>
    intro s his
    constructor
    · intro h t ht
      have hP : P s a := (hR s a t his ht).mp (h t ht).1
      exact ⟨hP, (ih (hI s a t his hP ht)).mp (h t ht).2⟩
    · intro h t ht
      have hP : P s a := (h t ht).1
      exact ⟨(hR s a t his ht).mpr hP, (ih (hI s a t his hP ht)).mpr (h t ht).2⟩

/-! ### Histories -/

variable (M) in
/-- What the steps of a run yield, in order. -/
def collect (f : σ → α → Option τ) : σ → List α → List τ
  | _, [] => []
  | s, a :: as =>
    match M.step s a with
    | some t => (f s a).toList ++ collect f t as
    | none => []

theorem collect_cons {f : σ → α → Option τ} {s t : σ} {a : α} (ht : M.step s a = some t)
    (as : List α) : M.collect f s (a :: as) = (f s a).toList ++ M.collect f t as := by
  rw [collect, ht]

theorem StepsRelate.at {R : σ → α → σ → Prop} (as bs : List α) {a : α} {s t u : σ}
    (h : M.StepsRelate R s (as ++ a :: bs)) (ht : M.run s as = some t)
    (hu : M.step t a = some u) : R t a u := by
  induction as generalizing s with
  | nil =>
    obtain rfl : s = t := Option.some.inj ht
    exact (h u hu).1
  | cons b as ih =>
    obtain ⟨v, hv, hrest⟩ := (M.run_cons_eq_some).mp ht
    exact ih (h v hv).2 hrest

/-- Follow a list of labels that satisfy `P`; `none` if one of them does not. -/
def runUnder (M : Machine σ α) (P : σ → α → Prop) [∀ s a, Decidable (P s a)] :
    σ → List α → Option σ
  | s, [] => some s
  | s, a :: as => if P s a then (M.step s a).bind fun t => runUnder M P t as else none

theorem ReachableUnder.runUnder {P : σ → α → Prop} [∀ s a, Decidable (P s a)] :
    ∀ (as : List α) {s t : σ}, M.ReachableUnder P s → M.runUnder P s as = some t →
      M.ReachableUnder P t := by
  intro as
  induction as with
  | nil =>
    intro s t h ht
    obtain rfl : s = t := Option.some.inj ht
    exact h
  | cons a as ih =>
    intro s t h ht
    rw [Machine.runUnder] at ht
    by_cases hP : P s a
    · rw [if_pos hP] at ht
      obtain ⟨u, hu, hrest⟩ := Option.bind_eq_some_iff.mp ht
      exact ih (.step h hP hu) hrest
    · rw [if_neg hP] at ht
      exact absurd ht (by simp)

theorem StepsMeet.of_runUnder {P : σ → α → Prop} [∀ s a, Decidable (P s a)] :
    ∀ (as : List α) {s t : σ}, M.runUnder P s as = some t → M.StepsMeet P s as := by
  intro as
  induction as with
  | nil => exact fun _ => trivial
  | cons a as ih =>
    intro s t ht
    rw [Machine.runUnder] at ht
    by_cases hP : P s a
    · rw [if_pos hP] at ht
      obtain ⟨u, hu, hrest⟩ := Option.bind_eq_some_iff.mp ht
      intro v hv
      obtain rfl : u = v := Option.some.inj (hu.symm.trans hv)
      exact ⟨hP, ih hrest⟩
    · rw [if_neg hP] at ht
      exact absurd ht (by simp)

theorem Reachable.run {as : List α} {s t : σ} (h : M.Reachable s)
    (ht : M.run s as = some t) : M.Reachable t := by
  induction as generalizing s with
  | nil =>
    obtain rfl : s = t := Option.some.inj ht
    exact h
  | cons a as ih =>
    obtain ⟨u, hu, hrest⟩ := (M.run_cons_eq_some).mp ht
    exact ih (h.next hu) hrest

/-! ### Runs that end -/

section Ends

variable (M) in
/-- No step is possible. -/
def Final (s : σ) : Prop := ∀ a, M.step s a = none

variable (M) in
/-- Every run from `s` comes to an end, in a state that satisfies `Q`. -/
def Ensures (Q : σ → Prop) (s : σ) : Prop :=
  (∃ n, ∀ as t, M.run s as = some t → as.length ≤ n) ∧
    ∀ as t, M.run s as = some t → M.Final t → Q t

/-- The invariant rule for the runs from one state. -/
theorem run_invariant {I : σ → Prop} (hI : ∀ s a t, I s → M.step s a = some t → I t) :
    ∀ (as : List α) {s t : σ}, I s → M.run s as = some t → I t := by
  intro as
  induction as with
  | nil =>
    intro s t hs ht
    obtain rfl : s = t := Option.some.inj ht
    exact hs
  | cons a as ih =>
    intro s t hs ht
    obtain ⟨u, hu, hrest⟩ := (M.run_cons_eq_some).mp ht
    exact ih (hI s a u hs hu) hrest

variable {I : σ → Prop} {μ : σ → ℕ}

/-- A measure that every step lowers bounds the length of a run. -/
theorem run_length_le (hI : ∀ s a t, I s → M.step s a = some t → I t)
    (hμ : ∀ s a t, I s → M.step s a = some t → μ t < μ s) :
    ∀ (as : List α) {s t : σ}, I s → M.run s as = some t → as.length ≤ μ s := by
  intro as
  induction as with
  | nil => exact fun _ _ => Nat.zero_le _
  | cons a as ih =>
    intro s t hs ht
    obtain ⟨u, hu, hrest⟩ := (M.run_cons_eq_some).mp ht
    have hlower : μ u < μ s := hμ s a u hs hu
    have htail : as.length ≤ μ u := ih (hI s a u hs hu) hrest
    exact Nat.succ_le_of_lt (Nat.lt_of_le_of_lt htail hlower)

/-- When steps lower a measure, and until `D` holds some step is possible that
keeps `I`, some run leads to `D`. -/
theorem exists_run {D : σ → Prop} (hμ : ∀ s a t, I s → M.step s a = some t → μ t < μ s)
    (hprogress : ∀ s, I s → ¬ D s → ∃ a t, M.step s a = some t ∧ I t) {s : σ} (hs : I s) :
    ∃ as t, M.run s as = some t ∧ I t ∧ D t := by
  -- by strong induction on the measure
  induction hn : μ s using Nat.strong_induction_on generalizing s with
  | h n ih =>
    by_cases hD : D s
    · exact ⟨[], s, rfl, hs, hD⟩
    · obtain ⟨a, u, hu, hIu⟩ := hprogress s hs hD
      have hlower : μ u < n := hn ▸ hμ s a u hs hu
      obtain ⟨as, t, ht, hend⟩ := ih (μ u) hlower hIu rfl
      exact ⟨a :: as, t, (M.run_cons_eq_some).mpr ⟨u, hu, ht⟩, hend⟩

end Ends

/-! ### Descent -/

/-- `abs` maps every step of `M` to a step of `N` or to no step at all; `I` is
an invariant of `M` the correspondence may rely on. -/
structure Simulation (M : Machine σ α) (N : Machine τ β) (P : σ → α → Prop)
    (I : σ → Prop) (abs : σ → τ) : Prop where
  init : ∀ s, M.init s → N.init (abs s)
  step : ∀ s a t, I s → P s a → M.step s a = some t →
    abs t = abs s ∨ ∃ b, N.step (abs s) b = some (abs t)

/-- Reachability is transported along a simulation. -/
theorem Simulation.reachable {N : Machine τ β} {P : σ → α → Prop} {I : σ → Prop}
    {abs : σ → τ} (h : Simulation M N P I abs)
    (hI : ∀ {s}, M.ReachableUnder P s → I s) {s : σ} (hs : M.ReachableUnder P s) :
    N.Reachable (abs s) := by
  induction hs with
  | init hs => exact .init (h.init _ hs)
  | step hr hP ht ih =>
    rcases h.step _ _ _ (hI hr) hP ht with heq | ⟨b, hb⟩
    · rw [heq]
      exact ih
    · exact ih.next hb

/-- Every step of `M` from a state in which `I` holds is matched by a run of
`N`, which may be empty, that leads to a related state. -/
structure ForwardSimulation (M : Machine σ α) (N : Machine τ β) (P : σ → α → Prop)
    (I : σ → Prop) (R : σ → τ → Prop) : Prop where
  init : ∀ s, M.init s → ∃ u, N.init u ∧ R s u
  step : ∀ s a t u, I s → P s a → R s u → M.step s a = some t →
    ∃ bs v, N.run u bs = some v ∧ R t v

/-- Whatever `M` reaches is related to something `N` reaches. -/
theorem ForwardSimulation.reachable {N : Machine τ β} {P : σ → α → Prop} {I : σ → Prop}
    {R : σ → τ → Prop} (h : ForwardSimulation M N P I R)
    (hI : ∀ {s}, M.ReachableUnder P s → I s) {s : σ} (hs : M.ReachableUnder P s) :
    ∃ u, N.Reachable u ∧ R s u := by
  induction hs with
  | init hs =>
    obtain ⟨u, hu, hR⟩ := h.init _ hs
    exact ⟨u, .init hu, hR⟩
  | step hr hP ht ih =>
    obtain ⟨u, hu, hR⟩ := ih
    obtain ⟨bs, v, hv, hR'⟩ := h.step _ _ _ u (hI hr) hP hR ht
    exact ⟨v, hu.run hv, hR'⟩

/-- Every run of `M` whose steps meet `P` is matched by a run of `N`. -/
theorem ForwardSimulation.follows {N : Machine τ β} {P : σ → α → Prop} {I : σ → Prop}
    {R : σ → τ → Prop} (h : ForwardSimulation M N P I R)
    (hI : ∀ {s}, M.ReachableUnder P s → I s) (as : List α) {s t : σ} {u : τ}
    (hs : M.ReachableUnder P s) (hR : R s u) (hmeet : M.StepsMeet P s as)
    (ht : M.run s as = some t) : ∃ v, N.Leads u v ∧ R t v := by
  induction as generalizing s u with
  | nil =>
    obtain rfl : s = t := Option.some.inj ht
    exact ⟨u, .refl N u, hR⟩
  | cons a as ih =>
    obtain ⟨w, hw, hrest⟩ := (M.run_cons_eq_some).mp ht
    obtain ⟨hP, hmeet'⟩ := hmeet w hw
    obtain ⟨bs, v, hv, hR'⟩ := h.step s a w u (hI hs) hP hR hw
    obtain ⟨v', hv', hR''⟩ := ih (.step hs hP hw) hR' hmeet' hrest
    have hlead : N.Leads u v := ⟨bs, fun _ _ => trivial, hv⟩
    exact ⟨v', hlead.trans hv', hR''⟩

/-! ### Records -/

section Records

variable {η : Type*} {h₀ : η} {f : σ → α → η → η} {P : σ → α → Prop}

/-- The machine with a record of its run, which `f` extends at every step. -/
def recording (M : Machine σ α) (h₀ : η) (f : σ → α → η → η) : Machine (σ × η) α where
  init p := M.init p.1 ∧ p.2 = h₀
  step p a := (M.step p.1 a).map fun t => (t, f p.1 a p.2)

theorem recording_step {p q : σ × η} {a : α} (h : (M.recording h₀ f).step p a = some q) :
    M.step p.1 a = some q.1 ∧ q.2 = f p.1 a p.2 := by
  obtain ⟨t, ht, rfl⟩ := Option.map_eq_some_iff.mp h
  exact ⟨ht, rfl⟩

/-- A record changes nothing about the run. -/
theorem ReachableUnder.of_recording {p : σ × η}
    (h : (M.recording h₀ f).ReachableUnder (fun p a => P p.1 a) p) : M.ReachableUnder P p.1 := by
  induction h with
  | init hp => exact .init hp.1
  | step _ hP ht ih => exact .step ih hP (recording_step ht).1

end Records

end Machine
