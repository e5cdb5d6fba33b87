/-
  CodeOutline/Proofs/Compress/Pool.lean
  =====================================
  **A pool of workers.**

  The tasks of a batch wait in the order of the files.  A worker without a task takes the first one
  that waits; some time later the task asks whether the batch is cancelled, and some time later it
  is complete.  Between any two of these actions the batch can be cancelled, or resumed.  A schedule
  is any list of actions that the pool allows.

  A pool neither loses nor repeats a task (`Accounted`), never gets stuck (`exists_run_atRest`), and
  with one worker begins a task only when the one before it is complete (`InTurn`).  When moreover
  nothing resumes the batch, the tasks that are told that it is cancelled are the last ones
  (`exists_cancelledAfter`).
-/
import CodeOutline.Compress.Batch
import Mathlib.Data.List.Perm.Basic
import Mathlib.Data.List.Range

namespace CodeOutline

structure Pool where
  waiting : List Nat           -- in the order of the files
  taken : List Nat             -- by a worker, and about to ask
  running : List Nat           -- have asked
  order : List Nat             -- complete, in the order in which they completed
  told : List (Nat × Bool)     -- whether the batch was cancelled when a task asked, latest first
  cancelled : Bool
deriving DecidableEq, Repr

namespace Pool

inductive Action where
  | take
  | ask (task : Nat)
  | complete (task : Nat)
  | cancel
  | resume
deriving DecidableEq, Repr

def ofTasks (tasks : Nat) : Pool :=
  ⟨List.range tasks, [], [], [], [], false⟩

def step (workers : Nat) (p : Pool) : Action → Option Pool
  | .take =>
    match p.waiting with
    | [] => none
    | i :: later =>
      if p.taken.length + p.running.length < workers then
        some { p with waiting := later, taken := i :: p.taken }
      else none
  | .ask i =>
    if i ∈ p.taken then
      some { p with
        taken := p.taken.erase i, running := i :: p.running, told := (i, p.cancelled) :: p.told }
    else none
  | .complete i =>
    if i ∈ p.running then some { p with running := p.running.erase i, order := p.order ++ [i] }
    else none
  | .cancel => some { p with cancelled := true }
  | .resume => some { p with cancelled := false }

def run (workers : Nat) (p : Pool) (schedule : List Action) : Option Pool :=
  schedule.foldlM (step workers) p

/-- What the task with a number was told. -/
def wasCancelled (p : Pool) (i : Nat) : Bool :=
  p.told.contains (i, true)

def AtRest (p : Pool) : Prop :=
  p.waiting = [] ∧ p.taken = [] ∧ p.running = []

instance (p : Pool) : Decidable p.AtRest :=
  inferInstanceAs (Decidable (_ ∧ _ ∧ _))

variable {workers n : Nat} {p q : Pool}

/-! ### One action -/

theorem step_take_iff :
    p.step workers .take = some q ↔ ∃ i later, p.waiting = i :: later ∧
      p.taken.length + p.running.length < workers ∧
        q = { p with waiting := later, taken := i :: p.taken } := by
  cases hwaiting : p.waiting with
  | nil => simp [step, hwaiting]
  | cons i later =>
    by_cases hidle : p.taken.length + p.running.length < workers
    · simp [step, hwaiting, hidle, eq_comm]
    · simp [step, hwaiting, hidle]

theorem step_ask_iff {i : Nat} :
    p.step workers (.ask i) = some q ↔
      i ∈ p.taken ∧
        q = { p with
          taken := p.taken.erase i
          running := i :: p.running
          told := (i, p.cancelled) :: p.told } := by
  by_cases htaken : i ∈ p.taken
  · simp [step, htaken, eq_comm]
  · simp [step, htaken]

theorem step_complete_iff {i : Nat} :
    p.step workers (.complete i) = some q ↔
      i ∈ p.running ∧ q = { p with running := p.running.erase i, order := p.order ++ [i] } := by
  by_cases hrunning : i ∈ p.running
  · simp [step, hrunning, eq_comm]
  · simp [step, hrunning]

/-- What every action keeps, a schedule keeps. -/
theorem run_keeps {P : Pool → Prop} {schedule : List Action}
    (hkeeps : ∀ a ∈ schedule, ∀ p q : Pool, p.step workers a = some q → P p → P q)
    (hrun : p.run workers schedule = some q) (hp : P p) : P q := by
  induction schedule generalizing p with
  | nil =>
    obtain rfl := Option.some.inj hrun
    exact hp
  | cons a later ih =>
    rw [run, List.foldlM_cons] at hrun
    obtain ⟨next, hstep, hlater⟩ := Option.bind_eq_some_iff.mp hrun
    apply ih
    · intro b hb
      exact hkeeps b (List.mem_cons_of_mem a hb)
    · exact hlater
    · exact hkeeps a List.mem_cons_self p next hstep hp

/-! ### No task is lost or repeated -/

structure Accounted (n : Nat) (p : Pool) : Prop where
  tasks : (p.waiting ++ (p.taken ++ (p.running ++ p.order))).Perm (List.range n)
  asked : (p.told.map Prod.fst).Perm (p.running ++ p.order)

theorem accounted_ofTasks (n : Nat) : Accounted n (ofTasks n) := by
  constructor
  · simp [ofTasks]
  · simp [ofTasks]

theorem erase_append_concat_perm {i : Nat} {running order : List Nat} (hi : i ∈ running) :
    (running.erase i ++ (order ++ [i])).Perm (running ++ order) := by
  have hlast : (order ++ [i]).Perm (i :: order) := List.perm_append_comm
  have hfirst : (i :: (running.erase i ++ order)).Perm (running ++ order) :=
    (List.perm_cons_erase hi).symm.append_right order
  exact ((hlast.append_left _).trans List.perm_middle).trans hfirst

theorem step_accounted {a : Action} (hstep : p.step workers a = some q) (h : Accounted n p) :
    Accounted n q := by
  cases a with
  | take =>
    obtain ⟨i, later, hwaiting, -, rfl⟩ := step_take_iff.mp hstep
    refine ⟨?_, h.asked⟩
    have htasks := h.tasks
    rw [hwaiting] at htasks
    exact List.perm_middle.trans htasks
  | ask i =>
    obtain ⟨htaken, rfl⟩ := step_ask_iff.mp hstep
    refine ⟨?_, h.asked.cons i⟩
    apply List.Perm.trans _ h.tasks
    apply List.Perm.append_left
    exact List.perm_middle.trans ((List.perm_cons_erase htaken).symm.append_right _)
  | complete i =>
    obtain ⟨hrunning, rfl⟩ := step_complete_iff.mp hstep
    have hmoved : (p.running.erase i ++ (p.order ++ [i])).Perm (p.running ++ p.order) :=
      erase_append_concat_perm hrunning
    refine ⟨?_, h.asked.trans hmoved.symm⟩
    exact ((hmoved.append_left _).append_left _).trans h.tasks
  | cancel =>
    obtain rfl := Option.some.inj hstep
    exact ⟨h.tasks, h.asked⟩
  | resume =>
    obtain rfl := Option.some.inj hstep
    exact ⟨h.tasks, h.asked⟩

theorem run_accounted {schedule : List Action} (hrun : p.run workers schedule = some q)
    (h : Accounted n p) : Accounted n q :=
  run_keeps (fun _ _ _ _ hstep => step_accounted hstep) hrun h

theorem order_perm (h : Accounted n p) (hrest : p.AtRest) : p.order.Perm (List.range n) := by
  obtain ⟨hwaiting, htaken, hrunning⟩ := hrest
  simpa [hwaiting, htaken, hrunning] using h.tasks

theorem asked_perm (h : Accounted n p) (hrest : p.AtRest) :
    (p.told.map Prod.fst).Perm (List.range n) := by
  have hasked := h.asked
  rw [hrest.2.2, List.nil_append] at hasked
  exact hasked.trans (order_perm h hrest)

/-! ### A pool never gets stuck -/

/-- How many actions the tasks of the pool still need. -/
def remaining (p : Pool) : Nat :=
  3 * p.waiting.length + 2 * p.taken.length + p.running.length

theorem exists_step (hworkers : 0 < workers) (hrest : ¬ p.AtRest) :
    ∃ a q, p.step workers a = some q ∧ q.remaining < p.remaining := by
  cases hrunning : p.running with
  | cons i others =>
    refine ⟨.complete i, _, step_complete_iff.mpr ⟨by simp [hrunning], rfl⟩, ?_⟩
    simp [remaining, hrunning]
  | nil =>
    cases htaken : p.taken with
    | cons i others =>
      refine ⟨.ask i, _, step_ask_iff.mpr ⟨by simp [htaken], rfl⟩, ?_⟩
      simp only [remaining, htaken, hrunning, List.erase_cons_head, List.length_cons]
      omega
    | nil =>
      cases hwaiting : p.waiting with
      | nil => exact absurd ⟨hwaiting, htaken, hrunning⟩ hrest
      | cons i later =>
        have hidle : p.taken.length + p.running.length < workers := by simpa [htaken, hrunning]
        refine ⟨.take, _, step_take_iff.mpr ⟨i, later, hwaiting, hidle, rfl⟩, ?_⟩
        simp only [remaining, htaken, hrunning, hwaiting, List.length_cons]
        omega

theorem exists_run_atRest (hworkers : 0 < workers) (p : Pool) :
    ∃ schedule q, p.run workers schedule = some q ∧ q.AtRest := by
  induction hsize : p.remaining using Nat.strong_induction_on generalizing p with
  | _ size ih =>
    by_cases hrest : p.AtRest
    · exact ⟨[], p, rfl, hrest⟩
    · obtain ⟨a, next, hstep, hless⟩ := exists_step hworkers hrest
      obtain ⟨later, q, hlater, hq⟩ := ih next.remaining (hsize ▸ hless) next rfl
      refine ⟨a :: later, q, ?_, hq⟩
      rw [run, List.foldlM_cons, hstep]
      exact hlater

/-! ### One worker -/

/-- The tasks are in the order of the files, and at most one is begun and not complete. -/
structure InTurn (n : Nat) (p : Pool) : Prop where
  tasks : p.order ++ p.running ++ p.taken ++ p.waiting = List.range n
  asked : p.told.reverse.map Prod.fst = p.order ++ p.running
  alone : p.taken.length + p.running.length ≤ 1

theorem inTurn_ofTasks (n : Nat) : InTurn n (ofTasks n) := by
  constructor
  · simp [ofTasks]
  · simp [ofTasks]
  · simp [ofTasks]

theorem step_inTurn {a : Action} (hstep : p.step 1 a = some q) (h : InTurn n p) : InTurn n q := by
  obtain ⟨htasks, hasked, halone⟩ := h
  cases a with
  | take =>
    obtain ⟨i, later, hwaiting, hidle, rfl⟩ := step_take_iff.mp hstep
    have htaken : p.taken = [] := List.length_eq_zero_iff.mp (by omega)
    have hrunning : p.running = [] := List.length_eq_zero_iff.mp (by omega)
    constructor
    · simpa [htaken, hrunning, hwaiting] using htasks
    · exact hasked
    · simp [htaken, hrunning]
  | ask i =>
    obtain ⟨hi, rfl⟩ := step_ask_iff.mp hstep
    have hone : 0 < p.taken.length := List.length_pos_of_mem hi
    have hrunning : p.running = [] := List.length_eq_zero_iff.mp (by omega)
    obtain ⟨j, hj⟩ := List.length_eq_one_iff.mp (show p.taken.length = 1 by omega)
    obtain rfl : i = j := by simpa [hj] using hi
    constructor
    · simpa [hj, hrunning] using htasks
    · simpa [hrunning] using hasked
    · simp [hj, hrunning]
  | complete i =>
    obtain ⟨hi, rfl⟩ := step_complete_iff.mp hstep
    have hone : 0 < p.running.length := List.length_pos_of_mem hi
    have htaken : p.taken = [] := List.length_eq_zero_iff.mp (by omega)
    obtain ⟨j, hj⟩ := List.length_eq_one_iff.mp (show p.running.length = 1 by omega)
    obtain rfl : i = j := by simpa [hj] using hi
    constructor
    · simpa [hj, htaken] using htasks
    · simpa [hj] using hasked
    · simp [hj, htaken]
  | cancel =>
    obtain rfl := Option.some.inj hstep
    exact ⟨htasks, hasked, halone⟩
  | resume =>
    obtain rfl := Option.some.inj hstep
    exact ⟨htasks, hasked, halone⟩

/-! ### A batch that stays cancelled -/

/-- What a task was told, every task that asks later is told too. -/
structure Sticky (p : Pool) : Prop where
  now : ∀ answer ∈ p.told, answer.2 = true → p.cancelled = true
  later : p.told.Pairwise fun next earlier => earlier.2 = true → next.2 = true

theorem sticky_ofTasks (n : Nat) : Sticky (ofTasks n) := by
  constructor
  · simp [ofTasks]
  · simp [ofTasks]

theorem step_sticky {a : Action} (hstays : a ≠ .resume) (hstep : p.step workers a = some q)
    (h : Sticky p) : Sticky q := by
  cases a with
  | take =>
    obtain ⟨i, later, -, -, rfl⟩ := step_take_iff.mp hstep
    exact ⟨h.now, h.later⟩
  | ask i =>
    obtain ⟨-, rfl⟩ := step_ask_iff.mp hstep
    constructor
    · intro answer hanswer
      rcases List.mem_cons.mp hanswer with rfl | hbefore
      · exact id
      · exact h.now answer hbefore
    · exact List.pairwise_cons.mpr ⟨h.now, h.later⟩
  | complete i =>
    obtain ⟨-, rfl⟩ := step_complete_iff.mp hstep
    exact ⟨h.now, h.later⟩
  | cancel =>
    obtain rfl := Option.some.inj hstep
    exact ⟨fun _ _ _ => rfl, h.later⟩
  | resume => exact absurd rfl hstays

theorem exists_threshold (told : Nat → Bool) (n : Nat)
    (hlater : ∀ i j, i < j → j < n → told i = true → told j = true) :
    ∃ k, ∀ i < n, told i = cancelledAfter k i := by
  induction n with
  | zero => exact ⟨0, by simp⟩
  | succ n ih =>
    cases hlast : told n with
    | true =>
      obtain ⟨k, hk⟩ := ih fun i j hij hj => hlater i j hij (by omega)
      refine ⟨min k n, ?_⟩
      intro i hi
      rcases Nat.lt_succ_iff_lt_or_eq.mp hi with hlt | rfl
      · rw [hk i hlt]
        simp only [cancelledAfter, decide_eq_decide]
        omega
      · rw [hlast, cancelledAfter, eq_comm, decide_eq_true_eq]
        exact Nat.min_le_right k i
    | false =>
      refine ⟨n + 1, ?_⟩
      intro i hi
      have hnone : told i = false := by
        rcases Nat.lt_succ_iff_lt_or_eq.mp hi with hlt | rfl
        · by_contra htold
          rw [hlater i n hlt (by omega) (by simpa using htold)] at hlast
          cases hlast
        · exact hlast
      rw [hnone, cancelledAfter, eq_comm, decide_eq_false_iff_not]
      omega

/-- In the end the answer to a task stands at the place of its number. -/
theorem told_getElem? (hturn : InTurn n p) (hrest : p.AtRest) {i : Nat} (hi : i < n) :
    p.told.reverse[i]? = some (i, p.wasCancelled i) := by
  obtain ⟨hwaiting, htaken, hrunning⟩ := hrest
  have hnumbers : p.told.reverse.map Prod.fst = List.range n := by
    rw [hturn.asked, ← hturn.tasks]
    simp [hwaiting, htaken, hrunning]
  have hplace : ∀ k (answer : Nat × Bool), p.told.reverse[k]? = some answer → answer.1 = k := by
    intro k answer hanswer
    have hnumber := congrArg (·[k]?) hnumbers
    simp only [List.getElem?_map, hanswer, Option.map_some] at hnumber
    obtain ⟨hk, hrange⟩ := List.getElem?_eq_some_iff.mp hnumber.symm
    rw [← hrange, List.getElem_range]
  have hlength : p.told.reverse.length = n := by simpa using congrArg List.length hnumbers
  have hanswer : p.told.reverse[i]? = some p.told.reverse[i] :=
    List.getElem?_eq_getElem (hlength ▸ hi)
  have hnumber := hplace i _ hanswer
  rw [hanswer, Option.some.injEq]
  apply Prod.ext hnumber
  rw [Bool.eq_iff_iff, wasCancelled, List.contains_iff_mem, ← List.mem_reverse]
  constructor
  · intro htrue
    apply List.mem_of_getElem? (i := i)
    rw [hanswer]
    exact congrArg some (Prod.ext hnumber htrue)
  · intro hmem
    obtain ⟨k, hk⟩ := List.mem_iff_getElem?.mp hmem
    obtain rfl : i = k := hplace k _ hk
    rw [Option.some.inj (hanswer.symm.trans hk)]

theorem wasCancelled_later {i j : Nat} (hturn : InTurn n p) (hsticky : Sticky p)
    (hrest : p.AtRest) (hij : i < j) (hj : j < n) (htold : p.wasCancelled i = true) :
    p.wasCancelled j = true := by
  have hanswers : p.told.reverse.Pairwise fun a b => a.2 = true → b.2 = true :=
    List.pairwise_reverse.mpr hsticky.later
  obtain ⟨hi', heq⟩ := List.getElem?_eq_some_iff.mp (told_getElem? hturn hrest (hij.trans hj))
  obtain ⟨hj', heq'⟩ := List.getElem?_eq_some_iff.mp (told_getElem? hturn hrest hj)
  have hpair := List.pairwise_iff_getElem.mp hanswers i j hi' hj' hij
  rw [heq, heq'] at hpair
  exact hpair htold

theorem exists_cancelledAfter {schedule : List Action} (hstays : .resume ∉ schedule)
    (hrun : (ofTasks n).run 1 schedule = some p) (hrest : p.AtRest) :
    ∃ k, ∀ i < n, p.wasCancelled i = cancelledAfter k i := by
  have hturn : InTurn n p :=
    run_keeps (fun _ _ _ _ hstep => step_inTurn hstep) hrun (inTurn_ofTasks n)
  have hsticky : Sticky p := by
    refine run_keeps (fun a ha _ _ hstep => step_sticky ?_ hstep) hrun (sticky_ofTasks n)
    rintro rfl
    exact hstays ha
  exact exists_threshold _ n fun i j hij hj => wasCancelled_later hturn hsticky hrest hij hj

end Pool

end CodeOutline
