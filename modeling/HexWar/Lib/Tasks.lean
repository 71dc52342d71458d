/-
  A pool of tasks over shared data.

  A task is what is left of a program that takes turns with others.  `run` carries out its next atomic
  command: it changes the shared data and says which tasks are left, none when the program is at its
  end, several when it has started others.  `advance i` is a turn of the `i`-th task; a turn of a task
  that is not there changes nothing.

  `mem_advance_iff` is what a turn does to the tasks and `total_advance` what it does to a sum over
  them; `ends_of_advance` reduces the outcome of every schedule to the outcomes after each first turn.
-/
import Mathlib.Algebra.BigOperators.Group.List.Basic
import Mathlib.Algebra.Order.Ring.Int
import Mathlib.Tactic.Tauto

namespace HexWar.Lib

structure Pool (σ τ : Type) where
  shared : σ
  tasks : List τ

namespace Pool

variable {σ τ : Type} {run : σ → τ → σ × List τ}

/-- A task is started. -/
def start (p : Pool σ τ) (t : τ) : Pool σ τ := ⟨p.shared, p.tasks ++ [t]⟩

/-- A turn of the `i`-th task. -/
def advance (run : σ → τ → σ × List τ) (p : Pool σ τ) (i : Nat) : Pool σ τ :=
  match p.tasks[i]? with
  | none => p
  | some t => ⟨(run p.shared t).1, p.tasks.take i ++ (run p.shared t).2 ++ p.tasks.drop (i + 1)⟩

/-- The tasks but for the `i`-th. -/
def others (p : Pool σ τ) (i : Nat) : List τ := p.tasks.take i ++ p.tasks.drop (i + 1)

/-- The turns of a schedule. -/
def follow (run : σ → τ → σ × List τ) (p : Pool σ τ) (schedule : List Nat) : Pool σ τ :=
  schedule.foldl (advance run) p

/-- The sum of a weight over the tasks. -/
def total (w : τ → Nat) (p : Pool σ τ) : Nat := (p.tasks.map w).sum

/-! ## One turn -/

theorem advance_none {p : Pool σ τ} {i : Nat} (h : p.tasks[i]? = none) : advance run p i = p := by
  rw [advance, h]

theorem advance_some {p : Pool σ τ} {i : Nat} {t : τ} (h : p.tasks[i]? = some t) :
    advance run p i =
      ⟨(run p.shared t).1, p.tasks.take i ++ (run p.shared t).2 ++ p.tasks.drop (i + 1)⟩ := by
  rw [advance, h]

/-- The tasks around the one whose turn it is. -/
theorem tasks_split {p : Pool σ τ} {i : Nat} {t : τ} (h : p.tasks[i]? = some t) :
    p.tasks = p.tasks.take i ++ t :: p.tasks.drop (i + 1) := by
  obtain ⟨hi, rfl⟩ := List.getElem?_eq_some_iff.mp h
  rw [← List.drop_eq_getElem_cons hi, List.take_append_drop]

theorem mem_tasks_iff {p : Pool σ τ} {i : Nat} {t t' : τ} (h : p.tasks[i]? = some t) :
    t' ∈ p.tasks ↔ t' = t ∨ t' ∈ p.others i := by
  have hsplit : t' ∈ p.tasks ↔ t' ∈ p.tasks.take i ++ t :: p.tasks.drop (i + 1) := by
    rw [← tasks_split h]
  rw [hsplit, others, List.mem_append, List.mem_cons, List.mem_append]
  tauto

/-- **What a turn does to the tasks**: one is replaced by what is left of it. -/
theorem mem_advance_iff {p : Pool σ τ} {i : Nat} {t t' : τ} (h : p.tasks[i]? = some t) :
    t' ∈ (advance run p i).tasks ↔ t' ∈ (run p.shared t).2 ∨ t' ∈ p.others i := by
  rw [advance_some h, others]
  show t' ∈ p.tasks.take i ++ (run p.shared t).2 ++ p.tasks.drop (i + 1) ↔ _
  rw [List.mem_append, List.mem_append, List.mem_append]
  tauto

/-! ## Sums over the tasks -/

@[simp] theorem total_start (w : τ → Nat) (p : Pool σ τ) (t : τ) :
    (p.start t).total w = p.total w + w t := by
  simp [total, start]

theorem total_eq_of_split {w : τ → Nat} {p : Pool σ τ} {before behind : List τ} {t : τ}
    (h : p.tasks = before ++ t :: behind) :
    p.total w = (before.map w).sum + w t + (behind.map w).sum := by
  simp only [total, h, List.map_append, List.map_cons, List.sum_append, List.sum_cons]
  omega

theorem total_eq_others (w : τ → Nat) {p : Pool σ τ} {i : Nat} {t : τ} (h : p.tasks[i]? = some t) :
    p.total w = w t + ((p.others i).map w).sum := by
  rw [total_eq_of_split (tasks_split h), others, List.map_append, List.sum_append]
  omega

/-- A task counts for at most the whole. -/
theorem le_total (w : τ → Nat) {p : Pool σ τ} {t : τ} (h : t ∈ p.tasks) : w t ≤ p.total w := by
  obtain ⟨before, behind, hsplit⟩ := List.append_of_mem h
  rw [total_eq_of_split hsplit]
  omega

/-- A turn takes the task's weight away and adds the weights of what is left of it. -/
theorem total_advance (run : σ → τ → σ × List τ) (w : τ → Nat) {p : Pool σ τ} {i : Nat}
    {t : τ} (h : p.tasks[i]? = some t) :
    (advance run p i).total w + w t = p.total w + ((run p.shared t).2.map w).sum := by
  have hold := total_eq_of_split (w := w) (tasks_split h)
  rw [advance_some h, hold]
  simp only [total, List.map_append, List.sum_append]
  omega

/-! ## What all schedules lead to -/

theorem follow_cons (run : σ → τ → σ × List τ) (p : Pool σ τ) (i : Nat) (schedule : List Nat) :
    follow run p (i :: schedule) = follow run (advance run p i) schedule := rfl

/-- Every schedule that runs the tasks to their ends leads to `q`. -/
def Ends (run : σ → τ → σ × List τ) (p q : Pool σ τ) : Prop :=
  ∀ schedule, (follow run p schedule).tasks = [] → follow run p schedule = q

/-- Nothing happens where nothing runs. -/
theorem follow_of_nil {p : Pool σ τ} (h : p.tasks = []) :
    ∀ schedule, follow run p schedule = p
  | [] => rfl
  | i :: schedule => by
    have hnone : p.tasks[i]? = none := by rw [h]; rfl
    rw [follow_cons, advance_none hnone]
    exact follow_of_nil h schedule

theorem ends_of_nil {p : Pool σ τ} (h : p.tasks = []) : Ends run p p :=
  fun schedule _ => follow_of_nil h schedule

/-- **The outcome of every schedule is the outcome after every first turn.** -/
theorem ends_of_advance {p q : Pool σ τ} (hne : p.tasks ≠ [])
    (h : ∀ i, i < p.tasks.length → Ends run (advance run p i) q) : Ends run p q := by
  intro schedule
  induction schedule with
  | nil =>
    intro hnil
    exact absurd hnil hne
  | cons i schedule ih =>
    intro hend
    rw [follow_cons] at hend ⊢
    rcases Nat.lt_or_ge i p.tasks.length with hlt | hge
    · exact h i hlt schedule hend
    · -- the turn of a task that is not there
      have hnone : p.tasks[i]? = none := List.getElem?_eq_none hge
      rw [advance_none hnone] at hend ⊢
      exact ih hend

/-- A task that is alone takes the next turn. -/
theorem ends_single {r : σ} {t : τ} {q : Pool σ τ}
    (h : Ends run ⟨(run r t).1, (run r t).2⟩ q) : Ends run ⟨r, [t]⟩ q := by
  refine ends_of_advance (List.cons_ne_nil _ _) fun i hi => ?_
  obtain rfl : i = 0 := Nat.lt_one_iff.mp hi
  have hfirst : advance run ⟨r, [t]⟩ 0 = ⟨(run r t).1, (run r t).2⟩ := by simp [advance]
  rw [hfirst]
  exact h

/-- Either of two tasks takes the next turn. -/
theorem ends_pair {r : σ} {t u : τ} {q : Pool σ τ}
    (ht : Ends run ⟨(run r t).1, (run r t).2 ++ [u]⟩ q)
    (hu : Ends run ⟨(run r u).1, t :: (run r u).2⟩ q) : Ends run ⟨r, [t, u]⟩ q := by
  refine ends_of_advance (List.cons_ne_nil _ _) fun i hi => ?_
  have hcases : i = 0 ∨ i = 1 := by
    have hi' : i < 2 := hi
    omega
  rcases hcases with rfl | rfl
  · have hfirst : advance run ⟨r, [t, u]⟩ 0 = ⟨(run r t).1, (run r t).2 ++ [u]⟩ := by simp [advance]
    rw [hfirst]
    exact ht
  · have hsecond : advance run ⟨r, [t, u]⟩ 1 = ⟨(run r u).1, t :: (run r u).2⟩ := by simp [advance]
    rw [hsecond]
    exact hu

end Pool
end HexWar.Lib
