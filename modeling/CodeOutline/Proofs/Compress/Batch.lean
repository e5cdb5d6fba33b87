/-
  CodeOutline/Proofs/Compress/Batch.lean
  ======================================
  **What comes out of a batch.**

  Results are filed under the numbers of their files, so it does not matter when each of them
  arrives: every file gets the result of its own task (`compressFiles_eq_mapIdx`), which is fixed by
  what that task is told about cancellation.

  `compressFiles_pool` adds the pool that runs the tasks: each of its schedules can be brought to an
  end, then every task has asked once and is complete once, and one worker leaves alone the last
  files of a batch that stays cancelled.
-/
import CodeOutline.Proofs.Compress.Pool

namespace CodeOutline

variable {registry : Registry} {settings : Settings} {cancelled : Nat → Bool}
  {files : List SourceFile} {order : List Nat}

/-! ### Results under numbers -/

theorem filedUnder_completed {i : Nat} (hi : i ∈ order) :
    filedUnder (completed registry settings cancelled files order) i =
      files[i]?.map (runTask registry settings (cancelled i)) := by
  rw [filedUnder, completed, List.find?_filterMap]
  cases hfile : files[i]? with
  | none =>
    have hnone : order.find? (fun j => (files[j]?.map fun file =>
        (j, runTask registry settings (cancelled j) file)).any (·.1 == i)) = none := by
      rw [List.find?_eq_none]
      intro j _
      by_cases hj : j = i
      · simp [hj, hfile]
      · cases files[j]? <;> simp [hj]
    rw [hnone]
    rfl
  | some file =>
    have hfound : order.find? (fun j => (files[j]?.map fun file =>
        (j, runTask registry settings (cancelled j) file)).any (·.1 == i)) = some i := by
      have hsame : ∀ j, (files[j]?.map fun file =>
          (j, runTask registry settings (cancelled j) file)).any (·.1 == i) = (j == i) := by
        intro j
        by_cases hj : j = i
        · simp [hj, hfile]
        · cases files[j]? <;> simp [hj]
      simp only [hsame]
      cases hfind : order.find? fun j => j == i with
      | none => exact absurd (beq_self_eq_true i) (List.find?_eq_none.mp hfind i hi)
      | some j => rw [beq_iff_eq.mp (List.find?_some (p := fun j => j == i) hfind)]
    rw [hfound]
    simp [hfile]

theorem filterMap_getElem?_range {α : Type} (l : List α) :
    (List.range l.length).filterMap (fun i => l[i]?) = l := by
  induction l with
  | nil => rfl
  | cons a l ih =>
    rw [List.length_cons, List.range_succ_eq_map, List.filterMap_cons, List.filterMap_map]
    exact congrArg (a :: ·) ih

/-- Every file gets the result of its own task. -/
theorem compressFiles_eq_mapIdx (horder : order.Perm (List.range files.length)) :
    compressFiles registry settings cancelled order files =
      files.mapIdx fun i file => runTask registry settings (cancelled i) file := by
  have hfiled : ∀ i ∈ List.range files.length,
      filedUnder (completed registry settings cancelled files order) i =
        (files.mapIdx fun i file => runTask registry settings (cancelled i) file)[i]? := by
    intro i hi
    rw [filedUnder_completed (horder.mem_iff.mpr hi), List.getElem?_mapIdx]
  rw [compressFiles, List.filterMap_congr hfiled]
  have hlength : files.length =
      (files.mapIdx fun i file => runTask registry settings (cancelled i) file).length := by simp
  rw [hlength]
  exact filterMap_getElem?_range _

/-! ### Cancellation and the number of workers -/

theorem compressFiles_cancelledAfter {k : Nat}
    (horder : order.Perm (List.range files.length))
    (hcancelled : ∀ i < files.length, cancelled i = cancelledAfter k i) :
    compressFiles registry settings cancelled order files =
      (files.take k).map (fun file => compressFile file registry settings) ++
        (files.drop k).map fun file => .unchanged file .cancelled none := by
  rw [compressFiles_eq_mapIdx horder]
  apply List.ext_getElem?
  intro i
  rw [List.getElem?_mapIdx]
  by_cases hi : i < files.length
  · have hlength : ((files.take k).map fun file =>
        compressFile file registry settings).length = min k files.length := by simp
    by_cases hk : i < k
    · have htold : cancelled i = false := by simp [hcancelled i hi, cancelledAfter, hk]
      rw [List.getElem?_append_left (by omega), List.getElem?_map, List.getElem?_take_of_lt hk,
        htold]
      rfl
    · have htold : cancelled i = true := by simpa [hcancelled i hi, cancelledAfter] using hk
      rw [List.getElem?_append_right (by omega), List.getElem?_map, List.getElem?_drop, htold,
        show k + (i - ((files.take k).map fun file =>
          compressFile file registry settings).length) = i by omega]
      rfl
  · rw [List.getElem?_eq_none (by omega), Option.map_none, eq_comm, List.getElem?_eq_none]
    simp only [List.length_append, List.length_map, List.length_take, List.length_drop]
    omega

theorem compressFile_workers (workers : Option Nat) (file : SourceFile) :
    compressFile file registry { settings with workers := workers } =
      compressFile file registry settings :=
  rfl

/-- **Every file of a batch gets its own outcome, whatever the pool does.** -/
theorem compressFiles_pool (registry : Registry) (settings : Settings) (files : List SourceFile) :
    (∀ cancelled order, order.Perm (List.range files.length) →
      ∀ workers,
        compressFiles registry { settings with workers := workers } cancelled order files =
          files.mapIdx fun i file =>
            if cancelled i then .unchanged file .cancelled none
            else compressFile file registry settings) ∧
      ∀ workers schedule pool, (Pool.ofTasks files.length).run workers schedule = some pool →
        (0 < workers → ∃ later rest, pool.run workers later = some rest ∧ rest.AtRest) ∧
          (pool.AtRest →
            pool.order.Perm (List.range files.length) ∧
              (pool.told.map Prod.fst).Perm (List.range files.length) ∧
              (workers = 1 → .resume ∉ schedule → ∃ k, ∀ order, order.Perm pool.order →
                compressFiles registry settings pool.wasCancelled order files =
                  (files.take k).map (fun file => compressFile file registry settings) ++
                    (files.drop k).map fun file => .unchanged file .cancelled none)) := by
  constructor
  · intro cancelled order horder workers
    rw [compressFiles_eq_mapIdx horder]
    simp only [runTask, compressFile_workers]
  · intro workers schedule pool hrun
    constructor
    · intro hworkers
      exact Pool.exists_run_atRest hworkers pool
    · intro hrest
      have haccounted := Pool.run_accounted hrun (Pool.accounted_ofTasks files.length)
      have horder := Pool.order_perm haccounted hrest
      refine ⟨horder, Pool.asked_perm haccounted hrest, ?_⟩
      rintro rfl hstays
      obtain ⟨k, hk⟩ := Pool.exists_cancelledAfter hstays hrun hrest
      refine ⟨k, ?_⟩
      intro order hcollected
      exact compressFiles_cancelledAfter (hcollected.trans horder) hk

def unknownFile : SourceFile :=
  ⟨"a", "x", some "lua", .noParser⟩

/-- One worker, with a cancellation between two tasks. -/
def cancelledBetween : List Pool.Action :=
  [.take, .ask 0, .complete 0, .cancel, .take, .ask 1, .complete 1]

theorem compressFiles_pool_between :
    [1, 0].Perm (List.range [unknownFile, unknownFile].length) ∧
      compressFiles ⟨[]⟩ .default (cancelledAfter 1) [1, 0] [unknownFile, unknownFile] =
        [.unchanged unknownFile .unsupportedLanguage none, .unchanged unknownFile .cancelled none] ∧
      .resume ∉ cancelledBetween ∧
      ∃ pool, (Pool.ofTasks 2).run 1 cancelledBetween = some pool ∧ pool.AtRest ∧
        ∃ k, ∀ order, order.Perm pool.order →
          compressFiles ⟨[]⟩ .default pool.wasCancelled order [unknownFile, unknownFile] =
            ([unknownFile, unknownFile].take k).map (fun file => compressFile file ⟨[]⟩ .default) ++
              ([unknownFile, unknownFile].drop k).map fun file =>
                .unchanged file .cancelled none := by
  obtain ⟨hresults, hruns⟩ := compressFiles_pool ⟨[]⟩ .default [unknownFile, unknownFile]
  have horder : [1, 0].Perm (List.range [unknownFile, unknownFile].length) := by decide
  have hcompress : compressFile unknownFile ⟨[]⟩ .default =
      .unchanged unknownFile .unsupportedLanguage none := by rfl
  have hrun : (Pool.ofTasks 2).run 1 cancelledBetween =
      some ⟨[], [], [], [0, 1], [(1, true), (0, false)], true⟩ := by decide
  refine ⟨horder, ?_, by decide, _, hrun, by decide, ?_⟩
  · rw [show Settings.default = { Settings.default with workers := none } from rfl,
      hresults _ _ horder none]
    simp [cancelledAfter, hcompress]
  · exact ((hruns 1 cancelledBetween _ hrun).2 (by decide)).2.2 rfl (by decide)

end CodeOutline
