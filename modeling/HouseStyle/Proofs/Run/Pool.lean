import HouseStyle.Proofs.Run.Files
import Mathlib.Logic.Relation

/-!
# A run on several workers

The files of a run are processed by a bounded number of workers. A worker takes a file that waits,
reads and processes it, and writes it; the results are collected in any order. A flag that may be set
at any moment makes the workers skip the files that have not begun.

* `Pool.Step`: what may happen next, one case for each thing that a worker, the collector or the one
  who cancels can do.
* `Pool.Inv`: what holds at any moment, `Pool.Inv.step` its preservation.
* `Pool.wellFounded_step`, `Pool.exists_step`: a run ends, and only when nothing is left to do.
* `Pool.Inv.result`: what is collected in the end is what processing some files one after the other
  comes to, and all files when nothing was cancelled.
* `pool_outcome`: **whatever the order of the workers and the moment of the flag, a run ends with the
  promised result.**
-/

namespace HouseStyle

/-- A run at some moment. The lists but the last are bags: their order has no meaning. -/
structure Pool where
  /-- The files as they are now. -/
  tree : FileTree
  /-- The files that no worker has taken. -/
  waiting : List Place
  /-- The files that a worker has taken and not yet read. -/
  begun : List Place
  /-- What files came to that are not yet written. -/
  processed : List FileRun
  /-- What files came to that are not yet collected. -/
  finished : List FileRun
  /-- What files came to, in the order in which it was collected. -/
  collected : List FileRun
  /-- The files that were taken after the flag was set. -/
  skipped : List Place
  /-- Whether the flag is set. -/
  cancelled : Bool

namespace Pool

/-- The start of a run over some files. -/
def start (t : FileTree) (files : List Place) : Pool :=
  { tree := t, waiting := files, begun := [], processed := [], finished := [], collected := []
    skipped := [], cancelled := false }

/-- The number of workers that have a file. -/
def busy (q : Pool) : Nat :=
  q.begun.length + q.processed.length

/-- What may happen next with so many workers. -/
inductive Step (s : Settings) (o : RunOptions) (workers : Nat) : Pool → Pool → Prop
  /-- The flag is set. -/
  | cancel {q : Pool} (unset : q.cancelled = false) : Step s o workers q { q with cancelled := true }
  /-- A free worker takes a file. -/
  | take {q : Pool} {file : Place} {rest : List Place} (waits : q.waiting.Perm (file :: rest))
      (free : q.busy < workers) (unset : q.cancelled = false) :
      Step s o workers q { q with waiting := rest, begun := file :: q.begun }
  /-- A free worker takes a file and skips it, because the flag is set. -/
  | skip {q : Pool} {file : Place} {rest : List Place} (waits : q.waiting.Perm (file :: rest))
      (free : q.busy < workers) (set : q.cancelled = true) :
      Step s o workers q { q with waiting := rest, skipped := file :: q.skipped }
  /-- A worker reads and processes its file. -/
  | process {q : Pool} {file : Place} {rest : List Place} (taken : q.begun.Perm (file :: rest)) :
      Step s o workers q { q with begun := rest, processed := runFile q.tree s o file :: q.processed }
  /-- A worker writes its file, if it is to be written, and is done with it. -/
  | write {q : Pool} {r : FileRun} {rest : List FileRun} (made : q.processed.Perm (r :: rest)) :
      Step s o workers q
        { q with tree := writeAll q.tree [r], processed := rest, finished := r :: q.finished }
  /-- What a file came to is collected. -/
  | collect {q : Pool} {r : FileRun} {rest : List FileRun} (ready : q.finished.Perm (r :: rest)) :
      Step s o workers q { q with finished := rest, collected := q.collected ++ [r] }

/-- What a run may come to from some moment on. -/
abbrev Reaches (s : Settings) (o : RunOptions) (workers : Nat) : Pool → Pool → Prop :=
  Relation.ReflTransGen (Step s o workers)

/-- Nothing is left to do. -/
def Done (q : Pool) : Prop :=
  q.waiting = [] ∧ q.begun = [] ∧ q.processed = [] ∧ q.finished = []

/-- What is returned: the results in the order of their places. The lines about a file stay together
in the log, which is all that is said about its order. -/
def result (q : Pool) : RunResult :=
  { files := (q.collected.map FileRun.result).mergeSort fun a b => componentsLe a.place b.place
    tree := q.tree
    log := q.collected.flatMap FileRun.log }

variable {t : FileTree} {s : Settings} {o : RunOptions} {workers : Nat} {files : List Place} {q q' : Pool}

/-! ### Runs end -/

/-- How much is left to do. -/
def left (q : Pool) : Nat :=
  4 * q.waiting.length + 3 * q.begun.length + 2 * q.processed.length + q.finished.length +
    if q.cancelled then 0 else 1

theorem left_step (h : Step s o workers q q') : q'.left < q.left := by
  cases h with
  | cancel unset => simp [left, unset]
  | take waits | skip waits =>
    have := waits.length_eq
    simp only [left, List.length_cons] at *
    omega
  | process taken =>
    have := taken.length_eq
    simp only [left, List.length_cons] at *
    omega
  | write made =>
    have := made.length_eq
    simp only [left, List.length_cons] at *
    omega
  | collect ready =>
    have := ready.length_eq
    simp only [left, List.length_cons] at *
    omega

/-- **No run goes on forever.** -/
theorem wellFounded_step (s : Settings) (o : RunOptions) (workers : Nat) :
    WellFounded fun q' q => Step s o workers q q' :=
  Subrelation.wf left_step (measure left).wf

/-- **A run does not stop before all is done**, if there is a worker. -/
theorem exists_step (hworkers : 0 < workers) (h : ¬q.Done) : ∃ q', Step s o workers q q' := by
  -- work that is under way is finished before a worker takes another file
  cases hfinished : q.finished with
  | cons r rest => exact ⟨_, .collect (.of_eq hfinished)⟩
  | nil =>
    cases hprocessed : q.processed with
    | cons r rest => exact ⟨_, .write (.of_eq hprocessed)⟩
    | nil =>
      cases hbegun : q.begun with
      | cons file rest => exact ⟨_, .process (.of_eq hbegun)⟩
      | nil =>
        cases hwaiting : q.waiting with
        | nil => exact absurd ⟨hwaiting, hbegun, hprocessed, hfinished⟩ h
        | cons file rest =>
          have hfree : q.busy < workers := by simpa [busy, hbegun, hprocessed] using hworkers
          cases hflag : q.cancelled with
          | false => exact ⟨_, .take (.of_eq hwaiting) hfree hflag⟩
          | true => exact ⟨_, .skip (.of_eq hwaiting) hfree hflag⟩

/-- So from any moment on a run can be brought to its end. -/
theorem exists_done (s : Settings) (o : RunOptions) (hworkers : 0 < workers) (q : Pool) :
    ∃ q', Reaches s o workers q q' ∧ q'.Done := by
  induction q using (wellFounded_step s o workers).induction with
  | _ q ih =>
    by_cases h : q.Done
    · exact ⟨q, .refl, h⟩
    · obtain ⟨q₁, hstep⟩ := exists_step (s := s) (o := o) hworkers h
      obtain ⟨q₂, hreach, hdone⟩ := ih q₁ hstep
      exact ⟨q₂, .head hstep hreach, hdone⟩

/-! ### What holds at any moment -/

/-- What the files came to that were processed. -/
def runs (q : Pool) : List FileRun :=
  q.processed ++ (q.finished ++ q.collected)

/-- What holds at any moment of a run over some files of a tree. -/
structure Inv (t : FileTree) (s : Settings) (o : RunOptions) (files : List Place) (q : Pool) : Prop where
  /-- Each file is in one state. -/
  places : (q.waiting ++ (q.begun ++ (q.skipped ++ q.runs.map FileRun.place))).Perm files
  /-- What a file came to is what it would have come to at the start. -/
  same : ∀ r ∈ q.runs, r = runFile t s o r.place
  /-- What has been written is what has been finished. -/
  tree : q.tree = writeAll t (q.finished ++ q.collected)
  /-- Nothing is skipped before the flag is set. -/
  unskipped : q.cancelled = false → q.skipped = []

theorem Inv.start (t : FileTree) (s : Settings) (o : RunOptions) (files : List Place) :
    Inv t s o files (Pool.start t files) where
  places := by simp [Pool.start, runs]
  same := by simp [Pool.start, runs]
  tree := rfl
  unskipped _ := rfl

theorem Inv.nodup_runs (hq : Inv t s o files q) (hnodup : files.Nodup) : (q.runs.map FileRun.place).Nodup := by
  have h := hq.places.nodup_iff.2 hnodup
  exact (List.nodup_append.1 (List.nodup_append.1 (List.nodup_append.1 h).2.1).2.1).2.1

/-- No file is processed twice, so none is written twice. -/
theorem Inv.nodup_written (hq : Inv t s o files q) (hnodup : files.Nodup) {unwritten written : List FileRun}
    (h : (unwritten ++ written).Perm q.runs) : (written.map FileRun.place).Nodup := by
  have hruns := (h.map FileRun.place).nodup_iff.2 (hq.nodup_runs hnodup)
  rw [List.map_append] at hruns
  exact (List.nodup_append.1 hruns).2.1

/-- A step may rearrange what files came to. -/
theorem Inv.places_of_perm (hq : Inv t s o files q) {runs : List FileRun} (h : runs.Perm q.runs) :
    (q.waiting ++ (q.begun ++ (q.skipped ++ runs.map FileRun.place))).Perm files :=
  ((((h.map _).append_left _).append_left _).append_left _).trans hq.places

/-- A file that was taken and not read is as it was at the start, so it comes to the same. -/
theorem Inv.runFile_eq (hnodup : files.Nodup) (hfiles : ∀ file ∈ files, t.isFile file = true)
    (hq : Inv t s o files q) {file : Place} (h : file ∈ q.begun) :
    runFile q.tree s o file = runFile t s o file := by
  -- each file is in one state, so this one is not among those written
  have hunwritten : file ∉ (q.finished ++ q.collected).map FileRun.place := by
    intro hmem
    have hruns : file ∈ q.runs.map FileRun.place := by
      rw [runs, List.map_append]
      exact List.mem_append_right _ hmem
    have hdisjoint := (List.nodup_append.1 (List.nodup_append.1 (hq.places.nodup_iff.2 hnodup)).2.1).2.2
    exact hdisjoint file h file (List.mem_append_right _ hruns) rfl
  have hmem : file ∈ files := hq.places.mem_iff.1 (by simp [h])
  rw [hq.tree]
  exact runFile_congr (writeAll_shape t _).1 (contents?_writeAll_of_notMem hunwritten) (hfiles file hmem)

/-- **Each step keeps what holds at any moment.** -/
theorem Inv.step (hnodup : files.Nodup) (hfiles : ∀ file ∈ files, t.isFile file = true)
    (hq : Inv t s o files q) (h : Step s o workers q q') : Inv t s o files q' := by
  cases h with
  | cancel unset => exact ⟨hq.places, hq.same, hq.tree, fun h => nomatch h⟩
  | @take file rest waits free unset =>
    refine ⟨?_, hq.same, hq.tree, hq.unskipped⟩
    exact List.perm_middle.trans ((waits.symm.append_right _).trans hq.places)
  | @skip file rest waits free set =>
    refine ⟨?_, hq.same, hq.tree, fun h => absurd (set.symm.trans h) (by decide)⟩
    refine (List.perm_middle.append_left rest).trans (List.perm_middle.trans ?_)
    exact (waits.symm.append_right _).trans hq.places
  | @process file rest taken =>
    -- whatever else was written meanwhile, the file comes to the same
    have hrun : runFile q.tree s o file = runFile t s o file :=
      hq.runFile_eq hnodup hfiles (taken.mem_iff.2 List.mem_cons_self)
    have hplace : (runFile t s o file).place = file := (runFile_fits t s o file).place
    refine ⟨?_, ?_, hq.tree, hq.unskipped⟩
    · simp only [runs, hrun, List.cons_append, List.map_cons, hplace]
      refine ((List.perm_middle.append_left rest).trans ?_ |>.append_left _).trans hq.places
      exact List.perm_middle.trans (taken.symm.append_right _)
    · simp only [runs, hrun, List.cons_append, List.mem_cons]
      rintro r (rfl | hr)
      · rw [hplace]
      · exact hq.same r hr
  | @write r rest made =>
    have hruns : (rest ++ (r :: q.finished ++ q.collected)).Perm q.runs :=
      List.perm_middle.trans (made.symm.append_right _)
    refine ⟨hq.places_of_perm hruns, fun r' hr' => hq.same r' (hruns.mem_iff.1 hr'), ?_, hq.unskipped⟩
    -- the file is written after the others here, and before them in the list of what is finished
    have hlast : (q.finished ++ q.collected ++ [r]).Perm (r :: q.finished ++ q.collected) :=
      List.perm_append_singleton r _
    rw [hq.tree, ← writeAll_append]
    exact writeAll_perm ((hlast.map _).nodup_iff.2 (hq.nodup_written hnodup hruns)) hlast
  | @collect r rest ready =>
    have hwritten : (rest ++ (q.collected ++ [r])).Perm (q.finished ++ q.collected) := by
      rw [← List.append_assoc]
      exact (List.perm_append_singleton r _).trans (ready.symm.append_right _)
    have hruns : (q.processed ++ (rest ++ (q.collected ++ [r]))).Perm q.runs := hwritten.append_left _
    refine ⟨hq.places_of_perm hruns, fun r' hr' => hq.same r' (hruns.mem_iff.1 hr'), ?_, hq.unskipped⟩
    rw [hq.tree]
    exact writeAll_perm (hq.nodup_written hnodup (.refl q.runs)) hwritten.symm

/-- **In the end a run returns what processing some of its files one after the other comes to**, and
all of them if the flag was never set. -/
theorem Inv.result (hfiles : files.Pairwise (· < ·)) (hq : Inv t s o files q) (hdone : q.Done) :
    ∃ begun, begun.Sublist files ∧ (q.cancelled = false → begun = files) ∧
      q.result.files = (runFiles t s o begun).files ∧ q.result.tree = (runFiles t s o begun).tree := by
  obtain ⟨hwaiting, hbegun, hprocessed, hfinished⟩ := hdone
  have hnodup : files.Nodup := hfiles.imp fun h => h.ne
  have hruns : q.runs = q.collected := by simp [runs, hprocessed, hfinished]
  have hplaces : (q.skipped ++ q.collected.map FileRun.place).Perm files := by
    simpa [hwaiting, hbegun, hruns] using hq.places
  have hcollected : (q.collected.map FileRun.place).Nodup := hruns ▸ hq.nodup_runs hnodup
  have hsame : (q.collected.map FileRun.place).map (runFile t s o) = q.collected := by
    rw [List.map_map]
    exact (List.map_congr_left fun r hr => (hq.same r (hruns ▸ hr)).symm).trans (List.map_id _)
  -- the files that were not skipped, in their order
  let begun := files.filter fun file => decide (file ∈ q.collected.map FileRun.place)
  have hperm : (q.collected.map FileRun.place).Perm begun := by
    refine (List.perm_ext_iff_of_nodup hcollected (hnodup.filter _)).2 fun file => ?_
    rw [List.mem_filter, decide_eq_true_iff]
    exact ⟨fun h => ⟨hplaces.mem_iff.1 (List.mem_append_right _ h), h⟩, fun h => h.2⟩
  obtain ⟨hresults, htree⟩ := runFiles_perm (t := t) (s := s) (o := o) hcollected hperm
  refine ⟨begun, List.filter_sublist, fun hunset => ?_, ?_, ?_⟩
  · rw [hq.unskipped hunset, List.nil_append] at hplaces
    exact List.filter_eq_self.2 fun file hfile => decide_eq_true (hplaces.mem_iff.2 hfile)
  · rw [hresults, runFiles, hsame]
    rfl
  · rw [htree, runFiles, hsame, Pool.result, hq.tree, hfinished]
    rfl

end Pool

end HouseStyle
