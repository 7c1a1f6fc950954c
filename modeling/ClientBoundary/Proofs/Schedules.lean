import ClientBoundary.Proofs.RunTotals

/-! Files linted side by side. Each file has a worker of its own; the workers share the disk and the
totals, and take their steps in any order. Steps of different workers commute if their paths lead to
different files, so it makes no difference in which order they are taken: what the workers come to
is what linting the files one after the other comes to. -/
namespace ClientBoundary.Cli

inductive Stage where
  | waiting
  /-- The file has been read, and another text is to be written. -/
  | writing (source fixed : String)
  /-- There is a result, which has not been counted. -/
  | counting (source : String) (result : Except LintError LintResult)
  | done (reported : Option (String × LintResult))

/-- A worker with the path of its file and with what it has noted. How the notes of several workers
mix is left open. -/
structure Worker where
  path : String
  stage : Stage := .waiting
  notes : List Note := []

structure Shared where
  tree : FileTree
  errors : Nat := 0
  warnings : Nat := 0

namespace Stage

/-- What follows once a text has been read. Fixing and linting touch nothing that is shared. -/
def afterReading (registry : Registry) (fix : Bool) (path source : String) : Stage :=
  if fix then
    match registry.fixModule source path with
    | .error cause => .counting source (.error cause)
    | .ok fixed =>
      if fixed = source then .counting source (registry.lintModule source path)
      else .writing source fixed
  else .counting source (registry.lintModule source path)

def writes? : Stage → Option String
  | .writing _ fixed => some fixed
  | _ => none

def errors : Stage → Nat
  | .counting _ result => countedErrors result
  | _ => 0

def warnings : Stage → Nat
  | .counting _ result => countedWarnings result
  | _ => 0

def reported? : Stage → Option (String × LintResult)
  | .done reported => reported
  | _ => none

def remaining : Stage → Nat
  | .waiting => 3
  | .writing _ _ => 2
  | .counting _ _ => 1
  | .done _ => 0

theorem done_of_remaining {stage : Stage} (none : stage.remaining = 0) :
    ∃ reported, stage = .done reported := by
  cases stage with
  | done reported => exact ⟨reported, rfl⟩
  | _ => cases none

section AfterReading

variable {registry : Registry} {fix : Bool} {path source fixed : String}

theorem afterReading_settled (settled : fix = false ∨ registry.fixModule source path = .ok source) :
    afterReading registry fix path source =
      .counting source (registry.lintModule source path) := by
  cases fix with
  | false => rfl
  | true =>
    have same := settled.resolve_left Bool.noConfusion
    simp [afterReading, same]

theorem afterReading_unfixable {cause : LintError} (asked : fix = true)
    (fails : registry.fixModule source path = .error cause) :
    afterReading registry fix path source = .counting source (.error cause) := by
  simp [afterReading, asked, fails]

theorem afterReading_fixed (asked : fix = true) (fixes : registry.fixModule source path = .ok fixed)
    (changed : fixed ≠ source) :
    afterReading registry fix path source = .writing source fixed := by
  simp [afterReading, asked, fixes, changed]

end AfterReading

end Stage

namespace Worker

variable (registry : Registry) (fix : Bool)

/-- One step: the file is read, or it is written, or the result is counted. A worker that is done
stays as it is. -/
def step (worker : Worker) (shared : Shared) : Worker × Shared :=
  match worker.stage with
  | .waiting =>
    match shared.tree.text? worker.path with
    | none =>
      ({ worker with stage := .done none, notes := worker.notes ++ [.unreadable worker.path] }, shared)
    | some source =>
      ({ worker with stage := .afterReading registry fix worker.path source }, shared)
  | .writing source fixed =>
    match shared.tree.write? worker.path fixed with
    | none =>
      ({ worker with
          stage := .counting source (registry.lintModule source worker.path)
          notes := worker.notes ++ [.unwritable worker.path] }, shared)
    | some tree =>
      ({ worker with stage := .counting fixed (registry.lintModule fixed worker.path) },
        { shared with tree })
  | .counting source result =>
    ({ worker with
        stage := .done (result.toOption.map (source, ·))
        notes := worker.notes ++ failureNotes result },
      { shared with
        errors := shared.errors + countedErrors result
        warnings := shared.warnings + countedWarnings result })
  | .done _ => (worker, shared)

section Cases

variable {path source fixed : String} {notes : List Note} {shared : Shared}

theorem step_unreadable (unread : shared.tree.text? path = none) :
    step registry fix ⟨path, .waiting, notes⟩ shared =
      (⟨path, .done none, notes ++ [.unreadable path]⟩, shared) := by
  simp only [step, unread]

theorem step_read (read : shared.tree.text? path = some source) :
    step registry fix ⟨path, .waiting, notes⟩ shared =
      (⟨path, .afterReading registry fix path source, notes⟩, shared) := by
  simp only [step, read]

theorem step_unwritable (refused : shared.tree.write? path fixed = none) :
    step registry fix ⟨path, .writing source fixed, notes⟩ shared =
      (⟨path, .counting source (registry.lintModule source path), notes ++ [.unwritable path]⟩,
        shared) := by
  simp only [step, refused]

theorem step_written {tree : FileTree} (writes : shared.tree.write? path fixed = some tree) :
    step registry fix ⟨path, .writing source fixed, notes⟩ shared =
      (⟨path, .counting fixed (registry.lintModule fixed path), notes⟩, { shared with tree }) := by
  simp only [step, writes]

theorem step_counted (result : Except LintError LintResult) :
    step registry fix ⟨path, .counting source result, notes⟩ shared =
      (⟨path, .done (result.toOption.map (source, ·)), notes ++ failureNotes result⟩,
        { shared with
          errors := shared.errors + countedErrors result
          warnings := shared.warnings + countedWarnings result }) := rfl

theorem step_done (reported : Option (String × LintResult)) :
    step registry fix ⟨path, .done reported, notes⟩ shared =
      (⟨path, .done reported, notes⟩, shared) := rfl

end Cases

variable (worker : Worker) (shared : Shared)

theorem path_step : (worker.step registry fix shared).1.path = worker.path := by
  obtain ⟨path, stage, notes⟩ := worker
  cases stage with
  | waiting =>
    cases read : shared.tree.text? path with
    | none => rw [step_unreadable _ _ read]
    | some source => rw [step_read _ _ read]
  | writing source fixed =>
    cases writes : shared.tree.write? path fixed with
    | none => rw [step_unwritable _ _ writes]
    | some tree => rw [step_written _ _ writes]
  | counting source result => rfl
  | done reported => rfl

/-- What a step does to what is shared can be read off the stage of the worker. -/
theorem shared_step :
    (worker.step registry fix shared).2 =
      { tree := worker.stage.writes?.elim shared.tree (shared.tree.overwrite worker.path)
        errors := shared.errors + worker.stage.errors
        warnings := shared.warnings + worker.stage.warnings } := by
  obtain ⟨path, stage, notes⟩ := worker
  cases stage with
  | waiting =>
    cases read : shared.tree.text? path with
    | none => rw [step_unreadable _ _ read]; rfl
    | some source => rw [step_read _ _ read]; rfl
  | writing source fixed =>
    cases writes : shared.tree.write? path fixed with
    | none =>
      rw [step_unwritable _ _ writes]
      simp [Stage.writes?, Stage.errors, Stage.warnings, FileTree.overwrite, writes]
    | some tree =>
      rw [step_written _ _ writes]
      simp [Stage.writes?, Stage.errors, Stage.warnings, FileTree.overwrite, writes]
  | counting source result => rfl
  | done reported => rfl

/-- What becomes of a worker depends on nothing shared but its own file. -/
theorem step_local {other : Shared}
    (same : other.tree.file? worker.path = shared.tree.file? worker.path) :
    (worker.step registry fix other).1 = (worker.step registry fix shared).1 := by
  obtain ⟨path, stage, notes⟩ := worker
  cases stage with
  | waiting =>
    have alike : other.tree.text? path = shared.tree.text? path := by
      rw [FileTree.text?, FileTree.text?, same]
    cases read : shared.tree.text? path with
    | none => rw [step_unreadable _ _ read, step_unreadable _ _ (alike.trans read)]
    | some source => rw [step_read _ _ read, step_read _ _ (alike.trans read)]
  | writing source fixed =>
    have alike : (other.tree.write? path fixed).isSome = (shared.tree.write? path fixed).isSome := by
      rw [FileTree.isSome_write?, FileTree.isSome_write?, same]
    cases writes : shared.tree.write? path fixed with
    | none =>
      rw [writes, Option.isSome_none, Option.isSome_eq_false_iff, Option.isNone_iff_eq_none] at alike
      rw [step_unwritable _ _ writes, step_unwritable _ _ alike]
    | some tree =>
      rw [writes, Option.isSome_some, Option.isSome_iff_exists] at alike
      obtain ⟨elsewhere, alsoWrites⟩ := alike
      rw [step_written _ _ writes, step_written _ _ alsoWrites]
  | counting source result => rfl
  | done reported => rfl

theorem file?_step {path : String} (apart : FileTree.Apart worker.path path) :
    (worker.step registry fix shared).2.tree.file? path = shared.tree.file? path := by
  rw [shared_step]
  cases worker.stage.writes? with
  | none => rfl
  | some fixed => exact shared.tree.file?_overwrite apart fixed

section Two

variable {worker} {other : Worker} (apart : FileTree.Apart worker.path other.path)

include apart

/-- A worker does not notice a step of a worker on another file. -/
theorem step_unnoticed :
    (other.step registry fix (worker.step registry fix shared).2).1 =
      (other.step registry fix shared).1 :=
  other.step_local registry fix shared (worker.file?_step registry fix shared apart)

/-- And what is shared does not show which of them came first. -/
theorem shared_step_comm :
    (other.step registry fix (worker.step registry fix shared).2).2 =
      (worker.step registry fix (other.step registry fix shared).2).2 := by
  simp only [shared_step, Shared.mk.injEq]
  refine ⟨?_, Nat.add_right_comm .., Nat.add_right_comm ..⟩
  cases worker.stage.writes? with
  | none => rfl
  | some text =>
    cases other.stage.writes? with
    | none => rfl
    | some later => exact shared.tree.overwrite_comm apart text later

end Two

theorem remaining_afterReading (path source : String) :
    (Stage.afterReading registry fix path source).remaining ≤ 2 := by
  unfold Stage.afterReading
  cases fix with
  | false => simp [Stage.remaining]
  | true =>
    cases registry.fixModule source path with
    | error cause => simp [Stage.remaining]
    | ok fixed => by_cases same : fixed = source <;> simp [same, Stage.remaining]

theorem remaining_step :
    (worker.step registry fix shared).1.stage.remaining ≤ worker.stage.remaining - 1 := by
  obtain ⟨path, stage, notes⟩ := worker
  cases stage with
  | waiting =>
    cases read : shared.tree.text? path with
    | none => simp [step_unreadable _ _ read, Stage.remaining]
    | some source =>
      rw [step_read _ _ read]
      exact remaining_afterReading registry fix path source
  | writing source fixed =>
    cases writes : shared.tree.write? path fixed with
    | none => simp [step_unwritable _ _ writes, Stage.remaining]
    | some tree => simp [step_written _ _ writes, Stage.remaining]
  | counting source result => exact Nat.le_refl 0
  | done reported => exact Nat.le_refl 0

/-- A worker that is not interrupted does what linting the file at once does. -/
theorem steps_alone (path : String) :
    let outcome := lintFile registry fix shared.tree path
    let first := step registry fix { path } shared
    let second := first.1.step registry fix first.2
    second.1.step registry fix second.2 =
      (⟨path, .done outcome.reported, outcome.noted⟩,
        ⟨outcome.tree, shared.errors + outcome.errors, shared.warnings + outcome.warnings⟩) := by
  have comes := lintFile_comes registry fix shared.tree path
  generalize lintFile registry fix shared.tree path = outcome at comes
  cases comes with
  | unreadable unread => simp only [step_unreadable _ _ unread, step_done]; rfl
  | kept read settled =>
    simp only [step_read _ _ read, Stage.afterReading_settled settled, step_counted, step_done]
    rfl
  | unfixable read asked fails =>
    simp only [step_read _ _ read, Stage.afterReading_unfixable asked fails, step_counted, step_done]
    rfl
  | written read asked fixes changed writes =>
    simp only [step_read _ _ read, Stage.afterReading_fixed asked fixes changed,
      step_written _ _ writes, step_counted]
    rfl
  | unwritable read asked fixes changed refused =>
    simp only [step_read _ _ read, Stage.afterReading_fixed asked fixes changed,
      step_unwritable _ _ refused, step_counted]
    rfl

end Worker

/-- The workers at some moment, each at its place. -/
structure Crew where
  workers : List Worker
  shared : Shared

namespace Crew

def start (tree : FileTree) (paths : List String) : Crew :=
  ⟨paths.map ({ path := · }), { tree }⟩

def paths (crew : Crew) : List String := crew.workers.map (·.path)

theorem paths_start (tree : FileTree) (paths : List String) : (start tree paths).paths = paths := by
  rw [Crew.paths, start, List.map_map]
  exact List.map_id paths

def Finished (crew : Crew) : Prop := ∀ worker ∈ crew.workers, ∃ reported, worker.stage = .done reported

def progress (crew : Crew) : Progress where
  tree := crew.shared.tree
  results := crew.workers.filterMap (·.stage.reported?)
  errors := crew.shared.errors
  warnings := crew.shared.warnings
  notes := crew.workers.flatMap (·.notes)

variable (registry : Registry) (fix : Bool)

def turn (crew : Crew) (place : Nat) : Crew :=
  match crew.workers[place]? with
  | none => crew
  | some worker =>
    let (worker, shared) := worker.step registry fix crew.shared
    ⟨crew.workers.set place worker, shared⟩

def run (crew : Crew) (schedule : List Nat) : Crew := schedule.foldl (turn registry fix) crew

section Turn

variable {crew : Crew} {place : Nat} {worker : Worker}

theorem turn_of_none (absent : crew.workers[place]? = none) : crew.turn registry fix place = crew := by
  simp only [turn, absent]

theorem turn_of_some (here : crew.workers[place]? = some worker) :
    crew.turn registry fix place =
      ⟨crew.workers.set place (worker.step registry fix crew.shared).1,
        (worker.step registry fix crew.shared).2⟩ := by
  simp only [turn, here]

theorem set_of_getElem? {α : Type} {items : List α} {place : Nat} {item : α}
    (here : items[place]? = some item) : items.set place item = items := by
  obtain ⟨inside, rfl⟩ := List.getElem?_eq_some_iff.mp here
  exact List.set_getElem_self inside

theorem paths_turn (crew : Crew) (place : Nat) :
    (crew.turn registry fix place).paths = crew.paths := by
  cases here : crew.workers[place]? with
  | none => rw [turn_of_none _ _ here]
  | some worker =>
    rw [turn_of_some _ _ here, paths, List.map_set, Worker.path_step]
    exact set_of_getElem? (by rw [List.getElem?_map, here, Option.map_some])

theorem turn_elsewhere (crew : Crew) {other : Nat} (different : place ≠ other) :
    (crew.turn registry fix place).workers[other]? = crew.workers[other]? := by
  cases here : crew.workers[place]? with
  | none => rw [turn_of_none _ _ here]
  | some worker => rw [turn_of_some _ _ here, List.getElem?_set_ne different]

theorem apart_of_paths (apart : crew.paths.Pairwise FileTree.Apart) {first second : Nat}
    (different : first ≠ second) {worker other : Worker}
    (here : crew.workers[first]? = some worker) (there : crew.workers[second]? = some other) :
    FileTree.Apart worker.path other.path := by
  obtain ⟨inside, rfl⟩ := List.getElem?_eq_some_iff.mp here
  obtain ⟨insideToo, rfl⟩ := List.getElem?_eq_some_iff.mp there
  rw [paths, List.pairwise_map, List.pairwise_iff_getElem] at apart
  rcases Nat.lt_or_gt_of_ne different with before | behind
  · exact apart first second inside insideToo before
  · exact (apart second first insideToo inside behind).symm

theorem turn_comm (apart : crew.paths.Pairwise FileTree.Apart) (first second : Nat) :
    (crew.turn registry fix first).turn registry fix second =
      (crew.turn registry fix second).turn registry fix first := by
  by_cases same : first = second
  · rw [same]
  · have keeps := crew.turn_elsewhere registry fix same
    have keepsToo := crew.turn_elsewhere registry fix (Ne.symm same)
    cases here : crew.workers[first]? with
    | none =>
      rw [turn_of_none _ _ here, turn_of_none _ _ (keepsToo.trans here)]
    | some worker =>
      cases there : crew.workers[second]? with
      | none => rw [turn_of_none _ _ there, turn_of_none _ _ (keeps.trans there)]
      | some other =>
        have separate := apart_of_paths apart same here there
        -- Each of them takes the step that it would have taken first.
        rw [turn_of_some _ _ (keeps.trans there), turn_of_some _ _ (keepsToo.trans here),
          turn_of_some _ _ here, turn_of_some _ _ there, Crew.mk.injEq]
        refine ⟨?_, Worker.shared_step_comm registry fix crew.shared separate⟩
        rw [Worker.step_unnoticed registry fix crew.shared separate,
          Worker.step_unnoticed registry fix crew.shared separate.symm, List.set_comm _ _ same]

theorem turn_of_finished (finished : crew.Finished) (place : Nat) :
    crew.turn registry fix place = crew := by
  cases here : crew.workers[place]? with
  | none => exact turn_of_none _ _ here
  | some worker =>
    obtain ⟨reported, isDone⟩ := finished worker (List.mem_of_getElem? here)
    obtain ⟨path, stage, notes⟩ := worker
    cases isDone
    rw [turn_of_some _ _ here, Worker.step_done, set_of_getElem? here]

end Turn

section Run

variable {crew : Crew}

theorem run_append (crew : Crew) (first second : List Nat) :
    crew.run registry fix (first ++ second) =
      (crew.run registry fix first).run registry fix second :=
  List.foldl_append

theorem paths_run (crew : Crew) (schedule : List Nat) :
    (crew.run registry fix schedule).paths = crew.paths := by
  induction schedule generalizing crew with
  | nil => rfl
  | cons place rest ih => exact (ih _).trans (paths_turn registry fix crew place)

/-- Schedules with the same turns in another order come to the same. -/
theorem run_perm {schedule other : List Nat} (perm : schedule.Perm other)
    (apart : crew.paths.Pairwise FileTree.Apart) :
    crew.run registry fix schedule = crew.run registry fix other := by
  induction perm generalizing crew with
  | nil => rfl
  | cons place _ ih => exact ih (by rwa [paths_turn])
  | swap first second rest =>
    exact congrArg (List.foldl _ · rest) (turn_comm registry fix apart second first)
  | trans _ _ ih ih' => exact (ih apart).trans (ih' apart)

theorem run_of_finished (finished : crew.Finished) (schedule : List Nat) :
    crew.run registry fix schedule = crew := by
  induction schedule with
  | nil => rfl
  | cons place rest ih =>
    have idle := turn_of_finished registry fix finished place
    exact (congrArg (run registry fix · rest) idle).trans ih

/-- Two schedules that both let the workers finish come to the same: after either of them the turns
of the other one are idle, and both together are the same turns in another order. -/
theorem run_eq_of_finished {schedule other : List Nat} (apart : crew.paths.Pairwise FileTree.Apart)
    (finished : (crew.run registry fix schedule).Finished)
    (finishedToo : (crew.run registry fix other).Finished) :
    crew.run registry fix schedule = crew.run registry fix other :=
  calc crew.run registry fix schedule
    _ = crew.run registry fix (schedule ++ other) := by
      rw [run_append, run_of_finished registry fix finished]
    _ = crew.run registry fix (other ++ schedule) :=
      run_perm registry fix List.perm_append_comm apart
    _ = crew.run registry fix other := by
      rw [run_append, run_of_finished registry fix finishedToo]

theorem remaining_run (crew : Crew) (schedule : List Nat) {place : Nat} {worker : Worker}
    (here : crew.workers[place]? = some worker) :
    ∃ later, (crew.run registry fix schedule).workers[place]? = some later ∧
      later.stage.remaining ≤ worker.stage.remaining - schedule.count place := by
  induction schedule generalizing crew worker with
  | nil => exact ⟨worker, here, Nat.le_refl _⟩
  | cons next rest ih =>
    by_cases same : next = place
    · subst same
      have inside := (List.getElem?_eq_some_iff.mp here).1
      obtain ⟨later, isLater, bound⟩ := ih (crew.turn registry fix next)
        (by rw [turn_of_some _ _ here]; exact List.getElem?_set_self inside)
      have closer := worker.remaining_step registry fix crew.shared
      refine ⟨later, isLater, ?_⟩
      rw [List.count_cons_self]
      omega
    · obtain ⟨later, isLater, bound⟩ := ih (crew.turn registry fix next)
        ((crew.turn_elsewhere registry fix same).trans here)
      exact ⟨later, isLater, by rwa [List.count_cons_of_ne same]⟩

theorem finished_run (tree : FileTree) (paths : List String) {schedule : List Nat}
    (turns : ∀ place < paths.length, 3 ≤ schedule.count place) :
    ((start tree paths).run registry fix schedule).Finished := by
  intro worker member
  obtain ⟨place, isLater⟩ := List.getElem?_of_mem member
  have path : paths[place]? = some worker.path := by
    rw [← paths_start tree paths, ← paths_run registry fix _ schedule, Crew.paths,
      List.getElem?_map, isLater, Option.map_some]
  have inside := (List.getElem?_eq_some_iff.mp path).1
  have atStart : (start tree paths).workers[place]? = some { path := worker.path } := by
    rw [start, List.getElem?_map, path, Option.map_some]
  obtain ⟨later, alsoLater, bound⟩ := remaining_run registry fix _ schedule atStart
  cases isLater.symm.trans alsoLater
  have enough := turns place inside
  replace bound : worker.stage.remaining ≤ 3 - schedule.count place := bound
  exact Stage.done_of_remaining (by omega)

end Run

section InOrder

theorem turn_middle (past rest : List Worker) (worker : Worker) (shared : Shared) :
    (⟨past ++ worker :: rest, shared⟩ : Crew).turn registry fix past.length =
      ⟨past ++ (worker.step registry fix shared).1 :: rest, (worker.step registry fix shared).2⟩ := by
  have here : (past ++ worker :: rest)[past.length]? = some worker := by simp
  rw [turn_of_some registry fix here]
  simp

def inOrder (first workers : Nat) : List Nat :=
  (List.range' first workers).flatMap (List.replicate 3)

theorem run_block (past rest : List Worker) (path : String) (shared : Shared) :
    let outcome := lintFile registry fix shared.tree path
    (⟨past ++ { path } :: rest, shared⟩ : Crew).run registry fix (List.replicate 3 past.length) =
      ⟨past ++ ⟨path, .done outcome.reported, outcome.noted⟩ :: rest,
        ⟨outcome.tree, shared.errors + outcome.errors, shared.warnings + outcome.warnings⟩⟩ := by
  have alone := Worker.steps_alone registry fix shared path
  dsimp only at alone ⊢
  simp only [run, List.replicate, List.foldl_cons, List.foldl_nil, turn_middle, alone]

theorem inOrder_succ (first workers : Nat) :
    inOrder first (workers + 1) = List.replicate 3 first ++ inOrder (first + 1) workers := by
  rw [inOrder, List.range'_succ, List.flatMap_cons, inOrder]

theorem progress_add (past : List Worker) (shared : Shared) (path : String) :
    let outcome := lintFile registry fix shared.tree path
    (⟨past ++ [⟨path, .done outcome.reported, outcome.noted⟩],
        ⟨outcome.tree, shared.errors + outcome.errors, shared.warnings + outcome.warnings⟩⟩ :
      Crew).progress =
      (⟨past, shared⟩ : Crew).progress.add registry fix path := by
  rw [Progress.add_eq]
  dsimp only [progress]
  rw [List.filterMap_append, List.flatMap_append, List.flatMap_singleton]
  cases (lintFile registry fix shared.tree path).reported <;> rfl

/-- Worker by worker, the crew does what the run does file by file. -/
theorem run_inOrder (paths : List String) {past : List Worker} {shared : Shared}
    (finished : (⟨past, shared⟩ : Crew).Finished) :
    let crew := (⟨past ++ paths.map ({ path := · }), shared⟩ : Crew).run registry fix
      (inOrder past.length paths.length)
    crew.Finished ∧
      crew.progress = paths.foldl (Progress.add registry fix) (⟨past, shared⟩ : Crew).progress := by
  induction paths generalizing past shared with
  | nil => simpa [inOrder, run] using finished
  | cons path rest ih =>
    have block := run_block registry fix past (rest.map ({ path := · })) path shared
    have next := progress_add registry fix past shared path
    generalize lintFile registry fix shared.tree path = outcome at block next
    have later := @ih (past ++ [⟨path, .done outcome.reported, outcome.noted⟩])
      ⟨outcome.tree, shared.errors + outcome.errors, shared.warnings + outcome.warnings⟩ (by
        intro worker member
        rcases List.mem_append.mp member with before | now
        · exact finished worker before
        · exact ⟨_, congrArg Worker.stage (List.mem_singleton.mp now)⟩)
    rw [List.length_append, List.append_assoc, next] at later
    rw [List.length_cons, inOrder_succ, run_append, List.map_cons, block]
    exact later

end InOrder

end Crew

/-- Linting side by side does not depend on the schedule. Workers on different files finish under
every schedule that gives each of them three turns. However their steps were mixed, once they have
finished the files, the totals and the results in their order are those of linting the files one
after the other, and so are the output and the exit code of a run over these files. -/
theorem schedules_agree (registry : Registry) (fix : Bool) (tree : FileTree) {paths : List String}
    (apart : paths.Pairwise FileTree.Apart) (schedule : List Nat) :
    let crew := (Crew.start tree paths).run registry fix schedule
    ((∀ place < paths.length, 3 ≤ schedule.count place) → crew.Finished) ∧
    (crew.Finished →
      crew.progress = lintAll registry fix tree paths ∧
      ∀ (folder : String) (verbose : Bool) (options : Options),
        options.registry folder tree = registry → options.fix = fix →
        Files.collect tree options.patterns = paths → paths ≠ [] →
        let outcome := lint folder verbose options tree
        options.printed paths.length crew.progress = outcome.output ∧
        exitCode options crew.progress.errors crew.progress.warnings = outcome.exitCode ∧
        crew.progress.tree = outcome.tree) := by
  refine ⟨Crew.finished_run registry fix tree paths, fun finished => ?_⟩
  obtain ⟨ends, progress⟩ :=
    @Crew.run_inOrder registry fix paths [] { tree } (fun _ member => nomatch member)
  have same := Crew.run_eq_of_finished registry fix
    ((Crew.paths_start tree paths).symm ▸ apart) finished ends
  have result : ((Crew.start tree paths).run registry fix schedule).progress =
      lintAll registry fix tree paths :=
    (congrArg Crew.progress same).trans progress
  refine ⟨result, ?_⟩
  rintro folder verbose options rfl rfl rfl any
  dsimp only
  rw [result, lint_output, lint_exitCode, lint_tree, if_neg any]
  exact ⟨rfl, rfl, rfl⟩

/-- Both workers read before one of them writes. -/
theorem schedules_agree_two_files :
    let tree := FileTree.folder [("a.jsx", .file ⟨.text "window.a", true⟩),
      ("b.jsx", .file ⟨.text "'use client'", true⟩)]
    let options : Options := { patterns := ["a.jsx", "b.jsx"], fix := true }
    let crew := (Crew.start tree ["a.jsx", "b.jsx"]).run (options.registry "" tree) true
      [0, 1, 1, 0, 1, 0]
    ["a.jsx", "b.jsx"].Pairwise FileTree.Apart ∧ crew.Finished ∧
      crew.progress = lintAll (options.registry "" tree) true tree ["a.jsx", "b.jsx"] ∧
      options.printed 2 crew.progress = (lint "" false options tree).output := by
  intro tree options crew
  have apart : ["a.jsx", "b.jsx"].Pairwise FileTree.Apart := by decide +kernel
  have expanded : options.patterns.flatMap (Files.expand tree) = ["a.jsx", "b.jsx"] := by
    decide +kernel
  have paths : Files.collect tree options.patterns = ["a.jsx", "b.jsx"] := by
    rw [Files.collect, expanded, List.mergeSort_of_pairwise (by decide +kernel),
      Files.withoutRepeats, if_neg (by decide +kernel), Files.withoutRepeats]
    simp
  obtain ⟨finishes, agrees⟩ :=
    schedules_agree (options.registry "" tree) true tree apart [0, 1, 1, 0, 1, 0]
  have finished := finishes (by decide)
  obtain ⟨progress, outcomes⟩ := agrees finished
  obtain ⟨output, _, _⟩ := outcomes "" false options rfl rfl paths (by decide)
  exact ⟨apart, finished, progress, output⟩

end ClientBoundary.Cli
