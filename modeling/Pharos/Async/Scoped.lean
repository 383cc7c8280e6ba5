import Mathlib.Data.List.Basic
import Mathlib.Logic.Relation

/-!
# Futures under task-local scopes

A thread has storage of its own.  A future that runs in a scope puts the values of the scope into
the storage of the thread that polls it, and puts back what was there when the poll is over; a task
may be polled by any thread.  Futures nest scopes, join each other and spawn tasks, and whoever polls
them decides which of the joined ones goes on.

Every event of a run carries the scopes that it is in, the innermost first, and the storage that it
sees.  What it sees is what its scopes make of the storage of an idle thread.
-/

namespace Async

variable {L A B H R V : Type}

/-- What a scope puts into the storage, and how it puts back what was there. -/
structure Scoping (L A : Type) where
  enter : A → L → L
  leave : A → L → L → L
  leave_enter : ∀ scope l, leave scope l (enter scope l) = l

namespace Scoping

/-- Scopes in scopes, the outermost first. -/
def enterAll (S : Scoping L A) : List A → L → L
  | [], l => l
  | scope :: inner, l => S.enterAll inner (S.enter scope l)

def leaveAll (S : Scoping L A) : List A → L → L → L
  | [], _, l => l
  | scope :: inner, saved, l => S.leave scope saved (S.leaveAll inner (S.enter scope saved) l)

theorem leaveAll_enterAll (S : Scoping L A) (scopes : List A) (l : L) :
    S.leaveAll scopes l (S.enterAll scopes l) = l := by
  induction scopes generalizing l with
  | nil => rfl
  | cons scope inner ih => rw [leaveAll, enterAll, ih, S.leave_enter]

/-- A scope that is made of others. -/
def nested (S : Scoping L A) (parts : B → List A) : Scoping L B where
  enter scope := S.enterAll (parts scope)
  leave scope := S.leaveAll (parts scope)
  leave_enter scope := S.leaveAll_enterAll (parts scope)

/-- What is seen in scopes, the innermost first. -/
def within (S : Scoping L H) : List H → L → L
  | [], l => l
  | scope :: outer, l => S.enter scope (S.within outer l)

theorem within_concat (S : Scoping L H) (scopes : List H) (outermost : H) (l : L) :
    S.within (scopes ++ [outermost]) l = S.within scopes (S.enter outermost l) := by
  induction scopes with
  | nil => rfl
  | cons scope outer ih => exact congrArg (S.enter scope) ih

end Scoping

/-- What is left to do of a future that nobody has polled there yet. -/
inductive Code (L H V : Type) where
  | ready (value : V)
  | look (next : L → Code L H V)
  | pending (next : Code L H V)
  | spawn (future : Code L H V) (next : Code L H V)
  | scope (helper : H) (work : Code L H V) (next : V → Code L H V)
  | join (left right : Code L H V) (next : V → V → Code L H V)

/-- Synchronous code that builds a future. -/
inductive Build (L H V : Type) where
  | done (future : Code L H V)
  | look (next : L → Build L H V)
  | spawn (future : Code L H V) (next : Build L H V)

/-- Build a future, and go on with it. -/
def Build.andThen : Build L H V → (Code L H V → Code L H V) → Code L H V
  | .done future, next => next future
  | .look rest, next => .look fun l => (rest l).andThen next
  | .spawn future rest, next => .spawn future (rest.andThen next)

/-- A future that is being polled.  A scope remembers what its caller saw; no poll reads it. -/
inductive Running (L H V : Type) where
  | code (code : Code L H V)
  | scope (helper : H) (before : L) (work : Running L H V) (next : V → Code L H V)
  | join (left right : Running L H V) (next : V → V → Code L H V)

/-- The value of a future that is done. -/
def Running.value? : Running L H V → Option V
  | .code (.ready value) => some value
  | _ => none

/-- The values of two futures that are both done. -/
def Running.values? (left right : Running L H V) : Option (V × V) :=
  left.value?.bind fun first => right.value?.map fun second => (first, second)

/-- Which of two joined futures goes on. -/
inductive Side where
  | left
  | right
  deriving DecidableEq

/-- What a future does at one point. -/
inductive Doing (L H : Type) where
  | looks
  | waits
  | spawns
  | calls (helper : H)
  | returns (helper : H) (before : L)
  | forks
  | joins
  deriving DecidableEq

/-- What a poll comes to. -/
structure Polled (L H V : Type) where
  locals : L
  rest : Running L H V
  frames : List H
  seen : L
  doing : Doing L H
  spawned : Option (Code L H V) := none

/-- A future goes on with `rest`, in the scope that is polled. -/
def Polled.here (l : L) (doing : Doing L H) (rest : Running L H V) : Polled L H V where
  locals := l
  rest := rest
  frames := []
  seen := l
  doing := doing

/-- One step of a future; `path` says which of the joined futures on the way goes on. -/
def Scoping.poll (S : Scoping L H) : Running L H V → List Side → L → Option (Polled L H V)
  | .code (.ready _), _, _ => none
  | .code (.look next), _, l => some (.here l .looks (.code (next l)))
  | .code (.pending next), _, l => some (.here l .waits (.code next))
  | .code (.spawn future next), _, l =>
      some { Polled.here l .spawns (.code next) with spawned := some future }
  | .code (.scope helper work next), _, l =>
      some (.here l (.calls helper) (.scope helper l (.code work) next))
  | .code (.join left right next), _, l =>
      some (.here l .forks (.join (.code left) (.code right) next))
  | .scope helper before work next, path, l =>
      match work.value? with
      | some value => some (.here l (.returns helper before) (.code (next value)))
      | none =>
          (S.poll work path (S.enter helper l)).map fun polled =>
            { polled with
              locals := S.leave helper l polled.locals
              rest := .scope helper before polled.rest next
              frames := polled.frames ++ [helper] }
  | .join left right next, path, l =>
      match Running.values? left right with
      | some (first, second) => some (.here l .joins (.code (next first second)))
      | none =>
          match path.head? with
          | some .left =>
              (S.poll left path.tail l).map fun polled =>
                { polled with rest := .join polled.rest right next }
          | some .right =>
              (S.poll right path.tail l).map fun polled =>
                { polled with rest := .join left polled.rest next }
          | none => none

/-- What the callers of the open scopes saw is what is there now. -/
def Scoping.Fits (S : Scoping L H) : L → Running L H V → Prop
  | _, .code _ => True
  | l, .scope helper before work _ => before = l ∧ S.Fits (S.enter helper l) work
  | l, .join left right _ => S.Fits l left ∧ S.Fits l right

/-- What a poll leaves behind and what it saw. -/
structure Scoping.Sees (S : Scoping L H) (l : L) (polled : Polled L H V) : Prop where
  restored : polled.locals = l
  fits : S.Fits l polled.rest
  seen : polled.seen = S.within polled.frames l
  returned : ∀ helper before, polled.doing = .returns helper before → polled.seen = before

theorem Scoping.Sees.here (S : Scoping L H) {l : L} {doing : Doing L H} {rest : Running L H V}
    (fits : S.Fits l rest)
    (returned : ∀ helper before, doing = .returns helper before → l = before) :
    S.Sees l (Polled.here l doing rest) :=
  ⟨rfl, fits, rfl, returned⟩

/-- A poll leaves the storage as it was. -/
theorem Scoping.sees_of_poll (S : Scoping L H) {running : Running L H V} {path : List Side} {l : L}
    {polled : Polled L H V} (fits : S.Fits l running) (did : S.poll running path l = some polled) :
    S.Sees l polled := by
  induction running generalizing path l polled with
  | code code =>
      cases code with
      | ready value => cases did
      | look next =>
          cases did
          exact .here S trivial nofun
      | pending next =>
          cases did
          exact .here S trivial nofun
      | spawn future next =>
          cases did
          exact ⟨rfl, trivial, rfl, nofun⟩
      | scope helper work next =>
          cases did
          exact .here S ⟨rfl, trivial⟩ nofun
      | join left right next =>
          cases did
          exact .here S ⟨trivial, trivial⟩ nofun
  | scope helper before work next ih =>
      obtain ⟨rfl, inner⟩ := fits
      rw [poll] at did
      split at did
      · cases did
        refine .here S trivial fun _ _ same => ?_
        cases same
        rfl
      · obtain ⟨polled, deeper, rfl⟩ := Option.map_eq_some_iff.mp did
        obtain ⟨restored, fits, seen, returned⟩ := ih inner deeper
        refine ⟨?_, ⟨rfl, fits⟩, ?_, returned⟩
        · show S.leave helper before polled.locals = before
          rw [restored, S.leave_enter]
        · show polled.seen = S.within (polled.frames ++ [helper]) before
          rw [seen, S.within_concat]
  | join left right next ihLeft ihRight =>
      obtain ⟨fitsLeft, fitsRight⟩ := fits
      rw [poll] at did
      split at did
      · cases did
        exact .here S trivial nofun
      · split at did
        · obtain ⟨polled, deeper, rfl⟩ := Option.map_eq_some_iff.mp did
          obtain ⟨restored, fits, seen, returned⟩ := ihLeft fitsLeft deeper
          exact ⟨restored, ⟨fits, fitsRight⟩, seen, returned⟩
        · obtain ⟨polled, deeper, rfl⟩ := Option.map_eq_some_iff.mp did
          obtain ⟨restored, fits, seen, returned⟩ := ihRight fitsRight deeper
          exact ⟨restored, ⟨fitsLeft, fits⟩, seen, returned⟩
        · cases did

/-! ## Tasks on threads -/

/-- A task: the scope that its whole future runs in, and the future. -/
structure ScopedTask (L H R V : Type) where
  root : R
  body : Running L H V

/-- Something that a task did, with the number of the task that it spawned. -/
structure Occurrence (L H : Type) where
  task : ℕ
  frames : List H
  seen : L
  doing : Doing L H
  spawned : Option ℕ
  deriving DecidableEq

/-- The storage of every thread, the tasks, and what has happened. -/
structure Runtime (L H R V : Type) where
  threads : ℕ → L
  tasks : List (ScopedTask L H R V)
  trace : List (Occurrence L H) := []

/-- A thread polls a task. -/
structure Turn where
  thread : ℕ
  task : ℕ
  path : List Side := []

/-- How scopes work, what spawned tasks take with them, and what an idle thread has. -/
structure Runner (L H R : Type) where
  helpers : Scoping L H
  roots : Scoping L R
  carry : L → R
  plain : R
  idle : L

namespace Runner

variable (M : Runner L H R)

/-- A runtime with tasks that were started from outside. -/
def initial (main : List (Code L H V)) : Runtime L H R V where
  threads := fun _ => M.idle
  tasks := main.map fun code => ⟨M.plain, .code code⟩

/-- One poll of a task by a thread. -/
def step (r : Runtime L H R V) (turn : Turn) : Option (Runtime L H R V) :=
  match r.tasks[turn.task]? with
  | none => none
  | some task =>
      let l := r.threads turn.thread
      (M.helpers.poll task.body turn.path (M.roots.enter task.root l)).map fun polled =>
        { threads := fun thread =>
            if thread = turn.thread then M.roots.leave task.root l polled.locals
            else r.threads thread
          tasks := r.tasks.set turn.task { task with body := polled.rest } ++
            (polled.spawned.map fun future => ⟨M.carry polled.seen, .code future⟩).toList
          trace := r.trace ++ [{
            task := turn.task
            frames := polled.frames
            seen := polled.seen
            doing := polled.doing
            spawned := polled.spawned.map fun _ => r.tasks.length }] }

/-- A runtime that turns lead to. -/
def Reaches (main : List (Code L H V)) : Runtime L H R V → Prop :=
  Relation.ReflTransGen (fun r r' => ∃ turn, M.step r turn = some r') (M.initial main)

/-- Take turns. -/
def exec (r : Runtime L H R V) : List Turn → Option (Runtime L H R V)
  | [] => some r
  | turn :: turns => (M.step r turn).bind fun r' => exec r' turns

theorem exists_reaches_of_exec {main : List (Code L H V)} {turns : List Turn}
    {check : Runtime L H R V → Bool} (passes : (M.exec (M.initial main) turns).any check = true) :
    ∃ r, M.Reaches main r ∧ check r = true := by
  have along : ∀ (turns : List Turn) (r r' : Runtime L H R V), M.exec r turns = some r' →
      Relation.ReflTransGen (fun r r' => ∃ turn, M.step r turn = some r') r r' := by
    intro turns
    induction turns with
    | nil =>
        intro r r' ends
        cases ends
        exact .refl
    | cons turn turns ih =>
        intro r r' ends
        obtain ⟨next, stepped, rest⟩ := Option.bind_eq_some_iff.mp ends
        exact .head ⟨turn, stepped⟩ (ih next r' rest)
  obtain ⟨r, ends, holds⟩ := (Option.any_eq_true _ _).mp passes
  exact ⟨r, along turns _ r ends, holds⟩

/-- What one occurrence saw, in a runtime with these tasks. -/
structure Saw (tasks : List (ScopedTask L H R V)) (occurrence : Occurrence L H) : Prop where
  seen : ∃ task, tasks[occurrence.task]? = some task ∧
    occurrence.seen = M.helpers.within occurrence.frames (M.roots.enter task.root M.idle)
  returned : ∀ helper before, occurrence.doing = .returns helper before → occurrence.seen = before
  spawned : ∀ number, occurrence.spawned = some number →
    ∃ task, tasks[number]? = some task ∧ task.root = M.carry occurrence.seen

/-- Threads are idle between polls, open scopes remember what their callers see, and everything that
happened saw what its scopes make of an idle thread. -/
structure Kept (r : Runtime L H R V) : Prop where
  threads : ∀ thread, r.threads thread = M.idle
  fits : ∀ task ∈ r.tasks, M.helpers.Fits (M.roots.enter task.root M.idle) task.body
  saw : ∀ occurrence ∈ r.trace, M.Saw r.tasks occurrence

variable {M}

theorem Saw.mono {tasks tasks' : List (ScopedTask L H R V)} {occurrence : Occurrence L H}
    (saw : M.Saw tasks occurrence)
    (same : ∀ (i : ℕ) task, tasks[i]? = some task →
      ∃ task', tasks'[i]? = some task' ∧ task'.root = task.root) : M.Saw tasks' occurrence := by
  refine ⟨?_, saw.returned, fun number spawns => ?_⟩
  · obtain ⟨task, found, seen⟩ := saw.seen
    obtain ⟨task', found', root⟩ := same _ task found
    exact ⟨task', found', root ▸ seen⟩
  · obtain ⟨task, found, root⟩ := saw.spawned number spawns
    obtain ⟨task', found', root'⟩ := same _ task found
    exact ⟨task', found', root'.trans root⟩

theorem Kept.initial (main : List (Code L H V)) : M.Kept (M.initial main) := by
  refine ⟨fun _ => rfl, fun task started => ?_, nofun⟩
  obtain ⟨code, -, rfl⟩ := List.mem_map.mp started
  trivial

theorem Kept.step {r r' : Runtime L H R V} {turn : Turn} (kept : M.Kept r)
    (stepped : M.step r turn = some r') : M.Kept r' := by
  unfold Runner.step at stepped
  split at stepped
  · cases stepped
  · next task found =>
    obtain ⟨polled, did, rfl⟩ := Option.map_eq_some_iff.mp stepped
    have short := (List.getElem?_eq_some_iff.mp found).1
    rw [kept.threads turn.thread] at did
    obtain ⟨restored, fits, seen, returned⟩ :=
      M.helpers.sees_of_poll (kept.fits task (List.mem_of_getElem? found)) did
    -- the tasks keep their roots, whatever comes after them
    have same : ∀ (later : List (ScopedTask L H R V)) (i : ℕ) other, r.tasks[i]? = some other →
        ∃ other', (r.tasks.set turn.task { task with body := polled.rest } ++ later)[i]? = some other' ∧
          other'.root = other.root := by
      intro later i other at_i
      have less := (List.getElem?_eq_some_iff.mp at_i).1
      rw [List.getElem?_append_left (by rw [List.length_set]; exact less), List.getElem?_set]
      split
      · next here =>
        subst here
        cases found.symm.trans at_i
        exact ⟨_, rfl, rfl⟩
      · exact ⟨other, at_i, rfl⟩
    constructor
    · intro thread
      show (if thread = turn.thread then _ else _) = _
      split
      · rw [restored, kept.threads, M.roots.leave_enter]
      · exact kept.threads thread
    · intro other started
      rcases List.mem_append.mp started with old | new
      · rcases List.mem_or_eq_of_mem_set old with old | rfl
        · exact kept.fits other old
        · exact fits
      · obtain ⟨future, -, rfl⟩ := Option.map_eq_some_iff.mp (Option.mem_toList.mp new)
        trivial
    · intro occurrence happened
      rcases List.mem_append.mp happened with old | now
      · exact (kept.saw occurrence old).mono (same _)
      · cases List.mem_singleton.mp now
        refine ⟨?_, returned, fun number spawns => ?_⟩
        · obtain ⟨task', found', root⟩ := same _ _ task found
          exact ⟨task', found', root ▸ seen⟩
        · obtain ⟨future, spawned, rfl⟩ := Option.map_eq_some_iff.mp spawns
          refine ⟨⟨M.carry polled.seen, .code future⟩, ?_, rfl⟩
          show (_ ++ _)[r.tasks.length]? = _
          rw [List.getElem?_append_right (Nat.le_of_eq (List.length_set ..)), List.length_set,
            Nat.sub_self, spawned]
          rfl

/-- On every run, threads are restored and everything sees what its scopes say. -/
theorem kept_of_reaches {main : List (Code L H V)} {r : Runtime L H R V}
    (reached : M.Reaches main r) : M.Kept r := by
  induction reached with
  | refl => exact .initial main
  | tail _ stepped ih =>
      obtain ⟨turn, stepped⟩ := stepped
      exact ih.step stepped

end Runner

end Async
