import Pharos.Async.Scoped

/-!
# The polls of one future

The storage of a thread is put back after every poll, so a future that is polled in the same scopes
again and again finds the same values there (`Runner.Kept`).  `Scoping.Runs` is a run of one future
under such values, with everything that the future did.  Of a future in a scope it is a run of the
work, seen from outside, and once the work is done a run of the rest.  What a task does on the threads
of a runtime is such a run (`Runner.runs_of_later`).
-/

namespace Async

variable {L H R V : Type}

/-- Something that a future did, with the scopes around it, the innermost first, and what it saw. -/
structure Sight (L H : Type) where
  frames : List H
  seen : L
  doing : Doing L H
  deriving DecidableEq

/-- What a poll did. -/
def Polled.sight (polled : Polled L H V) : Sight L H := ⟨polled.frames, polled.seen, polled.doing⟩

/-- The same from outside a scope. -/
def Sight.inside (helper : H) (sight : Sight L H) : Sight L H :=
  { sight with frames := sight.frames ++ [helper] }

/-- Polls of a future where the storage holds `l`, and what it did. -/
inductive Scoping.Runs (S : Scoping L H) (l : L) :
    Running L H V → List (Sight L H) → Running L H V → Prop
  | none {running : Running L H V} : S.Runs l running [] running
  | poll {running last : Running L H V} {polled : Polled L H V} {sights : List (Sight L H)}
    (path : List Side) :
    S.poll running path l = some polled → S.Runs l polled.rest sights last →
    S.Runs l running (polled.sight :: sights) last

/-- Synchronous code has done some of what it does where the storage holds `l`; `rest` is left. -/
inductive Build.Does (l : L) : Build L H V → List (Sight L H) → Build L H V → Prop
  | none {build : Build L H V} : Build.Does l build [] build
  | look {next : L → Build L H V} {rest : Build L H V} {sights : List (Sight L H)} :
    Build.Does l (next l) sights rest →
    Build.Does l (.look next) (⟨[], l, .looks⟩ :: sights) rest
  | spawn {future : Code L H V} {next rest : Build L H V} {sights : List (Sight L H)} :
    Build.Does l next sights rest →
    Build.Does l (.spawn future next) (⟨[], l, .spawns⟩ :: sights) rest

/-- What synchronous code does where the storage holds `l`, before it has built its future. -/
def Build.sights (l : L) : Build L H V → List (Sight L H)
  | .done _ => []
  | .look rest => ⟨[], l, .looks⟩ :: (rest l).sights l
  | .spawn _ rest => ⟨[], l, .spawns⟩ :: rest.sights l

/-- The future that synchronous code builds where the storage holds `l`. -/
def Build.built (l : L) : Build L H V → Code L H V
  | .done future => future
  | .look rest => (rest l).built l
  | .spawn _ rest => rest.built l

namespace Build

variable {l : L} {build : Build L H V}

/-- Synchronous code sees what is there when it is called. -/
theorem seen_of_mem_sights {sight : Sight L H} (did : sight ∈ build.sights l) :
    sight.frames = [] ∧ sight.seen = l := by
  induction build with
  | done future => cases did
  | look rest ih =>
      rcases List.mem_cons.mp did with rfl | later
      · exact ⟨rfl, rfl⟩
      · exact ih l later
  | spawn future rest ih =>
      rcases List.mem_cons.mp did with rfl | later
      · exact ⟨rfl, rfl⟩
      · exact ih later

theorem Does.sights_append {rest : Build L H V} {sights : List (Sight L H)}
    (did : build.Does l sights rest) : sights ++ rest.sights l = build.sights l := by
  induction did with
  | none => rfl
  | look _ ih => exact congrArg (_ :: ·) ih
  | spawn _ ih => exact congrArg (_ :: ·) ih

/-- Synchronous code comes to the future that it builds. -/
theorem Does.built (l : L) (build : Build L H V) :
    build.Does l (build.sights l) (.done (build.built l)) := by
  induction build with
  | done future => exact .none
  | look rest ih => exact .look (ih l)
  | spawn future rest ih => exact .spawn ih

/-- Code that opens a scope as soon as its future is built is not done. -/
theorem value?_andThen_scope (build : Build L H V) (helper : H) (next : V → Code L H V) :
    (Running.code (build.andThen fun future => .scope helper future next)).value? = none := by
  cases build <;> rfl

end Build

namespace Scoping.Runs

variable {S : Scoping L H} {l : L} {sights : List (Sight L H)} {last : Running L H V}

theorem trans {first mid : Running L H V} {sights' : List (Sight L H)}
    (runs : S.Runs l first sights mid) (rest : S.Runs l mid sights' last) :
    S.Runs l first (sights ++ sights') last := by
  induction runs with
  | none => exact rest
  | poll path did _ ih => exact .poll path did (ih rest)

/-- Code that builds a future and goes on with it: synchronous code comes first. -/
theorem of_andThen {build : Build L H V} {next : Code L H V → Code L H V}
    (runs : S.Runs l (.code (build.andThen next)) sights last) :
    (∃ rest, build.Does l sights rest ∧ last = .code (rest.andThen next)) ∨
      ∃ rest, sights = build.sights l ++ rest ∧ S.Runs l (.code (next (build.built l))) rest last := by
  induction build generalizing sights with
  | done future => exact .inr ⟨sights, rfl, runs⟩
  | look tail ih =>
      cases runs with
      | none => exact .inl ⟨_, .none, rfl⟩
      | poll path did later =>
          cases did
          rcases ih l later with ⟨rest, short, left⟩ | ⟨rest, rfl, goes⟩
          · exact .inl ⟨rest, .look short, left⟩
          · exact .inr ⟨rest, rfl, goes⟩
  | spawn future tail ih =>
      cases runs with
      | none => exact .inl ⟨_, .none, rfl⟩
      | poll path did later =>
          cases did
          rcases ih later with ⟨rest, short, left⟩ | ⟨rest, rfl, goes⟩
          · exact .inl ⟨rest, .spawn short, left⟩
          · exact .inr ⟨rest, rfl, goes⟩

/-- A future in a scope: its work runs inside, and once that is done the rest runs outside. -/
theorem of_open {helper : H} {before : L} {work : Running L H V} {next : V → Code L H V}
    (runs : S.Runs l (.scope helper before work next) sights last) :
    ∃ inner mid, S.Runs (S.enter helper l) work inner mid ∧
      (sights = inner.map (Sight.inside helper) ∧ last = .scope helper before mid next ∨
        ∃ value rest, mid = .code (.ready value) ∧
          sights = inner.map (Sight.inside helper) ++ ⟨[], l, .returns helper before⟩ :: rest ∧
          S.Runs l (.code (next value)) rest last) := by
  generalize opened : Running.scope helper before work next = running at runs
  induction runs generalizing work with
  | none => exact ⟨[], work, .none, .inl ⟨rfl, opened.symm⟩⟩
  | @poll running last polled sights path did later ih =>
      subst opened
      rw [Scoping.poll] at did
      split at did
      · next value done =>
        cases did
        have ready : work = .code (.ready value) := by
          unfold Running.value? at done
          split at done
          · cases done
            rfl
          · cases done
        exact ⟨[], work, .none, .inr ⟨value, sights, ready, rfl, later⟩⟩
      · obtain ⟨deeper, went, rfl⟩ := Option.map_eq_some_iff.mp did
        obtain ⟨inner, mid, runs, outcome⟩ := ih rfl
        refine ⟨deeper.sight :: inner, mid, .poll path went runs, ?_⟩
        rcases outcome with ⟨inside, left⟩ | ⟨value, rest, ready, split, goes⟩
        · exact .inl ⟨by rw [inside]; rfl, left⟩
        · exact .inr ⟨value, rest, ready, by rw [split]; rfl, goes⟩

/-- The same from the call on. -/
theorem of_scope {helper : H} {work : Code L H V} {next : V → Code L H V}
    (runs : S.Runs l (.code (.scope helper work next)) sights last) :
    sights = [] ∧ last = .code (.scope helper work next) ∨
      ∃ inner mid, S.Runs (S.enter helper l) (.code work) inner mid ∧
      (sights = ⟨[], l, .calls helper⟩ :: inner.map (Sight.inside helper) ∧
          last = .scope helper l mid next ∨
        ∃ value rest, mid = .code (.ready value) ∧
          sights = ⟨[], l, .calls helper⟩ :: inner.map (Sight.inside helper) ++
            ⟨[], l, .returns helper l⟩ :: rest ∧
          S.Runs l (.code (next value)) rest last) := by
  cases runs with
  | none => exact .inl ⟨rfl, rfl⟩
  | poll path did later =>
      cases did
      obtain ⟨inner, mid, runs, outcome⟩ := later.of_open
      refine .inr ⟨inner, mid, runs, ?_⟩
      rcases outcome with ⟨inside, left⟩ | ⟨value, rest, ready, split, goes⟩
      · exact .inl ⟨by rw [inside]; rfl, left⟩
      · exact .inr ⟨value, rest, ready, by rw [split]; rfl, goes⟩

/-- What a future sees is what its scopes make of the storage around it. -/
theorem seen {running : Running L H V} (fits : S.Fits l running) (runs : S.Runs l running sights last) :
    ∀ sight ∈ sights, sight.seen = S.within sight.frames l := by
  induction runs with
  | none => nofun
  | @poll _ _ polled sights path did _ ih =>
      have sees := S.sees_of_poll fits did
      intro sight listed
      rcases List.mem_cons.mp listed with rfl | later
      · exact sees.seen
      · exact ih sees.fits sight later

end Scoping.Runs

/-! ## Tasks on threads -/

/-- What an occurrence was, whoever did it. -/
def Occurrence.sight (occurrence : Occurrence L H) : Sight L H :=
  ⟨occurrence.frames, occurrence.seen, occurrence.doing⟩

/-- What one task did. -/
def sightsOf (trace : List (Occurrence L H)) (number : ℕ) : List (Sight L H) :=
  trace.filterMap fun occurrence =>
    if occurrence.task = number then some occurrence.sight else none

theorem sightsOf_concat (trace : List (Occurrence L H)) (occurrence : Occurrence L H) (number : ℕ) :
    sightsOf (trace ++ [occurrence]) number =
      sightsOf trace number ++ if occurrence.task = number then [occurrence.sight] else [] := by
  rw [sightsOf, List.filterMap_append]
  refine congrArg (sightsOf trace number ++ ·) ?_
  rw [List.filterMap_cons, List.filterMap_nil]
  split
  · next none => rw [if_neg fun same => by rw [if_pos same] at none; cases none]
  · next sight some =>
    split at some
    · next same =>
      cases some
      rw [if_pos same]
    · cases some

namespace Runner

variable {M : Runner L H R} {r r' : Runtime L H R V} {number : ℕ} {task : ScopedTask L H R V}

/-- A poll of one task is a poll of its future where the storage holds what the task was started with,
and leaves the other tasks alone. -/
theorem runs_of_step {turn : Turn} (kept : M.Kept r) (stepped : M.step r turn = some r')
    (found : r.tasks[number]? = some task) :
    ∃ task' sights, r'.tasks[number]? = some task' ∧ task'.root = task.root ∧
      sightsOf r'.trace number = sightsOf r.trace number ++ sights ∧
      M.helpers.Runs (M.roots.enter task.root M.idle) task.body sights task'.body := by
  unfold Runner.step at stepped
  split at stepped
  · cases stepped
  · next polling at_turn =>
    obtain ⟨polled, did, rfl⟩ := Option.map_eq_some_iff.mp stepped
    rw [kept.threads turn.thread] at did
    have old := (List.getElem?_eq_some_iff.mp found).1
    rw [List.getElem?_append_left (by rw [List.length_set]; exact old), sightsOf_concat]
    by_cases same : turn.task = number
    · subst same
      cases found.symm.trans at_turn
      rw [List.getElem?_set_self old, if_pos rfl]
      exact ⟨_, _, rfl, rfl, rfl, .poll _ did .none⟩
    · rw [List.getElem?_set_ne same, if_neg same]
      exact ⟨task, [], found, rfl, rfl, .none⟩

/-- What a task does between two points of a run is a run of its future. -/
theorem runs_of_later (kept : M.Kept r)
    (later : Relation.ReflTransGen (fun r r' => ∃ turn, M.step r turn = some r') r r')
    (found : r.tasks[number]? = some task) :
    ∃ task' sights, r'.tasks[number]? = some task' ∧ task'.root = task.root ∧
      sightsOf r'.trace number = sightsOf r.trace number ++ sights ∧
      M.helpers.Runs (M.roots.enter task.root M.idle) task.body sights task'.body := by
  induction later using Relation.ReflTransGen.head_induction_on generalizing task with
  | refl => exact ⟨task, [], found, rfl, (List.append_nil _).symm, .none⟩
  | head stepped rest ih =>
      obtain ⟨turn, stepped⟩ := stepped
      obtain ⟨mid, first, there, root, did, runs⟩ := runs_of_step kept stepped found
      obtain ⟨task', sights, found', root', did', runs'⟩ := ih (kept.step stepped) there
      rw [root] at runs' root'
      refine ⟨task', first ++ sights, found', root', ?_, runs.trans runs'⟩
      rw [did', did, List.append_assoc]

end Runner

end Async
