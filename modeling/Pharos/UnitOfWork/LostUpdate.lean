import Pharos.Async.Control
import Pharos.UnitOfWork.Transactions

/-!
# Two ways to write

The mutex keeps transactions apart from each other, and the map entry keeps plain saves apart from
each other.  Nothing keeps a plain save out of a transaction that has checked its version and not
committed yet: both then write the same version.  As long as no plain save gets in between, the
versions written for an aggregate are 1, 2, 3 and so on.
-/

namespace Pharos

open Async

/-- A caller that writes: a plain save, or a transaction. -/
inductive Writer (St E : Type) where
  | save (aggregate : Aggregate St E)
  | transaction (script : TxScript St E)

/-- The aggregate of a plain save. -/
def Writer.plain {St E : Type} : Writer St E → Option (Aggregate St E)
  | .save aggregate => some aggregate
  | .transaction _ => none

/-- A writer with the number of its call. -/
structure WriterTask (St E : Type) where
  caller : ℕ
  writer : Writer St E

/-- What a writer is told. -/
inductive WriterReturn where
  | saved (result : Except RepositoryError Unit)
  | ended (result : TxEnd)
  deriving DecidableEq

/-- What is left of a script after its first version checks, and what it has staged by then. -/
def TxScript.after {St E : Type} :
    TxScript St E → List (Option ℕ) → Option (Aggregate St E) →
      TxScript St E × Option (Aggregate St E)
  | .save aggregate next, actual :: replies, staged =>
      if actual.getD 0 = aggregate.version then
        (next (.ok ())).after replies (some (InMemoryUnitOfWork.stored aggregate))
      else (next (.error (.concurrencyConflict aggregate.version actual))).after replies staged
  | .insertOutbox _ next, replies, staged => next.after replies staged
  | script, _, staged => (script, staged)

namespace TxScript

variable {St E : Type}

theorem after_nil (script : TxScript St E) (staged : Option (Aggregate St E)) :
    (script.after [] staged).2 = staged := by
  induction script with
  | commit => rfl
  | drop => rfl
  | save aggregate next _ => rfl
  | insertOutbox message next ih => exact ih

/-- Version checks are made one after the other. -/
theorem after_append (script : TxScript St E) (first second : List (Option ℕ))
    (staged : Option (Aggregate St E)) :
    script.after (first ++ second) staged =
      (script.after first staged).1.after second (script.after first staged).2 := by
  induction script generalizing first staged with
  | commit => rfl
  | drop => rfl
  | save aggregate next ih =>
      cases first with
      | nil => rfl
      | cons actual first =>
          simp only [List.cons_append, after]
          split
          · exact ih _ first _
          · exact ih _ first _
  | insertOutbox message next ih => exact ih first staged

end TxScript

namespace InMemoryUnitOfWork

section Writers

variable {I St E : Type} [DecidableEq I] (idOf : St → I)

/-- A writer arrives and gets its number. -/
def arriveWriter (s : UnitOfWorkShared I St E) (writer : Writer St E) :
    Option (UnitOfWorkShared I St E × List (WriterTask St E)) :=
  some ({ s with callers := s.callers + 1 }, [⟨s.callers, writer⟩])

/-- The program of a writer. -/
def writerBody (task : WriterTask St E) : UnitOfWorkM I St E WriterReturn :=
  match task.writer with
  | .save aggregate => do
      let (_, result) ← save aggregate
      pure (.saved result)
  | .transaction script => do
      let result ← transaction idOf task.caller script
      pure (.ended result)

/-- Any number of plain saves and transactions on one unit of work. -/
def writers : System (unitOfWorkSignature I St E) (UnitOfWorkShared I St E) UnitOfWorkChoice
    (Writer St E) (WriterTask St E) WriterReturn where
  serve := serve idOf
  arrive := arriveWriter
  body := writerBody idOf

abbrev WriterPool (I St E : Type) [DecidableEq I] :=
  Pool (unitOfWorkSignature I St E) (UnitOfWorkShared I St E) UnitOfWorkChoice
    (WriterTask St E) WriterReturn

abbrev RunningWriter (I St E : Type) :=
  Async.Task (unitOfWorkSignature I St E) UnitOfWorkChoice (WriterTask St E) WriterReturn

abbrev WriterEntry (I St E : Type) [DecidableEq I] :=
  Entry (unitOfWorkSignature I St E) (UnitOfWorkShared I St E) UnitOfWorkChoice (WriterTask St E)

/-- A new unit of work with no writers. -/
def noWriters (outbox : InMemoryOutboxRepository) : WriterPool I St E where
  shared := { aggregates := ∅, outbox := outbox }

end Writers

section Past

variable {I St E : Type}

/-- The reply of a version check. -/
def checked : UnitOfWorkEvent I St E → Option (Option ℕ)
  | ⟨_, .version _, actual⟩ => some actual
  | _ => none

/-- The mutex was taken. -/
def locks : UnitOfWorkEvent I St E → Bool
  | ⟨_, .lock _, _⟩ => true
  | _ => false

/-- The mutex was let go. -/
def unlocks : UnitOfWorkEvent I St E → Bool
  | ⟨_, .unlock, _⟩ => true
  | _ => false

/-- A commit wrote its aggregate. -/
def writes : UnitOfWorkEvent I St E → Bool
  | ⟨_, .insertAggregate _, _⟩ => true
  | _ => false

/-- The replies of the version checks, in order. -/
def checks (past : List (UnitOfWorkEvent I St E)) : List (Option ℕ) :=
  (past.filterMap checked).reverse

/-- The transaction is open. -/
def Open (past : List (UnitOfWorkEvent I St E)) : Prop :=
  past.any locks = true ∧ past.any unlocks = false

instance (past : List (UnitOfWorkEvent I St E)) : Decidable (Open past) :=
  inferInstanceAs (Decidable (past.any locks = true ∧ past.any unlocks = false))

/-- The transaction is open and has not written yet. -/
def Staging (past : List (UnitOfWorkEvent I St E)) : Prop := Open past ∧ past.any writes = false

instance (past : List (UnitOfWorkEvent I St E)) : Decidable (Staging past) :=
  inferInstanceAs (Decidable (Open past ∧ past.any writes = false))

/-- The aggregate that an open transaction has staged and not written. -/
def stagedIn (t : RunningWriter I St E) : Option (Aggregate St E) :=
  match t.args.writer with
  | .save _ => none
  | .transaction script =>
      if Staging t.past then (script.after (checks t.past) none).2 else none

/-- What the trace says was written: the version of an accepted save or of a commit. -/
def writtenVersion [DecidableEq I] (idOf : St → I) (id : I) :
    UnitOfWorkEvent I St E → Option ℕ
  | ⟨_, .save aggregate, .ok ()⟩ =>
      if idOf aggregate.state = id then some (aggregate.version + 1) else none
  | ⟨_, .insertAggregate aggregate, _⟩ =>
      if idOf aggregate.state = id then some aggregate.version else none
  | _ => none

end Past

/-! ## What a transaction has done when it acts -/

section Control

variable {I St E : Type} {idOf : St → I} {caller : ℕ} {script : TxScript St E}
  {past : List (UnitOfWorkEvent I St E)} {staged : Option (Aggregate St E)}

/-- What holds when a transaction performs an operation. -/
def TxPre (idOf : St → I) (caller : ℕ) (script : TxScript St E)
    (past : List (UnitOfWorkEvent I St E)) : UnitOfWorkOp I St E → Prop
  | .lock number => number = caller ∧ past = []
  | .version id => Staging past ∧ ∃ aggregate next,
      (script.after (checks past) none).1 = .save aggregate next ∧ idOf aggregate.state = id
  | .insertAggregate aggregate => Staging past ∧
      (script.after (checks past) none).2 = some aggregate
  | .insertOutbox _ | .unlock => Open past
  | _ => False

/-- What holds when a writer performs an operation. -/
def WriterPre (idOf : St → I) (task : WriterTask St E) (past : List (UnitOfWorkEvent I St E))
    (op : UnitOfWorkOp I St E) : Prop :=
  match task.writer with
  | .save aggregate => op = .save aggregate
  | .transaction script => TxPre idOf task.caller script past op

theorem obeys_commitEach (messages : List OutboxMessage) (opened : Open past) :
    (commitEach messages).Obeys (TxPre idOf caller script) (fun past _ => Open past) past := by
  induction messages generalizing past with
  | nil => exact opened
  | cons message messages ih =>
      refine .call (S := unitOfWorkSignature I St E) opened fun choice reply => ?_
      cases reply with
      | error error => exact opened
      | ok _ => exact ih opened

/-- The end of a commit. -/
theorem obeys_closing (messages : List OutboxMessage) (opened : Open past) :
    (commitEach messages >>= fun result => await .unlock >>= fun _ => pure result).Obeys
      (TxPre idOf caller script) (fun _ _ => True) past := by
  refine (obeys_commitEach messages opened).bind fun past result still => ?_
  exact .call (S := unitOfWorkSignature I St E) still fun _ _ => trivial

/-- The version check and what follows from it. -/
theorem saveInTx_eq (tx : InMemoryTx St E) (aggregate : Aggregate St E) :
    saveInTx idOf tx aggregate = await (.version (idOf aggregate.state)) >>= fun actual =>
      if actual.getD 0 = aggregate.version then
        pure (({ tx with stagedAggregate := some (stored aggregate) },
          aggregate.setVersion (aggregate.version + 1)), .ok ())
      else pure ((tx, aggregate), .error (.concurrencyConflict aggregate.version actual)) := by
  refine congrArg (Program.await (S := unitOfWorkSignature I St E)
    (.version (idOf aggregate.state))) (funext fun actual => ?_)
  cases actual with
  | some actual => exact ite_not _ _ _
  | none =>
      simp only [ne_eq, ite_not, eq_comm (a := aggregate.version)]
      rfl

/-- The calls of a transaction, from any point of its script on. -/
theorem obeys_runScript (rest : TxScript St E) {tx : InMemoryTx St E} (staging : Staging past)
    (left : script.after (checks past) none = rest.after [] tx.stagedAggregate) :
    (runScript idOf caller rest tx).Obeys (TxPre idOf caller script) (fun _ _ => True) past := by
  induction rest generalizing tx past with
  | commit =>
      refine .bind (Q := fun _ _ => True) ?_ fun _ _ _ => trivial
      unfold commit
      cases staged : tx.stagedAggregate with
      | none => exact obeys_closing tx.stagedOutbox staging.1
      | some aggregate =>
          have ready : (script.after (checks past) none).2 = some aggregate := by
            rw [left]
            exact staged
          refine .call (S := unitOfWorkSignature I St E) ⟨staging, ready⟩ fun _ _ => ?_
          exact obeys_closing tx.stagedOutbox staging.1
  | drop => exact .call (S := unitOfWorkSignature I St E) staging.1 fun _ _ => trivial
  | save aggregate next ih =>
      have head : (script.after (checks past) none).1 = .save aggregate next := by
        rw [left]
        rfl
      rw [runScript, saveInTx_eq, Program.bind_assoc]
      refine .call (S := unitOfWorkSignature I St E) ⟨staging, aggregate, next, head, rfl⟩
        fun choice actual => ?_
      have replied : ∀ event : UnitOfWorkEvent I St E, checked event = some actual →
          script.after (checks (event :: past)) none =
            (TxScript.save aggregate next).after [actual] tx.stagedAggregate := by
        intro event same
        rw [checks, List.filterMap_cons, same, List.reverse_cons, ← checks, TxScript.after_append, left]
        rfl
      by_cases current : actual.getD 0 = aggregate.version
      · rw [if_pos current]
        refine ih (.ok ()) staging ((replied _ rfl).trans ?_)
        rw [TxScript.after, if_pos current]
      · rw [if_neg current]
        refine ih (.error _) staging ((replied _ rfl).trans ?_)
        rw [TxScript.after, if_neg current]
  | insertOutbox message next ih => exact ih staging left

/-- Every writer keeps to its control flow. -/
theorem obeys_writerBody (task : WriterTask St E) :
    (writerBody idOf task).Obeys (WriterPre idOf task) (fun _ _ => True) [] := by
  obtain ⟨caller, writer⟩ := task
  cases writer with
  | save aggregate =>
      refine .bind (Q := fun _ _ => True) ?_ fun _ _ _ => trivial
      refine .call (S := unitOfWorkSignature I St E) rfl fun _ reply => ?_
      cases reply with
      | error error => trivial
      | ok _ => trivial
  | transaction script =>
      refine .bind (Q := fun _ _ => True) ?_ fun _ _ _ => trivial
      refine .call (S := unitOfWorkSignature I St E) ⟨rfl, rfl⟩ fun _ _ => ?_
      exact obeys_runScript script ⟨⟨rfl, rfl⟩, rfl⟩ rfl

/-- One more version check. -/
theorem after_check {next : Except RepositoryError Unit → TxScript St E}
    {replies : List (Option ℕ)} {actual : Option ℕ} {aggregate : Aggregate St E}
    (head : (script.after replies none).1 = .save aggregate next) :
    (script.after (replies ++ [actual]) none).2 =
      if actual.getD 0 = aggregate.version then some (stored aggregate)
      else (script.after replies none).2 := by
  rw [TxScript.after_append, head, TxScript.after]
  split
  · exact TxScript.after_nil _ _
  · exact TxScript.after_nil _ _

theorem stagedIn_eq_some {rest : UnitOfWorkM I St E WriterReturn} {aggregate : Aggregate St E} :
    stagedIn (⟨⟨caller, .transaction script⟩, past, rest⟩ : RunningWriter I St E) = some aggregate ↔
      Staging past ∧ (script.after (checks past) none).2 = some aggregate := by
  show (if Staging past then (script.after (checks past) none).2 else none) = some aggregate ↔ _
  rw [Option.ite_none_right_eq_some]

theorem open_of_stagedIn {t : RunningWriter I St E} {aggregate : Aggregate St E}
    (found : stagedIn t = some aggregate) : Open t.past := by
  obtain ⟨⟨caller, writer⟩, past, rest⟩ := t
  cases writer with
  | save other => cases found
  | transaction script => exact (stagedIn_eq_some.mp found).1.1

end Control

/-! ## What an operation does to the unit of work -/

section Effects

variable {I St E : Type} [DecidableEq I] {idOf : St → I} {s s' : UnitOfWorkShared I St E}
  {choice : UnitOfWorkChoice} {op : UnitOfWorkOp I St E} {reply : op.Reply}

/-- The holder of the mutex after an operation. -/
def holderAfter (s : UnitOfWorkShared I St E) : UnitOfWorkOp I St E → Option ℕ
  | .lock caller => some caller
  | .unlock => none
  | _ => s.holder

/-- The aggregates after an operation. -/
def aggregatesAfter (idOf : St → I) (s : UnitOfWorkShared I St E) :
    UnitOfWorkOp I St E → DashMap I (Aggregate St E)
  | .insertAggregate aggregate => s.aggregates.put (idOf aggregate.state) aggregate
  | .save aggregate => (saveEntry idOf s.aggregates aggregate).1
  | .remove id => s.aggregates.remove id
  | _ => s.aggregates

theorem effect_of_serve (served : serve idOf s choice op = some (s', reply)) :
    s'.holder = holderAfter s op ∧ s'.aggregates = aggregatesAfter idOf s op := by
  cases op with
  | nowV7 number now message =>
      have answered : serve idOf s choice (.nowV7 number now message) = some (s', reply) := served
      rw [serve] at answered
      split at answered
      · cases answered
        exact ⟨rfl, rfl⟩
      · cases answered
  | lock number =>
      have answered : serve idOf s choice (.lock number) = some (s', reply) := served
      rw [serve] at answered
      split at answered
      · cases answered
        exact ⟨rfl, rfl⟩
      · cases answered
  | _ =>
      cases served
      exact ⟨rfl, rfl⟩

/-- The mutex is only taken when it is free. -/
theorem free_of_lock {caller : ℕ} {reply : Unit}
    (served : serve idOf s choice (.lock caller) = some (s', reply)) : s.holder = none := by
  rw [serve] at served
  split at served
  · next free => exact free
  · cases served

theorem storedVersion_of_same (same : s'.aggregates = s.aggregates) (id : I) :
    storedVersion s' id = storedVersion s id := by
  rw [storedVersion, same]
  rfl

theorem storedVersion_of_put {key : I} {aggregate : Aggregate St E}
    (put : s'.aggregates = s.aggregates.put key aggregate) (id : I) :
    storedVersion s' id = if id = key then aggregate.version else storedVersion s id := by
  rw [storedVersion, put, DashMap.get_put]
  split
  · rfl
  · rfl

/-- What a plain save does: it stores the next version, or it fails and changes nothing. -/
theorem save_cases {aggregate : Aggregate St E} {reply : Except RepositoryError Unit}
    (served : serve idOf s choice (.save aggregate) = some (s', reply)) :
    (storedVersion s (idOf aggregate.state) = aggregate.version ∧ reply = .ok () ∧
      s'.aggregates = s.aggregates.put (idOf aggregate.state) (stored aggregate)) ∨
    (∃ error, reply = .error error) ∧ s'.aggregates = s.aggregates := by
  rw [serve, saveEntry_eq] at served
  split at served
  · next current =>
    cases served
    exact .inl ⟨current, rfl, rfl⟩
  · cases served
    exact .inr ⟨⟨_, rfl⟩, rfl⟩

end Effects

/-! ## Runs -/

section Runs

variable {I St E : Type} [DecidableEq I] {idOf : St → I}

/-- No plain save is accepted while an open transaction has staged the same aggregate. -/
def Apart (idOf : St → I) (p : WriterPool I St E) : Action UnitOfWorkChoice (Writer St E) → Prop
  | .arrive _ => True
  | .step i _ => ∀ t ∈ p.tasks[i]?, ∀ aggregate ∈ t.args.writer.plain,
      storedVersion p.shared (idOf aggregate.state) = aggregate.version →
        ∀ u ∈ p.tasks, ∀ staged ∈ stagedIn u, idOf staged.state ≠ idOf aggregate.state

instance (p : WriterPool I St E) : DecidablePred (Apart idOf p)
  | .arrive _ => .isTrue trivial
  | .step i _ => inferInstanceAs (Decidable (∀ t ∈ p.tasks[i]?, ∀ aggregate ∈ t.args.writer.plain,
      storedVersion p.shared (idOf aggregate.state) = aggregate.version →
        ∀ u ∈ p.tasks, ∀ staged ∈ stagedIn u, idOf staged.state ≠ idOf aggregate.state))

variable {C : WriterPool I St E → Action UnitOfWorkChoice (Writer St E) → Prop}
  {outbox : InMemoryOutboxRepository} {p q : WriterPool I St E}

theorem writer_of_reaches (reached : (writers idOf).Reaches C (noWriters outbox) p) :
    ∀ (i : ℕ) (t : RunningWriter I St E), p.tasks[i]? = some t → t.args.caller = i := by
  refine (reached.numbered UnitOfWorkShared.callers WriterTask.caller rfl rfl ?_ callers_of_serve).2
  intro s writer s' args arrived
  cases arrived
  exact ⟨_, rfl, rfl, rfl⟩

theorem writerPre_of_reaches (reached : (writers idOf).Reaches C (noWriters outbox) p) {i : ℕ}
    {t : RunningWriter I St E} {op : UnitOfWorkOp I St E}
    {next : op.Reply → UnitOfWorkM I St E WriterReturn} (found : p.tasks[i]? = some t)
    (awaits : t.rest = .await op next) : WriterPre idOf t.args t.past op :=
  reached.obeys_op rfl (obeys_writerBody) found awaits

/-- An open transaction holds the mutex. -/
theorem holder_of_open (reached : (writers idOf).Reaches C (noWriters outbox) p) :
    ∀ (i : ℕ) (t : RunningWriter I St E), p.tasks[i]? = some t → Open t.past →
      p.shared.holder = some i := by
  refine reached.invariant (P := fun p => ∀ (i : ℕ) (t : RunningWriter I St E),
    p.tasks[i]? = some t → Open t.past → p.shared.holder = some i) ?_ ?_
  · intro i t found
    cases found
  · intro q r action before held _ stepped j u at_j opened
    obtain ⟨writer, shared, args, rfl, arrived, rfl⟩ |
      ⟨i, choice, t, op, next, shared, reply, rfl, found, awaits, served, rfl⟩ :=
      System.step_cases stepped
    · cases arrived
      rcases Pool.getElem?_start at_j with old | ⟨-, a, -, rfl⟩
      · exact held j u old opened
      · cases opened.1
    · have pre := writerPre_of_reaches before found awaits
      have number := writer_of_reaches before i t found
      obtain ⟨holder, -⟩ := effect_of_serve served
      rw [Pool.advance_shared, holder]
      obtain ⟨⟨caller, writer⟩, past, rest⟩ := t
      cases writer with
      | save aggregate =>
          cases pre
          rcases Pool.getElem?_advance found at_j with ⟨rfl, rfl⟩ | ⟨-, old⟩
          · exact held j _ found opened
          · exact held j u old opened
      | transaction script =>
          rcases Pool.getElem?_advance found at_j with ⟨rfl, rfl⟩ | ⟨distinct, old⟩
          · cases op with
            | lock other =>
                cases pre.1
                exact congrArg some number
            | unlock => cases opened.2
            | version id => exact held j _ found opened
            | insertAggregate aggregate => exact held j _ found opened
            | insertOutbox message => exact held j _ found opened
            | _ => exact pre.elim
          · have still := held j u old opened
            cases op with
            | lock other =>
                have answered : serve idOf q.shared choice (.lock other) = some (shared, reply) :=
                  served
                rw [free_of_lock answered] at still
                cases still
            | unlock =>
                rw [held i _ found pre] at still
                exact absurd (Option.some.inj still) (Ne.symm distinct)
            | version id => exact still
            | insertAggregate aggregate => exact still
            | insertOutbox message => exact still
            | _ => exact pre.elim

/-- Two open transactions are the same. -/
theorem eq_of_open (reached : (writers idOf).Reaches C (noWriters outbox) p) {i j : ℕ}
    {t u : RunningWriter I St E} (at_i : p.tasks[i]? = some t) (at_j : p.tasks[j]? = some u)
    (first : Open t.past) (second : Open u.past) : i = j :=
  Option.some.inj ((holder_of_open reached i t at_i first).symm.trans
    (holder_of_open reached j u at_j second))

/-- What is staged is one version ahead of what is stored. -/
theorem storedVersion_of_stagedIn
    (reached : (writers idOf).Reaches (Apart idOf) (noWriters outbox) p) :
    ∀ (i : ℕ) (t : RunningWriter I St E), p.tasks[i]? = some t → ∀ staged, stagedIn t = some staged →
      storedVersion p.shared (idOf staged.state) + 1 = staged.version := by
  refine reached.invariant (P := fun p => ∀ (i : ℕ) (t : RunningWriter I St E),
    p.tasks[i]? = some t → ∀ staged, stagedIn t = some staged →
      storedVersion p.shared (idOf staged.state) + 1 = staged.version) ?_ ?_
  · intro i t found
    cases found
  · intro q r action before ahead side stepped j u at_j staged ready
    obtain ⟨writer, shared, args, rfl, arrived, rfl⟩ |
      ⟨i, choice, t, op, next, shared, reply, rfl, found, awaits, served, rfl⟩ :=
      System.step_cases stepped
    · cases arrived
      rcases Pool.getElem?_start at_j with old | ⟨-, a, -, rfl⟩
      · exact ahead j u old staged ready
      · cases (open_of_stagedIn ready).1
    · have pre := writerPre_of_reaches before found awaits
      obtain ⟨-, effect⟩ := effect_of_serve served
      rw [Pool.advance_shared]
      obtain ⟨⟨caller, writer⟩, past, rest⟩ := t
      cases writer with
      | save aggregate =>
          cases pre
          rcases Pool.getElem?_advance found at_j with ⟨rfl, rfl⟩ | ⟨-, old⟩
          · cases ready
          · have answered : serve idOf q.shared choice (.save aggregate) = some (shared, reply) :=
              served
            rcases save_cases answered with ⟨current, -, put⟩ | ⟨-, same⟩
            · have apart := side _ found aggregate rfl current u (List.mem_of_getElem? old) staged ready
              rw [storedVersion_of_put put, if_neg apart]
              exact ahead j u old staged ready
            · rw [storedVersion_of_same same]
              exact ahead j u old staged ready
      | transaction script =>
          rcases Pool.getElem?_advance found at_j with ⟨rfl, rfl⟩ | ⟨distinct, old⟩
          · cases op with
            | lock other =>
                obtain ⟨-, unbegun⟩ := pre
                cases unbegun
                cases (TxScript.after_nil script none).symm.trans (stagedIn_eq_some.mp ready).2
            | unlock => cases (open_of_stagedIn ready).2
            | version id =>
                obtain ⟨staging, aggregate, rest, head, rfl⟩ := pre
                have renewed : (script.after (checks past ++ [reply]) none).2 = some staged := by
                  rw [← (stagedIn_eq_some.mp ready).2, checks, ← List.reverse_cons]
                  rfl
                rw [storedVersion_of_same effect]
                rw [after_check head] at renewed
                split at renewed
                · next current =>
                  cases renewed
                  have answered : serve idOf q.shared choice (.version (idOf aggregate.state)) =
                    some (shared, reply) := served
                  cases answered
                  exact congrArg (· + 1) current
                · exact ahead j _ found staged (stagedIn_eq_some.mpr ⟨staging, renewed⟩)
            | insertAggregate aggregate => cases (stagedIn_eq_some.mp ready).1.2
            | insertOutbox message =>
                rw [storedVersion_of_same effect]
                exact ahead j _ found staged ready
            | _ => exact pre.elim
          · have still := ahead j u old staged ready
            cases op with
            | insertAggregate aggregate =>
                exact absurd (eq_of_open before old found (open_of_stagedIn ready) pre.1.1) distinct
            | lock other =>
                rw [storedVersion_of_same effect]
                exact still
            | unlock =>
                rw [storedVersion_of_same effect]
                exact still
            | version id =>
                rw [storedVersion_of_same effect]
                exact still
            | insertOutbox message =>
                rw [storedVersion_of_same effect]
                exact still
            | _ => exact pre.elim

/-- The next version of one aggregate, seen from any other. -/
theorem put_cases {s s' : UnitOfWorkShared I St E} (aggregate : Aggregate St E)
    (put : s'.aggregates = s.aggregates.put (idOf aggregate.state) aggregate)
    (ahead : storedVersion s (idOf aggregate.state) + 1 = aggregate.version) (id : I) :
    ((if idOf aggregate.state = id then some aggregate.version else none) = none ∧
      storedVersion s' id = storedVersion s id) ∨
    ((if idOf aggregate.state = id then some aggregate.version else none) =
        some (storedVersion s id + 1) ∧
      storedVersion s' id = storedVersion s id + 1) := by
  rw [storedVersion_of_put put]
  by_cases here : idOf aggregate.state = id
  · subst here
    rw [if_pos rfl, if_pos rfl, ahead]
    exact .inr ⟨rfl, rfl⟩
  · rw [if_neg here, if_neg (Ne.symm here)]
    exact .inl ⟨rfl, rfl⟩

/-- A step writes nothing for an aggregate, or its next version. -/
theorem write_cases (reached : (writers idOf).Reaches (Apart idOf) (noWriters outbox) p) {i : ℕ}
    {t : RunningWriter I St E} {choice : UnitOfWorkChoice} {op : UnitOfWorkOp I St E}
    {next : op.Reply → UnitOfWorkM I St E WriterReturn} {shared : UnitOfWorkShared I St E}
    {reply : op.Reply} (found : p.tasks[i]? = some t) (awaits : t.rest = .await op next)
    (served : serve idOf p.shared choice op = some (shared, reply)) (id : I) :
    (writtenVersion idOf id ⟨choice, op, reply⟩ = none ∧
      storedVersion shared id = storedVersion p.shared id) ∨
    (writtenVersion idOf id ⟨choice, op, reply⟩ = some (storedVersion p.shared id + 1) ∧
      storedVersion shared id = storedVersion p.shared id + 1) := by
  have pre := writerPre_of_reaches reached found awaits
  obtain ⟨-, effect⟩ := effect_of_serve served
  obtain ⟨⟨caller, writer⟩, past, rest⟩ := t
  cases writer with
  | save aggregate =>
      cases pre
      have answered : serve idOf p.shared choice (.save aggregate) = some (shared, reply) := served
      rcases save_cases answered with ⟨current, rfl, put⟩ | ⟨⟨error, rfl⟩, same⟩
      · exact put_cases (stored aggregate) put (congrArg (· + 1) current) id
      · exact .inl ⟨rfl, storedVersion_of_same same id⟩
  | transaction script =>
      cases op with
      | insertAggregate aggregate =>
          have ahead := storedVersion_of_stagedIn reached i _ found aggregate (stagedIn_eq_some.mpr pre)
          exact put_cases aggregate effect ahead id
      | lock other => exact .inl ⟨rfl, storedVersion_of_same effect id⟩
      | unlock => exact .inl ⟨rfl, storedVersion_of_same effect id⟩
      | version other => exact .inl ⟨rfl, storedVersion_of_same effect id⟩
      | insertOutbox message => exact .inl ⟨rfl, storedVersion_of_same effect id⟩
      | _ => exact pre.elim

/-- The versions written for an aggregate, in the order they were written. -/
def writtenVersions (idOf : St → I) (id : I) (p : WriterPool I St E) : List ℕ :=
  p.trace.filterMap fun entry => writtenVersion idOf id entry.event

/-- Every write is on top of the one before it: a write finds the version that it started from,
and the versions written are 1, 2, 3 and so on, up to the one stored. -/
def NoLostUpdate (idOf : St → I) (id : I) (p : WriterPool I St E) : Prop :=
  (∀ entry ∈ p.trace, ∀ version ∈ writtenVersion idOf id entry.event,
    version = storedVersion entry.before id + 1) ∧
  writtenVersions idOf id p = List.range' 1 (storedVersion p.shared id)

/-- No update is lost as long as plain saves stay out of transactions on the same aggregate. -/
theorem noLostUpdate_of_apart
    (reached : (writers idOf).Reaches (Apart idOf) (noWriters outbox) p) (id : I) :
    NoLostUpdate idOf id p := by
  refine ⟨reached.forall_trace rfl ?_, ?_⟩
  · intro q i t op next choice shared reply before found awaits _ served version wrote
    rcases write_cases before found awaits served id with ⟨none, -⟩ | ⟨some, -⟩
    · cases none.symm.trans wrote
    · cases some.symm.trans wrote
      rfl
  · refine reached.invariant (P := fun p =>
      writtenVersions idOf id p = List.range' 1 (storedVersion p.shared id)) rfl ?_
    intro q r action before all _ stepped
    obtain ⟨writer, shared, args, rfl, arrived, rfl⟩ |
      ⟨i, choice, t, op, next, shared, reply, rfl, found, awaits, served, rfl⟩ :=
      System.step_cases stepped
    · cases arrived
      exact all
    · rw [writtenVersions, Pool.advance_trace, List.filterMap_append, ← writtenVersions, all,
        Pool.advance_shared]
      rcases write_cases before found awaits served id with ⟨none, same⟩ | ⟨some, more⟩
      · rw [same, List.filterMap_cons, none, List.filterMap_nil, List.append_nil]
      · rw [more, List.filterMap_cons, some, List.filterMap_nil, List.range'_concat, Nat.one_mul,
          Nat.add_comm 1]

end Runs

/-- A transaction saves order 1, and after it a plain save stores the next version of the order. -/
def apartRun : List (Action UnitOfWorkChoice (Writer ℕ ℕ)) :=
  [.arrive (.transaction (.ofCalls [.save (orderNumber 1)])),
    .arrive (.save { state := 1, version := 1 }),
    .step 0 {}, .step 0 {}, .step 0 {}, .step 0 {}, .step 1 {}]

theorem noLostUpdate_apartRun :
    ∃ p : WriterPool ℕ ℕ ℕ, (writers id).Reaches (Apart id) (noWriters (.new 10)) p ∧
      writtenVersions id 1 p = [1, 2] ∧ NoLostUpdate id 1 p := by
  have run : ((writers id).exec (noWriters (.new 10)) apartRun).any
      (fun p => decide (writtenVersions id 1 p = [1, 2])) = true := by
    decide +kernel
  obtain ⟨p, reached, written⟩ := System.exists_reaches_of_exec (C := Apart id)
    (by decide +kernel) run
  exact ⟨p, reached, of_decide_eq_true written, noLostUpdate_of_apart reached 1⟩

/-- A plain save of order 1 gets in between the version check of a transaction and its commit. -/
def overtakenRun : List (Action UnitOfWorkChoice (Writer ℕ ℕ)) :=
  [.arrive (.transaction (.ofCalls [.save (orderNumber 1)])), .arrive (.save (orderNumber 1)),
    .step 0 {}, .step 0 {}, .step 1 {}, .step 0 {}, .step 0 {}]

/-- Both writers of version 1 succeed, and the second one overwrites what the first one stored. -/
theorem update_lost :
    ∃ p : WriterPool ℕ ℕ ℕ, (writers id).Reaches System.Any (noWriters (.new 10)) p ∧
      p.tasks.map (fun t => t.rest.result) =
        [some (.ended (.committed (.ok ()))), some (.saved (.ok ()))] ∧
      writtenVersions id 1 p = [1, 1] ∧ ¬ NoLostUpdate id 1 p := by
  have run : ((writers id).exec (noWriters (.new 10)) overtakenRun).any
      (fun p => decide (p.tasks.map (fun t => t.rest.result) =
        [some (.ended (.committed (.ok ()))), some (.saved (.ok ()))] ∧
        writtenVersions id 1 p = [1, 1])) = true := by
    decide +kernel
  obtain ⟨p, reached, both⟩ := System.exists_reaches_of_exec (System.along_any _ _ _) run
  obtain ⟨results, written⟩ := of_decide_eq_true both
  refine ⟨p, reached, results, written, fun kept => ?_⟩
  have twice : [1, 1] = List.range' 1 (storedVersion p.shared 1) := written.symm.trans kept.2
  have sorted : (List.range' 1 (storedVersion p.shared 1)).Nodup := List.nodup_range'
  rw [← twice] at sorted
  exact absurd sorted (by decide)

end InMemoryUnitOfWork

end Pharos
