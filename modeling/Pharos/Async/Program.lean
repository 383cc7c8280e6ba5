import Mathlib.Logic.Basic

/-!
# Programs that await operations

An asynchronous function runs without interference between two `await`s and can
be overtaken by any other task at each of them.  `Program S α` keeps exactly
this: a finished program holds its value, an unfinished one holds the operation
it awaits next and the continuation for every reply.  Loops and matches of the
source are ordinary recursion and `match` between two operations, and the `Monad`
instance lets a program be written in `do` notation, in the order of its source.
-/

namespace Async

/-- The operations a program may await, and the type of each one's reply. -/
structure Signature where
  Op : Type
  Reply : Op → Type

/-- A program over the operations of `S`: finished, or about to await `op`. -/
inductive Program (S : Signature) (α : Type) : Type
  | ret (value : α) : Program S α
  | await (op : S.Op) (next : S.Reply op → Program S α) : Program S α

namespace Program

variable {S : Signature} {α β : Type}

/-- Run `program` to its end, then continue with its value. -/
def bind : Program S α → (α → Program S β) → Program S β
  | .ret value, next => next value
  | .await op rest, next => .await op fun reply => (rest reply).bind next

instance : Monad (Program S) where
  pure := .ret
  bind := bind

/-- Await one operation and return its reply. -/
def call (op : S.Op) : Program S (S.Reply op) := .await op .ret

/-- Run `program` with every operation carried out by a program of its own. -/
def interpret {T : Signature} (handle : (op : S.Op) → Program T (S.Reply op)) :
    Program S α → Program T α
  | .ret value => .ret value
  | .await op next => (handle op).bind fun reply => (next reply).interpret handle

/-- Run `program` alone, every operation answered at once by `handle`. -/
def eval {σ : Type} (handle : σ → (op : S.Op) → σ × S.Reply op) : Program S α → σ → σ × α
  | .ret value, s => (s, value)
  | .await op next, s => (next (handle s op).2).eval handle (handle s op).1

/-- Run `program` alone, where an operation that `handle` does not answer blocks it. -/
def run {σ : Type} (handle : σ → (op : S.Op) → Option (σ × S.Reply op)) :
    Program S α → σ → Option (σ × α)
  | .ret value, s => some (s, value)
  | .await op next, s => (handle s op).bind fun out => (next out.2).run handle out.1

/-- The program has returned. -/
def Finished : Program S α → Prop
  | .ret _ => True
  | .await _ _ => False

instance : DecidablePred (Finished (S := S) (α := α))
  | .ret _ => .isTrue trivial
  | .await _ _ => .isFalse id

/-- What the program returned. -/
def result : Program S α → Option α
  | .ret value => some value
  | .await _ _ => none

theorem eq_ret_of_result {program : Program S α} {value : α}
    (returned : program.result = some value) : program = .ret value := by
  cases program with
  | ret other =>
      cases returned
      rfl
  | await op next => cases returned

/-- The operation the program awaits next. -/
def awaited : Program S α → Option S.Op
  | .ret _ => none
  | .await op _ => some op

theorem exists_await {program : Program S α} {op : S.Op} (awaits : program.awaited = some op) :
    ∃ next, program = .await op next := by
  cases program with
  | ret value => cases awaits
  | await op' next =>
      cases awaits
      exact ⟨next, rfl⟩

theorem Finished.exists_ret {program : Program S α} (finished : program.Finished) :
    ∃ value, program = .ret value := by
  cases program with
  | ret value => exact ⟨value, rfl⟩
  | await op next => cases finished

theorem bind_pure (program : Program S α) : program >>= pure = program := by
  induction program with
  | ret value => rfl
  | await op tail ih => exact congrArg (Program.await op) (funext ih)

theorem bind_assoc {γ : Type} (program : Program S α) (first : α → Program S β)
    (second : β → Program S γ) :
    program >>= first >>= second = program >>= fun value => first value >>= second := by
  induction program with
  | ret value => rfl
  | await op tail ih => exact congrArg (Program.await op) (funext ih)

section Eval

variable {σ : Type} {handle : σ → (op : S.Op) → σ × S.Reply op} {s : σ}

@[simp] theorem eval_pure (value : α) : (pure value : Program S α).eval handle s = (s, value) := rfl

theorem eval_bind (program : Program S α) (next : α → Program S β) :
    (program >>= next).eval handle s =
      (next (program.eval handle s).2).eval handle (program.eval handle s).1 := by
  induction program generalizing s with
  | ret value => rfl
  | await op tail ih => exact ih (handle s op).2

theorem eval_call (op : S.Op) (next : S.Reply op → Program S β) :
    (Program.call op >>= next).eval handle s =
      (next (handle s op).2).eval handle (handle s op).1 := rfl

end Eval

section Run

variable {σ : Type} {handle : σ → (op : S.Op) → Option (σ × S.Reply op)} {s : σ}

@[simp] theorem run_pure (value : α) : (pure value : Program S α).run handle s = some (s, value) :=
  rfl

theorem run_bind (program : Program S α) (next : α → Program S β) :
    (program >>= next).run handle s =
      (program.run handle s).bind fun out => (next out.2).run handle out.1 := by
  induction program generalizing s with
  | ret value => rfl
  | await op tail ih =>
      show ((handle s op).bind fun out => (tail out.2 >>= next).run handle out.1) =
        ((handle s op).bind fun out => (tail out.2).run handle out.1).bind _
      rw [Option.bind_assoc]
      exact congrArg ((handle s op).bind ·) (funext fun out => ih out.2)

/-- A run of two programs is a run of the first and then a run of the second. -/
theorem exists_run_of_bind {program : Program S α} {next : α → Program S β} {out : σ × β}
    (ran : (program >>= next).run handle s = some out) :
    ∃ mid value, program.run handle s = some (mid, value) ∧
      (next value).run handle mid = some out := by
  rw [run_bind] at ran
  obtain ⟨⟨mid, value⟩, first, rest⟩ := Option.bind_eq_some_iff.mp ran
  exact ⟨mid, value, first, rest⟩

theorem run_bind_of_run {program : Program S α} {next : α → Program S β} {mid : σ} {value : α}
    (first : program.run handle s = some (mid, value)) :
    (program >>= next).run handle s = (next value).run handle mid := by
  rw [run_bind, first]
  rfl

theorem run_call {op : S.Op} {mid : σ} {reply : S.Reply op}
    (answered : handle s op = some (mid, reply)) :
    (Program.call op).run handle s = some (mid, reply) := by
  show (handle s op).bind _ = _
  rw [answered]
  rfl

/-- An interpreted program runs on its part of the state as the program itself does. -/
theorem run_interpret {T : Signature} {τ : Type}
    {outer : τ → (op : T.Op) → Option (τ × T.Reply op)} {lift : (op : S.Op) → Program T (S.Reply op)}
    (get : τ → σ) (set : τ → σ → τ) (set_get : ∀ t, set t (get t) = t)
    (get_set : ∀ t s, get (set t s) = s) (set_set : ∀ t s s', set (set t s) s' = set t s')
    (lifted : ∀ t op, (lift op).run outer t = (handle (get t) op).map (Prod.map (set t) id))
    (program : Program S α) (t : τ) :
    (program.interpret lift).run outer t =
      (program.run handle (get t)).map (Prod.map (set t) id) := by
  induction program generalizing t with
  | ret value =>
      show some (t, value) = some (set t (get t), value)
      rw [set_get]
  | await op next ih =>
      show ((lift op) >>= fun reply => (next reply).interpret lift).run outer t =
        ((handle (get t) op).bind fun out => (next out.2).run handle out.1).map _
      rw [run_bind, lifted]
      cases handle (get t) op with
      | none => rfl
      | some out =>
          show ((next out.2).interpret lift).run outer (set t out.1) =
            ((next out.2).run handle out.1).map (Prod.map (set t) id)
          rw [ih, get_set]
          exact congrArg (((next out.2).run handle out.1).map ·) (funext fun _ =>
            Prod.ext (set_set t _ _) rfl)

end Run

/-! ## Which operations a program can perform -/

/-- Every operation the program can await satisfies `P`, whatever the replies are. -/
def Only (P : S.Op → Prop) : Program S α → Prop
  | .ret _ => True
  | .await op next => P op ∧ ∀ reply, (next reply).Only P

theorem Only.call {P : S.Op → Prop} {op : S.Op} {next : S.Reply op → Program S α} (holds : P op)
    (rest : ∀ reply, (next reply).Only P) : (Program.call op >>= next).Only P :=
  ⟨holds, rest⟩

theorem Only.bind {P : S.Op → Prop} {program : Program S α} {next : α → Program S β}
    (first : program.Only P) (rest : ∀ value, (next value).Only P) : (program >>= next).Only P := by
  induction program with
  | ret value => exact rest value
  | await op tail ih => exact ⟨first.1, fun reply => ih reply (first.2 reply)⟩

/-- An interpreted program performs what its handler performs. -/
theorem Only.interpret {T : Signature} {P : T.Op → Prop}
    {handle : (op : S.Op) → Program T (S.Reply op)} {program : Program S α}
    (handled : ∀ op, (handle op).Only P) : (program.interpret handle).Only P := by
  induction program with
  | ret value => trivial
  | await op next ih => exact Only.bind (handled op) ih

/-! ## Which values a program can return -/

/-- Every value the program can return satisfies `P`, whatever the replies are. -/
def Returns (P : α → Prop) : Program S α → Prop
  | .ret value => P value
  | .await _ next => ∀ reply, (next reply).Returns P

theorem Returns.any (program : Program S α) : program.Returns fun _ => True := by
  induction program with
  | ret value => trivial
  | await op next ih => exact ih

/-- What the first program returns is known to the second. -/
theorem Returns.bind {P : β → Prop} {Q : α → Prop} {program : Program S α}
    {next : α → Program S β} (first : program.Returns Q)
    (rest : ∀ value, Q value → (next value).Returns P) : (program >>= next).Returns P := by
  induction program with
  | ret value => exact rest value first
  | await op tail ih => exact fun reply => ih reply (first reply)

/-- What the first program returns tells what the second performs. -/
theorem Only.bind_of_returns {P : S.Op → Prop} {Q : α → Prop} {program : Program S α}
    {next : α → Program S β} (first : program.Only P) (returns : program.Returns Q)
    (rest : ∀ value, Q value → (next value).Only P) : (program >>= next).Only P := by
  induction program with
  | ret value => exact rest value returns
  | await op tail ih => exact ⟨first.1, fun reply => ih reply (first.2 reply) (returns reply)⟩

/-- An interpreted program returns what the program can return. -/
theorem Returns.interpret {T : Signature} {P : α → Prop}
    (handle : (op : S.Op) → Program T (S.Reply op)) {program : Program S α}
    (returns : program.Returns P) : (program.interpret handle).Returns P := by
  induction program with
  | ret value => exact returns
  | await op next ih =>
      exact (Returns.any (handle op)).bind fun reply _ => ih reply (returns reply)

/-- What a run returns is among the values the program can return. -/
theorem Returns.run {σ : Type} {handle : σ → (op : S.Op) → Option (σ × S.Reply op)} {s s' : σ}
    {value : α} {P : α → Prop} {program : Program S α} (returns : program.Returns P)
    (ran : program.run handle s = some (s', value)) : P value := by
  induction program generalizing s with
  | ret other =>
      cases ran
      exact returns
  | await op next ih =>
      obtain ⟨out, -, rest⟩ := Option.bind_eq_some_iff.mp ran
      exact ih out.2 (returns out.2) rest

end Program

end Async
