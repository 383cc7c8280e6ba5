import Pharos.Async.Record

/-!
# What a program cannot tell apart

`R op` relates replies of `op` that are to be indistinguishable.  A program is `Discreet` if it
performs the same operations whichever of two related replies it gets, and ends with related
values.  Run against two environments whose answers are related, it then does the same in both
(`Discreet.record`): what `R` leaves open has no influence on anything but what the values leave
open.
-/

namespace Async

variable {S : Signature} {σ σ' α β : Type}

/-- Which replies of an operation count as the same. -/
abbrev Likeness (S : Signature) := (op : S.Op) → S.Reply op → S.Reply op → Prop

namespace Program

/-- The two programs perform the same operations as long as the replies are related, and then have
related values. -/
def Alike (R : Likeness S) (Q : α → β → Prop) : Program S α → Program S β → Prop
  | .ret value, .ret value' => Q value value'
  | .await op next, .await op' next' => ∃ same : op' = op, ∀ reply reply', R op reply reply' →
      (next reply).Alike R Q (next' (same ▸ reply'))
  | .ret _, .await _ _ | .await _ _, .ret _ => False

/-- A program that cannot tell related replies apart. -/
abbrev Discreet (R : Likeness S) (Q : α → α → Prop) (program : Program S α) : Prop :=
  program.Alike R Q program

namespace Alike

variable {R : Likeness S} {Q : α → α → Prop} {Q' : β → β → Prop}

theorem await {op : S.Op} {next next' : S.Reply op → Program S α}
    (each : ∀ reply reply', R op reply reply' → (next reply).Alike R Q (next' reply')) :
    (Program.await op next).Alike R Q (.await op next') :=
  ⟨rfl, each⟩

theorem bind {program program' : Program S α} {next next' : α → Program S β}
    (first : program.Alike R Q program')
    (rest : ∀ value value', Q value value' → (next value).Alike R Q' (next' value')) :
    (program >>= next).Alike R Q' (program' >>= next') := by
  induction program generalizing program' with
  | ret value =>
      cases program' with
      | ret value' => exact rest value value' first
      | await op' tail' => exact first.elim
  | await op tail ih =>
      cases program' with
      | ret value' => exact first.elim
      | await op' tail' =>
          obtain ⟨rfl, each⟩ := first
          exact ⟨rfl, fun reply reply' related => ih reply (each reply reply' related)⟩

end Alike

end Program

/-- Two environments whose answers are related, from states that `T` relates on. -/
structure AlikeEnv (R : Likeness S) (T : σ → σ' → Prop) (env : Environment S σ)
    (env' : Environment S σ') : Prop where
  replies : ∀ s s', T s s' → ∀ op, R op (env s op).2 (env' s' op).2
  states : ∀ s s', T s s' → ∀ op, T (env s op).1 (env' s' op).1

/-- The operations of a run. -/
def Recorded.ops (run : Recorded S σ α) : List S.Op := run.trace.map Performed.op

/-- Against related environments, programs that are alike do the same. -/
theorem Program.Alike.record {R : Likeness S} {Q : α → β → Prop} {T : σ → σ' → Prop}
    {env : Environment S σ} {env' : Environment S σ'} (envs : AlikeEnv R T env env')
    {program : Program S α} {program' : Program S β} (alike : program.Alike R Q program') {s : σ}
    {s' : σ'} (related : T s s') :
    (program.record env s).ops = (program'.record env' s').ops ∧
      Q (program.record env s).value (program'.record env' s').value := by
  induction program generalizing program' s s' with
  | ret value =>
      cases program' with
      | ret value' => exact ⟨rfl, alike⟩
      | await op' next' => exact alike.elim
  | await op next ih =>
      cases program' with
      | ret value' => exact alike.elim
      | await op' next' =>
          obtain ⟨rfl, each⟩ := alike
          obtain ⟨ops, values⟩ := ih _ (each _ _ (envs.replies s s' related op'))
            (envs.states s s' related op')
          exact ⟨congrArg (op' :: ·) ops, values⟩

end Async
