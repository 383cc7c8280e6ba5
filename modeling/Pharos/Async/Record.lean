import Pharos.Async.Control

/-!
# What a program did

`record` runs a program alone, against an environment that answers every operation at once and may
change as it does, and keeps the operations with their replies in the order of the run.  The record
of two programs one after the other is the concatenation of their records.
-/

namespace Async

/-- An operation that was performed, with its reply. -/
structure Performed (S : Signature) where
  op : S.Op
  reply : S.Reply op

/-- What answers the operations of a program. -/
abbrev Environment (S : Signature) (σ : Type) := σ → (op : S.Op) → σ × S.Reply op

/-- A run that came to its end: what was performed, the state it left behind and its value. -/
structure Recorded (S : Signature) (σ α : Type) where
  trace : List (Performed S)
  state : σ
  value : α

/-- The same run after `earlier` was performed. -/
def Recorded.preceded {S : Signature} {σ α : Type} (rest : Recorded S σ α)
    (earlier : List (Performed S)) : Recorded S σ α :=
  { rest with trace := earlier ++ rest.trace }

namespace Program

variable {S : Signature} {σ α β : Type} {env : Environment S σ} {s : σ}

/-- Run `program` alone and keep a record. -/
def record (env : Environment S σ) : Program S α → σ → Recorded S σ α
  | .ret value, s => ⟨[], s, value⟩
  | .await op next, s =>
      ((next (env s op).2).record env (env s op).1).preceded [⟨op, (env s op).2⟩]

@[simp] theorem record_pure (value : α) :
    (pure value : Program S α).record env s = ⟨[], s, value⟩ := rfl

/-- The record of a program and its continuation. -/
theorem record_bind (program : Program S α) (next : α → Program S β) :
    (program >>= next).record env s =
      ((next (program.record env s).value).record env (program.record env s).state).preceded
        (program.record env s).trace := by
  induction program generalizing s with
  | ret value => rfl
  | await op tail ih =>
      have rest : ((tail (env s op).2).bind next).record env (env s op).1 = _ := ih (env s op).2
      show (((tail (env s op).2).bind next).record env (env s op).1).preceded _ = _
      rw [rest]
      rfl

/-- The record of a program whose value is changed at the end. -/
theorem record_map (program : Program S α) (f : α → β) :
    (program >>= fun value => pure (f value)).record env s =
      ⟨(program.record env s).trace, (program.record env s).state,
        f (program.record env s).value⟩ := by
  rw [record_bind, record_pure]
  exact congrArg (Recorded.mk · _ _) (List.append_nil _)

theorem record_call (op : S.Op) (next : S.Reply op → Program S β) :
    (Program.call op >>= next).record env s =
      ((next (env s op).2).record env (env s op).1).preceded [⟨op, (env s op).2⟩] := rfl

/-- What a program that obeys performs in an environment, it performs with a past that the
environment can have answered. -/
theorem Obeys.performed {ι : Type} {P : List (Event S ι) → S.Op → Prop}
    {Q : List (Event S ι) → α → Prop} {A : Event S ι → Prop} {program : Program S α}
    {past : List (Event S ι)} (choice : ι) (obeys : program.Obeys P Q past)
    (known : ∀ event ∈ past, A event)
    (answers : ∀ s op, A ⟨choice, op, (env s op).2⟩) :
    ∀ performed ∈ (program.record env s).trace,
      ∃ earlier, (∀ event ∈ earlier, A event) ∧ P earlier performed.op := by
  induction program generalizing past s with
  | ret value =>
      intro performed listed
      cases listed
  | await op next ih =>
      intro performed listed
      rcases List.mem_cons.mp listed with rfl | later
      · exact ⟨past, known, obeys.1⟩
      · exact ih _ (obeys.2 choice _) (List.forall_mem_cons.mpr ⟨answers s op, known⟩) performed later

/-- Every reply of a run is an answer of the environment. -/
theorem record_answered (program : Program S α) (s : σ) :
    ∀ performed ∈ (program.record env s).trace, ∃ s, (env s performed.op).2 = performed.reply := by
  induction program generalizing s with
  | ret value =>
      intro performed listed
      cases listed
  | await op next ih =>
      intro performed listed
      rcases List.mem_cons.mp listed with rfl | later
      · exact ⟨s, rfl⟩
      · exact ih _ _ performed later

/-- The value of a run is among those that the program can return. -/
theorem Returns.record {P : α → Prop} {program : Program S α} (returns : program.Returns P) (s : σ) :
    P (program.record env s).value := by
  induction program generalizing s with
  | ret value => exact returns
  | await op next ih => exact ih _ (returns _) _

/-- What an interpreter makes of an environment. -/
def interpreted {T : Signature} (handle : (op : S.Op) → Program T (S.Reply op))
    (env : Environment T σ) : Environment S σ :=
  fun s op => (((handle op).record env s).state, ((handle op).record env s).value)

/-- `run` is what the handler of an operation does in its place. -/
def Carries {T : Signature} (handle : (op : S.Op) → Program T (S.Reply op)) (env : Environment T σ)
    (performed : Performed S) (run : List (Performed T)) : Prop :=
  ∃ s, ((handle performed.op).record env s).trace = run ∧
    ((handle performed.op).record env s).value = performed.reply

/-- An interpreted program performs, for each operation of the program in turn, what its handler
performs. -/
theorem record_interpret {T : Signature} (handle : (op : S.Op) → Program T (S.Reply op))
    (env : Environment T σ) (program : Program S α) (s : σ) :
    ∃ runs, List.Forall₂ (Carries handle env) (program.record (interpreted handle env) s).trace runs ∧
      (program.interpret handle).record env s =
        ⟨runs.flatten, (program.record (interpreted handle env) s).state,
          (program.record (interpreted handle env) s).value⟩ := by
  induction program generalizing s with
  | ret value => exact ⟨[], .nil, rfl⟩
  | await op next ih =>
      obtain ⟨runs, each, rest⟩ := ih ((handle op).record env s).value ((handle op).record env s).state
      refine ⟨((handle op).record env s).trace :: runs, .cons ⟨s, rfl, rfl⟩ each, ?_⟩
      have first : (interpret handle (.await op next)).record env s = _ :=
        record_bind (handle op) fun reply => (next reply).interpret handle
      rw [first, rest]
      rfl

end Program

end Async
