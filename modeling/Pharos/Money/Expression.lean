import Pharos.Money.Money

/-!
# Expressions of monetary amounts

Trees of checked operations.  Next to their evaluation stands their meaning in exact integers, and
what is wrong with a single node there.  Evaluation stops with the error of the first node that is
wrong, operands before the operation and the left one first; if none is, it yields the exact value.
-/

namespace Pharos

open Numeric

/-- An expression over amounts.  A share is selected among those there are, if there are any. -/
inductive MoneyExpr
  | leaf (money : Money)
  | add (left right : MoneyExpr)
  | sub (left right : MoneyExpr)
  | mul (operand : MoneyExpr) (factor : I128)
  | neg (operand : MoneyExpr)
  | abs (operand : MoneyExpr)
  | share (operand : MoneyExpr) (parts : USize) (index : Nat)
      (selected : parts ≠ 0 → index < parts.toNat)

theorem Money.length_of_allocate {money : Money} {parts : USize} {monies : List Money}
    (run : money.allocate parts = .ok monies) : parts ≠ 0 ∧ monies.length = parts.toNat := by
  obtain ⟨nonzero, exactly, -⟩ := Money.allocate_eq_ok run
  have length := congrArg List.length exactly
  rw [List.length_map, length_shares] at length
  exact ⟨nonzero, length⟩

/-- One of the amounts of an allocation. -/
def Money.allocateSelect (money : Money) (parts : USize) (index : Nat)
    (selected : parts ≠ 0 → index < parts.toNat) : Except MoneyError Money :=
  match run : money.allocate parts with
  | .error error => .error error
  | .ok monies =>
    have allocated := Money.length_of_allocate run
    .ok (monies.get ⟨index, allocated.2 ▸ selected allocated.1⟩)

section

variable {money : Money} {parts : USize} {index : Nat}
  {selected : parts ≠ 0 → index < parts.toNat}

theorem Money.allocateSelect_of_error {error : MoneyError}
    (refused : money.allocate parts = .error error) :
    money.allocateSelect parts index selected = .error error := by
  unfold allocateSelect
  split
  case h_1 other run =>
    obtain rfl := Except.error.inj (run.symm.trans refused)
    rfl
  case h_2 monies run =>
    rw [refused] at run
    cases run

/-- The amount that is selected is the exact share. -/
theorem Money.allocateSelect_of_ok {monies : List Money} (run : money.allocate parts = .ok monies) :
    ∃ selectedMoney, money.allocateSelect parts index selected = .ok selectedMoney ∧
      selectedMoney.amount.val = Numeric.share money.amount.val parts.toNat index ∧
      selectedMoney.currency = money.currency := by
  obtain ⟨nonzero, exactly, currencies⟩ := Money.allocate_eq_ok run
  have inside : index < monies.length :=
    (Money.length_of_allocate run).2 ▸ selected nonzero
  refine ⟨monies[index], ?_, ?_, currencies _ (List.getElem_mem inside)⟩
  · unfold allocateSelect
    split
    case h_1 error other =>
      rw [run] at other
      cases other
    case h_2 others same =>
      obtain rfl := Except.ok.inj (same.symm.trans run)
      rfl
  · have insideMap : index < (monies.map fun share => share.amount.val).length := by
      rwa [List.length_map]
    have insideShares : index < (Numeric.shares money.amount.val parts.toNat).length := by
      rwa [← exactly]
    calc monies[index].amount.val
        = (monies.map fun share => share.amount.val)[index] :=
          (List.getElem_map fun share : Money => share.amount.val).symm
      _ = (Numeric.shares money.amount.val parts.toNat)[index] := by simp only [exactly]
      _ = Numeric.share money.amount.val parts.toNat index := getElem_shares insideShares

end

namespace MoneyExpr

/-- The operands are evaluated from the left, and the first error ends the evaluation. -/
def eval : MoneyExpr → Except MoneyError Money
  | leaf money => .ok money
  | add left right => do
    let a ← left.eval
    let b ← right.eval
    a.checkedAdd b
  | sub left right => do
    let a ← left.eval
    let b ← right.eval
    a.checkedSub b
  | mul operand factor => do
    let a ← operand.eval
    a.checkedMul factor
  | neg operand => do
    let a ← operand.eval
    a.neg
  | abs operand => do
    let a ← operand.eval
    a.abs
  | share operand parts index selected => do
    let a ← operand.eval
    a.allocateSelect parts index selected

/-! ## The exact meaning -/

/-- The value in exact integers. -/
def value : MoneyExpr → Int
  | leaf money => money.amount.val
  | add left right => left.value + right.value
  | sub left right => left.value - right.value
  | mul operand factor => operand.value * factor.val
  | neg operand => -operand.value
  | abs operand => |operand.value|
  | share operand parts index _ => Numeric.share operand.value parts.toNat index

/-- The currency an operand has, which is that of its first leaf. -/
def currency : MoneyExpr → Currency
  | leaf money => money.currency
  | add left _ => left.currency
  | sub left _ => left.currency
  | mul operand _ => operand.currency
  | neg operand => operand.currency
  | abs operand => operand.currency
  | share operand _ _ _ => operand.currency

/-- The amounts at the leaves. -/
def leaves : MoneyExpr → List Money
  | leaf money => [money]
  | add left right => left.leaves ++ right.leaves
  | sub left right => left.leaves ++ right.leaves
  | mul operand _ => operand.leaves
  | neg operand => operand.leaves
  | abs operand => operand.leaves
  | share operand _ _ _ => operand.leaves

/-- Every node, each after its operands. -/
def nodes : MoneyExpr → List MoneyExpr
  | leaf money => [leaf money]
  | add left right => left.nodes ++ (right.nodes ++ [add left right])
  | sub left right => left.nodes ++ (right.nodes ++ [sub left right])
  | mul operand factor => operand.nodes ++ [mul operand factor]
  | neg operand => operand.nodes ++ [neg operand]
  | abs operand => operand.nodes ++ [abs operand]
  | share operand parts index selected => operand.nodes ++ [share operand parts index selected]

/-- The operands of a sum or a difference have different currencies. -/
def Mismatched : MoneyExpr → Prop
  | add left right => left.currency ≠ right.currency
  | sub left right => left.currency ≠ right.currency
  | _ => False

/-- An allocation over no parts or over too many. -/
def BadPartCount : MoneyExpr → Prop
  | share _ parts _ _ => parts = 0 ∨ Money.maxAllocationParts < parts
  | _ => False

/-- What is wrong with a node. -/
def Faulty (node : MoneyExpr) : Prop :=
  node.Mismatched ∨ ¬ Fits 128 node.value ∨ node.BadPartCount

/-! ## The first fault -/

/-- The error of a result that does not fit. -/
def overflowFault (x : Int) : Option MoneyError :=
  if Fits 128 x then none else some .overflow

/-- The error of two operands: their currencies are compared before anything is computed. -/
def operandFault (left right : Currency) (x : Int) : Option MoneyError :=
  if left = right then overflowFault x else some (.currencyMismatch left.code right.code)

/-- The error of an allocation. -/
def allocationFault (parts : USize) : Option MoneyError :=
  if parts = 0 then some .invalidAllocation
  else if Money.maxAllocationParts < parts then
    some (.tooManyParts parts Money.maxAllocationParts)
  else none

/-- The error of a node whose operands have their exact values. -/
def fault : MoneyExpr → Option MoneyError
  | leaf _ => none
  | add left right => operandFault left.currency right.currency (left.value + right.value)
  | sub left right => operandFault left.currency right.currency (left.value - right.value)
  | mul operand factor => overflowFault (operand.value * factor.val)
  | neg operand => overflowFault (-operand.value)
  | abs operand => overflowFault |operand.value|
  | share _ parts _ _ => allocationFault parts

/-- The error of the first node that has one. -/
def firstFault (e : MoneyExpr) : Option MoneyError :=
  e.nodes.findSome? fault

/-- A computation ends with the fault there is, and with the exact value when there is none. -/
def Ends (fault : Option MoneyError) (value : Int) (currency : Currency)
    (result : Except MoneyError Money) : Prop :=
  match fault with
  | some error => result = .error error
  | none => ∃ money, result = .ok money ∧ money.amount.val = value ∧ money.currency = currency

theorem Ends.bind {first second : Option MoneyError} {x y : Int} {c d : Currency}
    {result : Except MoneyError Money} {next : Money → Except MoneyError Money}
    (ends : Ends first x c result)
    (goesOn : ∀ money : Money, money.amount.val = x → money.currency = c →
      Ends second y d (next money)) :
    Ends (first.or second) y d (result >>= next) := by
  cases first with
  | some error =>
    obtain rfl : result = .error error := ends
    rfl
  | none =>
    obtain ⟨money, rfl, value, currency⟩ := ends
    exact goesOn money value currency

/-- A checked result is the exact one or an overflow. -/
theorem ends_ofChecked (x : Int) (c : Currency) :
    Ends (overflowFault x) x c (Money.ofChecked (Signed.ofInt x) c) := by
  unfold overflowFault
  by_cases fits : Fits 128 x
  · have exactly : (Signed.ofInt x : Option I128) = some ⟨x, fits⟩ :=
      Signed.ofInt_eq_some_iff.2 rfl
    rw [if_pos fits, exactly]
    exact ⟨_, rfl, rfl, rfl⟩
  · rw [if_neg fits, Signed.ofInt_eq_none_iff.2 fits]
    rfl

/-- A sum or a difference compares the currencies, then computes. -/
theorem ends_sameCurrency (a b : Money) (x : Int) :
    Ends (operandFault a.currency b.currency x) x a.currency
      (do a.ensureSameCurrency b; Money.ofChecked (Signed.ofInt x) a.currency) := by
  unfold operandFault Money.ensureSameCurrency
  by_cases same : a.currency = b.currency
  · rw [if_pos same, if_pos same]
    exact ends_ofChecked x a.currency
  · rw [if_neg same, if_neg same]
    rfl

theorem ends_allocateSelect (money : Money) (parts : USize) (index : Nat)
    (selected : parts ≠ 0 → index < parts.toNat) :
    Ends (allocationFault parts) (Numeric.share money.amount.val parts.toNat index) money.currency
      (money.allocateSelect parts index selected) := by
  unfold allocationFault
  split_ifs with zero above
  · exact Money.allocateSelect_of_error (Money.allocate_zero zero)
  · exact Money.allocateSelect_of_error (Money.allocate_tooMany zero above)
  · cases run : money.allocate parts with
    | ok monies => exact Money.allocateSelect_of_ok run
    | error error =>
      obtain ⟨refused, run, -⟩ := Money.allocate_eq_error_iff.1 run
      rcases allocateMinorUnits_error_iff.1 ⟨refused, run⟩ with isZero | tooMany
      · exact absurd isZero zero
      · exact absurd tooMany above

/-- Evaluation ends with the error of the first node that has one, and with the exact value in the
currency of the first leaf when none has. -/
theorem ends_eval (e : MoneyExpr) : Ends e.firstFault e.value e.currency e.eval := by
  induction e with
  | leaf money => exact ⟨money, rfl, rfl, rfl⟩
  | add left right ihLeft ihRight =>
    unfold firstFault
    rw [nodes, List.findSome?_append, List.findSome?_append, List.findSome?_singleton]
    refine ihLeft.bind fun a aValue aCurrency => ihRight.bind fun b bValue bCurrency => ?_
    rw [fault, value, currency, ← aValue, ← bValue, ← aCurrency, ← bCurrency]
    exact ends_sameCurrency a b (a.amount.val + b.amount.val)
  | sub left right ihLeft ihRight =>
    unfold firstFault
    rw [nodes, List.findSome?_append, List.findSome?_append, List.findSome?_singleton]
    refine ihLeft.bind fun a aValue aCurrency => ihRight.bind fun b bValue bCurrency => ?_
    rw [fault, value, currency, ← aValue, ← bValue, ← aCurrency, ← bCurrency]
    exact ends_sameCurrency a b (a.amount.val - b.amount.val)
  | mul operand factor ih =>
    unfold firstFault
    rw [nodes, List.findSome?_append, List.findSome?_singleton]
    refine ih.bind fun a aValue aCurrency => ?_
    rw [fault, value, currency, ← aValue, ← aCurrency]
    exact ends_ofChecked (a.amount.val * factor.val) a.currency
  | neg operand ih =>
    unfold firstFault
    rw [nodes, List.findSome?_append, List.findSome?_singleton]
    refine ih.bind fun a aValue aCurrency => ?_
    rw [fault, value, currency, ← aValue, ← aCurrency]
    exact ends_ofChecked (-a.amount.val) a.currency
  | abs operand ih =>
    unfold firstFault
    rw [nodes, List.findSome?_append, List.findSome?_singleton]
    refine ih.bind fun a aValue aCurrency => ?_
    rw [fault, value, currency, ← aValue, ← aCurrency]
    exact ends_ofChecked |a.amount.val| a.currency
  | share operand parts index selected ih =>
    unfold firstFault
    rw [nodes, List.findSome?_append, List.findSome?_singleton]
    refine ih.bind fun a aValue aCurrency => ?_
    rw [fault, value, currency, ← aValue, ← aCurrency]
    exact ends_allocateSelect a parts index selected

/-! ## Faulty nodes -/

/-- The nodes of an operand are nodes of the whole. -/
theorem nodes_subset {node e : MoneyExpr} (member : node ∈ e.nodes) : node.nodes ⊆ e.nodes := by
  induction e with
  | leaf money =>
    obtain rfl := List.mem_singleton.1 member
    exact fun _ => id
  | add left right ihLeft ihRight | sub left right ihLeft ihRight =>
    unfold nodes at member
    rcases List.mem_append.1 member with inLeft | member
    · exact fun n inNode => List.mem_append_left _ (ihLeft inLeft inNode)
    · rcases List.mem_append.1 member with inRight | itself
      · exact fun n inNode =>
          List.mem_append_right _ (List.mem_append_left _ (ihRight inRight inNode))
      · obtain rfl := List.mem_singleton.1 itself
        exact fun _ => id
  | mul operand factor ih | neg operand ih | abs operand ih | share operand parts index selected ih =>
    unfold nodes at member
    rcases List.mem_append.1 member with inOperand | itself
    · exact fun n inNode => List.mem_append_left _ (ih inOperand inNode)
    · obtain rfl := List.mem_singleton.1 itself
      exact fun _ => id

theorem overflowFault_eq_none_iff {x : Int} : overflowFault x = none ↔ Fits 128 x := by
  unfold overflowFault
  split_ifs with fits <;> simp [fits]

theorem operandFault_eq_none_iff {c d : Currency} {x : Int} :
    operandFault c d x = none ↔ c = d ∧ Fits 128 x := by
  unfold operandFault
  split_ifs with same
  · simp [same, overflowFault_eq_none_iff]
  · simp [same]

theorem allocationFault_eq_none_iff {parts : USize} :
    allocationFault parts = none ↔ ¬ (parts = 0 ∨ Money.maxAllocationParts < parts) := by
  unfold allocationFault
  split_ifs with zero above <;> simp [*]

/-- A node with an error is faulty. -/
theorem faulty_of_fault {node : MoneyExpr} (isFault : node.fault ≠ none) : node.Faulty := by
  by_contra sound
  unfold Faulty at sound
  push Not at sound
  obtain ⟨same, fits, parts⟩ := sound
  apply isFault
  cases node with
  | leaf money => rfl
  | add left right | sub left right => exact operandFault_eq_none_iff.2 ⟨not_not.1 same, fits⟩
  | mul operand factor | neg operand | abs operand => exact overflowFault_eq_none_iff.2 fits
  | share operand count index selected => exact allocationFault_eq_none_iff.2 parts

/-- A node without an error has operands of one currency and a good part count. -/
theorem not_mismatched_of_fault {node : MoneyExpr} (sound : node.fault = none) :
    ¬ node.Mismatched ∧ ¬ node.BadPartCount := by
  cases node with
  | add left right | sub left right =>
    exact ⟨not_not.2 (operandFault_eq_none_iff.1 sound).1, id⟩
  | share operand count index selected => exact ⟨id, allocationFault_eq_none_iff.1 sound⟩
  | leaf money | mul operand factor | neg operand | abs operand => exact ⟨id, id⟩

theorem firstFault_eq_none_iff {e : MoneyExpr} :
    e.firstFault = none ↔ ∀ node ∈ e.nodes, node.fault = none :=
  List.findSome?_eq_none_iff

/-- Without a fault the evaluation yields the exact value. -/
theorem eval_of_no_fault {e : MoneyExpr} (sound : ∀ node ∈ e.nodes, node.fault = none) :
    ∃ money, e.eval = .ok money ∧ money.amount.val = e.value ∧ money.currency = e.currency := by
  have ends := ends_eval e
  rwa [firstFault_eq_none_iff.2 sound] at ends

/-- A value that does not fit is not the only thing to be wrong: some node has an error. -/
theorem not_faulty {e node : MoneyExpr} (sound : ∀ node ∈ e.nodes, node.fault = none)
    (member : node ∈ e.nodes) : ¬ node.Faulty := by
  obtain ⟨matched, parts⟩ := not_mismatched_of_fault (sound node member)
  obtain ⟨money, -, value, -⟩ :=
    eval_of_no_fault fun n inNode => sound n (nodes_subset member inNode)
  rintro (mismatched | outside | badParts)
  · exact matched mismatched
  · exact outside (value ▸ money.amount.fits)
  · exact parts badParts

/-- Without a fault all leaves have the currency of the first one. -/
theorem leaves_currency {e : MoneyExpr} (sound : ∀ node ∈ e.nodes, node.fault = none) :
    ∀ leaf ∈ e.leaves, leaf.currency = e.currency := by
  induction e with
  | leaf money =>
    intro leaf member
    obtain rfl := List.mem_singleton.1 member
    rfl
  | add left right ihLeft ihRight | sub left right ihLeft ihRight =>
    unfold nodes at sound
    simp only [List.forall_mem_append] at sound
    obtain ⟨soundLeft, soundRight, itself⟩ := sound
    have same : left.currency = right.currency :=
      (operandFault_eq_none_iff.1 (itself _ (List.mem_singleton_self _))).1
    intro leaf member
    rcases List.mem_append.1 member with inLeft | inRight
    · exact ihLeft soundLeft leaf inLeft
    · exact (ihRight soundRight leaf inRight).trans same.symm
  | mul operand factor ih | neg operand ih | abs operand ih | share operand parts index selected ih =>
    exact ih fun node member => sound node (List.mem_append_left _ member)

/-- Evaluation is exact: it fails when a node is faulty and only then, and what it yields is the
exact value in the currency that all leaves have. -/
structure EvaluatesExactly (e : MoneyExpr) : Prop where
  fails_iff : (∃ error, e.eval = .error error) ↔ ∃ node ∈ e.nodes, node.Faulty
  yields : ∀ money, e.eval = .ok money →
    money.amount.val = e.value ∧ ∀ leaf ∈ e.leaves, leaf.currency = money.currency

theorem eval_exact (e : MoneyExpr) : EvaluatesExactly e := by
  by_cases sound : ∀ node ∈ e.nodes, node.fault = none
  · obtain ⟨money, run, value, currency⟩ := eval_of_no_fault sound
    refine ⟨⟨?_, ?_⟩, ?_⟩
    · rintro ⟨error, failed⟩
      cases run.symm.trans failed
    · rintro ⟨node, member, faulty⟩
      exact absurd faulty (not_faulty sound member)
    · intro other ran
      obtain rfl := Except.ok.inj (run.symm.trans ran)
      exact ⟨value, fun leaf member => (leaves_currency sound leaf member).trans currency.symm⟩
  · push Not at sound
    obtain ⟨node, member, isFault⟩ := sound
    have ends := ends_eval e
    cases first : e.firstFault with
    | none => exact absurd (firstFault_eq_none_iff.1 first node member) isFault
    | some error =>
      rw [first] at ends
      have failed : e.eval = .error error := ends
      refine ⟨⟨fun _ => ⟨node, member, faulty_of_fault isFault⟩, fun _ => ⟨error, failed⟩⟩, ?_⟩
      intro money ran
      cases failed.symm.trans ran

end MoneyExpr

end Pharos
