/-
  Foundation/Escrow.lean --- accounts, and amounts of them that are set aside.

  An amount is set aside under the id of a hold.  A hold is taken once and ended once: its
  amount is given back, or a charge is made against it.  Every operation is written down as
  lines, and the accounts are the sums of the lines whatever the operations were.
-/
import Mathlib.Algebra.Order.Group.Defs
import Nuvonode.Foundation.Machine

set_option autoImplicit false

namespace Nuvonode.Foundation

variable {A H S M : Type}

/-! ## Operations and their lines -/

/-- What a line is about. -/
inductive LineKind (S : Type) where
  | funded (source : S)
  | reserved
  | released
  | charged
  | rewarded
  deriving DecidableEq

/-- A line moves the free and the reserved amount of an account. -/
structure Line (A S M : Type) where
  account : A
  kind : LineKind S
  amount : M
  reserved : M
  deriving DecidableEq

inductive EscrowOp (H A S M : Type) where
  /-- An amount comes in, or goes out. -/
  | fund (source : S) (account : A) (amount : M)
  | take (hold : H) (account : A) (amount : M)
  | giveBack (hold : H) (account : A) (amount : M)
  | charge (hold : H) (account : A) (amount cost reward : M)
  deriving DecidableEq

/-- The hold that an operation is about. -/
def EscrowOp.hold : EscrowOp H A S M → Option H
  | .fund .. => none
  | .take hold .. | .giveBack hold .. | .charge hold .. => some hold

/-- What became of a hold. -/
inductive Hold (A M : Type) where
  | unused
  | taken (account : A) (amount : M)
  | ended
  deriving DecidableEq

/-- The accounts and the holds. -/
structure Escrow (H A M : Type) where
  balance : A → M
  reserved : A → M
  holds : H → Hold A M

/-- The lines of an operation. -/
def EscrowOp.lines [AddCommGroup M] [LinearOrder M] : EscrowOp H A S M → List (Line A S M)
  | .fund source account amount => [⟨account, .funded source, amount, 0⟩]
  | .take _ account amount => [⟨account, .reserved, -amount, amount⟩]
  | .giveBack _ account amount => [⟨account, .released, amount, -amount⟩]
  | .charge _ account amount cost reward =>
      [⟨account, .released, amount, -amount⟩] ++
        (if 0 < cost then [⟨account, .charged, -cost, 0⟩] else []) ++
        if 0 < reward then [⟨account, .rewarded, reward, 0⟩] else []

namespace Escrow

/-- Nothing, anywhere. -/
def empty [AddCommGroup M] : Escrow H A M where
  balance := fun _ => 0
  reserved := fun _ => 0
  holds := fun _ => .unused

/-- Write a line. -/
def post [DecidableEq A] [AddCommGroup M] (b : Escrow H A M) (line : Line A S M) :
    Escrow H A M :=
  { b with
    balance := Function.update b.balance line.account (b.balance line.account + line.amount)
    reserved :=
      Function.update b.reserved line.account (b.reserved line.account + line.reserved) }

/-- What an operation makes of its hold. -/
def mark [DecidableEq H] (b : Escrow H A M) : EscrowOp H A S M → Escrow H A M
  | .fund .. => b
  | .take hold account amount =>
      { b with holds := Function.update b.holds hold (.taken account amount) }
  | .giveBack hold .. | .charge hold .. =>
      { b with holds := Function.update b.holds hold .ended }

section Next

variable [DecidableEq A] [DecidableEq H] [AddCommGroup M] [LinearOrder M]

/-- Whether an operation is possible: no account is overdrawn, a hold is taken once and
ended once, and is charged at most what it is. -/
def allows (b : Escrow H A M) : EscrowOp H A S M → Prop
  | .fund _ account amount => 0 ≤ b.balance account + amount
  | .take hold account amount =>
      b.holds hold = .unused ∧ 0 < amount ∧ amount ≤ b.balance account
  | .giveBack hold account amount => b.holds hold = .taken account amount
  | .charge hold account amount cost reward =>
      b.holds hold = .taken account amount ∧ 0 ≤ cost ∧ cost ≤ amount ∧ 0 ≤ reward

instance (b : Escrow H A M) : (op : EscrowOp H A S M) → Decidable (b.allows op)
  | .fund _ account amount => inferInstanceAs (Decidable (0 ≤ b.balance account + amount))
  | .take hold account amount => inferInstanceAs
      (Decidable (b.holds hold = .unused ∧ 0 < amount ∧ amount ≤ b.balance account))
  | .giveBack hold account amount =>
      inferInstanceAs (Decidable (b.holds hold = .taken account amount))
  | .charge hold account amount cost reward => inferInstanceAs
      (Decidable (b.holds hold = .taken account amount ∧ 0 ≤ cost ∧ cost ≤ amount ∧ 0 ≤ reward))

def next (b : Escrow H A M) (op : EscrowOp H A S M) : Option (Escrow H A M) :=
  if b.allows op then some ((op.lines.foldl post b).mark op) else none

end Next

end Escrow

/-- An escrow, with nothing in it at first. -/
abbrev escrowMachine (H A S M : Type) [DecidableEq A] [DecidableEq H] [AddCommGroup M]
    [LinearOrder M] : Machine (Escrow H A M) (EscrowOp H A S M) :=
  .ofNext (fun b => b = .empty) Escrow.next

/-! ## Lines -/

/-- The sum of a column over the lines of an account. -/
def lineSum [DecidableEq A] [AddCommGroup M] (column : Line A S M → M) (account : A)
    (lines : List (Line A S M)) : M :=
  (lines.map fun line => if line.account = account then column line else 0).sum

@[simp] theorem lineSum_append [DecidableEq A] [AddCommGroup M]
    (column : Line A S M → M) (account : A) (lines lines' : List (Line A S M)) :
    lineSum column account (lines ++ lines') =
      lineSum column account lines + lineSum column account lines' := by
  simp [lineSum]

/-- What a charge leaves of its hold. -/
theorem lineSum_charge [DecidableEq A] [AddCommGroup M] [LinearOrder M] (hold : H)
    (account account' : A) {amount cost reward : M} (hcost : 0 ≤ cost)
    (hreward : 0 ≤ reward) :
    lineSum Line.amount account (EscrowOp.charge (S := S) hold account' amount cost reward).lines =
      if account' = account then amount - cost + reward else 0 := by
  have hcharged : lineSum (S := S) Line.amount account
      (if 0 < cost then [⟨account', .charged, -cost, 0⟩] else []) =
        if account' = account then -cost else 0 := by
    rcases hcost.eq_or_lt with rfl | hpos
    · simp [lineSum]
    · simp [lineSum, hpos]
  have hrewarded : lineSum (S := S) Line.amount account
      (if 0 < reward then [⟨account', .rewarded, reward, 0⟩] else []) =
        if account' = account then reward else 0 := by
    rcases hreward.eq_or_lt with rfl | hpos
    · simp [lineSum]
    · simp [lineSum, hpos]
  rw [EscrowOp.lines, lineSum_append, lineSum_append, hcharged, hrewarded]
  by_cases haccount : account' = account <;> simp [lineSum, haccount, sub_eq_add_neg]

section Posting

variable [AddCommGroup M]

/-- Lines move their accounts by their sums. -/
theorem Escrow.balance_posted [DecidableEq A] (lines : List (Line A S M)) (b : Escrow H A M)
    (account : A) :
    (lines.foldl post b).balance account =
        b.balance account + lineSum Line.amount account lines ∧
      (lines.foldl post b).reserved account =
        b.reserved account + lineSum Line.reserved account lines := by
  induction lines generalizing b with
  | nil => simp [lineSum]
  | cons line rest ih =>
      obtain ⟨hbalance, hreserved⟩ := ih (b.post line)
      rw [List.foldl_cons]
      refine ⟨hbalance.trans ?_, hreserved.trans ?_⟩
      · by_cases haccount : line.account = account
        · subst haccount
          simp [post, lineSum, add_assoc]
        · simp [post, lineSum, haccount, Function.update_of_ne (Ne.symm haccount)]
      · by_cases haccount : line.account = account
        · subst haccount
          simp [post, lineSum, add_assoc]
        · simp [post, lineSum, haccount, Function.update_of_ne (Ne.symm haccount)]

/-- Lines move no hold. -/
theorem Escrow.holds_posted [DecidableEq A] (lines : List (Line A S M)) (b : Escrow H A M) :
    (lines.foldl post b).holds = b.holds := by
  induction lines generalizing b with
  | nil => rfl
  | cons line rest ih => exact ih (b.post line)

end Posting

/-! ## Holds -/

section Marking

variable {b : Escrow H A M} [DecidableEq H]

@[simp] theorem Escrow.balance_mark (op : EscrowOp H A S M) :
    (b.mark op).balance = b.balance := by
  cases op <;> rfl

@[simp] theorem Escrow.reserved_mark (op : EscrowOp H A S M) :
    (b.mark op).reserved = b.reserved := by
  cases op <;> rfl

/-- An operation about another hold leaves a hold as it is. -/
theorem Escrow.holds_mark_of_ne {op : EscrowOp H A S M} {hold : H} (h : op.hold ≠ some hold) :
    (b.mark op).holds hold = b.holds hold := by
  cases op with
  | fund => rfl
  | take | giveBack | charge =>
      exact Function.update_of_ne (fun heq => h (congrArg some heq.symm)) _ _

end Marking

/-- The operations about a hold. -/
def about [DecidableEq H] (hold : H) (ops : List (EscrowOp H A S M)) :
    List (EscrowOp H A S M) :=
  ops.filter fun op => op.hold = some hold

/-- The operations about a hold, and one more. -/
theorem about_snoc [DecidableEq H] (hold : H) (ops : List (EscrowOp H A S M))
    (op : EscrowOp H A S M) :
    about hold (ops ++ [op]) = about hold ops ++ if op.hold = some hold then [op] else [] := by
  rw [about, List.filter_append]
  by_cases hop : op.hold = some hold <;> simp [about, hop]

/-- What a hold is after the operations about it. -/
def holdAfter : List (EscrowOp H A S M) → Hold A M
  | [] => .unused
  | [.take _ account amount] => .taken account amount
  | _ => .ended

/-- The lives that a hold can have. -/
inductive Life [Zero M] [LT M] [LE M] (hold : H) : List (EscrowOp H A S M) → Prop where
  | unused : Life hold []
  | taken (account : A) (amount : M) : 0 < amount → Life hold [.take hold account amount]
  | givenBack (account : A) (amount : M) : 0 < amount →
      Life hold [.take hold account amount, .giveBack hold account amount]
  | charged (account : A) (amount cost reward : M) : 0 < amount → cost ≤ amount →
      Life hold [.take hold account amount, .charge hold account amount cost reward]

/-! ## Runs -/

section Runs

variable [DecidableEq A] [DecidableEq H] [AddCommGroup M] [LinearOrder M]
  {b b' : Escrow H A M} {op : EscrowOp H A S M} {ops : List (EscrowOp H A S M)}
  {guard : Escrow H A M → EscrowOp H A S M → Escrow H A M → Prop}

theorem Escrow.next_eq_some_iff :
    b.next op = some b' ↔ b.allows op ∧ (op.lines.foldl post b).mark op = b' := by
  simp only [Escrow.next, Option.ite_none_right_eq_some, Option.some.injEq]

/-- Whatever the operations were, the accounts are the sums of their lines. -/
theorem Escrow.replay (h : (escrowMachine H A S M).Reaches guard ops b) (account : A) :
    b.balance account = lineSum Line.amount account (ops.flatMap EscrowOp.lines) ∧
      b.reserved account = lineSum Line.reserved account (ops.flatMap EscrowOp.lines) := by
  refine h.invariant_trace (fun ops b =>
    b.balance account = lineSum Line.amount account (ops.flatMap EscrowOp.lines) ∧
      b.reserved account = lineSum Line.reserved account (ops.flatMap EscrowOp.lines)) ?_ ?_
  · rintro b rfl
    exact ⟨rfl, rfl⟩
  · rintro ops b op b' ⟨hbalance, hreserved⟩ hnext -
    obtain ⟨-, rfl⟩ := Escrow.next_eq_some_iff.mp hnext
    obtain ⟨hbalance', hreserved'⟩ := Escrow.balance_posted op.lines b account
    simp only [Escrow.balance_mark, Escrow.reserved_mark, List.flatMap_append,
      List.flatMap_singleton, lineSum_append]
    exact ⟨hbalance'.trans (hbalance ▸ rfl), hreserved'.trans (hreserved ▸ rfl)⟩

/-- A hold is taken once and ended once, with the amount it was taken with. -/
theorem Escrow.life (h : (escrowMachine H A S M).Reaches guard ops b) (hold : H) :
    Life hold (about hold ops) ∧ b.holds hold = holdAfter (about hold ops) := by
  refine h.invariant_trace (fun ops b =>
    Life hold (about hold ops) ∧ b.holds hold = holdAfter (about hold ops)) ?_ ?_
  · rintro b rfl
    exact ⟨.unused, rfl⟩
  · rintro ops b op b' ⟨hlife, hholds⟩ hnext -
    obtain ⟨hallowed, rfl⟩ := Escrow.next_eq_some_iff.mp hnext
    rw [about_snoc]
    generalize about hold ops = lived at hlife hholds
    by_cases hop : op.hold = some hold
    · rw [if_pos hop]
      cases op with
      | fund => cases hop
      | take hold' account amount =>
          obtain rfl := Option.some.inj hop
          have hunused : holdAfter lived = .unused := hholds.symm.trans hallowed.1
          cases hlife with
          | unused => exact ⟨.taken account amount hallowed.2.1, Function.update_self ..⟩
          | _ => cases hunused
      | giveBack hold' account amount =>
          obtain rfl := Option.some.inj hop
          have htaken : holdAfter lived = .taken account amount := hholds.symm.trans hallowed
          cases hlife with
          | taken account' amount' hpos =>
              cases htaken
              exact ⟨.givenBack account amount hpos, Function.update_self ..⟩
          | _ => cases htaken
      | charge hold' account amount cost reward =>
          obtain rfl := Option.some.inj hop
          have htaken : holdAfter lived = .taken account amount := hholds.symm.trans hallowed.1
          cases hlife with
          | taken account' amount' hpos =>
              cases htaken
              exact ⟨.charged account amount cost reward hpos hallowed.2.2.1,
                Function.update_self ..⟩
          | _ => cases htaken
    · rw [if_neg hop, List.append_nil, Escrow.holds_mark_of_ne hop]
      exact ⟨hlife, (congrFun (Escrow.holds_posted op.lines b) hold).trans hholds⟩

/-- What is held is positive. -/
theorem Escrow.pos_of_taken (h : (escrowMachine H A S M).Reaches guard ops b) {hold : H}
    {account : A} {amount : M} (htaken : b.holds hold = .taken account amount) : 0 < amount := by
  obtain ⟨hlife, hholds⟩ := Escrow.life h hold
  rw [htaken] at hholds
  generalize about hold ops = lived at hlife hholds
  cases hlife with
  | taken _ _ hpos =>
      cases hholds
      exact hpos
  | _ => cases hholds

/-- No account is overdrawn. -/
theorem Escrow.solvent [IsOrderedAddMonoid M] (h : (escrowMachine H A S M).Reaches guard ops b)
    (account : A) : 0 ≤ b.balance account := by
  have hboth : (escrowMachine H A S M).Reaches guard ops b ∧ 0 ≤ b.balance account := by
    refine h.invariant_trace (fun ops b =>
      (escrowMachine H A S M).Reaches guard ops b ∧ 0 ≤ b.balance account) ?_ ?_
    · rintro b rfl
      exact ⟨.start rfl, le_refl 0⟩
    · rintro ops b op b' ⟨hreach, hnonneg⟩ hnext hguard
      refine ⟨hreach.snoc hnext hguard, ?_⟩
      obtain ⟨hallowed, rfl⟩ := Escrow.next_eq_some_iff.mp hnext
      rw [Escrow.balance_mark, (Escrow.balance_posted op.lines b account).1]
      cases op with
      | fund source account' amount =>
          have hfunded : 0 ≤ b.balance account' + amount := hallowed
          by_cases haccount : account' = account
          · subst haccount
            simpa [lineSum, EscrowOp.lines] using hfunded
          · simpa [lineSum, EscrowOp.lines, haccount] using hnonneg
      | take hold account' amount =>
          by_cases haccount : account' = account
          · subst haccount
            simpa [lineSum, EscrowOp.lines] using hallowed.2.2
          · simpa [lineSum, EscrowOp.lines, haccount] using hnonneg
      | giveBack hold account' amount =>
          have hamount : 0 ≤ amount := (Escrow.pos_of_taken hreach hallowed).le
          refine add_nonneg hnonneg ?_
          by_cases haccount : account' = account <;>
            simp [lineSum, EscrowOp.lines, haccount, hamount]
      | charge hold account' amount cost reward =>
          obtain ⟨-, hcost, hcovered, hreward⟩ := hallowed
          refine add_nonneg hnonneg ?_
          rw [lineSum_charge hold account account' hcost hreward]
          split
          · exact add_nonneg (sub_nonneg.mpr hcovered) hreward
          · exact le_refl 0
  exact hboth.2

end Runs

end Nuvonode.Foundation
