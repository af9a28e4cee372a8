/-
  Contract/Conservation.lean --- credits are conserved.

  What was granted and adjusted is in the wallets, but for what the platform keeps of
  the usage records; and the usage records are those of the succeeded jobs.
-/
import Nuvonode.Contract.Reservations

set_option autoImplicit false

namespace Nuvonode.Contract

open Nuvonode.Foundation Nuvonode.Database Nuvonode.Service Nuvonode.Handler

/-- The record and the job it settles agree. -/
structure Settles (usage : UsageRow) (row : JobRow) : Prop where
  job : row.id = usage.jobID
  status : row.status = .succeeded
  cost : row.actualCostCredits = usage.costCredits
  reward : row.providerRewardCredits = usage.providerRewardCredits
  covered : usage.costCredits.toInt ≤ row.reservedCredits.toInt

/-- Every usage record settles one succeeded job. -/
theorem exists_settles {db : DB} (h : Books db) {usage : UsageRow}
    (husage : usage ∈ db.usageRecords) :
    ∃ row ∈ db.inferenceJobs, Settles usage row := by
  obtain ⟨row, hrow, hcost, hreward, hcovered⟩ := h.amounts usage husage
  obtain ⟨hmem, hid⟩ := Table.mem_of_select hrow
  refine ⟨row, hmem, hid, ?_, hcost, hreward, hcovered⟩
  rw [h.succeeded row hmem, hid]
  exact Table.select_isSome_iff.mpr ⟨usage, husage, rfl⟩

/-- Every succeeded job is settled by one usage record. -/
theorem exists_record {db : DB} (h : Books db) {row : JobRow} (hrow : row ∈ db.inferenceJobs)
    (hsucceeded : row.status = .succeeded) : ∃ usage ∈ db.usageRecords, Settles usage row := by
  obtain ⟨usage, husage, hjob⟩ :=
    Table.select_isSome_iff.mp ((h.succeeded row hrow).mp hsucceeded)
  obtain ⟨other, hother, hsettles⟩ := exists_settles h husage
  have hselect := Table.select_of_mem h.jobs hrow
  rw [← hjob, ← hsettles.job, Table.select_of_mem h.jobs hother, Option.some.injEq] at hselect
  exact ⟨usage, husage, hselect ▸ hsettles⟩

/-- In every state of every interleaving of registrations, adjustments and chat requests,
the wallets hold what was granted and adjusted less the margin on the usage records;
succeeded jobs and usage records correspond one to one, with equal amounts and a cost
within the reservation; no other job has a record; and the debits are exactly what the
records charge the wallets of their users. -/
theorem credits_are_conserved (P : Platform) (cfg : Config) {es : List ServiceEvent}
    {s : ChatService} (hreach : (chatMachine P cfg).Reaches Machine.anyStep es s) :
    totalCredits s.db =
        entriesOf .grant s.db + entriesOf .adminAdjustment s.db - margin s.db ∧
      (∀ row ∈ s.db.inferenceJobs, row.status = .succeeded →
        ∃! usage, usage ∈ s.db.usageRecords ∧ Settles usage row) ∧
      (∀ usage ∈ s.db.usageRecords, ∃! row, row ∈ s.db.inferenceJobs ∧ Settles usage row) ∧
      (∀ row ∈ s.db.inferenceJobs, row.status ≠ .succeeded →
        ∀ usage ∈ s.db.usageRecords, usage.jobID ≠ row.id) ∧
      (debits s.db).map debitOf = charges s.db := by
  have hbooks : Books s.db := (invariant_of_reaches hreach).books
  refine ⟨hbooks.credits, fun row hrow hsucceeded => ?_, fun usage husage => ?_,
    fun row hrow hstatus usage husage hjob => hstatus ?_, hbooks.debits⟩
  · obtain ⟨usage, husage, hsettles⟩ := exists_record hbooks hrow hsucceeded
    refine ⟨usage, ⟨husage, hsettles⟩, ?_⟩
    rintro other ⟨hother, hsettles'⟩
    have hselect := Table.select_of_mem hbooks.records hother
    rw [← hsettles'.job, hsettles.job, Table.select_of_mem hbooks.records husage,
      Option.some.injEq] at hselect
    exact hselect.symm
  · obtain ⟨row, hrow, hsettles⟩ := exists_settles hbooks husage
    refine ⟨row, ⟨hrow, hsettles⟩, ?_⟩
    rintro other ⟨hother, hsettles'⟩
    have hselect := Table.select_of_mem hbooks.jobs hother
    rw [hsettles'.job, ← hsettles.job, Table.select_of_mem hbooks.jobs hrow,
      Option.some.injEq] at hselect
    exact hselect.symm
  · exact (hbooks.succeeded row hrow).mpr (Table.select_isSome_iff.mpr ⟨usage, husage, hjob⟩)

/-- After the sample run the wallets hold 19998 credits: two grants of 10000, less the
margin of 2 on its one record. -/
theorem sample_credits_are_conserved :
    totalCredits (sampleAfter (dispatchEvents ++ settleEvents)).db = 19998 ∧
      totalCredits (sampleAfter (dispatchEvents ++ settleEvents)).db =
        entriesOf .grant (sampleAfter (dispatchEvents ++ settleEvents)).db +
          entriesOf .adminAdjustment (sampleAfter (dispatchEvents ++ settleEvents)).db -
          margin (sampleAfter (dispatchEvents ++ settleEvents)).db := by
  have hrun : (runSample freshService (dispatchEvents ++ settleEvents)).isSome := by
    decide +kernel
  have hreach : (chatMachine samplePlatform sampleConfig).Reaches Machine.anyStep
      (dispatchEvents ++ settleEvents) (sampleAfter (dispatchEvents ++ settleEvents)) :=
    (reaches_sampleAfter hrun).mono fun _ _ _ _ => trivial
  exact ⟨by decide +kernel, (credits_are_conserved samplePlatform sampleConfig hreach).1⟩

end Nuvonode.Contract
