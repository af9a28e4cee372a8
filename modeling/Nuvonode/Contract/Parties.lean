/-
  Contract/Parties.lean --- jobs and usage records name rows that belong together.

  The lookups of a request are separate statements, and anything may commit between them.
  What they find still belongs together when the job is inserted, and ever after: rows are
  not deleted, and the columns that link them are not written again.
-/
import Nuvonode.Contract.Spending
import Nuvonode.Handler.Parties

set_option autoImplicit false

namespace Nuvonode.Contract

open Nuvonode.Foundation Nuvonode.Database Nuvonode.Repository Nuvonode.Service Nuvonode.Handler
  Nuvonode.Ws

/-- In every run of the server every job was asked for with a key of its project, by the
owner of the project, and is for a version of its model on an instance of its provider.
Every usage record names what its job names, the job has succeeded, and it was charged and
rewarded what the record says. -/
theorem jobs_name_rows_that_belong_together (P : Platform) (cfg : Config) {es : List MarketEvent}
    {m : Market} (hreach : (marketMachine P cfg).Reaches Machine.anyStep es m) :
    (∀ id row, m.db.job id = some row → JobLinked m.db row) ∧
      ∀ usage ∈ m.db.usageRecords, ∃ row, UsageMatches m.db usage row ∧ JobLinked m.db row := by
  have hcoherent := coherent_of_reaches hreach
  refine ⟨hcoherent.jobs, fun usage husage => ?_⟩
  obtain ⟨row, hmatches⟩ := hcoherent.usage usage husage
  exact ⟨row, hmatches, hcoherent.jobs _ _ hmatches.job⟩

/-- The job of the sample request, which was answered and settled. -/
theorem sample_job_names_its_rows :
    ∃ usage ∈ (marketAfter (openingEvents ++ limitedEvents)).db.usageRecords, ∃ row : JobRow,
      UsageMatches (marketAfter (openingEvents ++ limitedEvents)).db usage row ∧
        JobLinked (marketAfter (openingEvents ++ limitedEvents)).db row := by
  obtain ⟨hrun, -, -, husage, -⟩ := limited_run
  obtain ⟨usage, hmem, -⟩ := List.mem_map.mp (husage ▸ List.mem_singleton_self (4 : Int64))
  exact ⟨usage, hmem, (jobs_name_rows_that_belong_together samplePlatform sampleConfig
    (reaches_marketAfter hrun)).2 usage hmem⟩

end Nuvonode.Contract
