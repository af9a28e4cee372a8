/-
  Contract/Credits.lean --- the credits of the server are an escrow, and the ledger its journal.

  The abstract component moves amounts between accounts and holds, and nothing else.  The
  server, with all its requests and sessions interleaved, does one operation of it in a step
  or none.
-/
import Nuvonode.Contract.Spending
import Nuvonode.Handler.Credits

set_option autoImplicit false

namespace Nuvonode.Contract

open Nuvonode.Foundation Nuvonode.Database Nuvonode.Repository Nuvonode.Service Nuvonode.Handler
  Nuvonode.Ws

/-- In every run of the server the credits are an escrow: no account is overdrawn, a job is
a hold that is taken once and ended once, by giving it back or by a charge of at most what it
is; the ledger is the lines of whole operations, one after the other; the wallets are the
accounts; and the operations about a job are what its request committed.  A step of the server
is at most one operation. -/
theorem server_is_an_escrow (P : Platform) (cfg : Config) {es : List MarketEvent} {m : Market}
    (hreach : (marketMachine P cfg).Reaches Machine.anyStep es m) :
    (∃ ops b, ops.length ≤ es.length ∧ Keeps m ops b) ∧
      ∀ ops b, Keeps m ops b → ∀ e m', m.next P cfg e = some m' →
        ∃ done b', done.length ≤ 1 ∧ Keeps m' (ops ++ done) b' := by
  obtain ⟨hinv, hkept⟩ := keeps_of_reaches hreach
  exact ⟨hkept, fun ops b hkeeps e m' hnext => hkeeps.step hinv (Market.step_of_next hnext)⟩

/-- Two grants, a reservation and the charge against it, which the ledger holds in six lines. -/
theorem sample_credits_are_an_escrow :
    ∃ ops b, Keeps (marketAfter (openingEvents ++ limitedEvents)) ops b ∧
      ops.flatMap EscrowOp.lines =
        [⟨2, .funded .grant, 10000, 0⟩, ⟨4, .funded .grant, 10000, 0⟩,
          ⟨2, .reserved, -52, 52⟩, ⟨2, .released, 52, -52⟩, ⟨2, .charged, -4, 0⟩,
          ⟨2, .rewarded, 2, 0⟩] := by
  obtain ⟨hrun, -⟩ := limited_run
  have hlines : ledgerLines (marketAfter (openingEvents ++ limitedEvents)).db =
      [⟨2, .funded .grant, 10000, 0⟩, ⟨4, .funded .grant, 10000, 0⟩,
        ⟨2, .reserved, -52, 52⟩, ⟨2, .released, 52, -52⟩, ⟨2, .charged, -4, 0⟩,
        ⟨2, .rewarded, 2, 0⟩] := by
    decide +kernel
  obtain ⟨⟨ops, b, -, hkeeps⟩, -⟩ :=
    server_is_an_escrow samplePlatform sampleConfig (reaches_marketAfter hrun)
  exact ⟨ops, b, hkeeps, hkeeps.ledger.symm.trans hlines⟩

end Nuvonode.Contract
