/-
  Contract/Transactions.lean --- interleaved operations are operations one after another.

  The operations of the service run under READ COMMITTED with row locks, and many run at
  a time.  What they leave is what the committed ones leave when each runs alone, in the
  order of their commits; the one exception is a registration that counted no user before
  another registration committed.  Whatever they wait for, all of them can be brought to
  their ends.
-/
import Nuvonode.Contract.Settlement
import Nuvonode.Service.Serial
import Nuvonode.Service.LockOrder

set_option autoImplicit false

namespace Nuvonode.Contract

open Nuvonode.Foundation Nuvonode.Database Nuvonode.Repository Nuvonode.Service

/-- A registration that counted no user on an earlier database, and does the rest, with
the role of a first user, on one that has users by now. -/
def RacesAsFirst (P : Platform) (cfg : Config) (db : DB) (op : Operation) (db' : DB) : Prop :=
  cfg.bootstrapFirstUserAdmin = true ∧ op.registers = true ∧ countUsers db ≠ 0 ∧
    ∃ next earlier, program P cfg op = .read next ∧ Grows earlier db ∧ countUsers earlier = 0 ∧
      (next earlier).exec db = .ok ((), db')

/-- What one operation after another may do: run alone, or race as a first user. -/
def Serially (P : Platform) (cfg : Config) (db : DB) (op : Operation) (db' : DB) : Prop :=
  Server.Alone (program P cfg) db op db' ∨ RacesAsFirst P cfg db op db'

section Serially

variable {P : Platform} {cfg : Config}

/-- The role changes between two counts only where the first one found nobody. -/
theorem roleAfter_eq_or {earlier db : DB} (h : Grows earlier db) :
    roleAfter cfg (countUsers earlier) = roleAfter cfg (countUsers db) ∨
      cfg.bootstrapFirstUserAdmin = true ∧ countUsers earlier = 0 ∧ countUsers db ≠ 0 := by
  have hcount := h.count
  unfold roleAfter
  by_cases hzero : countUsers db = 0
  · have hearlier : countUsers earlier = 0 := by omega
    exact .inl (by rw [hzero, hearlier])
  · by_cases hearlier : countUsers earlier = 0
    · cases hboot : cfg.bootstrapFirstUserAdmin with
      | true => exact .inr ⟨rfl, hearlier, hzero⟩
      | false => exact .inl (by simp)
    · exact .inl (by simp [hzero, hearlier])

/-- What an operation yields with reads that earlier databases answer. -/
theorem serially_of_yields {op : Operation} {db : DB} {r : Unit} {ws : List DbWrite}
    (h : Tx.Yields (S := store) (fun old => Grows old db) db (program P cfg op) [] r ws) :
    Serially P cfg db op (store.applyAll db ws) := by
  cases hregisters : op.registers with
  | false => exact .inl ⟨r, (steady_program hregisters).exec h⟩
  | true =>
      rcases program_of_registers P cfg hregisters with ⟨e, hfail⟩ |
        ⟨userID, walletID, publicID, email, passwordHash, displayName, hread⟩
      · rw [hfail] at h
        exact False.elim h
      · rw [hread] at h
        obtain ⟨earlier, hgrows, hrest⟩ := h
        have hexec := steady_registerAs.exec hrest
        have hroles : roleAfter cfg (countUsers earlier) = roleAfter cfg (countUsers db) ∨
            cfg.bootstrapFirstUserAdmin = true ∧ countUsers earlier = 0 ∧ countUsers db ≠ 0 :=
          roleAfter_eq_or hgrows
        rcases hroles with hsame | ⟨hboot, hnobody, hsomebody⟩
        · refine .inl ⟨r, ?_⟩
          rw [hread]
          change (registerAs cfg userID walletID publicID email passwordHash displayName
            (roleAfter cfg (countUsers db))).exec db = _
          rw [← hsame]
          exact hexec
        · exact .inr ⟨hboot, hregisters, hsomebody, _, earlier, hread, hgrows, hnobody, hexec⟩

end Serially

/-- Every run of the database server is a serial run of the operations it committed, in
the order of their commits, and every serial run is a run of the server. -/
theorem server_is_serial (P : Platform) (cfg : Config) (start : DB → Prop) :
    (∀ guard es m, (serverMachine P cfg start).Reaches guard es m →
      (Server.serial (S := store) (Serially P cfg) start).Reaches Machine.anyStep
        (Server.commits es) m.committed) ∧
    ∀ ops db,
      (Server.serial (S := store) (Server.Alone (program P cfg)) start).Reaches Machine.anyStep
        ops db →
      ∃ es, (serverMachine P cfg start).Reaches Machine.anyStep es (idleServer db) ∧
        Server.commits es = ops := by
  constructor
  · intro guard es m hreach
    have htrans : ∀ db db' db'', Grows db db' → Grows db' db'' → Grows db db'' :=
      fun _ _ _ => Grows.trans
    exact Server.serial_of_reaches Grows.refl htrans
      grows_apply (fun _ _ _ _ => serially_of_yields) hreach
  · intro ops db hserial
    exact Server.reaches_of_serial hserial

/-! ## No deadlock -/

/-- From every state of the database server the transactions in progress can all be
brought to their ends by their own statements: nothing new begins, and no transaction is
rolled back but one whose program failed. -/
theorem operations_never_deadlock (P : Platform) (cfg : Config) (start : DB → Prop)
    {es : List (ServerEvent Operation)} {m : Server store Err Operation Unit}
    (h : (serverMachine P cfg start).Reaches Machine.anyStep es m) :
    ∃ es' m', (serverMachine P cfg start).Steps Server.Winds m es' m' ∧
      ∀ t, m'.active t = none :=
  Server.winds_down inOrder_program h

/-- Two settlements of one wallet and a registration, all just begun. -/
theorem three_operations_wind_down :
    ∃ m, (∃ a, m.active 0 = some a ∧ a.op = .finalize sampleSettlement) ∧
      (∃ a, m.active 1 = some a ∧ a.op = .finalize { sampleSettlement with jobID := 8 }) ∧
      (∃ a, m.active 2 = some a ∧
        a.op = .register 9 10 "usr_c" ⟨"c@example.com", "password", "Cem"⟩) ∧
      ∃ es' m', (serverMachine samplePlatform sampleConfig fun db =>
          db = DB.seeded sampleCatalog).Steps Server.Winds m es' m' ∧
        ∀ t, m'.active t = none := by
  have hbegin : ∀ {es : List (ServerEvent Operation)} {m : Server store Err Operation Unit}
      (t : Nat) (op : Operation), m.active t = none →
      (serverMachine samplePlatform sampleConfig fun db => db = DB.seeded sampleCatalog).Reaches
        Machine.anyStep es m →
      (serverMachine samplePlatform sampleConfig fun db => db = DB.seeded sampleCatalog).Reaches
        Machine.anyStep (es ++ [.begin t op])
        (m.set t (some ⟨op, program samplePlatform sampleConfig op, [], []⟩)) :=
    fun t op hfree hreach => hreach.snoc (.begin hfree) trivial
  have hstart : (serverMachine samplePlatform sampleConfig fun db =>
      db = DB.seeded sampleCatalog).Reaches Machine.anyStep []
        (idleServer (DB.seeded sampleCatalog)) := .start ⟨rfl, fun _ => rfl⟩
  have hfirst := hbegin 0 (.finalize sampleSettlement) rfl hstart
  have hsecond := hbegin 1 (.finalize { sampleSettlement with jobID := 8 }) rfl hfirst
  have hthird := hbegin 2 (.register 9 10 "usr_c" ⟨"c@example.com", "password", "Cem"⟩) rfl hsecond
  refine ⟨_, ?_, ?_, ?_, operations_never_deadlock samplePlatform sampleConfig _ hthird⟩
  · exact ⟨_, rfl, rfl⟩
  · exact ⟨_, rfl, rfl⟩
  · exact ⟨_, rfl, rfl⟩

end Nuvonode.Contract
