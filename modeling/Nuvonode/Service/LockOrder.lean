/-
  Service/LockOrder.lean --- the order in which the operations lock.

  Every operation locks the rows it needs in the order of `RowKey.rank`: a user or a
  provider with its unique keys, then a wallet, then the usage record, the job and the
  statistics of the provider.
-/
import Nuvonode.Foundation.LockOrder
import Nuvonode.Service.Operations

set_option autoImplicit false

namespace Nuvonode.Service

open Nuvonode.Foundation Nuvonode.Database Nuvonode.Repository

/-- The place of a key in the order of locking. -/
def RowKey.rank : RowKey → Nat
  | .user _ => 0
  | .userPublicID _ => 1
  | .userEmail _ => 2
  | .provider _ => 3
  | .providerPublicID _ => 4
  | .providerToken _ => 5
  | .wallet _ => 6
  | .walletOwner _ => 7
  | .usage _ => 8
  | .job _ => 9
  | .jobPublicID _ => 10
  | .stats _ => 11

/-- A statement that locks in order. -/
abbrev LocksInOrder {α : Type} (Q : α → List RowKey → Prop) (held : List RowKey) (p : Sql α) :
    Prop :=
  Tx.InOrder (S := store) RowKey.rank Q held p

/-! ## Statements -/

section Statements

variable {α : Type} {held : List RowKey} {check : Bool} {e : Err}

@[simp] theorem above_singleton {k : RowKey} :
    Tx.Above (S := store) RowKey.rank held [k] ↔
      k ∈ held ∨ ∀ k' ∈ held, RowKey.rank k' < RowKey.rank k := by
  simp [Tx.Above]

@[simp] theorem above_nil : Tx.Above (S := store) RowKey.rank held [] ↔ True := by
  simp [Tx.Above]

theorem above_of_subset {ks : List RowKey} (h : ∀ k ∈ ks, k ∈ held) :
    Tx.Above (S := store) RowKey.rank held ks :=
  fun k hk => .inl (h k hk)

@[simp] theorem inOrder_require {Q : Unit → List RowKey → Prop} :
    LocksInOrder Q held (require check e) ↔ (check = true → Q () held) := by
  cases check <;> simp [require]

@[simp] theorem inOrder_orFail {o : Option α} {Q : α → List RowKey → Prop} :
    LocksInOrder Q held (orFail e o) ↔ ∀ a, o = some a → Q a held := by
  cases o <;> simp [orFail]

@[simp] theorem inOrder_references {holds : DB → Bool} {Q : Unit → List RowKey → Prop} :
    LocksInOrder Q held (references holds) ↔ ((∃ db, holds db = true) → Q () held) := by
  simp [references]

/-- A unique check of one key. -/
theorem inOrder_unique {k : RowKey} {entry : Sql (Option α)} {Q : Unit → List RowKey → Prop}
    (hentry : ∀ R, Tx.Above (S := store) RowKey.rank held [k] → (∀ row, R row (held ++ [k])) →
      LocksInOrder (α := Option α) R held entry)
    (habove : k ∈ held ∨ ∀ k' ∈ held, RowKey.rank k' < RowKey.rank k)
    (hQ : Q () (held ++ [k])) : LocksInOrder Q held (unique entry) := by
  rw [LocksInOrder, unique, Tx.inOrder_bind]
  exact hentry _ (above_singleton.mpr habove) fun row => inOrder_require.mpr fun _ => hQ

@[simp] theorem inOrder_lockWallet {id : UUID} {Q : Option WalletRow → List RowKey → Prop} :
    LocksInOrder Q held (lockWallet id) ↔
      Tx.Above (S := store) RowKey.rank held [.wallet id] ∧
        ∀ db : DB, Q (db.wallet id) (held ++ [.wallet id]) := Iff.rfl

@[simp] theorem inOrder_lockJob {id : UUID} {Q : Option JobRow → List RowKey → Prop} :
    LocksInOrder Q held (lockJob id) ↔
      Tx.Above (S := store) RowKey.rank held [.job id] ∧
        ∀ db : DB, Q (db.job id) (held ++ [.job id]) := Iff.rfl

@[simp] theorem inOrder_lockStats {id : UUID} {Q : Option StatsRow → List RowKey → Prop} :
    LocksInOrder Q held (lockStats id) ↔
      Tx.Above (S := store) RowKey.rank held [.stats id] ∧
        ∀ db : DB, Q (db.stats id) (held ++ [.stats id]) := Iff.rfl

/-- The keys held after an entry on a wallet. -/
theorem inOrder_addLedger {walletID : UUID} {entryType : EntryType} {amount reservedDelta : Int64}
    {reason : String} {createdBy : Option UUID} {Q : Unit → List RowKey → Prop}
    (habove : RowKey.wallet walletID ∈ held ∨ ∀ k ∈ held, RowKey.rank k < 6)
    (hQ : ∀ held', (∀ k ∈ held', k ∈ held ∨ k = .wallet walletID) → Q () held') :
    LocksInOrder Q held
      (addLedger walletID entryType amount reservedDelta reason createdBy) := by
  unfold addLedger
  rw [LocksInOrder, Tx.inOrder_bind]
  refine inOrder_lockWallet.mpr ⟨above_singleton.mpr habove, fun row => ?_⟩
  rw [Tx.inOrder_bind]
  refine inOrder_orFail.mpr fun wallet _ => ?_
  rw [Tx.inOrder_ite]
  refine ⟨fun _ => trivial, fun _ => ?_⟩
  simp only [Tx.inOrder_bind, Tx.inOrder_perform]
  refine ⟨above_of_subset (by simp [DbWrite.touches]), ?_⟩
  refine inOrder_require.mpr fun _ => inOrder_references.mpr fun _ => ?_
  refine ⟨above_of_subset (by simp [DbWrite.touches]), hQ _ ?_⟩
  intro k hk
  simpa [DbWrite.touches, or_assoc] using hk

theorem inOrder_onlyIf {c : Prop} [Decidable c] {p : Sql Unit} {Q : Unit → List RowKey → Prop}
    (hp : LocksInOrder Q held p) (hQ : Q () held) : LocksInOrder Q held (onlyIf c p) := by
  unfold onlyIf
  split
  · exact hp
  · exact hQ

/-- The row that a settlement leaves is the provider's. -/
theorem providerID_settled {latencyMS : ℤ} {providerID : UUID} {db : DB} {stats : StatsRow}
    (h : StatsRow.settled latencyMS providerID (db.stats providerID) = some stats) :
    stats.providerID = providerID := by
  cases hold : db.stats providerID with
  | none =>
      rw [hold] at h
      simp only [StatsRow.settled, Option.bind_eq_bind, Option.bind_eq_some_iff] at h
      obtain ⟨_, -, _, -, h⟩ := h
      cases h
      rfl
  | some old =>
      rw [hold] at h
      simp only [StatsRow.settled, Option.bind_eq_bind, Option.bind_eq_some_iff] at h
      obtain ⟨_, -, h⟩ := h
      cases h
      exact (Table.mem_of_select hold).2

theorem providerID_failed {status : JobStatus} {providerID : UUID} {db : DB} :
    (StatsRow.failed status providerID (db.stats providerID)).providerID = providerID := by
  cases hold : db.stats providerID with
  | none => rfl
  | some old => exact (Table.mem_of_select hold).2

/-- The statistics come last. -/
theorem inOrder_upsertStats {providerID : UUID} {latencyMS : ℤ}
    (hheld : ∀ k ∈ held, RowKey.rank k < 11) :
    LocksInOrder (fun _ _ => True) held (upsertSettledStats providerID latencyMS) := by
  simp only [upsertSettledStats, LocksInOrder, Tx.inOrder_bind]
  refine inOrder_lockStats.mpr ⟨above_singleton.mpr (.inr hheld), fun db => ?_⟩
  refine inOrder_references.mpr fun _ => inOrder_orFail.mpr fun stats hstats => ?_
  refine ⟨above_of_subset ?_, trivial⟩
  simp [DbWrite.touches, providerID_settled hstats]

/-- A new user locks nothing above its three keys. -/
theorem inOrder_createUser {id : UUID} {publicID email passwordHash displayName : String}
    {role : Role} {Q : UserRow → List RowKey → Prop}
    (hQ : ∀ row held', (∀ k ∈ held', RowKey.rank k < 3) → Q row held') :
    LocksInOrder Q [] (createUser id publicID email passwordHash displayName role) := by
  unfold createUser
  rw [LocksInOrder, Tx.inOrder_bind]
  refine inOrder_require.mpr fun _ => ?_
  rw [Tx.inOrder_bind]
  refine inOrder_unique (k := .user id) (fun _ habove h => ⟨habove, fun _ => h _⟩) (by simp) ?_
  rw [Tx.inOrder_bind]
  refine inOrder_unique (k := .userPublicID publicID) (fun _ habove h => ⟨habove, fun _ => h _⟩)
    (by simp [RowKey.rank]) ?_
  rw [Tx.inOrder_bind]
  refine inOrder_unique (k := .userEmail email) (fun _ habove h => ⟨habove, fun _ => h _⟩)
    (by simp [RowKey.rank]) ?_
  simp only [Tx.inOrder_bind, Tx.inOrder_perform]
  refine ⟨above_of_subset (by simp [DbWrite.touches]), hQ _ _ ?_⟩
  simp [DbWrite.touches, RowKey.rank]

/-- A new provider locks nothing above its three keys, and holds its row. -/
theorem inOrder_createProvider {id ownerUserID : UUID} {publicID name tokenHash : String}
    {approval : ApprovalStatus} {Q : ProviderRow → List RowKey → Prop}
    (hQ : ∀ row held', row.id = id → RowKey.provider id ∈ held' →
      (∀ k ∈ held', RowKey.rank k < 6) → Q row held') :
    LocksInOrder Q [] (createProvider id publicID ownerUserID name tokenHash approval) := by
  unfold createProvider
  rw [LocksInOrder, Tx.inOrder_bind]
  refine inOrder_require.mpr fun _ => ?_
  rw [Tx.inOrder_bind]
  refine inOrder_unique (k := .provider id) (fun _ habove h => ⟨habove, fun _ => h _⟩) (by simp) ?_
  rw [Tx.inOrder_bind]
  refine inOrder_unique (k := .providerPublicID publicID) (fun _ habove h => ⟨habove, fun _ => h _⟩)
    (by simp [RowKey.rank]) ?_
  rw [Tx.inOrder_bind]
  refine inOrder_unique (k := .providerToken tokenHash) (fun _ habove h => ⟨habove, fun _ => h _⟩)
    (by simp [RowKey.rank]) ?_
  rw [Tx.inOrder_bind]
  refine inOrder_references.mpr fun _ => ?_
  simp only [Tx.inOrder_bind, Tx.inOrder_perform]
  refine ⟨above_of_subset (by simp [DbWrite.touches]), hQ _ _ rfl ?_ ?_⟩
  · simp [DbWrite.touches]
  · simp [DbWrite.touches, RowKey.rank]

/-- A new wallet is locked after everything that ranks below it. -/
theorem inOrder_createWallet {id ownerID : UUID} {ownerType : OwnerType}
    {Q : WalletRow → List RowKey → Prop} (hheld : ∀ k ∈ held, RowKey.rank k < 6)
    (hQ : ∀ row held', row.id = id → RowKey.wallet id ∈ held' → (∀ k ∈ held, k ∈ held') →
      Q row held') : LocksInOrder Q held (createWallet id ownerType ownerID) := by
  unfold createWallet
  rw [LocksInOrder, Tx.inOrder_bind]
  refine inOrder_unique (k := .wallet id) (fun _ habove h => ⟨habove, fun _ => h _⟩) (.inr hheld) ?_
  rw [Tx.inOrder_bind]
  refine inOrder_unique (k := .walletOwner (ownerType, ownerID))
    (fun _ habove h => ⟨habove, fun _ => h _⟩) ?_ ?_
  · refine .inr fun k hk => ?_
    rcases List.mem_append.mp hk with hold | hnew
    · exact (hheld k hold).trans (Nat.lt_succ_self 6)
    · rw [List.mem_singleton.mp hnew]
      exact Nat.lt_succ_self 6
  · simp only [Tx.inOrder_bind, Tx.inOrder_perform]
    refine ⟨above_of_subset (by simp [DbWrite.touches, DB.walletOwner]), hQ _ _ rfl ?_ ?_⟩
    · simp
    · exact fun k hk => by simp [hk]

end Statements

/-! ## Operations -/

section Operations

variable {P : Platform} {cfg : Config}

theorem inOrder_ignore {α : Type} {p : Sql α} {held : List RowKey}
    (h : LocksInOrder (fun _ _ => True) held p) :
    LocksInOrder (fun _ _ => True) held (ignore p) := by
  rw [LocksInOrder, ignore, Tx.inOrder_bind]
  exact h.mono fun _ _ _ => trivial

theorem inOrder_register {userID walletID : UUID} {publicID : String} {input : RegisterInput} :
    LocksInOrder (fun _ _ => True) [] (register P cfg userID walletID publicID input) := by
  simp only [register, LocksInOrder, Tx.inOrder_ite, Tx.inOrder_bind]
  refine ⟨fun _ => trivial, fun _ => inOrder_orFail.mpr fun passwordHash _ => ?_⟩
  refine Tx.inOrder_query.mpr fun db => inOrder_createUser fun user held huser => ?_
  refine inOrder_createWallet (fun k hk => (huser k hk).trans (by decide)) ?_
  rintro wallet held' rfl hwallet -
  exact inOrder_addLedger (.inl hwallet) fun _ _ => trivial

theorem inOrder_createProviderAccount {providerID walletID ownerUserID : UUID}
    {publicID token name : String} : LocksInOrder (fun _ _ => True) []
      (createProviderAccount P cfg providerID walletID publicID token ownerUserID name) := by
  simp only [createProviderAccount, LocksInOrder, Tx.inOrder_ite, Tx.inOrder_bind]
  refine ⟨fun _ => trivial, fun _ => inOrder_createProvider ?_⟩
  rintro provider held rfl hprovider hheld
  refine inOrder_createWallet hheld fun wallet held' _ _ hsub => ?_
  refine Tx.inOrder_perform.mpr ⟨above_of_subset fun k hk => ?_, trivial⟩
  rw [List.mem_singleton.mp hk]
  exact hsub _ hprovider

theorem inOrder_adminAdjust {actorUserID : UUID} {target reason : String} {amount : Int64} :
    LocksInOrder (fun _ _ => True) [] (adminAdjust actorUserID target amount reason) := by
  simp only [adminAdjust, LocksInOrder, Tx.inOrder_ite, Tx.inOrder_bind]
  refine ⟨fun _ => trivial, fun _ => inOrder_require.mpr fun _ => ?_⟩
  refine Tx.inOrder_query.mpr fun db => inOrder_orFail.mpr fun walletID _ => ?_
  refine inOrder_lockWallet.mpr ⟨above_singleton.mpr (by simp), fun row => ?_⟩
  refine inOrder_addLedger (.inl (by simp)) fun held' _ => inOrder_references.mpr fun _ => ?_
  exact ⟨above_nil.mpr trivial, fun db => inOrder_orFail.mpr fun _ _ => trivial⟩

theorem inOrder_reserveForUser {userID : UUID} {amount : Int64} {reason : String} :
    LocksInOrder (fun _ _ => True) [] (reserveForUser userID amount reason) := by
  simp only [reserveForUser, LocksInOrder, Tx.inOrder_ite, Tx.inOrder_bind]
  refine ⟨fun _ => trivial, fun _ => Tx.inOrder_query.mpr fun db => ?_⟩
  exact inOrder_orFail.mpr fun walletID _ =>
    inOrder_addLedger (.inr (by simp)) fun _ _ => trivial

theorem inOrder_release {walletID : UUID} {amount : Int64} {reason : String} :
    LocksInOrder (fun _ _ => True) [] (release walletID amount reason) := by
  simp only [release, LocksInOrder, Tx.inOrder_ite]
  exact ⟨fun _ => trivial, fun _ => inOrder_addLedger (.inr (by simp)) fun _ _ => trivial⟩

/-- The entries of a settlement hold the one wallet it names. -/
theorem inOrder_settlementEntry {c : Prop} [Decidable c] {walletID : UUID} {entryType : EntryType}
    {amount reservedDelta : Int64} {reason : String} {held : List RowKey}
    {Q : Unit → List RowKey → Prop} (hheld : ∀ k ∈ held, k = RowKey.wallet walletID)
    (hQ : ∀ held', (∀ k ∈ held', k = RowKey.wallet walletID) → Q () held') :
    LocksInOrder Q held
      (onlyIf c (addLedger walletID entryType amount reservedDelta reason none)) := by
  refine inOrder_onlyIf (inOrder_addLedger ?_ fun held' hheld' => hQ held' ?_) (hQ held hheld)
  · cases held with
    | nil => exact .inr (by simp)
    | cons k rest =>
        rw [← hheld k List.mem_cons_self]
        exact .inl List.mem_cons_self
  · exact fun k hk => (hheld' k hk).elim (hheld k) id

theorem inOrder_finalizeUsage {input : UsageSettlement} :
    LocksInOrder (fun _ _ => True) [] (finalizeUsage input) := by
  simp only [finalizeUsage, LocksInOrder, Tx.inOrder_ite, Tx.inOrder_bind]
  refine ⟨fun _ => trivial, fun _ => inOrder_settlementEntry (by simp) fun held₁ h₁ => ?_⟩
  refine inOrder_settlementEntry h₁ fun held₂ h₂ => inOrder_settlementEntry h₂ fun held h => ?_
  have hrank : ∀ k ∈ held, RowKey.rank k < 8 := fun k hk => by simp [h k hk, RowKey.rank]
  simp only [insertUsage, Tx.inOrder_bind]
  refine inOrder_require.mpr fun _ => inOrder_orFail.mpr fun source _ => ?_
  refine inOrder_unique (k := .usage input.jobID) (fun _ habove h => ⟨habove, fun _ => h _⟩)
    (.inr hrank) ?_
  refine inOrder_references.mpr fun _ => ⟨above_of_subset ?_, above_singleton.mpr (.inr ?_), ?_⟩
  · simp [DbWrite.touches, UsageSettlement.record]
  · -- The job ranks above the usage record.
    simp only [List.forall_mem_append, DbWrite.touches, List.forall_mem_singleton]
    exact ⟨⟨fun k hk => (hrank k hk).trans (Nat.lt_succ_self 8), Nat.lt_succ_self 8⟩,
      Nat.lt_succ_self 8⟩
  · refine inOrder_upsertStats ?_
    simp only [List.forall_mem_append, DbWrite.touches, List.forall_mem_singleton]
    refine ⟨⟨⟨fun k hk => (hrank k hk).trans ?_, ?_⟩, ?_⟩, ?_⟩ <;> simp [RowKey.rank]

theorem inOrder_createInferenceJob {id : UUID} {job : JobSpec} :
    LocksInOrder (fun _ _ => True) [] (createInferenceJob id job) := by
  simp only [createInferenceJob, LocksInOrder, Tx.inOrder_bind]
  refine inOrder_require.mpr fun _ => inOrder_require.mpr fun _ => ?_
  refine inOrder_unique (k := .job id) (fun _ habove h => ⟨habove, fun _ => h _⟩) (by simp) ?_
  refine inOrder_unique (k := .jobPublicID job.publicID)
    (fun _ habove h => ⟨habove, fun _ => h _⟩) (by simp [RowKey.rank]) ?_
  refine inOrder_references.mpr fun _ => inOrder_references.mpr fun _ => ?_
  exact ⟨above_of_subset (by simp [DbWrite.touches, JobSpec.row]), trivial⟩

theorem inOrder_markJobFailed {jobID : UUID} {status : JobStatus} {code message : String} :
    LocksInOrder (fun _ _ => True) [] (markJobFailed jobID status code message) := by
  simp only [markJobFailed, LocksInOrder, Tx.inOrder_bind]
  refine inOrder_require.mpr fun _ =>
    inOrder_lockJob.mpr ⟨above_singleton.mpr (by simp), fun db => ?_⟩
  split
  · exact ⟨above_of_subset (by simp [DbWrite.touches]), trivial⟩
  · rw [Tx.inOrder_bind]
    refine ⟨above_of_subset (by simp [DbWrite.touches]), ?_⟩
    simp only [upsertFailedStats, Tx.inOrder_bind]
    refine inOrder_lockStats.mpr ⟨above_singleton.mpr (.inr ?_), fun db => ?_⟩
    · simp [DbWrite.touches, RowKey.rank]
    · refine inOrder_references.mpr fun _ => ⟨above_of_subset ?_, trivial⟩
      simp [DbWrite.touches, providerID_failed]

/-- Every operation locks in order. -/
theorem inOrder_program (op : Operation) :
    LocksInOrder (fun _ _ => True) [] (program P cfg op) := by
  cases op with
  | register => exact inOrder_ignore inOrder_register
  | createProvider => exact inOrder_ignore inOrder_createProviderAccount
  | reserve => exact inOrder_ignore inOrder_reserveForUser
  | release => exact inOrder_release
  | finalize => exact inOrder_finalizeUsage
  | adminAdjust => exact inOrder_ignore inOrder_adminAdjust
  | createJob => exact inOrder_ignore inOrder_createInferenceJob
  | markDispatched => exact ⟨above_singleton.mpr (by simp), trivial⟩
  | markFailed => exact inOrder_markJobFailed

end Operations

end Nuvonode.Service
