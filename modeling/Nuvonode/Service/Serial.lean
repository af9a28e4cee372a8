/-
  Service/Serial.lean --- what the unlocked reads of an operation rely on.

  The transactions run under READ COMMITTED, so an unlocked read may be answered by a
  committed state that is out of date when the transaction commits.  Every unlocked read
  but one asks for something that no statement takes away: a row that a foreign key
  refers to, the wallet of an owner, a user by its public id.  The exception is the count
  of users in `AuthService.Register`.
-/
import Nuvonode.Foundation.Serial
import Nuvonode.Service.Background
import Nuvonode.Service.Bootstrap

set_option autoImplicit false

namespace Nuvonode.Service

open Nuvonode.Foundation Nuvonode.Database Nuvonode.Repository

/-! ## What is never taken away -/

/-- Every row that a foreign key may refer to in `old` is in `new`. -/
structure Present (old new : DB) : Prop where
  catalog : new.catalog = old.catalog
  users : ∀ id, (old.user id).isSome → (new.user id).isSome
  providers : ∀ id, (old.provider id).isSome → (new.provider id).isSome
  jobs : ∀ id, (old.job id).isSome → (new.job id).isSome
  wallets : ∀ id, (old.wallet id).isSome → (new.wallet id).isSome

/-- What a lookup found in `old` is what it finds in `new`. -/
structure Grows (old new : DB) : Prop extends Present old new where
  walletOf : ∀ owner id, old.walletOf owner = some id → new.walletOf owner = some id
  publicID : ∀ publicID row, Table.select UserRow.publicID old.users publicID = some row →
    Table.select UserRow.publicID new.users publicID = some row
  count : countUsers old ≤ countUsers new

section Tables

variable {ρ κ : Type} [DecidableEq κ] {key : ρ → κ} {rows rows' : List ρ} {row : ρ} {k : κ}

theorem isSome_select_insert (h : (Table.select key rows k).isSome) :
    (Table.select key (Table.insert rows row) k).isSome := by
  obtain ⟨old, hold⟩ := Option.isSome_iff_exists.mp h
  exact Option.isSome_of_eq_some (Table.select_insert_of_some hold)

theorem isSome_select_update {change : ρ → ρ} {k' : κ}
    (hkeeps : ∀ row, key (change row) = key row) :
    (Table.select key (Table.update key rows k' change) k).isSome =
      (Table.select key rows k).isSome := by
  rw [Table.select_update hkeeps, Option.isSome_map]

theorem isSome_select_updated {change : ρ → ρ} {k' : κ}
    (hkeeps : ∀ row, key (change row) = key row) (h : (Table.select key rows k).isSome) :
    (Table.select key (Table.update key rows k' change) k).isSome := by
  rwa [isSome_select_update hkeeps]

/-- The same row inserted into two tables. -/
theorem isSome_insert_mono
    (h : ∀ k, (Table.select key rows k).isSome → (Table.select key rows' k).isSome)
    (hsome : (Table.select key (Table.insert rows row) k).isSome) :
    (Table.select key (Table.insert rows' row) k).isSome := by
  rw [Table.select_insert, Option.isSome_or, Bool.or_eq_true] at hsome ⊢
  exact hsome.imp_left (h k)

/-- The same update of two tables. -/
theorem isSome_update_mono {change : ρ → ρ} {k' : κ}
    (hkeeps : ∀ row, key (change row) = key row)
    (h : ∀ k, (Table.select key rows k).isSome → (Table.select key rows' k).isSome)
    (hsome : (Table.select key (Table.update key rows k' change) k).isSome) :
    (Table.select key (Table.update key rows' k' change) k).isSome := by
  rw [isSome_select_update hkeeps] at hsome ⊢
  exact h k hsome

end Tables

theorem Present.refl (db : DB) : Present db db :=
  ⟨rfl, fun _ h => h, fun _ h => h, fun _ h => h, fun _ h => h⟩

theorem Present.trans {db db' db'' : DB} (h : Present db db') (h' : Present db' db'') :
    Present db db'' where
  catalog := h'.catalog.trans h.catalog
  users := fun id hid => h'.users id (h.users id hid)
  providers := fun id hid => h'.providers id (h.providers id hid)
  jobs := fun id hid => h'.jobs id (h.jobs id hid)
  wallets := fun id hid => h'.wallets id (h.wallets id hid)

/-- No write takes a row away. -/
theorem present_apply (db : DB) (w : DbWrite) : Present db (db.apply w) := by
  cases w with
  | insertUser row => exact { Present.refl db with users := fun _ => isSome_select_insert }
  | insertWallet row => exact { Present.refl db with wallets := fun _ => isSome_select_insert }
  | setWallet =>
      exact { Present.refl db with
        wallets := fun _ => isSome_select_updated fun _ => rfl }
  | insertProvider row =>
      exact { Present.refl db with providers := fun _ => isSome_select_insert }
  | setProviderWallet =>
      exact { Present.refl db with
        providers := fun _ => isSome_select_updated fun _ => rfl }
  | insertJob row => exact { Present.refl db with jobs := fun _ => isSome_select_insert }
  | dispatchJob =>
      exact { Present.refl db with
        jobs := fun _ => isSome_select_updated fun _ => rfl }
  | failJob =>
      exact { Present.refl db with
        jobs := fun _ => isSome_select_updated fun _ => rfl }
  | settleJob =>
      exact { Present.refl db with
        jobs := fun _ => isSome_select_updated fun _ => rfl }
  | _ => exact { Present.refl db with }

/-- The same write on two databases. -/
theorem Present.apply {old new : DB} (h : Present old new) (w : DbWrite) :
    Present (old.apply w) (new.apply w) := by
  cases w with
  | insertUser row => exact { h with users := fun _ => isSome_insert_mono h.users }
  | insertWallet row => exact { h with wallets := fun _ => isSome_insert_mono h.wallets }
  | setWallet =>
      exact { h with wallets := fun _ => isSome_update_mono (fun _ => rfl) h.wallets }
  | insertProvider row => exact { h with providers := fun _ => isSome_insert_mono h.providers }
  | setProviderWallet =>
      exact { h with providers := fun _ => isSome_update_mono (fun _ => rfl) h.providers }
  | insertJob row => exact { h with jobs := fun _ => isSome_insert_mono h.jobs }
  | dispatchJob => exact { h with jobs := fun _ => isSome_update_mono (fun _ => rfl) h.jobs }
  | failJob => exact { h with jobs := fun _ => isSome_update_mono (fun _ => rfl) h.jobs }
  | settleJob => exact { h with jobs := fun _ => isSome_update_mono (fun _ => rfl) h.jobs }
  | _ => exact { h with }

theorem Present.applyAll {old new : DB} (h : Present old new) (ws : List DbWrite) :
    Present (store.applyAll old ws) (store.applyAll new ws) := by
  induction ws generalizing old new with
  | nil => exact h
  | cons w ws ih => exact ih (h.apply w)

theorem Grows.refl (db : DB) : Grows db db where
  toPresent := .refl db
  walletOf := fun _ _ h => h
  publicID := fun _ _ h => h
  count := le_refl _

theorem Grows.trans {db db' db'' : DB} (h : Grows db db') (h' : Grows db' db'') :
    Grows db db'' where
  toPresent := h.toPresent.trans h'.toPresent
  walletOf := fun owner id hid => h'.walletOf owner id (h.walletOf owner id hid)
  publicID := fun publicID row hrow => h'.publicID publicID row (h.publicID publicID row hrow)
  count := h.count.trans h'.count

/-- Every write only adds to what lookups find. -/
theorem grows_apply (db : DB) (w : DbWrite) : Grows db (db.apply w) where
  toPresent := present_apply db w
  walletOf := (persists_apply db w).walletOf
  publicID := by
    intro publicID row hrow
    rw [users_apply]
    cases hw : usersOf [w] with
    | nil => rwa [List.append_nil]
    | cons new rest =>
        unfold Table.select at hrow ⊢
        rw [List.find?_append, hrow]
        rfl
  count := by
    rw [countUsers, countUsers, users_apply, List.filter_append, List.length_append]
    exact Nat.le_add_right _ _

/-! ## Parts of operations -/

section Parts

variable {α β : Type} {ws : List DbWrite}

/-- A check that holds in every later state once it holds. -/
theorem steady_references {holds : DB → Bool}
    (h : ∀ old new, Present old new → holds old = true → holds new = true) :
    Tx.Steady (S := store) Grows (references holds) ws := by
  intro s r ws' hyields
  rw [yields_references] at hyields ⊢
  obtain ⟨⟨old, hold, hholds⟩, rfl⟩ := hyields
  exact ⟨⟨s, rfl, h _ _ (hold.toPresent.applyAll _) hholds⟩, rfl⟩

theorem steady_require {check : Bool} {e : Err} :
    Tx.Steady (S := store) Grows (require check e) ws :=
  Tx.steady_ite Tx.steady_pure Tx.steady_fail

theorem steadyWrites_require {check : Bool} {e : Err} {f : Unit → Sql β}
    (h : Tx.SteadyWrites (S := store) Grows (f ()) ws) :
    Tx.SteadyWrites (S := store) Grows (require check e >>= f) ws := by
  cases check with
  | true => exact h
  | false => exact Tx.Steady.writes (Tx.steady_fail (e := e))

theorem steady_orFail {e : Err} {o : Option α} :
    Tx.Steady (S := store) Grows (orFail e o) ws := by
  cases o with
  | none => exact Tx.steady_fail
  | some a => exact Tx.steady_pure

theorem steady_unique {entry : Sql (Option α)} (h : Tx.Steady (S := store) Grows entry ws) :
    Tx.Steady (S := store) Grows (unique entry) ws :=
  Tx.steady_bind h fun _ _ => steady_require

/-- A lookup that comes first and must find something. -/
theorem steadyWrites_lookup {q : DB → Option α} {e : Err} {f : α → Sql β}
    (hq : ∀ old new a, Grows old new → q old = some a → q new = some a)
    (hf : ∀ a, Tx.SteadyWrites (S := store) Grows (f a) []) :
    Tx.SteadyWrites (S := store) Grows
      (Tx.query (S := store) q >>= fun found => orFail e found >>= f) [] := by
  intro s r ws' hyields
  simp only [Tx.yields_bind, Tx.yields_query, yields_orFail] at hyields ⊢
  obtain ⟨_, _, ⟨old, hold, rfl, rfl⟩, a, _, ⟨hfound, rfl⟩, hrest⟩ := hyields
  obtain ⟨r', hrest'⟩ := hf a s r ws' hrest
  exact ⟨r', _, [], ⟨s, rfl, rfl, rfl⟩, a, [], ⟨hq old s a hold hfound, rfl⟩, hrest'⟩

theorem steady_addLedger {walletID : UUID} {entryType : EntryType}
    {amount reservedDelta : Int64} {reason : String} {createdBy : Option UUID} :
    Tx.Steady (S := store) Grows
      (addLedger walletID entryType amount reservedDelta reason createdBy) ws := by
  refine Tx.steady_bind Tx.steady_lockRow fun _ _ => Tx.steady_bind steady_orFail fun _ _ => ?_
  refine Tx.steady_ite Tx.steady_fail ?_
  refine Tx.steady_bind Tx.steady_perform fun _ _ => Tx.steady_bind steady_require fun _ _ => ?_
  refine Tx.steady_bind (steady_references ?_) fun _ _ => Tx.steady_perform
  intro old new hpresent hold
  cases createdBy with
  | none => rfl
  | some id => exact hpresent.users id hold

theorem steady_onlyIf {c : Prop} [Decidable c] {p : Sql Unit}
    (h : Tx.Steady (S := store) Grows p ws) : Tx.Steady (S := store) Grows (onlyIf c p) ws :=
  Tx.steady_ite h Tx.steady_pure

theorem steady_createUser {id : UUID} {publicID email passwordHash displayName : String}
    {role : Role} : Tx.Steady (S := store) Grows
      (createUser id publicID email passwordHash displayName role) ws :=
  Tx.steady_bind steady_require fun _ _ =>
    Tx.steady_bind (steady_unique Tx.steady_lockRow) fun _ _ =>
      Tx.steady_bind (steady_unique Tx.steady_lockRow) fun _ _ =>
        Tx.steady_bind (steady_unique Tx.steady_lockRow) fun _ _ =>
          Tx.steady_bind Tx.steady_perform fun _ _ => Tx.steady_pure

theorem steady_createWallet {id ownerID : UUID} {ownerType : OwnerType} :
    Tx.Steady (S := store) Grows (createWallet id ownerType ownerID) ws :=
  Tx.steady_bind (steady_unique Tx.steady_lockRow) fun _ _ =>
    Tx.steady_bind (steady_unique Tx.steady_lockRow) fun _ _ =>
      Tx.steady_bind Tx.steady_perform fun _ _ => Tx.steady_pure

/-- The rows that a job refers to stay. -/
theorem partiesExist_of_present {old new : DB} (h : Present old new)
    {projectID userID modelID providerID providerInstanceID : UUID}
    (hold : partiesExist projectID userID modelID providerID providerInstanceID old = true) :
    partiesExist projectID userID modelID providerID providerInstanceID new = true := by
  simp only [partiesExist, Bool.and_eq_true, h.catalog] at hold ⊢
  obtain ⟨⟨⟨⟨hproject, huser⟩, hmodel⟩, hprovider⟩, hinstance⟩ := hold
  exact ⟨⟨⟨⟨hproject, h.users _ huser⟩, hmodel⟩, h.providers _ hprovider⟩, hinstance⟩

theorem steady_insertUsage {input : UsageSettlement} :
    Tx.Steady (S := store) Grows (insertUsage input) ws := by
  refine Tx.steady_bind steady_require fun _ _ => Tx.steady_bind steady_orFail fun _ _ => ?_
  refine Tx.steady_bind (steady_unique Tx.steady_lockRow) fun _ _ => ?_
  refine Tx.steady_bind (steady_references ?_) fun _ _ => Tx.steady_perform
  intro old new hpresent hold
  simp only [UsageSettlement.partiesExist, Bool.and_eq_true] at hold ⊢
  exact ⟨hpresent.jobs _ hold.1, partiesExist_of_present hpresent hold.2⟩

/-- The foreign key of a statistics row, which only a new row checks. -/
theorem statsReference_of_present {old new : DB} (h : Present old new) {row : Option StatsRow}
    {providerID : UUID} (hold : (row.isSome || (old.provider providerID).isSome) = true) :
    (row.isSome || (new.provider providerID).isSome) = true := by
  rw [Bool.or_eq_true] at hold ⊢
  exact hold.imp_right (h.providers providerID)

end Parts

/-! ## Operations -/

section Operations

variable {P : Platform} {cfg : Config}

/-- Running a statement for what it writes. -/
theorem steady_ignore {α : Type} {p : Sql α} {ws : List DbWrite}
    (h : Tx.SteadyWrites (S := store) Grows p ws) : Tx.Steady (S := store) Grows (ignore p) ws :=
  h.discard ()

/-- What a registration does after its count. -/
theorem steady_registerAs {userID walletID : UUID}
    {publicID email passwordHash displayName : String} {role : Role} :
    Tx.Steady (S := store) Grows
      (registerAs cfg userID walletID publicID email passwordHash displayName role) [] :=
  steady_ignore (Tx.Steady.writes (Tx.steady_bind steady_createUser fun _ _ =>
    Tx.steady_bind steady_createWallet fun _ _ =>
      Tx.steady_bind steady_addLedger fun _ _ => Tx.steady_pure))

/-- After its last lookup `AdminAdjust` writes the same, whatever that lookup returned. -/
theorem steadyWrites_readBack {walletID : UUID} {ws : List DbWrite} :
    Tx.SteadyWrites (S := store) Grows
      (Tx.query (S := store) (fun db => db.wallet walletID) >>= orFail Err.noRows) ws := by
  intro s r ws' hyields
  simp only [Tx.yields_bind, Tx.yields_query, yields_orFail] at hyields ⊢
  obtain ⟨_, _, ⟨old, hold, rfl, rfl⟩, hfound, rfl⟩ := hyields
  have hsome : ((store.applyAll s ws').wallet walletID).isSome :=
    (hold.toPresent.applyAll ws').wallets walletID (Option.isSome_of_eq_some hfound)
  obtain ⟨row, hrow⟩ := Option.isSome_iff_exists.mp hsome
  exact ⟨row, _, ws', ⟨s, rfl, rfl, rfl⟩, hrow, rfl⟩

theorem steadyWrites_adminAdjust {actorUserID : UUID} {target reason : String} {amount : Int64} :
    Tx.SteadyWrites (S := store) Grows (adminAdjust actorUserID target amount reason) [] := by
  unfold adminAdjust
  split
  · exact Tx.Steady.writes Tx.steady_fail
  · refine steadyWrites_require (steadyWrites_lookup ?_ ?_)
    · -- The target by its public id, then its wallet.
      intro old new walletID hgrows hfound
      obtain ⟨row, hrow, hwallet⟩ := Option.bind_eq_some_iff.mp hfound
      exact Option.bind_eq_some_iff.mpr
        ⟨row, hgrows.publicID _ row hrow, hgrows.walletOf _ walletID hwallet⟩
    · intro walletID
      refine Tx.steadyWrites_bind Tx.steady_lockRow fun _ _ => ?_
      refine Tx.steadyWrites_bind steady_addLedger fun _ _ => ?_
      refine Tx.steadyWrites_bind ?_ fun _ _ => ?_
      · exact steady_references fun _ _ hpresent => hpresent.users actorUserID
      · exact Tx.steadyWrites_bind Tx.steady_perform fun _ _ => steadyWrites_readBack

theorem steadyWrites_reserveForUser {userID : UUID} {amount : Int64} {reason : String} :
    Tx.SteadyWrites (S := store) Grows (reserveForUser userID amount reason) [] := by
  unfold reserveForUser
  split
  · exact Tx.Steady.writes Tx.steady_fail
  · refine steadyWrites_lookup ?_ ?_
    · exact fun old new walletID hgrows hfound => hgrows.walletOf _ walletID hfound
    · exact fun walletID => Tx.Steady.writes
        (Tx.steady_bind steady_addLedger fun _ _ => Tx.steady_pure)

/-- Every operation but a registration does among others what it does alone. -/
theorem steady_program {op : Operation} (h : op.registers = false) :
    Tx.Steady (S := store) Grows (program P cfg op) [] := by
  cases op with
  | register => cases h
  | createProvider =>
      refine steady_ignore (Tx.Steady.writes (Tx.steady_ite Tx.steady_fail ?_))
      refine Tx.steady_bind ?_ fun _ _ => Tx.steady_bind steady_createWallet fun _ _ =>
        Tx.steady_bind Tx.steady_perform fun _ _ => Tx.steady_pure
      refine Tx.steady_bind steady_require fun _ _ =>
        Tx.steady_bind (steady_unique Tx.steady_lockRow) fun _ _ =>
          Tx.steady_bind (steady_unique Tx.steady_lockRow) fun _ _ =>
            Tx.steady_bind (steady_unique Tx.steady_lockRow) fun _ _ => ?_
      refine Tx.steady_bind ?_ fun _ _ => Tx.steady_bind Tx.steady_perform fun _ _ => Tx.steady_pure
      exact steady_references fun _ _ hpresent => hpresent.users _
  | reserve => exact steady_ignore steadyWrites_reserveForUser
  | release => exact Tx.steady_ite Tx.steady_fail steady_addLedger
  | finalize =>
      refine Tx.steady_ite Tx.steady_fail ?_
      refine Tx.steady_bind (steady_onlyIf steady_addLedger) fun _ _ =>
        Tx.steady_bind (steady_onlyIf steady_addLedger) fun _ _ =>
          Tx.steady_bind (steady_onlyIf steady_addLedger) fun _ _ =>
            Tx.steady_bind steady_insertUsage fun _ _ =>
              Tx.steady_bind Tx.steady_perform fun _ _ => ?_
      refine Tx.steady_bind Tx.steady_lockRow fun _ _ => ?_
      refine Tx.steady_bind (steady_references ?_) fun _ _ =>
        Tx.steady_bind steady_orFail fun _ _ => Tx.steady_perform
      exact fun _ _ hpresent => statsReference_of_present hpresent
  | adminAdjust => exact steady_ignore steadyWrites_adminAdjust
  | createJob id job =>
      refine steady_ignore (Tx.Steady.writes ?_)
      refine Tx.steady_bind steady_require fun _ _ => Tx.steady_bind steady_require fun _ _ =>
        Tx.steady_bind (steady_unique Tx.steady_lockRow) fun _ _ =>
          Tx.steady_bind (steady_unique Tx.steady_lockRow) fun _ _ => ?_
      refine Tx.steady_bind (steady_references ?_) fun _ _ =>
        Tx.steady_bind (steady_references ?_) fun _ _ =>
          Tx.steady_bind Tx.steady_perform fun _ _ => Tx.steady_pure
      · exact fun _ _ hpresent => partiesExist_of_present hpresent
      · intro old new hpresent hold
        rwa [hpresent.catalog]
  | markDispatched => exact Tx.steady_perform
  | markFailed =>
      refine Tx.steady_bind steady_require fun _ _ =>
        Tx.steady_bind Tx.steady_lockRow fun job _ => ?_
      cases job.bind JobRow.providerID with
      | none => exact Tx.steady_perform
      | some providerID =>
          refine Tx.steady_bind Tx.steady_perform fun _ _ =>
            Tx.steady_bind Tx.steady_lockRow fun _ _ =>
              Tx.steady_bind (steady_references ?_) fun _ _ => Tx.steady_perform
          exact fun _ _ hpresent => statsReference_of_present hpresent

end Operations

end Nuvonode.Service
