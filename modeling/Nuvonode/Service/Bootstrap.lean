/-
  Service/Bootstrap.lean --- which users a transaction inserts, and with which role.

  `AuthService.Register` counts the users first and decides the role from the count; the
  rest of its transaction inserts one user with that role.  No other operation inserts one.
-/
import Nuvonode.Service.Operations

set_option autoImplicit false

namespace Nuvonode.Service

open Nuvonode.Foundation Nuvonode.Database Nuvonode.Repository

/-- The user that a write inserts. -/
def DbWrite.user : DbWrite → Option UserRow
  | .insertUser row => some row
  | _ => none

/-- The users that writes insert, in order. -/
def usersOf (ws : List DbWrite) : List UserRow := ws.filterMap DbWrite.user

@[simp] theorem usersOf_append (ws ws' : List DbWrite) :
    usersOf (ws ++ ws') = usersOf ws ++ usersOf ws' := List.filterMap_append

theorem users_apply (db : DB) (w : DbWrite) : (db.apply w).users = db.users ++ usersOf [w] := by
  cases w <;> simp [usersOf, DbWrite.user, DB.apply, Table.insert]

/-- Users are only ever added, at the end. -/
theorem users_applyAll (db : DB) (ws : List DbWrite) :
    (store.applyAll db ws).users = db.users ++ usersOf ws := by
  induction ws generalizing db with
  | nil => exact (List.append_nil _).symm
  | cons w ws ih =>
      have hsplit : usersOf (w :: ws) = usersOf [w] ++ usersOf ws := usersOf_append [w] ws
      rw [Store.applyAll_cons, ih, hsplit, ← List.append_assoc]
      exact congrArg (· ++ usersOf ws) (users_apply db w)

/-! ## Programs that insert no user -/

section Spares

variable {α β : Type} {p : Sql α}

/-- Whatever it is answered, the transaction inserts no user. -/
def Spares (p : Sql α) : Prop :=
  ∀ ws, Tx.Ends (S := store) (fun _ ws' => usersOf ws' = usersOf ws) p ws

theorem spares_pure {a : α} : Spares (pure a : Sql α) := fun _ => rfl

theorem spares_fail {e : Err} : Spares (Tx.fail e : Sql α) := fun _ => trivial

theorem spares_query {q : DB → α} : Spares (Tx.query (S := store) q) := fun _ _ => rfl

theorem spares_lock {k : RowKey} : Spares (Tx.lockRow (S := store) k) := fun _ _ => rfl

theorem spares_perform {w : DbWrite} (hw : DbWrite.user w = none) :
    Spares (Tx.perform (S := store) w) := by
  intro ws
  simp [usersOf, hw]

theorem spares_bind {f : α → Sql β} (hp : Spares p) (hf : ∀ a, Spares (f a)) :
    Spares (p >>= f) := by
  intro ws
  rw [Tx.ends_bind]
  refine (hp ws).mono fun a ws' hfirst => ?_
  exact (hf a ws').mono fun _ _ hrest => hrest.trans hfirst

theorem spares_ite {c : Prop} [Decidable c] {p' : Sql α} (hp : Spares p) (hp' : Spares p') :
    Spares (if c then p else p') := by
  split
  · exact hp
  · exact hp'

theorem spares_require {check : Bool} {e : Err} : Spares (require check e) :=
  spares_ite spares_pure spares_fail

theorem spares_orFail {e : Err} {o : Option α} : Spares (orFail e o) := by
  cases o with
  | none => exact spares_fail
  | some a => exact spares_pure

theorem spares_unique {entry : Sql (Option α)} (h : Spares entry) : Spares (unique entry) :=
  spares_bind h fun _ => spares_require

theorem spares_references {holds : DB → Bool} : Spares (references holds) :=
  spares_bind spares_query fun _ => spares_require

theorem spares_ignore (h : Spares p) : Spares (ignore p) := spares_bind h fun _ => spares_pure

theorem spares_addLedger {walletID : UUID} {entryType : EntryType} {amount reservedDelta : Int64}
    {reason : String} {createdBy : Option UUID} :
    Spares (addLedger walletID entryType amount reservedDelta reason createdBy) :=
  spares_bind spares_lock fun _ => spares_bind spares_orFail fun _ =>
    spares_ite spares_fail <| spares_bind (spares_perform rfl) fun _ =>
      spares_bind spares_require fun _ => spares_bind spares_references fun _ => spares_perform rfl

theorem spares_onlyIf {c : Prop} [Decidable c] {p : Sql Unit} (h : Spares p) :
    Spares (onlyIf c p) :=
  spares_ite h spares_pure

theorem spares_createWallet {id ownerID : UUID} {ownerType : OwnerType} :
    Spares (createWallet id ownerType ownerID) :=
  spares_bind (spares_unique spares_lock) fun _ => spares_bind (spares_unique spares_lock) fun _ =>
    spares_bind (spares_perform rfl) fun _ => spares_pure

end Spares

/-! ## Registrations -/

/-- The role that a registration gives after it has counted `count` users. -/
def roleAfter (cfg : Config) (count : Nat) : Role :=
  if count = 0 ∧ cfg.bootstrapFirstUserAdmin then .admin else .user

/-- What is left of a registration after its count. -/
def registerAs (cfg : Config) (userID walletID : UUID)
    (publicID email passwordHash displayName : String) (role : Role) : Sql Unit := ignore do
  let user ← createUser userID publicID email passwordHash displayName role
  let wallet ← createWallet walletID .user user.id
  addLedger wallet.id .grant cfg.startingFreeCredits 0 "starting_free_credits" none
  return user

/-- Whether an operation is a registration. -/
def Operation.registers : Operation → Bool
  | .register .. => true
  | _ => false

section Programs

variable {P : Platform} {cfg : Config}

/-- A registration with valid input counts the users and goes on with the role. -/
theorem program_register {userID walletID : UUID}
    {publicID email passwordHash displayName : String} {input : RegisterInput}
    (hemail : P.toLower (trimSpace input.email) = email)
    (hname : trimSpace input.displayName = displayName)
    (hvalid : ¬ (email = "" ∨ input.password.utf8ByteSize < 8 ∨ displayName = ""))
    (hhash : P.hashPassword input.password = some passwordHash) :
    program P cfg (.register userID walletID publicID input) = .read fun db =>
      registerAs cfg userID walletID publicID email passwordHash displayName
        (roleAfter cfg (countUsers db)) := by
  subst hemail hname
  simp only [program, register, if_neg hvalid, hhash]
  rfl

/-- A registration fails at once, or counts the users and goes on with the role. -/
theorem program_of_registers (P : Platform) (cfg : Config) {op : Operation}
    (h : op.registers = true) :
    (∃ e, program P cfg op = .fail e) ∨
      ∃ userID walletID publicID email passwordHash displayName, program P cfg op =
        .read fun db => registerAs cfg userID walletID publicID email passwordHash displayName
          (roleAfter cfg (countUsers db)) := by
  cases op with
  | register userID walletID publicID input =>
      by_cases hvalid : P.toLower (trimSpace input.email) = "" ∨
          input.password.utf8ByteSize < 8 ∨ trimSpace input.displayName = ""
      · exact .inl ⟨.invalidInput, by simp only [program, register, if_pos hvalid]; rfl⟩
      · cases hhash : P.hashPassword input.password with
        | none =>
            exact .inl ⟨.hashing, by simp only [program, register, if_neg hvalid, hhash]; rfl⟩
        | some passwordHash =>
            exact .inr ⟨userID, walletID, publicID, _, passwordHash, _,
              program_register rfl rfl hvalid hhash⟩
  | _ => cases h

/-- After its count a registration inserts one user, with the role it decided on. -/
theorem ends_registerAs {userID walletID : UUID}
    {publicID email passwordHash displayName : String} {role : Role} :
    Tx.Ends (S := store)
      (fun _ ws => ∃ row, row.role = role ∧ row.deleted = false ∧ usersOf ws = [row])
      (registerAs cfg userID walletID publicID email passwordHash displayName role) [] := by
  simp [registerAs, ignore, createUser, createWallet, addLedger, usersOf, DbWrite.user]

/-- The first statement after the count locks a row. -/
theorem registerAs_locks {userID walletID : UUID}
    {publicID email passwordHash displayName : String} {role : Role} :
    (∃ e, registerAs cfg userID walletID publicID email passwordHash displayName role = .fail e) ∨
      ∃ k next,
        registerAs cfg userID walletID publicID email passwordHash displayName role =
          .lock k next := by
  simp only [registerAs, ignore, createUser, require]
  split
  · exact .inr ⟨.user userID, _, rfl⟩
  · exact .inl ⟨_, rfl⟩

/-- No other operation inserts a user. -/
theorem spares_program {op : Operation} (h : op.registers = false) : Spares (program P cfg op) := by
  cases op with
  | register => cases h
  | createProvider =>
      refine spares_ignore (spares_ite spares_fail ?_)
      refine spares_bind ?_ fun _ => spares_bind spares_createWallet fun _ =>
        spares_bind (spares_perform rfl) fun _ => spares_pure
      exact spares_bind spares_require fun _ => spares_bind (spares_unique spares_lock) fun _ =>
        spares_bind (spares_unique spares_lock) fun _ =>
          spares_bind (spares_unique spares_lock) fun _ => spares_bind spares_references fun _ =>
            spares_bind (spares_perform rfl) fun _ => spares_pure
  | reserve =>
      exact spares_ignore (spares_ite spares_fail <| spares_bind spares_query fun _ =>
        spares_bind spares_orFail fun _ => spares_bind spares_addLedger fun _ => spares_pure)
  | release => exact spares_ite spares_fail spares_addLedger
  | finalize =>
      refine spares_ite spares_fail ?_
      refine spares_bind (spares_onlyIf spares_addLedger) fun _ =>
        spares_bind (spares_onlyIf spares_addLedger) fun _ =>
          spares_bind (spares_onlyIf spares_addLedger) fun _ => ?_
      refine spares_bind ?_ fun _ => spares_bind (spares_perform rfl) fun _ => ?_
      · exact spares_bind spares_require fun _ => spares_bind spares_orFail fun _ =>
          spares_bind (spares_unique spares_lock) fun _ => spares_bind spares_references fun _ =>
            spares_perform rfl
      · exact spares_bind spares_lock fun _ => spares_bind spares_references fun _ =>
          spares_bind spares_orFail fun _ => spares_perform rfl
  | adminAdjust =>
      refine spares_ignore (spares_ite spares_fail ?_)
      refine spares_bind spares_require fun _ => spares_bind spares_query fun _ =>
        spares_bind spares_orFail fun _ => spares_bind spares_lock fun _ => ?_
      exact spares_bind spares_addLedger fun _ => spares_bind spares_references fun _ =>
        spares_bind (spares_perform rfl) fun _ => spares_bind spares_query fun _ => spares_orFail
  | createJob =>
      exact spares_ignore (spares_bind spares_require fun _ =>
        spares_bind spares_require fun _ => spares_bind (spares_unique spares_lock) fun _ =>
          spares_bind (spares_unique spares_lock) fun _ => spares_bind spares_references fun _ =>
            spares_bind spares_references fun _ =>
              spares_bind (spares_perform rfl) fun _ => spares_pure)
  | markDispatched => exact spares_perform rfl
  | markFailed =>
      refine spares_bind spares_require fun _ => spares_bind spares_lock fun job => ?_
      cases job.bind JobRow.providerID with
      | none => exact spares_perform rfl
      | some providerID =>
          exact spares_bind (spares_perform rfl) fun _ => spares_bind spares_lock fun _ =>
            spares_bind spares_references fun _ => spares_perform rfl

end Programs

end Nuvonode.Service
