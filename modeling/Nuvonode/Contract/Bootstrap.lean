/-
  Contract/Bootstrap.lean --- at most one bootstrap administrator.

  A registration counts the users in its own transaction, before it inserts one, and sees
  what was committed at that moment.  The log of a run holds what each registration has
  counted and which have ended, so that a run can be asked not to let two of them count
  an empty table at the same time.
-/
import Nuvonode.Contract.Ledger
import Nuvonode.Foundation.History
import Nuvonode.Service.Bootstrap

set_option autoImplicit false

namespace Nuvonode.Contract

open Nuvonode.Foundation Nuvonode.Database Nuvonode.Repository Nuvonode.Service

/-! ## What a run shows of its registrations -/

inductive CountFact where
  | counted (t count : Nat)
  | ended (t : Nat)
  deriving DecidableEq

/-- What an entry says of the count of a transaction. -/
def countOf (t : Nat) : CountFact → Option (Option Nat)
  | .counted t' count => if t' = t then some (some count) else none
  | .ended t' => if t' = t then some none else none

/-- What a transaction counts with its next statement: a registration that has locked
nothing and is about to read. -/
def countNow (committed : DB) (a : Active store Err Operation Unit) : Option Nat :=
  match a.body, a.locks with
  | .read _, [] => if a.op.registers then some (countUsers (a.view committed)) else none
  | _, _ => none

/-- Only a registration that has locked nothing counts, with a read. -/
theorem countNow_eq_some {committed : DB} {a : Active store Err Operation Unit} {count : Nat}
    (h : countNow committed a = some count) :
    a.op.registers = true ∧ a.locks = [] ∧ (∃ next, a.body = .read next) ∧
      count = countUsers (a.view committed) := by
  unfold countNow at h
  split at h
  · rename_i next hbody hlocks
    split at h
    · exact ⟨‹_›, hlocks, ⟨next, hbody⟩, (Option.some.inj h).symm⟩
    · cases h
  · cases h

/-- What an event shows. -/
def countFacts (m : Server store Err Operation Unit) :
    ServerEvent Operation → Server store Err Operation Unit → List CountFact
  | .statement t, _ => (((m.active t).bind (countNow m.committed)).map (CountFact.counted t)).toList
  | .commit t _, _ => [.ended t]
  | .rollback t, _ => [.ended t]
  | .begin .., _ => []

/-- A transaction in progress has counted so many users. -/
def HasCounted (t count : Nat) (log : List CountFact) : Prop :=
  latest (countOf t) log = some (some count)

theorem not_hasCounted_nil {t count : Nat} : ¬ HasCounted t count [] := by
  intro h
  cases h

theorem hasCounted_counted {t t' count count' : Nat} {log : List CountFact} :
    HasCounted t' count' (log ++ [.counted t count]) ↔
      t' = t ∧ count' = count ∨ t' ≠ t ∧ HasCounted t' count' log := by
  unfold HasCounted
  by_cases ht : t' = t
  · subst ht
    rw [latest_append_of_some (b := some count) (by simp [latest, countOf])]
    simp [eq_comm]
  · rw [latest_append_of_silent (by simp [countOf, Ne.symm ht])]
    simp [ht]

theorem hasCounted_ended {t t' count : Nat} {log : List CountFact} :
    HasCounted t' count (log ++ [.ended t]) ↔ t' ≠ t ∧ HasCounted t' count log := by
  unfold HasCounted
  by_cases ht : t' = t
  · subst ht
    rw [latest_append_of_some (b := none) (by simp [latest, countOf])]
    simp
  · rw [latest_append_of_silent (by simp [countOf, Ne.symm ht])]
    simp [ht]

/-- The server with the log of its counts. -/
abbrev countingMachine (P : Platform) (cfg : Config) :
    Machine (Server store Err Operation Unit × List CountFact) (ServerEvent Operation) :=
  (serverMachine P cfg Fresh).recorded countFacts

/-- No registration counts no users while another one that did is still in progress. -/
def CountsApart (s : Server store Err Operation Unit × List CountFact)
    (e : ServerEvent Operation) (s' : Server store Err Operation Unit × List CountFact) : Prop :=
  ∀ t, .counted t 0 ∈ countFacts s.1 e s'.1 → ∀ t', ¬ HasCounted t' 0 s.2

/-! ## The invariant -/

/-- How far a registration is. -/
inductive Stage (P : Platform) (cfg : Config) (log : List CountFact) (t : Nat)
    (a : Active store Err Operation Unit) : Prop where
  | waiting : (∀ count, ¬ HasCounted t count log) → a.body = program P cfg a.op →
      a.writes = [] → a.locks = [] → Stage P cfg log t a
  | counted {count : Nat} : HasCounted t count log →
      (a.locks ≠ [] ∨ (∃ e, a.body = .fail e) ∨ ∃ k next, a.body = .lock k next) →
      Tx.Ends (fun _ ws => ∃ row : UserRow, row.role = roleAfter cfg count ∧ row.deleted = false ∧
        usersOf ws = [row]) a.body a.writes → Stage P cfg log t a

/-- The transactions, the log and the committed users agree. -/
structure Bootstrapped (P : Platform) (cfg : Config)
    (s : Server store Err Operation Unit × List CountFact) : Prop where
  stage : ∀ t a, s.1.active t = some a → a.op.registers = true → Stage P cfg s.2 t a
  other : ∀ t a, s.1.active t = some a → a.op.registers = false →
    (∀ count, ¬ HasCounted t count s.2) ∧
      Tx.Ends (fun _ ws => usersOf ws = []) a.body a.writes
  idle : ∀ t, s.1.active t = none → ∀ count, ¬ HasCounted t count s.2
  alone : ∀ t t', HasCounted t 0 s.2 → HasCounted t' 0 s.2 → t = t'
  empty : ∀ t, HasCounted t 0 s.2 → s.1.committed.users = []
  grown : ∀ t count, HasCounted t count s.2 → count ≠ 0 → s.1.committed.users ≠ []
  kept : ∀ row ∈ s.1.committed.users, row.deleted = false
  first : ∀ row ∈ s.1.committed.users.tail, row.role = .user

section Steps

variable {P : Platform} {cfg : Config} {m m' : Server store Err Operation Unit}
  {log log' : List CountFact} {t : Nat} {a a' : Active store Err Operation Unit}

/-- Where no user is deleted, the count is zero exactly when there is none. -/
theorem countUsers_eq_zero {db : DB} (h : ∀ row ∈ db.users, row.deleted = false) :
    countUsers db = 0 ↔ db.users = [] := by
  rw [countUsers, List.length_eq_zero_iff, List.filter_eq_nil_iff, List.eq_nil_iff_forall_not_mem]
  constructor
  · intro hnone row hrow
    exact hnone row hrow (by simp [h row hrow])
  · exact fun hnone row hrow => absurd hrow (hnone row)

/-- A stage only depends on what the log says of its own transaction. -/
theorem Stage.of_log (h : Stage P cfg log t a)
    (hsame : ∀ count, HasCounted t count log' ↔ HasCounted t count log) :
    Stage P cfg log' t a := by
  cases h with
  | waiting hnone hbody hwrites hlocks =>
      exact .waiting (fun count hcounted => hnone count ((hsame count).mp hcounted)) hbody hwrites
        hlocks
  | counted hcounted hlocks hends => exact .counted ((hsame _).mpr hcounted) hlocks hends

/-- Nothing changes for the other transactions when one is replaced. -/
theorem Bootstrapped.replace (h : Bootstrapped P cfg (m, log))
    (hstage : a.op.registers = true → Stage P cfg log t a)
    (hother : a.op.registers = false → (∀ count, ¬ HasCounted t count log) ∧
      Tx.Ends (fun _ ws => usersOf ws = []) a.body a.writes) :
    Bootstrapped P cfg (m.set t (some a), log) where
  stage := by
    intro t' b hb hregisters
    rcases Server.active_set_cases hb with ⟨rfl, hsame⟩ | ⟨-, hold⟩
    · cases hsame
      exact hstage hregisters
    · exact h.stage t' b hold hregisters
  other := by
    intro t' b hb hregisters
    rcases Server.active_set_cases hb with ⟨rfl, hsame⟩ | ⟨-, hold⟩
    · cases hsame
      exact hother hregisters
    · exact h.other t' b hold hregisters
  idle := by
    intro t' hb
    rcases Server.active_set_cases hb with ⟨-, hsame⟩ | ⟨-, hold⟩
    · cases hsame
    · exact h.idle t' hold
  alone := h.alone
  empty := h.empty
  grown := h.grown
  kept := h.kept
  first := h.first

/-- A registration counts the users. -/
theorem Bootstrapped.count (h : Bootstrapped P cfg (m, log)) {count : Nat}
    (hcount : count = countUsers m.committed)
    (hapart : count = 0 → ∀ t', ¬ HasCounted t' 0 log) (hregisters : a.op.registers = true)
    (hstage : Stage P cfg (log ++ [.counted t count]) t a) :
    Bootstrapped P cfg (m.set t (some a), log ++ [.counted t count]) where
  stage := by
    intro t' b hb hregisters'
    rcases Server.active_set_cases hb with ⟨rfl, hsame⟩ | ⟨ht, hold⟩
    · cases hsame
      exact hstage
    · refine (h.stage t' b hold hregisters').of_log fun count' => ?_
      rw [hasCounted_counted]
      simp [ht]
  other := by
    intro t' b hb hother
    rcases Server.active_set_cases hb with ⟨rfl, hsame⟩ | ⟨ht, hold⟩
    · cases hsame
      rw [hregisters] at hother
      cases hother
    · obtain ⟨hnone, hends⟩ := h.other t' b hold hother
      refine ⟨fun count' hcounted => ?_, hends⟩
      rcases hasCounted_counted.mp hcounted with ⟨hsame, -⟩ | ⟨-, hearlier⟩
      · exact ht hsame
      · exact hnone count' hearlier
  idle := by
    intro t' hb count' hcounted
    rcases Server.active_set_cases hb with ⟨-, hsame⟩ | ⟨ht, hold⟩
    · cases hsame
    · rcases hasCounted_counted.mp hcounted with ⟨hsame, -⟩ | ⟨-, hearlier⟩
      · exact ht hsame
      · exact h.idle t' hold count' hearlier
  alone := by
    intro t₁ t₂ h₁ h₂
    rcases hasCounted_counted.mp h₁ with ⟨rfl, hzero₁⟩ | ⟨-, hold₁⟩ <;>
      rcases hasCounted_counted.mp h₂ with ⟨rfl, hzero₂⟩ | ⟨-, hold₂⟩
    · rfl
    · exact absurd hold₂ (hapart hzero₁.symm t₂)
    · exact absurd hold₁ (hapart hzero₂.symm t₁)
    · exact h.alone t₁ t₂ hold₁ hold₂
  empty := by
    intro t' hcounted
    rcases hasCounted_counted.mp hcounted with ⟨-, hzero⟩ | ⟨-, hold⟩
    · exact (countUsers_eq_zero h.kept).mp (hcount.symm.trans hzero.symm)
    · exact h.empty t' hold
  grown := by
    intro t' count' hcounted hne
    rcases hasCounted_counted.mp hcounted with ⟨-, rfl⟩ | ⟨-, hold⟩
    · intro hnil
      exact hne (hcount.trans ((countUsers_eq_zero h.kept).mpr hnil))
    · exact h.grown t' count' hold hne
  kept := h.kept
  first := h.first

/-- A transaction ends; `users` are those it committed. -/
theorem Bootstrapped.ending (h : Bootstrapped P cfg (m, log)) {db : DB} {users : List UserRow}
    (hdb : db.users = m.committed.users ++ users) (hkept : ∀ row ∈ users, row.deleted = false)
    (hfirst : ∀ row ∈ db.users.tail, row.role = .user)
    (hempty : ∀ t', t' ≠ t → HasCounted t' 0 log → users = []) :
    Bootstrapped P cfg ({ m with committed := db }.set t none, log ++ [.ended t]) where
  stage := by
    intro t' b hb hregisters
    rcases Server.active_set_cases hb with ⟨-, hsame⟩ | ⟨ht, hold⟩
    · cases hsame
    · refine (h.stage t' b hold hregisters).of_log fun count => ?_
      rw [hasCounted_ended]
      simp [ht]
  other := by
    intro t' b hb hother
    rcases Server.active_set_cases hb with ⟨-, hsame⟩ | ⟨-, hold⟩
    · cases hsame
    · obtain ⟨hnone, hends⟩ := h.other t' b hold hother
      exact ⟨fun count hcounted => hnone count (hasCounted_ended.mp hcounted).2, hends⟩
  idle := by
    intro t' hb count hcounted
    obtain ⟨ht, hearlier⟩ := hasCounted_ended.mp hcounted
    rcases Server.active_set_cases hb with ⟨hsame, -⟩ | ⟨-, hold⟩
    · exact ht hsame
    · exact h.idle t' hold count hearlier
  alone := by
    intro t₁ t₂ h₁ h₂
    exact h.alone t₁ t₂ (hasCounted_ended.mp h₁).2 (hasCounted_ended.mp h₂).2
  empty := by
    intro t' hcounted
    obtain ⟨ht, hold⟩ := hasCounted_ended.mp hcounted
    change db.users = []
    rw [hdb, hempty t' ht hold, h.empty t' hold]
    rfl
  grown := by
    intro t' count hcounted hne hnil
    obtain ⟨-, hold⟩ := hasCounted_ended.mp hcounted
    have hboth : m.committed.users ++ users = [] := hdb.symm.trans hnil
    exact h.grown t' count hold hne (List.append_eq_nil_iff.mp hboth).1
  kept := by
    intro row hrow
    have hmem : row ∈ m.committed.users ++ users := hdb ▸ hrow
    rcases List.mem_append.mp hmem with hold | hnew
    · exact h.kept row hold
    · exact hkept row hnew
  first := hfirst

/-- A registration makes its count. -/
theorem Bootstrapped.counts (h : Bootstrapped P cfg (m, log)) (ha : m.active t = some a)
    {next : DB → Sql Unit} (hbody : a.body = .read next) (hregisters : a.op.registers = true)
    (hlocks : a.locks = []) {count : Nat} (hcount : count = countUsers (a.view m.committed))
    (hapart : count = 0 → ∀ t', ¬ HasCounted t' 0 log) :
    Bootstrapped P cfg (m.set t (some { a with body := next (a.view m.committed) }),
      log ++ [.counted t count]) := by
  cases h.stage t a ha hregisters with
  | counted _ hlocked _ =>
      rcases hlocked with hheld | ⟨e, hfail⟩ | ⟨k, next', hlock⟩
      · exact absurd hlocks hheld
      · rw [hbody] at hfail
        cases hfail
      · rw [hbody] at hlock
        cases hlock
  | waiting _ hprogram hwrites _ =>
      have hview : a.view m.committed = m.committed := by
        rw [Active.view, hwrites, Store.applyAll_nil]
      rw [hview] at hcount ⊢
      refine h.count hcount hapart hregisters ?_
      have hnow : HasCounted t count (log ++ [.counted t count]) :=
        hasCounted_counted.mpr (.inl ⟨rfl, rfl⟩)
      rcases program_of_registers P cfg hregisters with
        ⟨e, hfail⟩ | ⟨userID, walletID, publicID, email, passwordHash, displayName, hread⟩
      · rw [hprogram, hfail] at hbody
        cases hbody
      · rw [hprogram, hread] at hbody
        cases hbody
        refine .counted hnow (.inr registerAs_locks) ?_
        rw [hcount, hwrites]
        exact ends_registerAs

/-- A statement that counts nothing. -/
theorem Bootstrapped.silent (h : Bootstrapped P cfg (m, log)) (ha : m.active t = some a)
    (hop : a'.op = a.op)
    (hends : ∀ Q, Tx.Ends Q a.body a.writes → Tx.Ends Q a'.body a'.writes)
    (hstarted : a.op.registers = true → a.locks = [] → a.body ≠ program P cfg a.op)
    (hlocks : (a.locks ≠ [] ∨ (∃ e, a.body = .fail e) ∨ ∃ k next, a.body = .lock k next) →
      a'.locks ≠ []) : Bootstrapped P cfg (m.set t (some a'), log) := by
  refine h.replace (fun hregisters => ?_) fun hother => ?_
  · rw [hop] at hregisters
    cases h.stage t a ha hregisters with
    | waiting _ hbody _ hfree => exact absurd hbody (hstarted hregisters hfree)
    | counted hcounted hlocked hrest =>
        exact .counted hcounted (.inl (hlocks hlocked)) (hends _ hrest)
  · rw [hop] at hother
    obtain ⟨hnone, hrest⟩ := h.other t a ha hother
    exact ⟨hnone, hends _ hrest⟩

/-- The program of a registration fails or reads first. -/
theorem program_ne_of_registers {op : Operation} (h : op.registers = true) {body : Sql Unit}
    (hfail : ∀ e, body ≠ .fail e) (hread : ∀ next, body ≠ .read next) :
    body ≠ program P cfg op := by
  intro heq
  rcases program_of_registers P cfg h with ⟨e, hprogram⟩ | ⟨_, _, _, _, _, _, hprogram⟩
  · exact hfail e (heq.trans hprogram)
  · exact hread _ (heq.trans hprogram)

/-- A transaction that commits. -/
theorem Bootstrapped.commit (h : Bootstrapped P cfg (m, log)) (ha : m.active t = some a) {r : Unit}
    (hdone : a.body = .done r) :
    Bootstrapped P cfg ({ m with committed := store.applyAll m.committed a.writes }.set t none,
      log ++ [.ended t]) := by
  have husers := users_applyAll m.committed a.writes
  cases hregisters : a.op.registers with
  | false =>
      obtain ⟨-, hends⟩ := h.other t a ha hregisters
      rw [hdone] at hends
      have hnone : usersOf a.writes = [] := hends
      refine h.ending husers ?_ ?_ fun _ _ _ => hnone
      · rw [hnone]
        exact fun row hrow => absurd hrow List.not_mem_nil
      · rw [husers, hnone, List.append_nil]
        exact h.first
  | true =>
      cases h.stage t a ha hregisters with
      | waiting _ hbody _ _ =>
          have hne : a.body ≠ program P cfg a.op :=
            program_ne_of_registers hregisters (by simp [hdone]) (by simp [hdone])
          exact absurd hbody hne
      | @counted count hcounted _ hends =>
          rw [hdone] at hends
          obtain ⟨row, hrole, hkept, hnew⟩ : ∃ row : UserRow, row.role = roleAfter cfg count ∧
            row.deleted = false ∧ usersOf a.writes = [row] := hends
          have hgrown : count ≠ 0 → row.role = .user := by
            intro hne
            rw [hrole, roleAfter, if_neg fun hboth => hne hboth.1]
          refine h.ending husers ?_ ?_ fun t' ht hother => ?_
          · rw [hnew]
            exact fun other hother => List.mem_singleton.mp hother ▸ hkept
          · rw [husers, hnew]
            by_cases hzero : count = 0
            · -- It is the first user of all.
              subst hzero
              rw [h.empty t hcounted]
              exact fun other hother => absurd hother List.not_mem_nil
            · intro other hother
              rw [List.tail_append_of_ne_nil (h.grown t count hcounted hzero)] at hother
              rcases List.mem_append.mp hother with hold | hlast
              · exact h.first other hold
              · exact List.mem_singleton.mp hlast ▸ hgrown hzero
          · by_cases hzero : count = 0
            · subst hzero
              exact absurd (h.alone t' t hother hcounted) ht
            · exact absurd (h.empty t' hother) (h.grown t count hcounted hzero)

/-- Every event keeps the invariant, as long as no two registrations count no users at
the same time. -/
theorem Bootstrapped.step {s s' : Server store Err Operation Unit × List CountFact}
    {e : ServerEvent Operation} (h : Bootstrapped P cfg s)
    (hstep : (countingMachine P cfg).step s e s') (hapart : CountsApart s e s') :
    Bootstrapped P cfg s' := by
  obtain ⟨m, log⟩ := s
  obtain ⟨m', log'⟩ := s'
  obtain ⟨hserver, hlog⟩ := hstep
  simp only at hserver hlog
  subst hlog
  cases hserver with
  | @begin t op hfree =>
      rw [countFacts, List.append_nil]
      refine h.replace (fun hregisters => ?_) fun hother => ?_
      · exact .waiting (h.idle t hfree) rfl rfl rfl
      · exact ⟨h.idle t hfree, spares_program hother []⟩
  | @read t a next ha hbody =>
      have hfacts : countFacts m (.statement t) (m.set t (some { a with
          body := next (a.view m.committed) })) =
          ((countNow m.committed a).map (CountFact.counted t)).toList := by
        rw [countFacts, ha, Option.bind_some]
      rw [CountsApart, hfacts] at hapart
      rw [hfacts]
      cases hnow : countNow m.committed a with
      | some count =>
          obtain ⟨hregisters, hlocks, -, hcount⟩ := countNow_eq_some hnow
          exact h.counts ha hbody hregisters hlocks hcount fun hzero =>
            hapart t (by simp [hnow, hzero])
      | none =>
          rw [Option.map_none, Option.toList_none, List.append_nil]
          refine h.silent ha rfl (fun Q hends => ?_) (fun hregisters hfree => ?_) fun hlocked => ?_
          · rw [hbody] at hends
            exact hends _
          · rw [countNow, hbody, hfree, if_pos hregisters] at hnow
            cases hnow
          · rw [hbody] at hlocked
            rcases hlocked with hheld | ⟨e, hfail⟩ | ⟨k, next', hlock⟩
            · exact hheld
            · cases hfail
            · cases hlock
  | @lock t a k next ha hbody hfree =>
      have hfacts : countNow m.committed a = none := by
        rw [countNow, hbody]
      rw [countFacts, ha, Option.bind_some, hfacts, Option.map_none, Option.toList_none,
        List.append_nil]
      refine h.silent ha rfl (fun Q hends => ?_) (fun hregisters _ => ?_) fun _ => by simp
      · rw [hbody] at hends
        exact hends _
      · exact program_ne_of_registers hregisters (by simp [hbody]) (by simp [hbody])
  | @write t a w next ha hbody hfree =>
      have hfacts : countNow m.committed a = none := by
        rw [countNow, hbody]
      rw [countFacts, ha, Option.bind_some, hfacts, Option.map_none, Option.toList_none,
        List.append_nil]
      refine h.silent ha rfl (fun Q hends => ?_) (fun hregisters _ => ?_) fun hlocked => ?_
      · rw [hbody] at hends
        exact hends
      · exact program_ne_of_registers hregisters (by simp [hbody]) (by simp [hbody])
      · rw [hbody] at hlocked
        rcases hlocked with hheld | ⟨e, hfail⟩ | ⟨k, next', hlock⟩
        · simp [hheld]
        · cases hfail
        · cases hlock
  | @commit t a r ha hbody =>
      exact h.commit ha hbody
  | @rollback t a ha =>
      exact h.ending (List.append_nil _).symm (fun row hrow => absurd hrow List.not_mem_nil) h.first
        fun _ _ _ => rfl

end Steps

/-! ## At most one administrator -/

/-- At most one user is an administrator, and it is the first user that was ever
committed. -/
structure OneBootstrapAdmin (db : DB) : Prop where
  atMostOne : (db.users.filter fun row => row.role = .admin).length ≤ 1
  first : ∀ (i : Nat) (row : UserRow), db.users[i]? = some row → row.role = .admin → i = 0

theorem oneBootstrapAdmin_of_tail {db : DB} (h : ∀ row ∈ db.users.tail, row.role = .user) :
    OneBootstrapAdmin db := by
  cases husers : db.users with
  | nil => exact ⟨by simp [husers], fun i row hrow => by simp [husers] at hrow⟩
  | cons head rest =>
      rw [husers] at h
      have hrest : rest.filter (fun row => decide (row.role = .admin)) = [] := by
        rw [List.filter_eq_nil_iff]
        intro row hrow
        simp [h row hrow]
      refine ⟨?_, fun i row hrow hadmin => ?_⟩
      · rw [husers, List.filter_cons, hrest]
        split <;> simp
      · rw [husers] at hrow
        cases i with
        | zero => rfl
        | succ i =>
            have hmem : row ∈ rest := List.mem_of_getElem? hrow
            rw [h row hmem] at hadmin
            cases hadmin

theorem bootstrapped_of_start {P : Platform} {cfg : Config}
    {s : Server store Err Operation Unit × List CountFact}
    (h : (countingMachine P cfg).start s) : Bootstrapped P cfg s := by
  obtain ⟨⟨⟨catalog, hdb⟩, hidle⟩, hlog⟩ := h
  obtain ⟨m, log⟩ := s
  simp only at hdb hidle hlog
  subst hlog
  have hnone : ∀ t count, ¬ HasCounted t count [] := fun _ _ => not_hasCounted_nil
  exact {
    stage := fun t a ha => by simp [hidle t] at ha
    other := fun t a ha => by simp [hidle t] at ha
    idle := fun t _ => hnone t
    alone := fun t _ h => absurd h (hnone t 0)
    empty := fun t h => absurd h (hnone t 0)
    grown := fun t count h => absurd h (hnone t count)
    kept := fun row hrow => by simp [hdb, DB.seeded] at hrow
    first := fun row hrow => by simp [hdb, DB.seeded] at hrow }

theorem bootstrapped_of_reaches {P : Platform} {cfg : Config} {es : List (ServerEvent Operation)}
    {s : Server store Err Operation Unit × List CountFact}
    (h : (countingMachine P cfg).Reaches CountsApart es s) : Bootstrapped P cfg s :=
  h.invariant (Bootstrapped P cfg) (fun _ => bootstrapped_of_start)
    fun _ _ _ hinv hstep hapart => hinv.step hstep hapart

/-- In every run in which no registration counts no users while another one that did is
still in progress, at most one user becomes an administrator, and it is the first. -/
theorem one_bootstrap_admin (P : Platform) (cfg : Config) {es : List (ServerEvent Operation)}
    {s : Server store Err Operation Unit × List CountFact}
    (hreach : (countingMachine P cfg).Reaches CountsApart es s) :
    OneBootstrapAdmin s.1.committed :=
  oneBootstrapAdmin_of_tail (bootstrapped_of_reaches hreach).first

/-! ## One registration after another -/

/-- The slot of an event. -/
def slotOf : ServerEvent Operation → Nat
  | .begin t _ | .statement t | .commit t _ | .rollback t => t

/-- What an event shows is of its own slot. -/
theorem countOf_of_mem {m m' : Server store Err Operation Unit} {e : ServerEvent Operation}
    {fact : CountFact} {t : Nat} (h : fact ∈ countFacts m e m') (ht : t ≠ slotOf e) :
    countOf t fact = none := by
  cases e with
  | begin => cases h
  | statement t' =>
      obtain ⟨count, -, rfl⟩ := Option.map_eq_some_iff.mp (Option.mem_toList.mp h)
      exact if_neg (Ne.symm ht)
  | commit t' op =>
      cases List.mem_singleton.mp h
      exact if_neg (Ne.symm ht)
  | rollback t' =>
      cases List.mem_singleton.mp h
      exact if_neg (Ne.symm ht)

/-- A registration counts only once. -/
theorem Bootstrapped.not_hasCounted {P : Platform} {cfg : Config}
    {m m' : Server store Err Operation Unit} {log : List CountFact} {e : ServerEvent Operation}
    {t count count' : Nat} (h : Bootstrapped P cfg (m, log))
    (hmem : .counted t count ∈ countFacts m e m') : ¬ HasCounted t count' log := by
  intro hcounted
  cases e with
  | begin => cases hmem
  | commit => cases List.mem_singleton.mp hmem
  | rollback => cases List.mem_singleton.mp hmem
  | statement t' =>
      obtain ⟨_, hfound, heq⟩ := Option.map_eq_some_iff.mp (Option.mem_toList.mp hmem)
      cases heq
      obtain ⟨a, ha, hnow⟩ := Option.bind_eq_some_iff.mp hfound
      obtain ⟨hregisters, hlocks, ⟨next, hbody⟩, -⟩ := countNow_eq_some hnow
      cases h.stage t a ha hregisters with
      | waiting hnone _ _ _ => exact hnone _ hcounted
      | counted _ hlocked _ =>
          rcases hlocked with hheld | ⟨e, hfail⟩ | ⟨k, next', hlock⟩
          · exact hheld hlocks
          · rw [hbody] at hfail
            cases hfail
          · rw [hbody] at hlock
            cases hlock

/-- On one slot, registrations count one after another. -/
theorem reaches_apart {P : Platform} {cfg : Config} {es : List (ServerEvent Operation)}
    {m : Server store Err Operation Unit} {t : Nat}
    (h : (serverMachine P cfg Fresh).Reaches Machine.anyStep es m)
    (hslot : ∀ e ∈ es, slotOf e = t) :
    ∃ log, (countingMachine P cfg).Reaches CountsApart es (m, log) := by
  obtain ⟨log, hrecorded⟩ := h.record countFacts
  have hboth : (∀ e ∈ es, slotOf e = t) →
      (countingMachine P cfg).Reaches CountsApart es (m, log) ∧
        ∀ t' ≠ t, ∀ count, ¬ HasCounted t' count log := by
    refine hrecorded.invariant_trace (fun es s => (∀ e ∈ es, slotOf e = t) →
      (countingMachine P cfg).Reaches CountsApart es s ∧
        ∀ t' ≠ t, ∀ count, ¬ HasCounted t' count s.2) ?_ ?_
    · intro s hs _
      refine ⟨.start hs, fun t' _ count => ?_⟩
      rw [hs.2]
      exact not_hasCounted_nil
    · intro es a e b ih hstep _ hslots
      have hearlier : ∀ e' ∈ es, slotOf e' = t :=
        fun e' he' => hslots e' (List.mem_append_left _ he')
      have hnow : slotOf e = t := hslots e (List.mem_append_right _ (List.mem_singleton_self e))
      obtain ⟨hreach, hothers⟩ := ih hearlier
      have hapart : CountsApart a e b := by
        intro t₁ hmem t' hcounted
        by_cases ht : t' = t
        · have ht₁ : t₁ = t := by
            by_contra hne
            have hsilent := countOf_of_mem hmem (hnow ▸ hne)
            simp [countOf] at hsilent
          subst ht ht₁
          exact (bootstrapped_of_reaches hreach).not_hasCounted hmem hcounted
        · exact hothers t' ht 0 hcounted
      refine ⟨hreach.snoc hstep hapart, fun t' ht count hcounted => ?_⟩
      rw [hstep.2, HasCounted, latest_append_of_silent fun fact hfact =>
        countOf_of_mem hfact (hnow ▸ ht)] at hcounted
      exact hothers t' ht count hcounted
  exact ⟨log, (hboth hslot).1⟩

/-! ## Sample runs -/

def secondRegistration : Operation :=
  .register 3 4 "usr_b" ⟨"B@example.com", "password", "Bob"⟩

def emptyDB : DB := DB.seeded ⟨[], [], [], [], [], [], []⟩

/-- What is left of the two registrations when each has counted no users. -/
def firstAsAdmin : Sql Unit :=
  registerAs sampleConfig 1 2 "usr_a" "a@example.com" "hash of password" "Ada" .admin

def secondAsAdmin : Sql Unit :=
  registerAs sampleConfig 3 4 "usr_b" "b@example.com" "hash of password" "Bob" .admin

/-- The database after both, by what the second user has become. -/
def twoUsersDB (role : Role) : DB :=
  { registeredDB with
    users := registeredDB.users ++
      [⟨3, "usr_b", "b@example.com", "hash of password", "Bob", role, .active, false⟩]
    wallets := registeredDB.wallets ++ [⟨4, .user, 3, 10000, 0⟩]
    walletLedger := registeredDB.walletLedger ++
      [⟨4, .grant, 10000, 0, 10000, 0, "starting_free_credits", none⟩] }

/-- The second registration has counted and inserted nothing. -/
def secondCounted : Server store Err Operation Unit :=
  (idleServer emptyDB).set 1 (some ⟨secondRegistration, secondAsAdmin, [], []⟩)

/-- Both registrations count before either inserts anything. -/
theorem reaches_bothCounted :
    ∃ es, (serverMachine samplePlatform sampleConfig Fresh).Reaches Machine.anyStep es
      (secondCounted.set 0 (some ⟨sampleRegistration, firstAsAdmin, [], []⟩)) := by
  have hfirst : program samplePlatform sampleConfig sampleRegistration = .read fun db =>
      registerAs sampleConfig 1 2 "usr_a" "a@example.com" "hash of password" "Ada"
        (roleAfter sampleConfig (countUsers db)) :=
    program_register (by decide +kernel) (by decide +kernel) (by decide +kernel) rfl
  have hsecond : program samplePlatform sampleConfig secondRegistration = .read fun db =>
      registerAs sampleConfig 3 4 "usr_b" "b@example.com" "hash of password" "Bob"
        (roleAfter sampleConfig (countUsers db)) :=
    program_register (by decide +kernel) (by decide +kernel) (by decide +kernel) rfl
  have hstart : (serverMachine samplePlatform sampleConfig Fresh).Reaches Machine.anyStep []
      (idleServer emptyDB) := .start ⟨⟨_, rfl⟩, fun _ => rfl⟩
  exact ⟨_, (hstart.steps (Server.steps_of_read rfl hsecond)).steps
    (Server.steps_of_read rfl hfirst)⟩

theorem slotOf_transaction {t n : Nat} {op : Operation} {e : ServerEvent Operation}
    (he : e ∈ (ServerEvent.begin t op ::
      (List.replicate n (.statement t) ++ [.commit t op]))) : slotOf e = t := by
  rcases List.mem_cons.mp he with rfl | he
  · rfl
  · rcases List.mem_append.mp he with he | he
    · rw [List.eq_of_mem_replicate he, slotOf]
    · rw [List.mem_singleton.mp he, slotOf]

/-- Of two users who register in turn the first is the only administrator. -/
theorem one_bootstrap_admin_alone :
    (twoUsersDB .user).users.map UserRow.role = [.admin, .user] ∧
      OneBootstrapAdmin (twoUsersDB .user) := by
  have hfresh : Fresh emptyDB := ⟨_, rfl⟩
  have hsecond : (program samplePlatform sampleConfig secondRegistration).exec registeredDB =
      .ok ((), twoUsersDB .user) := by decide +kernel
  obtain ⟨es, ⟨n, rfl⟩, hreach⟩ := reaches_of_exec hfresh sampleRegistration exec_sampleRegistration
  obtain ⟨k, hsteps⟩ :=
    Server.steps_of_exec (m := idleServer registeredDB) (fun _ => rfl) 0 _ hsecond
  obtain ⟨log, hapart⟩ := reaches_apart (hreach.steps hsteps) fun e he =>
    (List.mem_append.mp he).elim slotOf_transaction slotOf_transaction
  exact ⟨rfl, one_bootstrap_admin samplePlatform sampleConfig hapart⟩

/-- Two registrations with different addresses overlap: both count before either commits,
and both become administrators. -/
theorem two_bootstrap_admins :
    ∃ es m, (serverMachine samplePlatform sampleConfig Fresh).Reaches Machine.anyStep es m ∧
      m.committed = twoUsersDB .admin ∧ ¬ OneBootstrapAdmin m.committed := by
  have hexecFirst : firstAsAdmin.exec emptyDB = .ok ((), registeredDB) := by decide +kernel
  have hexecSecond : secondAsAdmin.exec registeredDB = .ok ((), twoUsersDB .admin) := by
    decide +kernel
  obtain ⟨es, hboth⟩ := reaches_bothCounted
  -- The first registration runs on while the second has locked nothing.
  have hunlocked : ∀ t' a, t' ≠ 0 → secondCounted.active t' = some a → a.locks = [] :=
    fun _ _ _ ha => unlocked_of_alone rfl ha
  obtain ⟨n, hn⟩ :=
    Server.steps_of_body 0 hunlocked sampleRegistration firstAsAdmin [] [] hexecFirst
  have hone := hboth.steps hn
  -- The second runs on alone.
  have hidle : ∀ t' a, t' ≠ 1 → (idleServer registeredDB).active t' = some a → a.locks = [] := by
    intro t' a _ ha
    cases ha
  obtain ⟨k, hk⟩ := Server.steps_of_body 1 hidle secondRegistration secondAsAdmin [] [] hexecSecond
  have hserver : ({ secondCounted with committed := registeredDB }.set 0 none :
      Server store Err Operation Unit) =
      (idleServer registeredDB).set 1 (some ⟨secondRegistration, secondAsAdmin, [], []⟩) :=
    Server.set_none_of_idle _ rfl
  rw [hserver] at hone
  refine ⟨_, _, hone.steps hk, rfl, fun h => ?_⟩
  exact absurd h.atMostOne (by decide)

end Nuvonode.Contract
