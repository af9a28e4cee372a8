/-
  Foundation/Journal.lean --- a table of entries that are stamped with the time.

  `DEFAULT now()` stamps a row with the time at which its transaction began, while the
  rows of a transaction join the table when it commits.  The clock of a server never
  goes back.  Every entry also has a name that no other entry has.

  THE RUN LEMMA.  `rising_of_reaches`: where every transaction adds at most one entry to a
  group, and began later than all that have added one before it, the stamps of a group
  rise in the order of the table.
-/
import Nuvonode.Foundation.Locking

set_option autoImplicit false

namespace Nuvonode.Foundation

/-- A table to which writes only ever add rows, and its entries, each of which is a row with a
name and a time. -/
structure Journal (S : Store) (ρ ν η : Type) where
  rows : S.State → List ρ
  /-- The rows that a write adds. -/
  added : S.Write → List ρ
  rows_apply : ∀ s w, rows (S.apply s w) = rows s ++ added w
  row : η → ρ
  name : η → ν
  createdAt : η → Nat

/-- A server with a clock, which knows when each of its transactions began and what entries it
holds. -/
structure Clocked (S : Store) (ε O α η : Type) where
  server : Server S ε O α
  now : Nat
  startedAt : Nat → Nat
  entries : List η

namespace Clocked

variable {S : Store} {ε O α ρ ν η : Type}

/-- The rows that a transaction adds. -/
def added (J : Journal S ρ ν η) (a : Active S ε O α) : List ρ := a.writes.flatMap J.added

/-- The entries for the rows of a transaction that began at the time `at`. -/
structure Stamped (J : Journal S ρ ν η) (entries : List η) (rows : List ρ) (time : Nat)
    (new : List η) : Prop where
  row : new.map J.row = rows
  createdAt : ∀ entry ∈ new, J.createdAt entry = time
  names : ((entries ++ new).map J.name).Nodup

/-- One event, with the time at which it happens. -/
inductive Step (J : Journal S ρ ν η) (prog : O → Tx S ε α) :
    Clocked S ε O α η → ServerEvent O × Nat → Clocked S ε O α η → Prop where
  | begin {m : Clocked S ε O α η} {t time : Nat} {op : O} {server : Server S ε O α} :
      m.now ≤ time → Server.Step prog m.server (.begin t op) server →
      Step J prog m (.begin t op, time)
        { m with server := server, now := time, startedAt := Function.update m.startedAt t time }
  | statement {m : Clocked S ε O α η} {t time : Nat} {server : Server S ε O α} :
      m.now ≤ time → Server.Step prog m.server (.statement t) server →
      Step J prog m (.statement t, time) { m with server := server, now := time }
  | commit {m : Clocked S ε O α η} {t time : Nat} {op : O} {a : Active S ε O α}
      {server : Server S ε O α} {new : List η} :
      m.now ≤ time → m.server.active t = some a →
      Server.Step prog m.server (.commit t op) server →
      Stamped J m.entries (added J a) (m.startedAt t) new →
      Step J prog m (.commit t op, time)
        { m with server := server, now := time, entries := m.entries ++ new }
  | rollback {m : Clocked S ε O α η} {t time : Nat} {server : Server S ε O α} :
      m.now ≤ time → Server.Step prog m.server (.rollback t) server →
      Step J prog m (.rollback t, time) { m with server := server, now := time }

/-- The server with its clock, from a table without entries. -/
def machine (J : Journal S ρ ν η) (prog : O → Tx S ε α) (start : S.State → Prop) :
    Machine (Clocked S ε O α η) (ServerEvent O × Nat) where
  start m := (Server.machine prog start).start m.server ∧ m.entries = []
  step := Step J prog

variable {J : Journal S ρ ν η} {prog : O → Tx S ε α} {start : S.State → Prop}
  {guard : Clocked S ε O α η → ServerEvent O × Nat → Clocked S ε O α η → Prop}
  {m m' : Clocked S ε O α η} {e : ServerEvent O × Nat} {es : List (ServerEvent O × Nat)}

/-- Without its clock a step is one of the server. -/
theorem Step.server (h : Step J prog m e m') : Server.Step prog m.server e.1 m'.server := by
  cases h with
  | begin _ hstep => exact hstep
  | statement _ hstep => exact hstep
  | commit _ _ hstep _ => exact hstep
  | rollback _ hstep => exact hstep

/-- A run of the server with its clock is one without. -/
theorem server_of_reaches (h : (machine J prog start).Reaches guard es m) :
    ∃ es', (Server.machine prog start).Reaches Machine.anyStep es' m.server := by
  refine h.invariant
    (fun m => ∃ es', (Server.machine prog start).Reaches Machine.anyStep es' m.server) ?_ ?_
  · exact fun a ha => ⟨[], .start ha.1⟩
  · rintro a e b ⟨es', ha⟩ hstep -
    exact ⟨es' ++ [e.1], ha.snoc (Step.server hstep) trivial⟩

theorem rows_applyAll (J : Journal S ρ ν η) (s : S.State) (ws : List S.Write) :
    J.rows (S.applyAll s ws) = J.rows s ++ ws.flatMap J.added := by
  induction ws generalizing s with
  | nil => simp
  | cons w ws ih => rw [Store.applyAll_cons, ih, J.rows_apply, List.flatMap_cons, List.append_assoc]

/-- The entries are the rows of the table, in its order, and no two have one name. -/
structure Listed (J : Journal S ρ ν η) (m : Clocked S ε O α η) : Prop where
  row : m.entries.map J.row = J.rows m.server.committed
  names : (m.entries.map J.name).Nodup

theorem Listed.step (h : Listed J m) (hstep : Step J prog m e m') : Listed J m' := by
  cases hstep with
  | begin _ hserver =>
      have hsame := Server.committed_of_step hserver (by simp)
      exact ⟨h.row.trans (congrArg J.rows hsame.symm), h.names⟩
  | statement _ hserver =>
      have hsame := Server.committed_of_step hserver (by simp)
      exact ⟨h.row.trans (congrArg J.rows hsame.symm), h.names⟩
  | rollback _ hserver =>
      have hsame := Server.committed_of_step hserver (by simp)
      exact ⟨h.row.trans (congrArg J.rows hsame.symm), h.names⟩
  | commit _ ha hserver hnew =>
      refine ⟨?_, hnew.names⟩
      cases hserver with
      | commit ha' _ =>
          rw [ha] at ha'
          cases ha'
          rw [List.map_append, h.row, hnew.row]
          exact (rows_applyAll J _ _).symm

theorem listed_of_reaches (hempty : ∀ s, start s → J.rows s = [])
    (h : (machine J prog start).Reaches guard es m) : Listed J m := by
  refine h.invariant (Listed J) ?_ fun _ _ _ ha hstep _ => ha.step hstep
  rintro m ⟨hserver, hentries⟩
  refine ⟨?_, ?_⟩
  · rw [hentries, hempty _ hserver.1]
    rfl
  · rw [hentries]
    exact List.nodup_nil

/-! ## Entries in turn -/

section Groups

variable {γ : Type} [DecidableEq γ] {group : ρ → γ} {g : γ}

/-- The entries of a group, in the order of the table. -/
def ofGroup (J : Journal S ρ ν η) (group : ρ → γ) (g : γ) (m : Clocked S ε O α η) : List η :=
  m.entries.filter fun entry => group (J.row entry) = g

/-- A commit that adds at most one entry to a group, where the transaction began later than all
that have entries in it. -/
def InTurn (J : Journal S ρ ν η) (group : ρ → γ) (m : Clocked S ε O α η)
    (e : ServerEvent O × Nat) (_ : Clocked S ε O α η) : Prop :=
  ∀ t op a, e.1 = .commit t op → m.server.active t = some a →
    ∀ g, ((added J a).filter fun row => group row = g).length ≤ 1 ∧
      ((∃ row ∈ added J a, group row = g) →
        ∀ entry ∈ ofGroup J group g m, J.createdAt entry < m.startedAt t)

/-- A transaction with one entry, which began later than all that have entries. -/
theorem inTurn_of_single {m'' : Clocked S ε O α η} {t time : Nat} {op : O} {a : Active S ε O α}
    {row : ρ} (ha : m.server.active t = some a) (hadded : added J a = [row])
    (hlater : ∀ entry ∈ m.entries, J.createdAt entry < m.startedAt t) :
    InTurn J group m (.commit t op, time) m'' := by
  rintro t' op' a' he ha' g
  cases he
  rw [ha] at ha'
  cases ha'
  refine ⟨?_, fun _ entry hentry => hlater entry (List.mem_filter.mp hentry).1⟩
  rw [hadded]
  exact List.length_filter_le ..

/-- The stamps of a group rise. -/
def Rising (J : Journal S ρ ν η) (group : ρ → γ) (g : γ) (m : Clocked S ε O α η) : Prop :=
  (ofGroup J group g m).Pairwise fun older newer => J.createdAt older < J.createdAt newer

theorem Rising.congr (h : Rising J group g m) (hentries : m'.entries = m.entries) :
    Rising J group g m' := by
  unfold Rising ofGroup at h ⊢
  rwa [hentries]

theorem ofGroup_append {new : List η} (h : m'.entries = m.entries ++ new) :
    ofGroup J group g m' =
      ofGroup J group g m ++ new.filter fun entry => group (J.row entry) = g := by
  rw [ofGroup, h, List.filter_append, ofGroup]

theorem Rising.step (h : Rising J group g m) (hstep : Step J prog m e m')
    (hturn : InTurn J group m e m') : Rising J group g m' := by
  cases hstep with
  | begin => exact h.congr rfl
  | statement => exact h.congr rfl
  | rollback => exact h.congr rfl
  | @commit t time op a server new _ ha hserver hnew =>
      obtain ⟨hone, hlater⟩ := hturn t op a rfl ha g
      -- The new entries of the group are its new rows.
      have hrows : (new.filter fun entry => group (J.row entry) = g).length =
          ((added J a).filter fun row => group row = g).length := by
        rw [← hnew.row, List.filter_map, List.length_map]
        rfl
      unfold Rising
      rw [ofGroup_append rfl]
      refine List.pairwise_append.mpr ⟨h, ?_, fun older holder newer hnewer => ?_⟩
      · rw [← hrows] at hone
        cases hown : new.filter fun entry => group (J.row entry) = g with
        | nil => exact List.Pairwise.nil
        | cons entry rest =>
            rw [hown, List.length_cons] at hone
            have hrest : rest = [] := List.eq_nil_of_length_eq_zero (by omega)
            rw [hrest]
            exact List.pairwise_singleton _ entry
      · obtain ⟨hmem, hgroup⟩ := List.mem_filter.mp hnewer
        rw [hnew.createdAt newer hmem]
        refine hlater ⟨J.row newer, ?_, of_decide_eq_true hgroup⟩ older holder
        rw [← hnew.row]
        exact List.mem_map_of_mem hmem

/-- **Where every commit is in turn, the stamps of every group rise.** -/
theorem rising_of_reaches (h : (machine J prog start).Reaches (InTurn J group) es m) (g : γ) :
    Rising J group g m := by
  refine h.invariant (Rising J group g) ?_ fun _ _ _ ha hstep hturn => ha.step hstep hturn
  rintro m ⟨-, hentries⟩
  unfold Rising ofGroup
  rw [hentries]
  exact List.Pairwise.nil

end Groups

/-! ## A transaction that is carried through -/

/-- Statements of the server take no time and add no entry. -/
theorem steps_of_statements (hquiet : ∀ a b t time, guard a (.statement t, time) b) {t n : Nat}
    {server server' : Server S ε O α} (hserver : m.server = server)
    (h : Machine.Steps (Server.machine prog start) Machine.anyStep server
      (List.replicate n (.statement t)) server') :
    Machine.Steps (machine J prog start) guard m (List.replicate n (.statement t, m.now))
      { m with server := server' } := by
  subst hserver
  generalize hes : List.replicate n (ServerEvent.statement t : ServerEvent O) = es at h
  induction h generalizing n with
  | refl =>
      have hn : n = 0 := by simpa using congrArg List.length hes
      rw [hn]
      exact .refl
  | @snoc es s' s'' e _ hstep _ ih =>
      cases n with
      | zero => simp at hes
      | succ n =>
          rw [List.replicate_succ', List.append_singleton_inj] at hes
          obtain ⟨rfl, rfl⟩ := hes
          have hone : Step J prog { m with server := s' } (.statement t, m.now)
              { m with server := s'' } := .statement (Nat.le_refl _) hstep
          rw [List.replicate_succ']
          exact (ih rfl).snoc hone (hquiet _ _ _ _)

/-- The rest of a transaction that has begun, and its commit. -/
theorem steps_of_exec (hquiet : ∀ a b t time, guard a (.statement t, time) b) {t : Nat} {op : O}
    {r : α} {s' : S.State} {new : List η}
    (hbegun : m.server.active t = some ⟨op, prog op, [], []⟩)
    (hunlocked : ∀ t' a, t' ≠ t → m.server.active t' = some a → a.locks = [])
    (hexec : (prog op).exec m.server.committed = .ok (r, s'))
    (hrows : J.rows s' = J.rows m.server.committed ++ new.map J.row)
    (hstamped : Stamped J m.entries (new.map J.row) (m.startedAt t) new)
    (hguard : ∀ a b c, b.server.active t = some a → added J a = new.map J.row →
      b.entries = m.entries → b.startedAt = m.startedAt → guard b (.commit t op, m.now) c) :
    ∃ n, Machine.Steps (machine J prog start) guard m
      (List.replicate n (.statement t, m.now) ++ [(.commit t op, m.now)])
      { m with
        server := { m.server with committed := s' }.set t none
        entries := m.entries ++ new } := by
  obtain ⟨n, ws, ks, rfl, hn⟩ := Server.statements_of_body t hunlocked op (prog op) [] [] hexec
  let a : Active S ε O α := ⟨op, .done r, ws, ks⟩
  have hsame : m.server.set t (some ⟨op, prog op, [], []⟩) = m.server := by
    rw [Server.set, ← hbegun, Function.update_eq_self]
  have hactive : (m.server.set t (some a)).active t = some a := by simp
  have hadded : added J a = new.map J.row := by
    rw [rows_applyAll] at hrows
    exact List.append_cancel_left hrows
  have hcommit : Server.Step prog (m.server.set t (some a)) (.commit t op)
      ({ m.server.set t (some a) with
        committed := S.applyAll m.server.committed ws }.set t none) := .commit hactive rfl
  have hend : ({ m.server.set t (some a) with
      committed := S.applyAll m.server.committed ws }.set t none : Server S ε O α) =
      { m.server with committed := S.applyAll m.server.committed ws }.set t none := by
    simp [Server.set]
  rw [hend] at hcommit
  have hlast : Step J prog { m with server := m.server.set t (some a) } (.commit t op, m.now)
      { m with
        server := { m.server with committed := S.applyAll m.server.committed ws }.set t none
        entries := m.entries ++ new } :=
    .commit (Nat.le_refl _) hactive hcommit (hadded ▸ hstamped)
  exact ⟨n, (steps_of_statements hquiet hsame.symm hn).snoc hlast
    (hguard a _ _ hactive hadded rfl rfl)⟩

/-- A transaction that begins and is carried through before anything else happens. -/
theorem steps_of_transaction (hquiet : ∀ a b t time, guard a (.statement t, time) b)
    (hbegin : ∀ a b t op time, guard a (.begin t op, time) b) {t time : Nat} {op : O}
    {r : α} {s' : S.State} {new : List η} (htime : m.now ≤ time)
    (hfree : m.server.active t = none)
    (hunlocked : ∀ t' a, m.server.active t' = some a → a.locks = [])
    (hexec : (prog op).exec m.server.committed = .ok (r, s'))
    (hrows : J.rows s' = J.rows m.server.committed ++ new.map J.row)
    (hstamped : Stamped J m.entries (new.map J.row) time new)
    (hguard : ∀ a b c, b.server.active t = some a → added J a = new.map J.row →
      b.entries = m.entries → b.startedAt = Function.update m.startedAt t time →
      guard b (.commit t op, time) c) :
    ∃ es, Machine.Steps (machine J prog start) guard m es
      { server := { m.server with committed := s' }
        now := time
        startedAt := Function.update m.startedAt t time
        entries := m.entries ++ new } := by
  let begun : Clocked S ε O α η :=
    { m with
      server := m.server.set t (some ⟨op, prog op, [], []⟩)
      now := time
      startedAt := Function.update m.startedAt t time }
  have hfirst : Step J prog m (.begin t op, time) begun := .begin htime (.begin hfree)
  have hsteps : Machine.Steps (machine J prog start) guard m ([] ++ [(.begin t op, time)]) begun :=
    .snoc .refl hfirst (hbegin _ _ _ _ _)
  have hbegun : begun.server.active t = some ⟨op, prog op, [], []⟩ := by simp [begun]
  have hothers : ∀ t' a, t' ≠ t → begun.server.active t' = some a → a.locks = [] := by
    intro t' a hne ha
    rw [Server.set_active, Function.update_of_ne hne] at ha
    exact hunlocked t' a ha
  have hstart : begun.startedAt t = time := Function.update_self ..
  obtain ⟨n, hrest⟩ := steps_of_exec hquiet hbegun hothers hexec hrows
    (hstart ▸ hstamped) hguard
  have hend : ({ begun.server with committed := s' } : Server S ε O α).set t none =
      { m.server with committed := s' } := by
    simp only [begun, Server.set, Function.update_idem, ← hfree, Function.update_eq_self]
  rw [hend] at hrest
  exact ⟨_, hsteps.trans hrest⟩

end Clocked

end Nuvonode.Foundation
