/-
  Foundation/Locking.lean --- interleaved transactions under row locks.

  The server holds one committed state and any number of transactions in
  progress, each with what it still has to run, what it has written and what it
  has locked.  A statement that needs a lock another transaction holds cannot
  happen, so the transaction waits.  A transaction may be rolled back at any
  moment; one whose program failed can only be rolled back.
-/
import Nuvonode.Foundation.Transaction

set_option autoImplicit false

namespace Nuvonode.Foundation

variable {S : Store} {ε O α : Type}

/-- A transaction in progress. -/
structure Active (S : Store) (ε O α : Type) where
  /-- The operation it runs. -/
  op : O
  /-- What is still to run. -/
  body : Tx S ε α
  /-- What it has written, in order. -/
  writes : List S.Write
  /-- What it has locked. -/
  locks : List S.Key

/-- The transaction's own view: the committed state under its own writes. -/
def Active.view (a : Active S ε O α) (s : S.State) : S.State := S.applyAll s a.writes

/-- The committed state and the transactions in progress. -/
structure Server (S : Store) (ε O α : Type) where
  committed : S.State
  active : Nat → Option (Active S ε O α)

/-- What can happen next. -/
inductive ServerEvent (O : Type) where
  | begin (t : Nat) (op : O)
  | statement (t : Nat)
  | commit (t : Nat) (op : O)
  | rollback (t : Nat)

namespace Server

/-- Replace the transaction in slot `t`. -/
def set (m : Server S ε O α) (t : Nat) (a : Option (Active S ε O α)) : Server S ε O α :=
  { m with active := Function.update m.active t a }

@[simp] theorem set_committed (m : Server S ε O α) (t : Nat) (a : Option (Active S ε O α)) :
    (m.set t a).committed = m.committed := rfl

@[simp] theorem set_active (m : Server S ε O α) (t : Nat) (a : Option (Active S ε O α)) :
    (m.set t a).active = Function.update m.active t a := rfl

/-- A slot of a server is the one that was replaced, or as it was. -/
theorem active_set_cases {m : Server S ε O α} {t t' : Nat} {a b : Option (Active S ε O α)}
    (h : (m.set t a).active t' = b) : t' = t ∧ a = b ∨ t' ≠ t ∧ m.active t' = b := by
  by_cases ht : t' = t
  · subst ht
    exact .inl ⟨rfl, by simpa using h⟩
  · exact .inr ⟨ht, by simpa [Function.update_of_ne ht] using h⟩

/-- No other transaction holds any of the keys. -/
def Free (m : Server S ε O α) (t : Nat) (ks : List S.Key) : Prop :=
  ∀ t' a, t' ≠ t → m.active t' = some a → ∀ k ∈ ks, k ∉ a.locks

/-- One event. -/
inductive Step (prog : O → Tx S ε α) :
    Server S ε O α → ServerEvent O → Server S ε O α → Prop where
  | begin {m : Server S ε O α} {t : Nat} {op : O} : m.active t = none →
      Step prog m (.begin t op) (m.set t (some ⟨op, prog op, [], []⟩))
  | read {m : Server S ε O α} {t : Nat} {a : Active S ε O α} {next : S.State → Tx S ε α} :
      m.active t = some a → a.body = .read next →
      Step prog m (.statement t)
        (m.set t (some { a with body := next (a.view m.committed) }))
  | lock {m : Server S ε O α} {t : Nat} {a : Active S ε O α} {k : S.Key}
      {next : S.Row k → Tx S ε α} :
      m.active t = some a → a.body = .lock k next → m.Free t [k] →
      Step prog m (.statement t)
        (m.set t (some { a with
          body := next (S.get (a.view m.committed) k), locks := a.locks ++ [k] }))
  | write {m : Server S ε O α} {t : Nat} {a : Active S ε O α} {w : S.Write}
      {next : Tx S ε α} :
      m.active t = some a → a.body = .write w next → m.Free t (S.touches w) →
      Step prog m (.statement t)
        (m.set t (some { a with
          body := next, writes := a.writes ++ [w], locks := a.locks ++ S.touches w }))
  | commit {m : Server S ε O α} {t : Nat} {a : Active S ε O α} {r : α} :
      m.active t = some a → a.body = .done r →
      Step prog m (.commit t a.op)
        ({ m with committed := S.applyAll m.committed a.writes }.set t none)
  | rollback {m : Server S ε O α} {t : Nat} {a : Active S ε O α} :
      m.active t = some a → Step prog m (.rollback t) (m.set t none)

/-- The server that runs the programs `prog`, from committed states `start` with
nothing in progress. -/
def machine (prog : O → Tx S ε α) (start : S.State → Prop) :
    Machine (Server S ε O α) (ServerEvent O) where
  start m := start m.committed ∧ ∀ t, m.active t = none
  step := Step prog

variable {prog : O → Tx S ε α} {start : S.State → Prop}
  {guard : Server S ε O α → ServerEvent O → Server S ε O α → Prop}

/-- A state that is committed at some moment of some run. -/
def Seen (prog : O → Tx S ε α) (start : S.State → Prop)
    (guard : Server S ε O α → ServerEvent O → Server S ε O α → Prop) (s : S.State) : Prop :=
  ∃ es m, (machine prog start).Reaches guard es m ∧ m.committed = s

/-! ## Only a commit changes the committed state -/

theorem committed_of_step {m m' : Server S ε O α} {e : ServerEvent O}
    (h : Step prog m e m') (hcommit : ∀ t op, e ≠ .commit t op) :
    m'.committed = m.committed := by
  cases h with
  | commit _ _ => exact absurd rfl (hcommit _ _)
  | _ => rfl

/-- A transaction whose program failed never commits. -/
theorem no_commit_of_fail {m m' : Server S ε O α} {t : Nat} {op : O} {a : Active S ε O α}
    {e : ε} (ha : m.active t = some a) (hfail : a.body = .fail e) :
    ¬ Step prog m (.commit t op) m' := by
  intro h
  cases h with
  | commit ha' hdone =>
      rw [ha] at ha'
      cases ha'
      rw [hfail] at hdone
      cases hdone

/-! ## The locking invariant -/

/-- Every transaction is in the middle of its program, run against the committed
state of the moment, and no two transactions hold a lock on one key. -/
structure Sound (seen : S.State → Prop) (prog : O → Tx S ε α) (m : Server S ε O α) :
    Prop where
  progress : ∀ t a, m.active t = some a →
    Tx.Partial seen m.committed (prog a.op) [] a.body a.writes a.locks
  exclusive : ∀ t t' a a', t ≠ t' → m.active t = some a → m.active t' = some a' →
    ∀ k ∈ a.locks, k ∉ a'.locks

/-- Replacing one transaction by one that has made progress under free locks keeps
the invariant. -/
theorem Sound.set_some {seen : S.State → Prop} {m : Server S ε O α} (h : Sound seen prog m)
    {t : Nat} {a : Active S ε O α}
    (hprogress : Tx.Partial seen m.committed (prog a.op) [] a.body a.writes a.locks)
    (hfree : m.Free t a.locks) : Sound seen prog (m.set t (some a)) where
  progress := by
    intro t' a' ha'
    by_cases ht : t' = t
    · subst ht
      simp only [set_active, Function.update_self, Option.some.injEq] at ha'
      subst ha'
      exact hprogress
    · rw [set_active, Function.update_of_ne ht] at ha'
      exact h.progress t' a' ha'
  exclusive := by
    intro t₁ t₂ a₁ a₂ hne h₁ h₂ k hk
    rw [set_active] at h₁ h₂
    by_cases ht₁ : t₁ = t
    · subst ht₁
      rw [Function.update_of_ne (Ne.symm hne)] at h₂
      rw [Function.update_self, Option.some.injEq] at h₁
      subst h₁
      exact hfree t₂ a₂ (Ne.symm hne) h₂ k hk
    · rw [Function.update_of_ne ht₁] at h₁
      by_cases ht₂ : t₂ = t
      · subst ht₂
        rw [Function.update_self, Option.some.injEq] at h₂
        subst h₂
        exact fun hk' => hfree t₁ a₁ hne h₁ k hk' hk
      · rw [Function.update_of_ne ht₂] at h₂
        exact h.exclusive t₁ t₂ a₁ a₂ hne h₁ h₂ k hk

/-- Removing a transaction keeps the invariant when every other transaction still
finds its locked rows as they were. -/
theorem Sound.set_none {seen : S.State → Prop} {m : Server S ε O α} (h : Sound seen prog m)
    {t : Nat} {s : S.State}
    (hagree : ∀ t' a', t' ≠ t → m.active t' = some a' →
      ∀ k ∈ a'.locks, S.get m.committed k = S.get s k) :
    Sound seen prog ({ m with committed := s }.set t none) where
  progress := by
    intro t' a' ha'
    by_cases ht : t' = t
    · subst ht
      simp [set] at ha'
    · simp only [set, Function.update_of_ne ht] at ha'
      exact (h.progress t' a' ha').transfer (hagree t' a' ht ha')
  exclusive := by
    intro t₁ t₂ a₁ a₂ hne h₁ h₂
    by_cases ht₁ : t₁ = t
    · subst ht₁
      simp [set] at h₁
    · by_cases ht₂ : t₂ = t
      · subst ht₂
        simp [set] at h₂
      · simp only [set, Function.update_of_ne ht₁] at h₁
        simp only [set, Function.update_of_ne ht₂] at h₂
        exact h.exclusive t₁ t₂ a₁ a₂ hne h₁ h₂

/-- Every event keeps the invariant. -/
theorem Sound.step {seen : S.State → Prop} {m m' : Server S ε O α} {e : ServerEvent O}
    (h : Sound seen prog m) (hseen : seen m.committed) (hstep : Step prog m e m') :
    Sound seen prog m' := by
  -- The keys a transaction already holds are free for it.
  have hheld : ∀ t a, m.active t = some a → m.Free t a.locks :=
    fun t a ha t' a' ht' ha' k hk => h.exclusive t t' a a' (Ne.symm ht') ha ha' k hk
  cases hstep with
  | begin hfree => exact h.set_some .refl fun _ _ _ _ _ hk => by simp at hk
  | @read t a next ha hbody =>
      refine h.set_some ?_ (hheld t a ha)
      have hp := h.progress t a ha
      rw [hbody] at hp
      simpa [Active.view] using hp.trans (.read hseen .refl)
  | @lock t a k next ha hbody hfree =>
      refine h.set_some ?_ ?_
      · have hp := h.progress t a ha
        rw [hbody] at hp
        exact hp.trans (.lock .refl)
      · intro t' a' ht' ha' k' hk'
        rcases List.mem_append.mp hk' with hold | hnew
        · exact hheld t a ha t' a' ht' ha' k' hold
        · exact hfree t' a' ht' ha' k' hnew
  | @write t a w next ha hbody hfree =>
      refine h.set_some ?_ ?_
      · have hp := h.progress t a ha
        rw [hbody] at hp
        simpa using hp.trans (.write .refl)
      · intro t' a' ht' ha' k' hk'
        rcases List.mem_append.mp hk' with hold | hnew
        · exact hheld t a ha t' a' ht' ha' k' hold
        · exact hfree t' a' ht' ha' k' hnew
  | @commit t a r ha hbody =>
      refine h.set_none fun t' a' ht' ha' k hk => ?_
      refine (S.get_applyAll_of_not_mem fun w hw hkw => ?_).symm
      have hlocked : k ∈ a.locks := by
        rcases (h.progress t a ha).touches_subset w hw with hnil | hks
        · simp at hnil
        · exact hks k hkw
      exact h.exclusive t t' a a' (Ne.symm ht') ha ha' k hlocked hk
  | rollback _ => exact h.set_none fun _ _ _ _ _ _ => rfl

/-- The invariant holds throughout every run. -/
theorem sound_of_reaches {m : Server S ε O α} {es : List (ServerEvent O)}
    (h : (machine prog start).Reaches guard es m) :
    Sound (Seen prog start guard) prog m := by
  have hboth : ((machine prog start).Reaches guard es m) ∧
      Sound (Seen prog start guard) prog m := by
    refine h.invariant_trace
      (fun es m => (machine prog start).Reaches guard es m ∧ Sound (Seen prog start guard) prog m)
      ?_ ?_
    · intro a ha
      exact ⟨.start ha, fun t b hb => by simp [ha.2 t] at hb,
        fun t _ b _ _ hb => by simp [ha.2 t] at hb⟩
    · rintro es a e b ⟨hreach, hsound⟩ hstep hguard
      exact ⟨hreach.snoc hstep hguard, hsound.step ⟨es, a, hreach, rfl⟩ hstep⟩
  exact hboth.2

/-! ## Transactions are atomic -/

/-- A commit performs the writes of a run of its program against the state that was
committed at that moment. -/
theorem commit_atomic {m m' : Server S ε O α} {es : List (ServerEvent O)} {t : Nat} {op : O}
    (h : (machine prog start).Reaches guard es m) (hstep : Step prog m (.commit t op) m') :
    ∃ r ws, Tx.Yields (Seen prog start guard) m.committed (prog op) [] r ws ∧
      m'.committed = S.applyAll m.committed ws := by
  cases hstep with
  | @commit _ a r ha hbody =>
      have hp := (sound_of_reaches h).progress t a ha
      rw [hbody] at hp
      exact ⟨r, a.writes, hp.yields ⟨rfl, rfl⟩, rfl⟩

/-- The invariant rule for committed states: it is enough that every program keeps
the invariant when nothing interferes, whatever its unlocked reads return. -/
theorem committed_invariant {m : Server S ε O α} {es : List (ServerEvent O)}
    (h : (machine prog start).Reaches guard es m) (I : S.State → Prop)
    (hstart : ∀ s, start s → I s)
    (hprog : ∀ op s r ws, I s →
      Tx.Yields (Seen prog start guard) s (prog op) [] r ws → I (S.applyAll s ws)) :
    I m.committed := by
  have hboth : ((machine prog start).Reaches guard es m) ∧ I m.committed := by
    refine h.invariant_trace
      (fun es m => (machine prog start).Reaches guard es m ∧ I m.committed) ?_ ?_
    · exact fun a ha => ⟨.start ha, hstart _ ha.1⟩
    · rintro es a e b ⟨hreach, hI⟩ hstep hguard
      refine ⟨hreach.snoc hstep hguard, ?_⟩
      cases e with
      | commit t op =>
          obtain ⟨r, ws, hyields, hcommitted⟩ := commit_atomic hreach hstep
          rw [hcommitted]
          exact hprog op _ r ws hI hyields
      | _ =>
          rw [committed_of_step hstep (by simp)]
          exact hI
  exact hboth.2

/-! ## A transaction that runs alone -/

theorem set_set (m : Server S ε O α) (t : Nat) (a b : Option (Active S ε O α)) :
    (m.set t a).set t b = m.set t b := by
  simp [set]

theorem set_none_of_idle (m : Server S ε O α) {t : Nat} (h : m.active t = none) :
    m.set t none = m := by
  rw [set, ← h, Function.update_eq_self]

/-- The statements that are left, while no other transaction has locked anything. -/
theorem statements_of_body {m : Server S ε O α} (t : Nat)
    (hunlocked : ∀ t' a, t' ≠ t → m.active t' = some a → a.locks = []) (op : O)
    (p : Tx S ε α) (ws : List S.Write) (ks : List S.Key) {r : α} {s' : S.State}
    (h : p.exec (S.applyAll m.committed ws) = .ok (r, s')) :
    ∃ n ws' ks', S.applyAll m.committed ws' = s' ∧
      Machine.Steps (machine prog start) Machine.anyStep (m.set t (some ⟨op, p, ws, ks⟩))
        (List.replicate n (.statement t)) (m.set t (some ⟨op, .done r, ws', ks'⟩)) := by
  have hactive : ∀ a, (m.set t (some a)).active t = some a := fun a => by simp
  have hfree : ∀ a keys, (m.set t (some a)).Free t keys := by
    intro a keys t' a' ht' ha' k _ hk
    rw [set_active, Function.update_of_ne ht'] at ha'
    rw [hunlocked t' a' ht' ha'] at hk
    exact List.not_mem_nil hk
  -- One statement, and then what the rest of the body does.
  have hstatement : ∀ a b n m', Step prog (m.set t (some a)) (.statement t)
      ((m.set t (some a)).set t (some b)) →
      Machine.Steps (machine prog start) Machine.anyStep (m.set t (some b))
        (List.replicate n (.statement t)) m' →
      Machine.Steps (machine prog start) Machine.anyStep (m.set t (some a))
        (List.replicate (n + 1) (.statement t)) m' := by
    intro a b n m' hstep hrest
    rw [set_set] at hstep
    have hfirst : Machine.Steps (machine prog start) Machine.anyStep (m.set t (some a))
        ([] ++ [.statement t]) (m.set t (some b)) := .snoc .refl hstep trivial
    exact hfirst.trans hrest
  induction p generalizing ws ks with
  | done a =>
      cases h
      exact ⟨0, ws, ks, rfl, .refl⟩
  | fail e => cases h
  | read next ih =>
      obtain ⟨n, ws', ks', hws', hn⟩ := ih (S.applyAll m.committed ws) ws ks h
      exact ⟨n + 1, ws', ks', hws', hstatement _ _ n _ (.read (hactive _) rfl) hn⟩
  | lock k next ih =>
      obtain ⟨n, ws', ks', hws', hn⟩ :=
        ih (S.get (S.applyAll m.committed ws) k) ws (ks ++ [k]) h
      exact ⟨n + 1, ws', ks', hws', hstatement _ _ n _ (.lock (hactive _) rfl (hfree _ _)) hn⟩
  | write w next ih =>
      have h' : next.exec (S.applyAll m.committed (ws ++ [w])) = .ok (r, s') := by
        simpa [Tx.exec] using h
      obtain ⟨n, ws', ks', hws', hn⟩ := ih (ws ++ [w]) (ks ++ S.touches w) h'
      exact ⟨n + 1, ws', ks', hws', hstatement _ _ n _ (.write (hactive _) rfl (hfree _ _)) hn⟩

/-- The statements that are left, and then the commit. -/
theorem steps_of_body {m : Server S ε O α} (t : Nat)
    (hunlocked : ∀ t' a, t' ≠ t → m.active t' = some a → a.locks = []) (op : O)
    (p : Tx S ε α) (ws : List S.Write) (ks : List S.Key) {r : α} {s' : S.State}
    (h : p.exec (S.applyAll m.committed ws) = .ok (r, s')) :
    ∃ n, Machine.Steps (machine prog start) Machine.anyStep (m.set t (some ⟨op, p, ws, ks⟩))
      (List.replicate n (.statement t) ++ [.commit t op])
      ({ m with committed := s' }.set t none) := by
  obtain ⟨n, ws', ks', rfl, hn⟩ := statements_of_body t hunlocked op p ws ks h
  have hactive : (m.set t (some ⟨op, .done r, ws', ks'⟩)).active t =
      some ⟨op, .done r, ws', ks'⟩ := by simp
  have hcommit : Step prog (m.set t (some ⟨op, .done r, ws', ks'⟩)) (.commit t op) _ :=
    .commit hactive rfl
  have hend : ({ m.set t (some ⟨op, .done r, ws', ks'⟩) with
      committed := S.applyAll m.committed ws' }.set t none : Server S ε O α) =
      { m with committed := S.applyAll m.committed ws' }.set t none := by
    simp [set]
  exact ⟨n, hn.snoc (hend ▸ hcommit) trivial⟩

/-- What a transaction does when run alone is what it does on a server on which nothing
else is in progress. -/
theorem steps_of_exec {m : Server S ε O α} (hidle : ∀ t, m.active t = none) (t : Nat) (op : O)
    {r : α} {s' : S.State} (h : (prog op).exec m.committed = .ok (r, s')) :
    ∃ n, Machine.Steps (machine prog start) Machine.anyStep m
      (.begin t op :: (List.replicate n (.statement t) ++ [.commit t op]))
      { m with committed := s' } := by
  have hunlocked : ∀ t' a, t' ≠ t → m.active t' = some a → a.locks = [] := by
    intro t' a _ ha
    rw [hidle t'] at ha
    cases ha
  obtain ⟨n, hn⟩ := steps_of_body t hunlocked op (prog op) [] [] h
  have hend : ({ m with committed := s' } : Server S ε O α).set t none =
      { m with committed := s' } := set_none_of_idle _ (hidle t)
  rw [hend] at hn
  refine ⟨n, ?_⟩
  have hbegin : Machine.Steps (machine prog start) Machine.anyStep m ([] ++ [.begin t op])
      (m.set t (some ⟨op, prog op, [], []⟩)) := .snoc .refl (.begin (hidle t)) trivial
  simpa using hbegin.trans hn

/-- A transaction begins and makes its first statement, a read. -/
theorem steps_of_read {m : Server S ε O α} {t : Nat} {op : O} {next : S.State → Tx S ε α}
    (hfree : m.active t = none) (hprog : prog op = .read next) :
    Machine.Steps (machine prog start) Machine.anyStep m [.begin t op, .statement t]
      (m.set t (some ⟨op, next m.committed, [], []⟩)) := by
  have hbegin : Machine.Steps (machine prog start) Machine.anyStep m ([] ++ [.begin t op])
      (m.set t (some ⟨op, prog op, [], []⟩)) := .snoc .refl (.begin hfree) trivial
  have hactive : (m.set t (some ⟨op, prog op, [], []⟩)).active t =
      some ⟨op, prog op, [], []⟩ := by simp
  have hread : Step prog _ (.statement t) _ := Step.read hactive hprog
  rw [set_set] at hread
  exact hbegin.snoc hread trivial

end Server

end Nuvonode.Foundation
